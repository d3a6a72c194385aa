import VhdlStyle.Digest.Sha256
import VhdlStyle.Settings.Encode

/-! # Digests of what decides the output

Parts are hashed together with their lengths, so that the hashed bytes determine the parts. The
digest of the settings covers the release too, and the key of an input covers both and the bytes of
the input. -/

namespace VhdlStyle.Digest

/-- A number as eight bytes, the lowest first. -/
def littleEndian (n : Nat) : Bytes :=
  (List.range 8).map fun i => UInt8.ofNat (n / Nat.pow 256 i % 256)

/-- The parts, each after its length. -/
def framed (parts : List Bytes) : Bytes :=
  parts.flatMap fun p => littleEndian p.length ++ p

/-- The hash of a list of parts. -/
def combine (parts : List Bytes) : Bytes := Sha256.hash (framed parts)

/-- The digest of a release and settings. -/
def ofSettings (release : Bytes) (s : Settings) : Bytes := combine [release, s.encode]

/-- The key of an input under a digest of settings. -/
def ofInput (settings content : Bytes) : Bytes := combine [settings, content]

end VhdlStyle.Digest
