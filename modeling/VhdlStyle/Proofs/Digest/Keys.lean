import Mathlib.Algebra.GroupWithZero.Nat
import VhdlStyle.Digest.Key
import VhdlStyle.Proofs.Settings.Encoded

/-! # Keys tell inputs apart

The length in front of a part says where the part ends, so the hashed bytes determine the parts,
whatever bytes the parts are made of. Through the two digests of a key this reaches the release,
the settings and the input, as long as the hash does not send the two hashed texts to one value. -/

namespace VhdlStyle

/-! ## Lengths of hashes -/

namespace Sha256

variable {state : List UInt32}

theorem length_mix (constant word : UInt32) (h : state.length = 8) :
    (mix state constant word).length = 8 := by
  fun_cases mix
  · rfl
  · exact h

theorem length_compress (block : Bytes) (h : state.length = 8) :
    (compress state block).length = 8 := by
  have hmixed (rounds : List (UInt32 × UInt32)) :
      (rounds.foldl (fun s p => mix s p.1 p.2) state).length = 8 := by
    induction rounds generalizing state with
    | nil => exact h
    | cons p rounds ih => exact ih (length_mix p.1 p.2 h)
  simp [compress, hmixed, h]

theorem length_foldl_compress (texts : List Bytes) (h : state.length = 8) :
    (texts.foldl compress state).length = 8 := by
  induction texts generalizing state with
  | nil => exact h
  | cons text texts ih => exact ih (length_compress text h)

theorem length_hash (message : Bytes) : (hash message).length = 32 := by
  have hstate := length_foldl_compress (blocks (pad message).length (pad message))
    (show initial.length = 8 from rfl)
  simp [hash, List.length_flatMap, wordBytes, hstate]

/-- The two messages do not collide: they have one hash only if they are the same. -/
def Separates (message message' : Bytes) : Prop := hash message = hash message' → message = message'

instance (message message' : Bytes) : Decidable (Separates message message') :=
  inferInstanceAs (Decidable (_ → _))

end Sha256

/-! ## Framed parts -/

namespace Digest

variable {n m k : Nat} {part part' x y : Bytes} {parts parts' : List Bytes}

theorem length_littleEndian (n : Nat) : (littleEndian n).length = 8 := by
  simp [littleEndian]

/-- The low digits determine a number up to a power of the base. -/
theorem mod_pow_eq_of_digits (h : ∀ i < k, n / Nat.pow 256 i % 256 = m / Nat.pow 256 i % 256) :
    n % 256 ^ k = m % 256 ^ k := by
  induction k with
  | zero => simp [Nat.mod_one]
  | succ k ih =>
      have hlow := ih fun i hi => h i (Nat.lt_succ_of_lt hi)
      have hdigit : n / 256 ^ k % 256 = m / 256 ^ k % 256 := h k (Nat.lt_succ_self k)
      rw [Nat.mod_pow_succ, Nat.mod_pow_succ, hlow, hdigit]

/-- Eight bytes hold every number below 2 ^ 64. -/
theorem littleEndian_inj (hn : n < 2 ^ 64) (hm : m < 2 ^ 64) (h : littleEndian n = littleEndian m) :
    n = m := by
  have hdigits : ∀ i < 8, n / Nat.pow 256 i % 256 = m / Nat.pow 256 i % 256 := by
    intro i hi
    have hbyte := List.map_inj_left.mp h i (List.mem_range.mpr hi)
    have hvalue := congrArg UInt8.toNat hbyte
    simpa using hvalue
  have hmod := mod_pow_eq_of_digits hdigits
  rw [show 256 ^ 8 = 2 ^ 64 by decide, Nat.mod_eq_of_lt hn, Nat.mod_eq_of_lt hm] at hmod
  exact hmod

theorem framed_cons (part : Bytes) (parts : List Bytes) :
    framed (part :: parts) = littleEndian part.length ++ (part ++ framed parts) := by
  rw [framed, List.flatMap_cons, List.append_assoc, framed]

/-- The first part can be told from the parts behind it. -/
theorem framed_cons_inj (hpart : part.length < 2 ^ 64) (hpart' : part'.length < 2 ^ 64)
    (h : framed (part :: parts) = framed (part' :: parts')) :
    part = part' ∧ framed parts = framed parts' := by
  rw [framed_cons, framed_cons] at h
  obtain ⟨hlength, hrest⟩ := List.append_inj h (by simp [length_littleEndian])
  exact List.append_inj hrest (littleEndian_inj hpart hpart' hlength)

/-- The last part is what is left, however long it is. -/
theorem framed_singleton_inj (h : framed [part] = framed [part']) : part = part' := by
  have hnil : framed [] = [] := rfl
  rw [framed_cons, framed_cons, hnil, List.append_nil, List.append_nil] at h
  exact (List.append_inj h (by simp [length_littleEndian])).2

theorem framed_cons_ne_nil (part : Bytes) (parts : List Bytes) : framed (part :: parts) ≠ [] := by
  rw [framed_cons]
  intro h
  have hlength := congrArg List.length h
  simp [length_littleEndian] at hlength

/-- Framing determines the parts. -/
theorem framed_inj (hparts : ∀ p ∈ parts, p.length < 2 ^ 64)
    (hparts' : ∀ p ∈ parts', p.length < 2 ^ 64) (h : framed parts = framed parts') :
    parts = parts' := by
  induction parts generalizing parts' with
  | nil =>
      cases parts' with
      | nil => rfl
      | cons part' parts' => exact absurd h.symm (framed_cons_ne_nil part' parts')
  | cons part parts ih =>
      cases parts' with
      | nil => exact absurd h (framed_cons_ne_nil part parts)
      | cons part' parts' =>
          rw [List.forall_mem_cons] at hparts hparts'
          obtain ⟨rfl, hrest⟩ := framed_cons_inj hparts.1 hparts'.1 h
          rw [ih hparts.2 hparts'.2 hrest]

/-- A key of two parts determines both, if the texts hashed do not collide. -/
theorem combine_pair_inj (hpart : part.length < 2 ^ 64) (hpart' : part'.length < 2 ^ 64)
    (hhash : Sha256.Separates (framed [part, x]) (framed [part', y]))
    (h : combine [part, x] = combine [part', y]) : part = part' ∧ x = y := by
  obtain ⟨hfirst, hrest⟩ := framed_cons_inj hpart hpart' (hhash h)
  exact ⟨hfirst, framed_singleton_inj hrest⟩

theorem length_ofSettings (release : Bytes) (s : Settings) :
    (ofSettings release s).length < 2 ^ 64 := by
  rw [ofSettings, combine, Sha256.length_hash]
  decide

/-- The keys of two inputs are the same only for the same release, settings and bytes, if the texts
hashed do not collide. -/
theorem ofInput_inj {release release' content content' : Bytes} {s s' : Settings}
    (hrelease : release.length < 2 ^ 64) (hrelease' : release'.length < 2 ^ 64)
    (hsettings : Sha256.Separates (framed [release, s.encode]) (framed [release', s'.encode]))
    (hinput : Sha256.Separates (framed [ofSettings release s, content])
      (framed [ofSettings release' s', content']))
    (h : ofInput (ofSettings release s) content = ofInput (ofSettings release' s') content') :
    release = release' ∧ s = s' ∧ content = content' := by
  obtain ⟨hdigest, hcontent⟩ :=
    combine_pair_inj (length_ofSettings _ _) (length_ofSettings _ _) hinput h
  obtain ⟨hsame, hencode⟩ := combine_pair_inj hrelease hrelease' hsettings hdigest
  exact ⟨hsame, Settings.encode_injective hencode, hcontent⟩

end Digest

open Digest Sha256 in
/-- Framing tells lists of parts apart, and the keys of inputs are the same only for the same
release, settings and bytes, unless two of the texts that are hashed for them collide. -/
theorem keys_tell_inputs_apart :
    (∀ parts parts' : List Bytes, (∀ p ∈ parts, p.length < 2 ^ 64) →
      (∀ p ∈ parts', p.length < 2 ^ 64) → (framed parts = framed parts' ↔ parts = parts')) ∧
    ∀ (release release' : Bytes) (s s' : Settings) (content content' : Bytes),
      release.length < 2 ^ 64 → release'.length < 2 ^ 64 →
      Separates (framed [release, s.encode]) (framed [release', s'.encode]) →
      Separates (framed [ofSettings release s, content])
        (framed [ofSettings release' s', content']) →
      (ofInput (ofSettings release s) content = ofInput (ofSettings release' s') content' ↔
        release = release' ∧ s = s' ∧ content = content') := by
  constructor
  · intro parts parts' hparts hparts'
    exact ⟨framed_inj hparts hparts', congrArg framed⟩
  · intro release release' s s' content content' hrelease hrelease' hsettings hinput
    constructor
    · exact ofInput_inj hrelease hrelease' hsettings hinput
    · rintro ⟨rfl, rfl, rfl⟩
      rfl

open Digest in
/-- The boundary between two parts shows in the framed text, and the line ends of an input in its
key. -/
theorem keys_tell_line_ends_apart :
    framed ["ab", "c"] ≠ framed ["a", "bc"] ∧
      ofInput (ofSettings "0.1.0" {}) "a\n" ≠ ofInput (ofSettings "0.1.0" {}) "a\r\n" := by
  constructor
  · rw [Ne, keys_tell_inputs_apart.1 ["ab", "c"] ["a", "bc"] (by decide) (by decide)]
    decide
  · rw [Ne, keys_tell_inputs_apart.2 "0.1.0" "0.1.0" {} {} "a\n" "a\r\n" (by decide) (by decide)
      (fun _ => rfl) (by decide +kernel)]
    decide

end VhdlStyle
