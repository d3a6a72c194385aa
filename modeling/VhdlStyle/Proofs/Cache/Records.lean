import VhdlStyle.Cache
import VhdlStyle.Proofs.Disk.Paths

/-! # The records of a cache

Records of different keys are at different places: the name of a record is the last name on the way
to it, and it spells the key. Storing a record therefore changes no other record. -/

namespace VhdlStyle

/-! ## Keys as names -/

namespace Bytes

theorem hexDigit_injective {m n : UInt8} (hm : m < 16) (hn : n < 16) (h : hexDigit m = hexDigit n) :
    m = n := by
  unfold hexDigit at h
  grind

theorem hexDigit_ne_slash {n : UInt8} (hn : n < 16) : hexDigit n ≠ ('/' : UInt8) := by
  have hslash : ('/' : UInt8) = 47 := rfl
  unfold hexDigit
  grind

theorem toHex_cons (b : UInt8) (s : Bytes) :
    toHex (b :: s) = hexDigit (b / 16) :: hexDigit (b % 16) :: toHex s := rfl

theorem high_lt (b : UInt8) : b / 16 < 16 := by
  rw [UInt8.lt_iff_toNat_lt, UInt8.toNat_div]
  have := b.toNat_lt
  simp
  omega

theorem low_lt (b : UInt8) : b % 16 < 16 := by
  rw [UInt8.lt_iff_toNat_lt, UInt8.toNat_mod]
  exact Nat.mod_lt _ (by decide)

/-- A byte is its two digits. -/
theorem eq_of_hexDigits {a b : UInt8} (hhigh : hexDigit (a / 16) = hexDigit (b / 16))
    (hlow : hexDigit (a % 16) = hexDigit (b % 16)) : a = b := by
  have hdiv := congrArg UInt8.toNat (hexDigit_injective (high_lt a) (high_lt b) hhigh)
  have hmod := congrArg UInt8.toNat (hexDigit_injective (low_lt a) (low_lt b) hlow)
  rw [UInt8.toNat_div, UInt8.toNat_div] at hdiv
  rw [UInt8.toNat_mod, UInt8.toNat_mod] at hmod
  refine UInt8.toNat_inj.mp ?_
  rw [← Nat.div_add_mod a.toNat (UInt8.toNat 16), hdiv, hmod, Nat.div_add_mod]

theorem toHex_injective {s t : Bytes} (h : toHex s = toHex t) : s = t := by
  induction s generalizing t with
  | nil =>
      cases t with
      | nil => rfl
      | cons b t => cases h
  | cons a s ih =>
      cases t with
      | nil => cases h
      | cons b t =>
          rw [toHex_cons, toHex_cons] at h
          injection h with hhigh hrest
          injection hrest with hlow hrest
          rw [eq_of_hexDigits hhigh hlow, ih hrest]

theorem slash_not_mem_toHex (s : Bytes) : ('/' : UInt8) ∉ toHex s := by
  induction s with
  | nil => exact List.not_mem_nil
  | cons b s ih =>
      rw [toHex_cons, List.mem_cons, List.mem_cons]
      rintro (hhigh | hlow | hrest)
      · exact hexDigit_ne_slash (high_lt b) hhigh.symm
      · exact hexDigit_ne_slash (low_lt b) hlow.symm
      · exact ih hrest

end Bytes

/-! ## Records -/

namespace Cache

/-- The name of a record. -/
def recordName (key : Bytes) : Bytes := Bytes.toHex key ++ Bytes.ofString ".mp"

theorem ordinary_recordName (key : Bytes) : Path.Ordinary (recordName key) := by
  have hlength : (recordName key).length = (Bytes.toHex key).length + 3 := by
    rw [recordName, List.length_append]
    rfl
  refine ⟨?_, ?_, ?_, ?_⟩
  · intro hnil
    simp [hnil] at hlength
  · intro hhere
    rw [hhere] at hlength
    have hone : (Bytes.ofString ".").length = 1 := rfl
    omega
  · intro habove
    rw [habove] at hlength
    have htwo : (Bytes.ofString "..").length = 2 := rfl
    omega
  · rw [recordName, List.mem_append]
    rintro (hkey | hsuffix)
    · exact Bytes.slash_not_mem_toHex key hkey
    · exact absurd hsuffix (by decide)

/-- The place of a record has the name of the record. -/
theorem aim_recordPath (c : Cache) (d : Disk) (key : Bytes) :
    ∃ folder, d.aim (c.recordPath key) = folder ++ [recordName key] :=
  d.aim_of_endsIn (Path.endsIn_pathJoin (ordinary_recordName key)
    [c.folder, "files", (Bytes.toHex key).take 2]) (ordinary_recordName key)

/-- Records of different keys are at different places. -/
theorem key_of_aim {c : Cache} {d : Disk} {key key' : Bytes}
    (h : d.aim (c.recordPath key) = d.aim (c.recordPath key')) : key = key' := by
  obtain ⟨folder, hfolder⟩ := c.aim_recordPath d key
  obtain ⟨folder', hfolder'⟩ := c.aim_recordPath d key'
  rw [hfolder, hfolder'] at h
  obtain ⟨-, hname⟩ := List.append_inj' h rfl
  rw [List.singleton_inj, recordName, recordName] at hname
  exact Bytes.toHex_injective (List.append_cancel_right hname)

/-- Storing a record changes the file at its place alone. -/
theorem grew_of_put {c : Cache} {d d' : Disk} {key : Bytes} {r : CacheRecord}
    (h : c.put d key r = .ok d') :
    Disk.Grew (fun l _ => l = d.aim (c.recordPath key)) d d' := by
  unfold put at h
  cases hfolders : d.makeFolders (Path.dir (c.recordPath key)) with
  | error fault => simp [hfolders, bind, Except.bind] at h
  | ok made =>
      have hmade := Disk.grew_of_makeFolders hfolders
      have hwrite : made.write (c.recordPath key) r.encode = .ok d' := by
        simpa [hfolders, bind, Except.bind] using h
      refine (hmade.mono fun _ _ => False.elim).trans ((Disk.grew_of_write hwrite).mono ?_)
      rintro l content ⟨rfl, -⟩
      exact hmade.aim _

theorem grew_of_markClean {c : Cache} {d d' : Disk} {settings content : Bytes} {now : Instant}
    (h : c.markClean d settings content now = .ok d') :
    Disk.Grew (fun l _ => l = d.aim (c.recordPath (Digest.ofInput settings content))) d d' := by
  unfold markClean at h
  split at h
  · exact grew_of_put h
  · cases h
    exact .refl

/-- What the cache vouches for has a record. -/
theorem holds_of_isClean {c : Cache} {d : Disk} {settings content : Bytes}
    (h : c.isClean d settings content = true) :
    ∃ record, d.Holds (c.recordPath (Digest.ofInput settings content)) record := by
  cases hread : d.read (c.recordPath (Digest.ofInput settings content)) with
  | ok bytes => exact ⟨bytes, Disk.holds_of_read hread⟩
  | error fault =>
      unfold isClean get at h
      cases hmissing : fault.isMissing <;> simp [hread, hmissing] at h

end Cache

end VhdlStyle
