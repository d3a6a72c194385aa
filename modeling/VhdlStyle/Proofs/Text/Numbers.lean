import Mathlib.Logic.Function.Basic
import VhdlStyle.Text.Bytes

/-! # Numbers in decimal

A number is written with digits alone, and different numbers are written differently. -/

namespace VhdlStyle.Bytes

/-! ## Digits -/

theorem toNat_digit {c : Char} (h : c.isDigit = true) : c.toUInt8.toNat = c.toNat := by
  obtain ⟨-, hle⟩ := Char.isDigit_iff_toNat.mp h
  have hsmall : c.toNat < 256 := Nat.lt_of_le_of_lt hle (by decide)
  exact (UInt32.toNat_toUInt8 c.val).trans (Nat.mod_eq_of_lt hsmall)

theorem isDigit_of_mem_ofNat {n : Nat} {b : UInt8} (h : b ∈ ofNat n) : isDigit b = true := by
  obtain ⟨c, hc, rfl⟩ := List.mem_map.mp h
  have hdigit := Nat.isDigit_of_mem_toDigits (by decide) (by decide) hc
  obtain ⟨hge, hle⟩ := Char.isDigit_iff_toNat.mp hdigit
  rw [isDigit, Bool.and_eq_true, decide_eq_true_eq, decide_eq_true_eq, UInt8.le_iff_toNat_le,
    UInt8.le_iff_toNat_le, toNat_digit hdigit]
  exact ⟨hge, hle⟩

theorem not_mem_ofNat {n : Nat} {b : UInt8} (h : isDigit b = false) : b ∉ ofNat n := by
  intro hmem
  rw [isDigit_of_mem_ofNat hmem] at h
  exact Bool.false_ne_true h.symm

theorem ofNat_ne_nil (n : Nat) : ofNat n ≠ [] := by simp [ofNat, Nat.toDigits_ne_nil]

/-! ## Different numbers -/

/-- The digits can be taken back from their bytes. -/
theorem map_ofNat (n : Nat) :
    (ofNat n).map (fun b => Char.ofNat b.toNat) = Nat.toDigits 10 n := by
  have hback : ∀ c ∈ Nat.toDigits 10 n, Char.ofNat c.toUInt8.toNat = c := by
    intro c hc
    rw [toNat_digit (Nat.isDigit_of_mem_toDigits (by decide) (by decide) hc), Char.ofNat_toNat]
  rw [ofNat, List.map_map]
  exact (List.map_congr_left hback).trans (List.map_id _)

theorem ofNat_injective : Function.Injective ofNat := by
  intro n m h
  have hdigits : Nat.toDigits 10 n = Nat.toDigits 10 m := by rw [← map_ofNat, h, map_ofNat]
  calc
    n = Nat.ofDigitChars 10 (Nat.toDigits 10 n) 0 := Nat.ofDigitChars_ten_toDigits.symm
    _ = Nat.ofDigitChars 10 (Nat.toDigits 10 m) 0 := by rw [hdigits]
    _ = m := Nat.ofDigitChars_ten_toDigits

/-- The sign tells negative numbers from the others. -/
theorem ofNat_ne_sign (n : Nat) (rest : Bytes) : ofNat n ≠ ('-' : UInt8) :: rest := by
  intro h
  have hsign : ('-' : UInt8) ∉ ofNat n := not_mem_ofNat (by decide)
  exact hsign (h ▸ List.mem_cons_self)

theorem ofInt_injective : Function.Injective ofInt := by
  intro n m h
  cases n with
  | ofNat n =>
      cases m with
      | ofNat m => exact congrArg Int.ofNat (ofNat_injective h)
      | negSucc m => exact absurd h (ofNat_ne_sign n _)
  | negSucc n =>
      cases m with
      | ofNat m => exact absurd h.symm (ofNat_ne_sign m _)
      | negSucc m =>
          have hdigits := ofNat_injective (List.cons.inj h).2
          rw [Nat.add_right_cancel hdigits]

theorem not_mem_ofInt {n : Int} {b : UInt8} (hdigit : isDigit b = false)
    (hsign : b ≠ ('-' : UInt8)) : b ∉ ofInt n := by
  cases n with
  | ofNat n => exact not_mem_ofNat hdigit
  | negSucc n =>
      rw [ofInt, List.mem_cons, not_or]
      exact ⟨hsign, not_mem_ofNat hdigit⟩

end VhdlStyle.Bytes
