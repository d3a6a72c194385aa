import Mathlib.Data.List.TakeWhile
import VhdlStyle.Proofs.Lexing.Extent

/-! # Where a token ends

A token is as long as it can be, so what is read depends on the bytes behind it. Replacing them
by bytes that cannot continue the token leaves it as it was. -/

namespace VhdlStyle.Lexeme

/-! ## Runs of bytes -/

section

variable {p : UInt8 → Bool} {t r : Bytes}

theorem countWhile_append (ht : ∀ b ∈ t, p b = true) (hr : ∀ b ∈ r.head?, p b = false) :
    countWhile p (t ++ r) = t.length := by
  have hnil : r.takeWhile p = [] := by
    cases r with
    | nil => rfl
    | cons b r => simp [hr b (by simp)]
  rw [countWhile, List.takeWhile_append_of_pos ht, hnil, List.append_nil]

theorem le_countWhile (ht : ∀ b ∈ t, p b = true) (r : Bytes) : t.length ≤ countWhile p (t ++ r) := by
  rw [countWhile, List.takeWhile_append_of_pos ht, List.length_append]
  exact Nat.le_add_right _ _

theorem all_of_le_countWhile (h : t.length ≤ countWhile p (t ++ r)) : ∀ b ∈ t, p b = true := by
  induction t with
  | nil => simp
  | cons b t ih =>
      cases hb : p b with
      | false => simp [countWhile, hb] at h
      | true =>
          have hle : t.length ≤ countWhile p (t ++ r) := by simpa [countWhile, hb] using h
          simpa [hb] using ih hle

/-- A text is a run, or a run that a byte ends. -/
theorem run_or_stop (p : UInt8 → Bool) (t : Bytes) :
    (∀ b ∈ t, p b = true) ∨
      ∃ run b rest, t = run ++ b :: rest ∧ (∀ c ∈ run, p c = true) ∧ p b = false := by
  induction t with
  | nil => exact .inl (by simp)
  | cons b t ih =>
      cases hb : p b with
      | false => exact .inr ⟨[], b, t, rfl, by simp, hb⟩
      | true =>
          rcases ih with ht | ⟨run, c, rest, rfl, hrun, hc⟩
          · exact .inl (by simpa [hb] using ht)
          · exact .inr ⟨b :: run, c, rest, rfl, by simpa [hb] using hrun, hc⟩

theorem countWhile_stop {run rest : Bytes} {b : UInt8} (hrun : ∀ c ∈ run, p c = true)
    (hb : p b = false) : countWhile p (run ++ b :: rest) = run.length :=
  countWhile_append hrun (by simpa using hb)

/-- Where a run ends inside a text, what is behind the text does not matter. -/
theorem countWhile_split {r' : Bytes} (h : countWhile p (t ++ r) ≤ t.length)
    (hr : ∀ b ∈ r'.head?, p b = false) :
    ∃ run rest, t = run ++ rest ∧ countWhile p (t ++ r) = run.length ∧
      countWhile p (t ++ r') = run.length := by
  rcases run_or_stop p t with ht | ⟨run, b, rest, rfl, hrun, hb⟩
  · have hle := le_countWhile ht r
    exact ⟨t, [], by simp, by omega, countWhile_append ht hr⟩
  · refine ⟨run, b :: rest, rfl, ?_, ?_⟩
    · rw [List.append_assoc]
      exact countWhile_stop hrun hb
    · rw [List.append_assoc]
      exact countWhile_stop hrun hb

end

/-! ## Quoted literals and extended identifiers -/

/-- The bytes behind an opening quote up to the closing one: on one line, with inner quotes
doubled. -/
inductive Enclosed (quote : UInt8) : Bytes → Prop where
  | close : Enclosed quote [quote]
  | double {t : Bytes} : Enclosed quote t → Enclosed quote (quote :: quote :: t)
  | byte {b : UInt8} {t : Bytes} : b ≠ quote → b ≠ Bytes.lf → Enclosed quote t →
      Enclosed quote (b :: t)

theorem Enclosed.of_quotedBody {text : Bytes} {n : Nat} (h : quotedBody text = (n, .closed)) :
    ∃ t r, text = t ++ r ∧ t.length = n ∧ Enclosed '"' t := by
  fun_induction quotedBody text generalizing n with
  | case1 => simp at h
  | case2 b hb =>
      obtain rfl : b = ('"' : UInt8) := by simpa using hb
      obtain rfl : 1 = n := by simpa using h
      exact ⟨['"'], [], rfl, rfl, .close⟩
  | case3 b hb c rest hc m stop hrec ih =>
      obtain rfl : b = ('"' : UInt8) := by simpa using hb
      obtain rfl : c = ('"' : UInt8) := by simpa using hc
      obtain ⟨rfl, rfl⟩ : m + 2 = n ∧ stop = .closed := by simpa using h
      obtain ⟨t, r, rfl, rfl, ht⟩ := ih hrec
      exact ⟨'"' :: '"' :: t, r, rfl, rfl, .double ht⟩
  | case4 b hb c rest hc =>
      obtain rfl : b = ('"' : UInt8) := by simpa using hb
      obtain rfl : 1 = n := by simpa using h
      exact ⟨['"'], c :: rest, rfl, rfl, .close⟩
  | case5 b rest hb hlf => simp at h
  | case6 b rest hb hlf m stop hrec ih =>
      obtain ⟨rfl, rfl⟩ : m + 1 = n ∧ stop = .closed := by simpa using h
      obtain ⟨t, r, rfl, rfl, ht⟩ := ih hrec
      exact ⟨b :: t, r, rfl, rfl, .byte (by simpa using hb) (by simpa using hlf) ht⟩

theorem Enclosed.quotedBody {t r : Bytes} (ht : Enclosed '"' t)
    (hr : ∀ b ∈ r.head?, b ≠ ('"' : UInt8)) : quotedBody (t ++ r) = (t.length, .closed) := by
  induction ht with
  | close =>
      cases r with
      | nil => rfl
      | cons b r =>
          have hb : b ≠ ('"' : UInt8) := hr b (by simp)
          simp [Lexeme.quotedBody, hb]
  | double _ ih => simp [Lexeme.quotedBody, ih]
  | @byte b t hquote hlf _ ih =>
      have hstep : Lexeme.quotedBody (b :: (t ++ r)) =
          ((Lexeme.quotedBody (t ++ r)).1 + 1, (Lexeme.quotedBody (t ++ r)).2) := by
        rw [Lexeme.quotedBody.eq_def]
        simp [hquote, hlf]
      rw [List.cons_append, hstep, ih]
      rfl

theorem Enclosed.of_extendedBody {text : Bytes} {n : Nat} (h : extendedBody text = (n, true)) :
    ∃ t r, text = t ++ r ∧ t.length = n ∧ Enclosed '\\' t := by
  fun_induction extendedBody text generalizing n with
  | case1 => simp at h
  | case2 b rest hlf => simp at h
  | case3 b hlf hb =>
      obtain rfl : b = ('\\' : UInt8) := by simpa using hb
      obtain rfl : 1 = n := by simpa using h
      exact ⟨['\\'], [], rfl, rfl, .close⟩
  | case4 b hlf hb c rest hc m closed hrec ih =>
      obtain rfl : b = ('\\' : UInt8) := by simpa using hb
      obtain rfl : c = ('\\' : UInt8) := by simpa using hc
      obtain ⟨rfl, rfl⟩ : m + 2 = n ∧ closed = true := by simpa using h
      obtain ⟨t, r, rfl, rfl, ht⟩ := ih hrec
      exact ⟨'\\' :: '\\' :: t, r, rfl, rfl, .double ht⟩
  | case5 b hlf hb c rest hc =>
      obtain rfl : b = ('\\' : UInt8) := by simpa using hb
      obtain rfl : 1 = n := by simpa using h
      exact ⟨['\\'], c :: rest, rfl, rfl, .close⟩
  | case6 b rest hlf hb m closed hrec ih =>
      obtain ⟨rfl, rfl⟩ : m + 1 = n ∧ closed = true := by simpa using h
      obtain ⟨t, r, rfl, rfl, ht⟩ := ih hrec
      exact ⟨b :: t, r, rfl, rfl, .byte (by simpa using hb) (by simpa using hlf) ht⟩

theorem Enclosed.extendedBody {t r : Bytes} (ht : Enclosed '\\' t)
    (hr : ∀ b ∈ r.head?, b ≠ ('\\' : UInt8)) : extendedBody (t ++ r) = (t.length, true) := by
  have hslash : ('\\' : UInt8) ≠ Bytes.lf := by decide
  induction ht with
  | close =>
      cases r with
      | nil => rfl
      | cons b r =>
          have hb : b ≠ ('\\' : UInt8) := hr b (by simp)
          simp [Lexeme.extendedBody, hb, hslash]
  | double _ ih => simp [Lexeme.extendedBody, ih, hslash]
  | @byte b t hquote hlf _ ih =>
      have hstep : Lexeme.extendedBody (b :: (t ++ r)) =
          ((Lexeme.extendedBody (t ++ r)).1 + 1, (Lexeme.extendedBody (t ++ r)).2) := by
        rw [Lexeme.extendedBody.eq_def]
        simp [hquote, hlf]
      rw [List.cons_append, hstep, ih]
      rfl

/-! ## Numbers -/

/-- A byte that ends a word, a number, a string or an extended identifier in front of it. -/
def endsWord (b : UInt8) : Bool := !isIdentByte b && b != '"' && b != '#' && b != '\\'

/-- What holds of all numbers below 256 holds of all bytes. -/
theorem byte_induction {P : UInt8 → Prop} (h : ∀ n : Fin 256, P (UInt8.ofFin n)) (b : UInt8) :
    P b := UInt8.ofFin_toFin b ▸ h b.toFin

section

variable {b : UInt8}

theorem endsWord_iff : endsWord b = true ↔ isIdentByte b = false ∧ b ≠ ('"' : UInt8) ∧
    b ≠ ('#' : UInt8) ∧ b ≠ ('\\' : UInt8) := by
  simp [endsWord, and_assoc]

theorem isIdentByte_of_endsWord (h : endsWord b = true) : isIdentByte b = false :=
  (endsWord_iff.mp h).1

variable (b)

theorem isLetter_of_endsWord (h : endsWord b = true) : Bytes.isLetter b = false := by
  have hident := isIdentByte_of_endsWord h
  simp only [isIdentByte, Bool.or_eq_false_iff] at hident
  exact hident.1.1

theorem digit_of_endsWord (h : endsWord b = true) : (Bytes.isDigit b || b == '_') = false := by
  have hident := isIdentByte_of_endsWord h
  simp only [isIdentByte, Bool.or_eq_false_iff] at hident
  exact Bool.or_eq_false_iff.mpr ⟨hident.1.2, hident.2⟩

theorem quote_of_endsWord (h : endsWord b = true) : b ≠ ('"' : UInt8) :=
  (endsWord_iff.mp h).2.1

theorem slash_of_endsWord (h : endsWord b = true) : b ≠ ('\\' : UInt8) :=
  (endsWord_iff.mp h).2.2.2

theorem isLetter_of_exponent (h : (b == 'e' || b == 'E') = true) : Bytes.isLetter b = true := by
  rw [Bool.or_eq_true, beq_iff_eq, beq_iff_eq] at h
  rcases h with rfl | rfl <;> rfl

theorem notExponent_of_endsWord (h : endsWord b = true) : (b == 'e' || b == 'E') = false := by
  refine Bool.eq_false_iff.mpr fun hexponent => ?_
  have hletter := isLetter_of_exponent b hexponent
  rw [isLetter_of_endsWord b h] at hletter
  exact Bool.false_ne_true hletter

end

set_option maxRecDepth 10000 in
theorem notLetter_of_exponent : ∀ b : UInt8, (Bytes.isDigit b || (b == '+' || b == '-')) = true →
    Bytes.isLetter b = false ∧ b ≠ ('"' : UInt8) :=
  byte_induction (by decide)

theorem digits_append {isDigit : UInt8 → Bool} {t r r' : Bytes}
    (h : digits isDigit (t ++ r) = t.length)
    (hr : ∀ b ∈ r'.head?, (isDigit b || b == '_') = false) :
    digits isDigit (t ++ r') = t.length :=
  countWhile_append (all_of_le_countWhile (Nat.le_of_eq h.symm)) hr

theorem digits_pos {isDigit : UInt8 → Bool} {b : UInt8} {r : Bytes} (hb : isDigit b = true) :
    0 < digits isDigit (b :: r) := by
  simp [digits, countWhile, hb]

/-- An exponent is never the letter alone. -/
theorem exponent_ne_one (e : UInt8) (r : Bytes) : exponent (e :: r) ≠ 1 := by
  intro h
  cases r with
  | nil => simp [exponent] at h
  | cons b rest =>
      rw [exponent_cons] at h
      split at h
      · split at h
        · rename_i hb
          have hpos := digits_pos (r := rest) hb
          omega
        · split at h <;> omega
      · omega

theorem exponent_append {t r r' : Bytes} (h : exponent (t ++ r) = t.length)
    (hr : ∀ b ∈ r'.head?, endsWord b = true) : exponent (t ++ r') = t.length := by
  have hdigit : ∀ b ∈ r'.head?, (Bytes.isDigit b || b == '_') = false :=
    fun b hb => digit_of_endsWord b (hr b hb)
  match t with
  | [] =>
      cases r' with
      | nil => rfl
      | cons b r' => simp [exponent, notExponent_of_endsWord b (hr b (by simp))]
  | [e] => exact absurd h (exponent_ne_one e r)
  | e :: b :: t =>
      simp only [List.cons_append, List.length_cons, exponent_cons] at h ⊢
      split at h
      · rename_i he
        rw [if_pos he]
        split at h
        · rename_i hb
          have hrun : digits Bytes.isDigit (b :: t ++ r) = (b :: t).length := by
            simp only [List.length_cons, List.cons_append] at h ⊢
            omega
          have hrun' := digits_append hrun hdigit
          simp only [List.cons_append, List.length_cons] at hrun'
          rw [if_pos hb, hrun']
          omega
        · rename_i hb
          rw [if_neg hb]
          split at h
          · rename_i hsign
            have hrun : digits Bytes.isDigit (t ++ r) = t.length := by omega
            simp only [Bool.and_eq_true] at hsign
            have hne : t ≠ [] := by
              rintro rfl
              cases r with
              | nil => simp at hsign
              | cons c r =>
                  have hpos : 0 < digits Bytes.isDigit (c :: r) :=
                    digits_pos (by simpa using hsign.2)
                  simp at hrun
                  omega
            have hhead : (t ++ r').head? = (t ++ r).head? := by
              cases t with
              | nil => contradiction
              | cons c t => rfl
            rw [hhead, if_pos (by simpa using hsign), digits_append hrun hdigit]
            omega
          · omega
      · omega

theorem based_stop {run rest : Bytes} {b : UInt8} (n : Nat)
    (hrun : ∀ c ∈ run, (isBasedDigit c || c == '_') = true)
    (hb : (isBasedDigit b || b == '_') = false) (hdot : b ≠ ('.' : UInt8)) :
    based n (run ++ b :: rest) =
      if b == '#' then ⟨.basedLit, n + run.length + 1 + exponent rest, none⟩
      else ⟨.invalid, n + run.length, some (.badNumber, "based literal is missing closing '#'")⟩ := by
  have hwhole : digits isBasedDigit (run ++ b :: rest) = run.length := countWhile_stop hrun hb
  simp [based, hwhole, hdot]

theorem based_fraction {run run' rest : Bytes} {b : UInt8} (n : Nat)
    (hrun : ∀ c ∈ run, (isBasedDigit c || c == '_') = true)
    (hrun' : ∀ c ∈ run', (isBasedDigit c || c == '_') = true)
    (hb : (isBasedDigit b || b == '_') = false) :
    based n (run ++ ('.' : UInt8) :: (run' ++ b :: rest)) =
      if b == '#' then
        ⟨.basedLit, n + (run.length + (1 + run'.length)) + 1 + exponent rest, none⟩
      else ⟨.invalid, n + (run.length + (1 + run'.length)),
        some (.badNumber, "based literal is missing closing '#'")⟩ := by
  have hwhole : digits isBasedDigit (run ++ ('.' : UInt8) :: (run' ++ b :: rest)) = run.length :=
    countWhile_stop hrun (by decide)
  have hfraction : digits isBasedDigit (run' ++ b :: rest) = run'.length :=
    countWhile_stop hrun' hb
  have hdrop : (run ++ ('.' : UInt8) :: (run' ++ b :: rest)).drop (run.length + (1 + run'.length)) =
      b :: rest := by
    rw [← List.drop_drop, List.drop_left, Nat.add_comm 1, List.drop_succ_cons, List.drop_left]
  simp [based, hwhole, hfraction, hdrop]

/-- The closing mark comes after all digits. -/
theorem based_more {n : Nat} {text : Bytes} (h : (based n text).fault = none) :
    n + digits isBasedDigit text < (based n text).more := by
  revert h
  unfold based
  dsimp only
  split
  · split
    · dsimp only
      omega
    · simp
  · simp

theorem based_fraction_more {n : Nat} {run rest : Bytes}
    (hrun : ∀ c ∈ run, (isBasedDigit c || c == '_') = true)
    (h : (based n (run ++ ('.' : UInt8) :: rest)).fault = none) :
    n + run.length + 1 + digits isBasedDigit rest <
      (based n (run ++ ('.' : UInt8) :: rest)).more := by
  have hwhole : digits isBasedDigit (run ++ ('.' : UInt8) :: rest) = run.length :=
    countWhile_stop hrun (by decide)
  revert h
  unfold based
  simp only [hwhole, List.drop_left, beq_self_eq_true, if_true]
  split
  · split
    · intro _
      change _ < n + (run.length + (1 + digits isBasedDigit rest)) + 1 + _
      omega
    · simp
  · simp

theorem based_append {t r r' : Bytes} {n : Nat} {k : Kind}
    (h : based n (t ++ r) = ⟨k, n + t.length, none⟩) (hr : ∀ b ∈ r'.head?, endsWord b = true) :
    based n (t ++ r') = ⟨k, n + t.length, none⟩ := by
  have hfault : (based n (t ++ r)).fault = none := by rw [h]
  rcases run_or_stop (fun b => isBasedDigit b || b == '_') t with hrun | ⟨run, b, t, rfl, hrun, hb⟩
  · have hmore := based_more hfault
    have hdigits := le_countWhile hrun r
    rw [h] at hmore
    simp only [digits] at hmore
    omega
  · by_cases hdot : b = ('.' : UInt8)
    · subst hdot
      rcases run_or_stop (fun b => isBasedDigit b || b == '_') t with hrun' | ⟨run', c, t, rfl, hrun', hc⟩
      · simp only [List.append_assoc, List.cons_append] at h hfault
        have hmore := based_fraction_more hrun hfault
        have hdigits := le_countWhile hrun' r
        rw [h] at hmore
        simp only [digits, List.length_append, List.length_cons] at hmore
        omega
      · simp only [List.append_assoc, List.cons_append, based_fraction n hrun hrun' hc] at h ⊢
        split at h
        · rename_i hclose
          simp only [Lexeme.mk.injEq, List.length_append, List.length_cons] at h
          have hexponent : exponent (t ++ r) = t.length := by omega
          rw [if_pos hclose, exponent_append hexponent hr, ← h.1]
          simp only [List.length_append, List.length_cons, Lexeme.mk.injEq, true_and, and_true]
          omega
        · simp at h
    · simp only [List.append_assoc, List.cons_append, based_stop n hrun hb hdot] at h ⊢
      split at h
      · rename_i hclose
        simp only [Lexeme.mk.injEq, List.length_append, List.length_cons] at h
        have hexponent : exponent (t ++ r) = t.length := by omega
        rw [if_pos hclose, exponent_append hexponent hr, ← h.1]
        simp only [List.length_append, List.length_cons, Lexeme.mk.injEq, true_and, and_true]
        omega
      · simp at h

/-- Neither a based literal nor a fraction nor a bit string comes after these digits. -/
theorem number_run {t r : Bytes} (ht : ∀ b ∈ t, (Bytes.isDigit b || b == '_') = true)
    (hr : ∀ b ∈ r.head?, endsWord b = true)
    (hdot : ∀ rest, r = ('.' : UInt8) :: rest → rest.head?.any Bytes.isDigit = false) :
    number (t ++ r) = ⟨.decimalLit, t.length, none⟩ := by
  have hdigits : digits Bytes.isDigit (t ++ r) = t.length :=
    countWhile_append ht fun b hb => digit_of_endsWord b (hr b hb)
  unfold number
  simp only [hdigits, List.drop_left]
  cases r with
  | nil => rfl
  | cons b r =>
      have hb : endsWord b = true := hr b (by simp)
      have hmark : (b == '#') = false := by
        simp only [endsWord, Bool.and_eq_true, bne_iff_ne] at hb
        simpa using hb.1.2
      have hquote : (b == '"') = false := by
        simp only [endsWord, Bool.and_eq_true, bne_iff_ne] at hb
        simpa using hb.1.1.2
      have hfraction : (b == '.' && r.head?.any Bytes.isDigit) = false := by
        by_cases heq : b = ('.' : UInt8)
        · rw [hdot r (by rw [heq]), Bool.and_false]
        · simp [heq]
      have hletters : countWhile Bytes.isLetter (b :: r) = 0 := by
        simp [countWhile, isLetter_of_endsWord b hb]
      simp [hmark, hquote, hfraction, hletters, exponent, notExponent_of_endsWord b hb]

theorem number_stop {run rest : Bytes} {b : UInt8}
    (hrun : ∀ c ∈ run, (Bytes.isDigit c || c == '_') = true)
    (hb : (Bytes.isDigit b || b == '_') = false) :
    number (run ++ b :: rest) =
      if b == '#' then based (run.length + 1) rest
      else if b == '.' && rest.head?.any Bytes.isDigit then
        let m := run.length + 1 + digits Bytes.isDigit rest
        ⟨.decimalLit, m + exponent ((run ++ b :: rest).drop m), none⟩
      else
        let letters := countWhile Bytes.isLetter (b :: rest)
        match (b :: rest).drop letters with
        | q :: body =>
          if q == '"' && isBitStringBase ((b :: rest).take letters) then
            bitString (run.length + letters + 1) body
          else ⟨.decimalLit, run.length + exponent (b :: rest), none⟩
        | [] => ⟨.decimalLit, run.length + exponent (b :: rest), none⟩ := by
  have hdigits : digits Bytes.isDigit (run ++ b :: rest) = run.length := countWhile_stop hrun hb
  have hnumber := number.eq_def (run ++ b :: rest)
  simp only [hdigits, List.drop_left] at hnumber
  exact hnumber

theorem quoted_append {kind k : Kind} {code : Code} {what t r r' : Bytes} {n : Nat}
    (h : quoted kind code what n (t ++ r) = ⟨k, n + t.length, none⟩)
    (hr : ∀ b ∈ r'.head?, endsWord b = true) :
    quoted kind code what n (t ++ r') = ⟨k, n + t.length, none⟩ := by
  have hquote : ∀ b ∈ r'.head?, b ≠ ('"' : UInt8) := fun b hb => quote_of_endsWord b (hr b hb)
  unfold quoted at h ⊢
  split at h
  · rename_i m hbody
    simp only [Lexeme.mk.injEq] at h
    obtain ⟨t', r₂, heq, hlength, ht⟩ := Enclosed.of_quotedBody hbody
    have hsame : t' = t := (List.append_inj heq (by omega)).1.symm
    rw [hsame] at ht
    rw [ht.quotedBody hquote, ← h.1]
  · simp at h
  · simp at h

theorem extended_append {k : Kind} {t r r' : Bytes}
    (h : extended (t ++ r) = ⟨k, t.length, none⟩) (hr : ∀ b ∈ r'.head?, endsWord b = true) :
    extended (t ++ r') = ⟨k, t.length, none⟩ := by
  have hslash : ∀ b ∈ r'.head?, b ≠ ('\\' : UInt8) := fun b hb => slash_of_endsWord b (hr b hb)
  unfold extended at h ⊢
  split at h
  · rename_i m hbody
    simp only [Lexeme.mk.injEq] at h
    obtain ⟨t', r₂, heq, hlength, ht⟩ := Enclosed.of_extendedBody hbody
    have hsame : t' = t := (List.append_inj heq (by omega)).1.symm
    rw [hsame] at ht
    rw [ht.extendedBody hslash, ← h.1]
  · simp at h

theorem bitString_more {n : Nat} {text : Bytes} : n ≤ (bitString n text).more := by
  unfold bitString quoted
  split <;> exact Nat.le_add_right _ _

theorem number_kind {text : Bytes} (hfault : (number text).fault = none)
    (hmore : (number text).more ≤ digits Bytes.isDigit text) : (number text).kind = .decimalLit := by
  revert hfault hmore
  unfold number
  dsimp only
  split
  · simp
  · split
    · intro hfault hmore
      have hmark := based_more hfault
      omega
    · split
      · simp
      · split
        · split
          · intro hfault hmore
            have hquote := hmore.trans' bitString_more
            omega
          · simp
        · simp

/-- An exponent starts with one letter. -/
theorem exponent_letters {t r : Bytes} (h : exponent (t ++ r) = t.length) (hne : t ≠ []) :
    ∃ e c rest, t = e :: c :: rest ∧ Bytes.isLetter e = true ∧ Bytes.isLetter c = false ∧
      c ≠ ('"' : UInt8) := by
  match t with
  | [e] => exact absurd h (exponent_ne_one e r)
  | e :: c :: rest =>
      refine ⟨e, c, rest, rfl, ?_⟩
      simp only [List.cons_append, exponent_cons, List.length_cons] at h
      split at h
      · rename_i he
        have hsecond : (Bytes.isDigit c || (c == '+' || c == '-')) = true := by
          split at h
          · rename_i hc
            rw [hc, Bool.true_or]
          · split at h
            · rename_i hsign
              rw [Bool.and_eq_true] at hsign
              rw [hsign.1, Bool.or_true]
            · omega
        exact ⟨isLetter_of_exponent e he, notLetter_of_exponent c hsecond⟩
      · omega

/-- Digits and an exponent. -/
theorem fraction_append {t r r' : Bytes}
    (h : digits Bytes.isDigit (t ++ r) +
      exponent ((t ++ r).drop (digits Bytes.isDigit (t ++ r))) = t.length)
    (hr : ∀ b ∈ r'.head?, endsWord b = true) :
    digits Bytes.isDigit (t ++ r') +
      exponent ((t ++ r').drop (digits Bytes.isDigit (t ++ r'))) = t.length := by
  have hle : countWhile (fun b => Bytes.isDigit b || b == '_') (t ++ r) ≤ t.length :=
    h ▸ Nat.le_add_right _ _
  obtain ⟨run, rest, rfl, hrun, hrun'⟩ :=
    countWhile_split hle fun b hb => digit_of_endsWord b (hr b hb)
  rw [digits, hrun, List.append_assoc, List.drop_left, List.length_append] at h
  have hexponent : exponent (rest ++ r) = rest.length := by omega
  rw [digits, hrun', List.append_assoc, List.drop_left, List.length_append,
    exponent_append hexponent hr]

/-- What follows the digits of a number that is no fraction. -/
theorem suffix_append {t r r' : Bytes} {b : UInt8} {n : Nat} {k : Kind} {read : Bytes → Lexeme}
    (hread : ∀ s, read s = match s.drop (countWhile Bytes.isLetter s) with
      | q :: body =>
        if q == '"' && isBitStringBase (s.take (countWhile Bytes.isLetter s)) then
          bitString (n + countWhile Bytes.isLetter s + 1) body
        else ⟨.decimalLit, n + exponent s, none⟩
      | [] => ⟨.decimalLit, n + exponent s, none⟩)
    (h : read (b :: t ++ r) = ⟨k, n + (b :: t).length, none⟩)
    (hr : ∀ b ∈ r'.head?, endsWord b = true) :
    read (b :: t ++ r') = ⟨k, n + (b :: t).length, none⟩ := by
  by_cases hexponent : exponent (b :: t ++ r) = (b :: t).length
  · obtain ⟨e, c, rest, heq, he, hc, hquote⟩ := exponent_letters hexponent (by simp)
    have hletters (s : Bytes) : countWhile Bytes.isLetter (b :: t ++ s) = 1 := by
      simp [heq, countWhile, he, hc]
    have hplain (s : Bytes) : read (b :: t ++ s) =
        ⟨.decimalLit, n + exponent (b :: t ++ s), none⟩ := by
      rw [hread, hletters, heq]
      simp [hquote]
    rw [hplain] at h
    rw [hplain, exponent_append hexponent hr, ← h, hexponent]
  · rw [hread] at h
    split at h
    · rename_i q body hdrop
      split at h
      · rename_i hbase
        have hmore := congrArg Lexeme.more h
        have hle : n + countWhile Bytes.isLetter (b :: t ++ r) + 1 ≤ n + (b :: t).length :=
          bitString_more.trans (Nat.le_of_eq hmore)
        rcases run_or_stop Bytes.isLetter (b :: t) with hrun | ⟨run, c, rest, heq, hrun, hc⟩
        · have hall := le_countWhile hrun r
          omega
        · have hletters (s : Bytes) : countWhile Bytes.isLetter (b :: t ++ s) = run.length := by
            rw [heq, List.append_assoc]
            exact countWhile_stop hrun hc
          rw [hletters, heq, List.append_assoc, List.drop_left] at hdrop
          obtain ⟨rfl, rfl⟩ := List.cons.inj hdrop
          rw [hletters, heq, List.append_assoc, List.take_left] at hbase
          have hlength : n + (run ++ c :: rest).length = n + run.length + 1 + rest.length := by
            simp only [List.length_append, List.length_cons]
            omega
          rw [hletters, heq, hlength] at h
          have hread' : read (run ++ c :: rest ++ r') =
              bitString (n + run.length + 1) (rest ++ r') := by
            rw [hread, ← heq, hletters, heq]
            simp only [List.append_assoc, List.cons_append, List.drop_left, List.take_left, hbase,
              if_true]
          rw [heq, hread', hlength]
          exact quoted_append h hr
      · simp only [Lexeme.mk.injEq] at h
        omega
    · simp only [Lexeme.mk.injEq] at h
      omega

theorem number_append {t r r' : Bytes} {k : Kind} (h : number (t ++ r) = ⟨k, t.length, none⟩)
    (hr : ∀ b ∈ r'.head?, endsWord b = true)
    (hdot : k = .decimalLit → ∀ rest, r' = ('.' : UInt8) :: rest →
      rest.head?.any Bytes.isDigit = false) :
    number (t ++ r') = ⟨k, t.length, none⟩ := by
  rcases run_or_stop (fun b => Bytes.isDigit b || b == '_') t with hrun | ⟨run, b, t, rfl, hrun, hb⟩
  · have hkind : (number (t ++ r)).kind = .decimalLit :=
      number_kind (by rw [h]) (by rw [h]; exact le_countWhile hrun r)
    rw [h] at hkind
    obtain rfl : k = .decimalLit := hkind
    exact number_run hrun hr (hdot rfl)
  · rw [List.append_assoc, List.cons_append, number_stop hrun hb] at h ⊢
    simp only [List.length_append, List.length_cons] at h ⊢
    split at h
    · rename_i hmark
      rw [if_pos hmark]
      have hlength : run.length + (t.length + 1) = run.length + 1 + t.length := by omega
      rw [hlength] at h ⊢
      exact based_append h hr
    · rename_i hmark
      rw [if_neg hmark]
      split at h
      · rename_i hfraction
        have hdrop (s : Bytes) : (run ++ b :: s).drop (run.length + 1 + digits Bytes.isDigit s) =
            s.drop (digits Bytes.isDigit s) := by
          rw [Nat.add_assoc, ← List.drop_drop, List.drop_left, Nat.add_comm 1, List.drop_succ_cons]
        simp only [hdrop, Lexeme.mk.injEq] at h ⊢
        have hsum : digits Bytes.isDigit (t ++ r) +
            exponent ((t ++ r).drop (digits Bytes.isDigit (t ++ r))) = t.length := by omega
        have hne : t ≠ [] := by
          rintro rfl
          rw [Bool.and_eq_true] at hfraction
          cases r with
          | nil => simp at hfraction
          | cons c r =>
              have hpos : 0 < digits Bytes.isDigit (c :: r) := digits_pos (by simpa using hfraction.2)
              simp only [List.nil_append, List.length_nil] at hsum
              omega
        have hhead : (t ++ r').head? = (t ++ r).head? := by
          cases t with
          | nil => contradiction
          | cons c t => rfl
        have hsum' := fraction_append hsum hr
        rw [hhead, if_pos hfraction, ← h.1]
        simp only [Lexeme.mk.injEq, true_and, and_true]
        omega
      · rename_i hfraction
        have hdot : b ≠ ('.' : UInt8) := by
          rintro rfl
          have hletter : Bytes.isLetter '.' = false := by decide
          have hquote : ('.' : UInt8) ≠ ('"' : UInt8) := by decide
          have hmark : (('.' : UInt8) == 'e' || ('.' : UInt8) == 'E') = false := by decide
          have hexponent : exponent (('.' : UInt8) :: (t ++ r)) = 0 := by
            rw [exponent.eq_def]
            simp only [hmark, Bool.false_eq_true, if_false]
          simp [countWhile, hletter, hquote, hexponent] at h
        rw [if_neg (by simp [hdot])]
        exact suffix_append (fun s => rfl) h hr

/-! ## Words -/

theorem word_append {first : UInt8} {t r r' : Bytes} {k : Kind}
    (h : word first (t ++ r) = ⟨k, t.length, none⟩) (hr : ∀ b ∈ r'.head?, endsWord b = true) :
    word first (t ++ r') = ⟨k, t.length, none⟩ := by
  rcases run_or_stop isIdentByte t with hrun | ⟨run, b, rest, rfl, hrun, hb⟩
  · have hplain : k = (Kind.ofKeyword? (first :: t)).getD .ident := by
      have hle := le_countWhile hrun r
      have hword : k = (Kind.ofKeyword? (first :: (t ++ r).take (countWhile isIdentByte (t ++ r)))).getD
          .ident ∧ countWhile isIdentByte (t ++ r) = t.length := by
        unfold word at h
        dsimp only at h
        split at h
        · split at h
          · have hmore := congrArg Lexeme.more h
            have hquote := hmore ▸ bitString_more
            dsimp only at hquote
            omega
          · simp only [Lexeme.mk.injEq] at h
            exact ⟨h.1.symm, h.2.1⟩
        · simp only [Lexeme.mk.injEq] at h
          exact ⟨h.1.symm, h.2.1⟩
      rw [hword.2, List.take_left] at hword
      exact hword.1
    have hcount : countWhile isIdentByte (t ++ r') = t.length :=
      countWhile_append hrun fun b hb => isIdentByte_of_endsWord (hr b hb)
    unfold word
    simp only [hcount, List.drop_left, List.take_left, hplain]
    cases r' with
    | nil => rfl
    | cons c r' => simp [quote_of_endsWord c (hr c (by simp))]
  · have hcount (s : Bytes) : countWhile isIdentByte (run ++ b :: (rest ++ s)) = run.length :=
      countWhile_stop hrun hb
    unfold word at h ⊢
    simp only [List.append_assoc, List.cons_append, hcount, List.drop_left, List.take_left] at h ⊢
    split at h
    · rename_i hbase
      have hlength : (run ++ b :: rest).length = run.length + 1 + rest.length := by
        simp only [List.length_append, List.length_cons]
        omega
      rw [if_pos hbase]
      rw [hlength] at h ⊢
      exact quoted_append h hr
    · simp at h

/-! ## Delimiters -/

/-- A byte that ends every token in front of it but one that a literal or a delimiter starts
with. -/
def stops (b : UInt8) : Bool :=
  let bytes : List UInt8 := [Bytes.space, Bytes.tab, Bytes.cr, Bytes.lf, '(', ')', ',', ';', '.', '\'']
  bytes.contains b

theorem endsWord_of_stops (b : UInt8) (h : stops b = true) : endsWord b = true := by
  simp only [stops, List.contains_iff_mem, List.mem_cons, List.not_mem_nil, or_false] at h
  rcases h with rfl | rfl | rfl | rfl | rfl | rfl | rfl | rfl | rfl | rfl <;> rfl

set_option maxRecDepth 10000 in
theorem delimiter_bytes : ∀ entry ∈ delimiters,
    (Bytes.ofString entry.1).length = entry.1.length ∧ entry.1.length ≠ 0 ∧
      ∀ b ∈ (Bytes.ofString entry.1).tail, stops b = false := by
  decide +kernel

/-- A delimiter that goes beyond a token would contain the byte behind it. -/
theorem delimiter_within {entry : String × Kind} (hentry : entry ∈ delimiters) {first : UInt8}
    {t r : Bytes} (hr : ∀ b ∈ r.head?, stops b = true)
    (h : Bytes.ofString entry.1 <+: first :: (t ++ r)) : Bytes.ofString entry.1 <+: first :: t := by
  obtain ⟨-, -, htail⟩ := delimiter_bytes entry hentry
  rw [← List.cons_append] at h
  by_cases hshort : (Bytes.ofString entry.1).length ≤ (first :: t).length
  · exact List.prefix_of_prefix_length_le h (List.prefix_append _ _) hshort
  · have hlong := List.prefix_of_prefix_length_le (List.prefix_append (first :: t) r) h (by omega)
    obtain ⟨more, hmore⟩ := hlong
    rw [← hmore, List.prefix_append_right_inj] at h
    cases more with
    | nil => simp [← hmore] at hshort
    | cons b more =>
        obtain ⟨rest, rfl⟩ := h
        have hstop := hr b (by simp)
        have hinside := htail b (by simp [← hmore])
        simp [hstop] at hinside

theorem delimiter_append {first : UInt8} {t r r' : Bytes} {k : Kind}
    (h : delimiter first (t ++ r) = ⟨k, t.length, none⟩) (hr : ∀ b ∈ r'.head?, stops b = true) :
    delimiter first (t ++ r') = ⟨k, t.length, none⟩ := by
  unfold delimiter at h
  split at h
  · rename_i text kind hfind
    simp only [Lexeme.mk.injEq, and_true] at h
    obtain ⟨hfront, before, after, hsplit, hbefore⟩ := List.find?_eq_some_iff_append.mp hfind
    obtain ⟨hlength, hpos, -⟩ := delimiter_bytes (text, kind) (by simp [hsplit])
    have htext : Bytes.ofString text = first :: t := by
      have hle := List.isPrefixOf_iff_prefix.mp hfront
      rw [← List.cons_append] at hle
      have hsize : (Bytes.ofString text).length = (first :: t).length := by
        rw [hlength, List.length_cons, ← h.2]
        dsimp only at hpos ⊢
        omega
      exact (List.prefix_of_prefix_length_le hle (List.prefix_append _ _) hsize.le).eq_of_length hsize
    have hfind' : delimiters.find? (fun entry =>
        (Bytes.ofString entry.1).isPrefixOf (first :: (t ++ r'))) = some (text, kind) := by
      refine List.find?_eq_some_iff_append.mpr ⟨?_, before, after, hsplit, ?_⟩
      · rw [List.isPrefixOf_iff_prefix, htext, ← List.cons_append]
        exact List.prefix_append _ _
      · intro entry hentry
        have hearlier := hbefore entry hentry
        simp only [Bool.not_eq_true', ← Bool.not_eq_true, List.isPrefixOf_iff_prefix] at hearlier ⊢
        intro hmatch
        have hwithin := delimiter_within (by simp [hsplit, hentry]) hr hmatch
        refine hearlier (hwithin.trans ?_)
        rw [← List.cons_append]
        exact List.prefix_append _ _
    unfold delimiter
    rw [hfind']
    simp [h]
  · simp at h

/-! ## All tokens -/

/-- The kinds of tokens after which a quote is the attribute tick. -/
def endsName : Kind → Bool
  | .ident | .extIdent | .rParen | .rBracket | .kwAll | .stringLit => true
  | _ => false

theorem opensCharacter_eq (previous : Kind) (rest : Bytes) :
    opensCharacter previous rest = (!endsName previous && rest[1]? == some ('\'' : UInt8)) := by
  cases previous <;> rfl

theorem scan_word_append {previous previous' : Kind} {first : UInt8} {t r r' : Bytes} {k : Kind}
    (h : scan previous first (t ++ r) = ⟨k, t.length, none⟩)
    (hfirst : (Bytes.isLetter first || Bytes.isDigit first || first == '\\' || first == '"') = true)
    (hr : ∀ b ∈ r'.head?, endsWord b = true)
    (hdot : k = .decimalLit → ∀ rest, r' = ('.' : UInt8) :: rest →
      rest.head?.any Bytes.isDigit = false) :
    scan previous' first (t ++ r') = ⟨k, t.length, none⟩ := by
  unfold scan at h ⊢
  split at h
  · rename_i hletter
    rw [if_pos hletter]
    exact word_append h hr
  · rename_i hletter
    rw [if_neg hletter]
    split at h
    · rename_i hslash
      rw [if_pos hslash]
      exact extended_append h hr
    · rename_i hslash
      rw [if_neg hslash]
      split at h
      · rename_i hdigit
        rw [if_pos hdigit]
        exact number_append h hr hdot
      · rename_i hdigit
        rw [if_neg hdigit]
        split at h
        · rename_i hquote
          rw [if_pos hquote]
          rw [← Nat.zero_add t.length] at h ⊢
          exact quoted_append h hr
        · rename_i hquote
          simp [hletter, hslash, hdigit, hquote] at hfirst

theorem scan_append {previous previous' : Kind} {first : UInt8} {t r r' : Bytes} {k : Kind}
    (h : scan previous first (t ++ r) = ⟨k, t.length, none⟩) (hr : ∀ b ∈ r'.head?, stops b = true)
    (hdot : k = .decimalLit → ∀ rest, r' = ('.' : UInt8) :: rest →
      rest.head?.any Bytes.isDigit = false)
    (hopens : first = ('\'' : UInt8) →
      opensCharacter previous' (t ++ r') = opensCharacter previous (t ++ r)) :
    scan previous' first (t ++ r') = ⟨k, t.length, none⟩ := by
  by_cases hfirst :
      (Bytes.isLetter first || Bytes.isDigit first || first == '\\' || first == '"') = true
  · exact scan_word_append h hfirst (fun b hb => endsWord_of_stops b (hr b hb)) hdot
  · simp only [Bool.or_eq_true, not_or, Bool.not_eq_true] at hfirst
    obtain ⟨⟨⟨hletter, hdigit⟩, hslash⟩, hquote⟩ := hfirst
    have hplain (p : Kind) (s : Bytes) : scan p first s =
        if first == '\'' && opensCharacter p s then ⟨.charLit, 2, none⟩ else delimiter first s := by
      simp only [scan, hletter, hdigit, hslash, hquote, Bool.false_eq_true, if_false]
    rw [hplain] at h ⊢
    have hsame : (first == '\'' && opensCharacter previous' (t ++ r')) =
        (first == '\'' && opensCharacter previous (t ++ r)) := by
      by_cases htick : first = ('\'' : UInt8)
      · rw [hopens htick]
      · rw [beq_eq_false_iff_ne.mpr htick, Bool.false_and, Bool.false_and]
    rw [hsame]
    split at h
    · rename_i hopen
      rw [if_pos hopen, h]
    · rename_i hopen
      rw [if_neg hopen]
      exact delimiter_append h hr

end VhdlStyle.Lexeme
