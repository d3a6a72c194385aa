import VhdlStyle.Format
import VhdlStyle.Proofs.Diagnostics.Truncation

/-! # The diagnostics of a file

A bag that has room to the end receives all diagnostics of a file, and every other bag a beginning
of them. Whether a file is formatted is a question to that beginning: is there an error in it? -/

namespace VhdlStyle

/-! ## All diagnostics of a file -/

/-- These are all diagnostics of the file: a bag that has room to the end receives them. -/
def SourceFile.Finds (f : SourceFile) (all : List Diagnostic) : Prop :=
  ∃ bag : Bag, bag.items = [] ∧ (f.parse bag).2.hasRoom = true ∧ (f.parse bag).2.items = all

namespace SourceFile

/-- Every source has its list of diagnostics. -/
theorem exists_finds (f : SourceFile) : ∃ all, f.Finds all := by
  obtain ⟨design, all, hparse⟩ := f.parse_uniform
  refine ⟨all, ⟨⟨all.length + 1, []⟩, rfl, ?_, ?_⟩⟩
  · simp [hparse, Bag.hasRoom]
  · simp [hparse, List.take_of_length_le]

/-- A bag with room to the end has received everything. -/
theorem Finds.eq_of_parse {f : SourceFile} {all found : List Diagnostic} (h : f.Finds all)
    {design : DesignFile} (hparse : ∀ bag : Bag, bag.items = [] →
      f.parse bag = (design, ⟨bag.limit, found.take bag.limit⟩)) : found = all := by
  obtain ⟨big, hbig, hroom, hall⟩ := h
  rw [hparse big hbig] at hroom hall
  have hshort : found.length ≤ big.limit := by
    simp [Bag.hasRoom] at hroom
    omega
  rw [← hall, List.take_of_length_le hshort]

/-- An empty bag receives as many of all diagnostics as it can hold. -/
theorem Finds.parse_bag {f : SourceFile} {all : List Diagnostic} (h : f.Finds all) {bag : Bag}
    (hempty : bag.items = []) : (f.parse bag).2 = ⟨bag.limit, all.take bag.limit⟩ := by
  obtain ⟨design, found, hparse⟩ := f.parse_uniform
  rw [hparse bag hempty, h.eq_of_parse hparse]

end SourceFile

/-- Diagnostics that are no errors leave the count of errors alone. -/
theorem ParseState.recordAll_errors (s : ParseState) {ds : List Diagnostic}
    (hclean : ∀ d ∈ ds, d.isError = false) : (s.recordAll ds).errors = s.errors := by
  induction ds generalizing s with
  | nil => rfl
  | cons d rest ih =>
      have hd : d.isError = false := hclean d List.mem_cons_self
      have hseverity : d.severity ≠ .error := by
        intro herror
        simp [Diagnostic.isError, herror] at hd
      have hstep : (s.record d).errors = s.errors := by simp [record, hseverity]
      rw [← hstep]
      exact ih (s.record d) fun e he => hclean e (List.mem_cons_of_mem d he)

/-- The diagnostics in front of the first error. -/
def beforeError (ds : List Diagnostic) : List Diagnostic := ds.takeWhile fun d => !d.isError

theorem any_take_iff {ds : List Diagnostic} (herror : ∃ d ∈ ds, d.isError = true) (n : Nat) :
    (ds.take n).any Diagnostic.isError = true ↔ (beforeError ds).length < n := by
  induction ds generalizing n with
  | nil => simp at herror
  | cons d rest ih =>
      cases n with
      | zero => simp
      | succ n =>
          by_cases hd : d.isError = true
          · simp [beforeError, hd]
          · have hrest : ∃ e ∈ rest, e.isError = true := by simpa [hd] using herror
            simpa [beforeError, hd] using ih hrest n

namespace SourceFile

theorem Finds.hasErrors_iff {f : SourceFile} {all : List Diagnostic} (h : f.Finds all)
    (herror : ∃ d ∈ all, d.isError = true) (limit : Int) :
    (f.parse (Bag.ofLimit limit)).2.hasErrors = true ↔
      (beforeError all).length < (Bag.ofLimit limit).limit := by
  rw [h.parse_bag rfl, Bag.hasErrors]
  exact any_take_iff herror _

theorem parsed_eq (f : SourceFile) (bag : Bag) :
    f.parsed bag = (if (f.parse bag).2.hasErrors then .error .syntaxErrors
      else .ok (f.parse bag).1, (f.parse bag).2) := by
  unfold parsed
  cases f.parse bag
  rfl

theorem parsed_of_errors {f : SourceFile} {bag : Bag}
    (herrors : (f.parse bag).2.hasErrors = true) :
    f.parsed bag = (.error .syntaxErrors, (f.parse bag).2) := by rw [parsed_eq, if_pos herrors]

theorem parsed_of_no_errors {f : SourceFile} {bag : Bag}
    (herrors : (f.parse bag).2.hasErrors = false) :
    f.parsed bag = (.ok (f.parse bag).1, (f.parse bag).2) := by
  rw [parsed_eq, if_neg (by simp [herrors])]

theorem format_eq_syntaxErrors_iff (f : SourceFile) (s : Settings) (bag : Bag) :
    (f.format s bag).1 = .error .syntaxErrors ↔ (f.parse bag).2.hasErrors = true := by
  rw [format_eq]
  cases herrors : (f.parse bag).2.hasErrors with
  | true => simp [parsed_of_errors herrors, Except.map]
  | false => simp [parsed_of_no_errors herrors, Except.map]

/-- Only the number and the content of a file matter for parsing. -/
theorem parse_congr {f g : SourceFile} (hid : f.id = g.id) (hcontent : f.content = g.content)
    (bag : Bag) : f.parse bag = g.parse bag := by
  have htokens : f.tokens = g.tokens := by
    rw [tokens, tokens, Lexer.ofFile, Lexer.ofFile, hid, hcontent]
  rw [parse, parse, parseWith, parseWith, htokens]

end SourceFile

end VhdlStyle
