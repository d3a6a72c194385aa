import Mathlib.Data.List.Basic
import VhdlStyle.Proofs.Lexing.Munch
import VhdlStyle.Proofs.Text.Numbers
import VhdlStyle.Proofs.Text.Splitting
import VhdlStyle.Settings.Encode

/-! # Settings can be read off their text

Every value stands on a line of its own and has no line feed in it, so the text of the settings
falls apart into its lines in one way only. -/

namespace VhdlStyle

/-! ## Quoted texts -/

namespace Toml

/-- The bytes that a quoted text cannot hold as they are. -/
def escaped : Bytes := 34 :: 92 :: 127 :: (List.range 32).map UInt8.ofNat

/-- All other bytes are kept. -/
theorem escapeByte_eq_or_mem : ∀ b, escapeByte b = [b] ∨ b ∈ escaped :=
  Lexeme.byte_induction (by decide +kernel)

theorem head?_escapeByte : ∀ b ∈ escaped, (escapeByte b).head? = some ('\\' : UInt8) := by
  decide +kernel

theorem escapeByte_ne_nil : ∀ b, escapeByte b ≠ [] :=
  Lexeme.byte_induction (by decide +kernel)

theorem lf_not_mem_escapeByte : ∀ b, Bytes.lf ∉ escapeByte b :=
  Lexeme.byte_induction (by decide +kernel)

variable {b c : UInt8} {s t x y : Bytes}

/-- The backslash tells the escaped bytes from the others. -/
theorem mem_escaped_iff : b ∈ escaped ↔ (escapeByte b).head? = some ('\\' : UInt8) := by
  constructor
  · exact head?_escapeByte b
  · intro hhead
    by_contra hb
    rw [(escapeByte_eq_or_mem b).resolve_right hb, List.head?_cons, Option.some.injEq] at hhead
    exact hb (hhead ▸ by decide)

theorem head?_append (h : escapeByte b ++ x = escapeByte c ++ y) :
    (escapeByte b).head? = (escapeByte c).head? := by
  rw [← List.head?_append_of_ne_nil _ (escapeByte_ne_nil b), h,
    List.head?_append_of_ne_nil _ (escapeByte_ne_nil c)]

/-- No escape is the front of another. -/
theorem eq_of_escaped_front : ∀ b ∈ escaped, ∀ c ∈ escaped,
    escapeByte b <+: escapeByte c → b = c := by
  decide +kernel

/-- A byte can be told from everything that follows it. -/
theorem escapeByte_append (h : escapeByte b ++ x = escapeByte c ++ y) : b = c ∧ x = y := by
  have hboth : b ∈ escaped ↔ c ∈ escaped := by
    rw [mem_escaped_iff, mem_escaped_iff, head?_append h]
  by_cases hb : b ∈ escaped
  · have hc := hboth.mp hb
    have hfront : escapeByte b <+: escapeByte c ++ y := h ▸ List.prefix_append _ _
    obtain rfl : b = c := by
      rcases List.prefix_or_prefix_of_prefix hfront (List.prefix_append _ _) with hbc | hcb
      · exact eq_of_escaped_front b hb c hc hbc
      · exact (eq_of_escaped_front c hc b hb hcb).symm
    exact ⟨rfl, List.append_cancel_left h⟩
  · have hc : c ∉ escaped := fun hc => hb (hboth.mpr hc)
    rw [(escapeByte_eq_or_mem b).resolve_right hb, (escapeByte_eq_or_mem c).resolve_right hc] at h
    exact List.cons.inj h

theorem flatMap_escapeByte_injective : Function.Injective (List.flatMap escapeByte) := by
  intro s t h
  induction s generalizing t with
  | nil =>
      cases t with
      | nil => rfl
      | cons c t => simp [escapeByte_ne_nil] at h
  | cons b s ih =>
      cases t with
      | nil => simp [escapeByte_ne_nil] at h
      | cons c t =>
          rw [List.flatMap_cons, List.flatMap_cons] at h
          obtain ⟨rfl, hrest⟩ := escapeByte_append h
          rw [ih hrest]

theorem quote_injective : Function.Injective quote := by
  intro s t h
  simp only [quote, List.flatten_cons, List.flatten_nil, List.append_nil] at h
  exact flatMap_escapeByte_injective (List.append_cancel_right (List.append_cancel_left h))

theorem lf_not_mem_quote (s : Bytes) : Bytes.lf ∉ quote s := by
  have hends : Bytes.lf ∉ Bytes.ofString "\"" := by decide
  simp [quote, hends, lf_not_mem_escapeByte]

end Toml

/-! ## Lines and tables -/

namespace Settings

open Bytes

theorem boolText_injective : Function.Injective boolText := by
  intro b c
  revert b c
  decide

theorem lf_not_mem_boolText : ∀ b, lf ∉ boolText b := by decide

variable {margin name value value' x y : Bytes} {s s' : Settings}

/-- The value on a line can be told from everything below. -/
theorem line_append (hvalue : lf ∉ value) (hvalue' : lf ∉ value')
    (h : line margin name value ++ x = line margin name value' ++ y) : value = value' ∧ x = y := by
  have hlf : Bytes.ofString "\n" = [lf] := by decide
  simp only [line, hlf, List.flatten_cons, List.flatten_nil, List.append_nil, List.append_assoc,
    List.append_cancel_left_eq, List.singleton_append] at h
  exact append_cons_inj hvalue hvalue' h

/-- The values in a table can be told from everything below. -/
theorem sectionText_append {entries entries' : List (Bytes × Bytes)}
    (h : sectionText name entries ++ x = sectionText name entries' ++ y)
    (hnames : entries.map Prod.fst = entries'.map Prod.fst)
    (hvalues : ∀ e ∈ entries, lf ∉ e.2) (hvalues' : ∀ e ∈ entries', lf ∉ e.2) :
    entries = entries' ∧ x = y := by
  simp only [sectionText, List.flatten_cons, List.flatten_nil, List.append_nil, List.append_assoc,
    List.append_cancel_left_eq] at h
  induction entries generalizing entries' with
  | nil =>
      obtain rfl : entries' = [] := List.map_eq_nil_iff.mp hnames.symm
      exact ⟨rfl, h⟩
  | cons e entries ih =>
      cases entries' with
      | nil => cases hnames
      | cons e' entries' =>
          obtain ⟨hname, hnames⟩ := List.cons.inj hnames
          rw [List.forall_mem_cons] at hvalues hvalues'
          rw [List.flatMap_cons, List.flatMap_cons, List.append_assoc, List.append_assoc, hname] at h
          obtain ⟨hvalue, h⟩ := line_append hvalues.1 hvalues'.1 h
          obtain ⟨rfl, hbelow⟩ := ih hnames hvalues.2 hvalues'.2 h
          rw [Prod.ext hname hvalue]
          exact ⟨rfl, hbelow⟩

/-- A table never begins like the line of the version constraint. -/
theorem line_ne_sectionText {other : Bytes} {entries : List (Bytes × Bytes)}
    (hname : name.head? ≠ some lf) (hne : name ≠ []) :
    line [] name value ++ x ≠ sectionText other entries ++ y := by
  intro h
  have hlf : Bytes.ofString "\n[" = [lf, '['] := by decide
  have hhead := congrArg List.head? h
  simp only [line, sectionText, hlf, List.flatten_cons, List.nil_append, List.append_assoc,
    List.cons_append, List.head?_cons] at hhead
  rw [List.head?_append_of_ne_nil _ hne] at hhead
  exact hname hhead

/-- The version constraint can be told from its absence and from the tables below. -/
theorem required_append {entries entries' : List (Bytes × Bytes)}
    (h : (if value.isEmpty then [] else line [] "required_version" (Toml.quote value)) ++
        (sectionText name entries ++ x) =
      (if value'.isEmpty then [] else line [] "required_version" (Toml.quote value')) ++
        (sectionText name entries' ++ y)) :
    value = value' ∧ sectionText name entries ++ x = sectionText name entries' ++ y := by
  by_cases hvalue : value = [] <;> by_cases hvalue' : value' = []
  · subst hvalue hvalue'
    exact ⟨rfl, h⟩
  · rw [if_pos (by simp [hvalue]), if_neg (by simp [hvalue'])] at h
    exact absurd h.symm (line_ne_sectionText (by decide) (by decide))
  · rw [if_neg (by simp [hvalue]), if_pos (by simp [hvalue'])] at h
    exact absurd h (line_ne_sectionText (by decide) (by decide))
  · rw [if_neg (by simp [hvalue]), if_neg (by simp [hvalue'])] at h
    obtain ⟨hquote, hbelow⟩ :=
      line_append (Toml.lf_not_mem_quote _) (Toml.lf_not_mem_quote _) h
    exact ⟨Toml.quote_injective hquote, hbelow⟩

/-- Different settings are written differently. -/
theorem encode_injective : Function.Injective encode := by
  intro s s' h
  have hnumber (n : Int) : lf ∉ ofInt n := not_mem_ofInt (by decide) (by decide)
  have hquote := Toml.lf_not_mem_quote
  have hbool := lf_not_mem_boolText
  simp only [encode, List.flatten_cons, List.flatten_nil] at h
  obtain ⟨hlength, h⟩ := line_append (hnumber _) (hnumber _) h
  obtain ⟨hindent, h⟩ := line_append (hnumber _) (hnumber _) h
  obtain ⟨hstyle, h⟩ := line_append (hquote _) (hquote _) h
  obtain ⟨heol, h⟩ := line_append (hquote _) (hquote _) h
  obtain ⟨hrequired, h⟩ := required_append h
  obtain ⟨hcasing, h⟩ := sectionText_append h rfl (by simp [hquote]) (by simp [hquote])
  obtain ⟨hports, h⟩ := sectionText_append h rfl (by simp [hbool]) (by simp [hbool])
  obtain ⟨hdeclarations, -⟩ := sectionText_append h rfl (by simp [hbool]) (by simp [hbool])
  simp only [List.cons.injEq, Prod.mk.injEq, true_and, and_true] at hcasing hports hdeclarations
  cases s
  cases s'
  simp_all [ofInt_injective.eq_iff, Toml.quote_injective.eq_iff, boolText_injective.eq_iff]

end Settings

end VhdlStyle
