import VhdlStyle.Format
import VhdlStyle.Proofs.Layout.Writing
import VhdlStyle.Proofs.Printing.Grouped
import VhdlStyle.Proofs.Printing.Kept

/-! # Rows that fit stay on one line

The rows of the constructs whose breaks all stand in groups are on one line of the output wherever
they fit. A break that stands in no group is taken even where there is room. -/

namespace VhdlStyle

/-! ## Rows of a file -/

namespace Row

instance : DecidablePred Unforced := fun r =>
  match r with
  | .line _ => inferInstanceAs (Decidable (_ = _))
  | .cells _ _ => inferInstanceAs (Decidable (_ ∧ _))

instance : DecidablePred Grouped := fun r =>
  match r with
  | .line _ => inferInstanceAs (Decidable (_ = _))
  | .cells _ _ => inferInstanceAs (Decidable (_ ∧ _))

instance (o : LayoutOptions) (level : Int) : DecidablePred (HasRoom o level) := fun _ =>
  inferInstanceAs (Decidable (_ ≤ _))

end Row

/-- A row found by running the parser. -/
theorem SourceFile.exists_row (f : SourceFile) (s : Settings) (bag : Bag) {P : PlacedRow → Bool}
    (h : ((f.parsed bag).1.toOption.any fun design => (design.rows s).any P) = true) :
    ∃ design x, (f.parsed bag).1 = .ok design ∧ x ∈ design.rows s ∧ P x = true := by
  cases hparse : (f.parsed bag).1 with
  | error fault =>
      rw [hparse] at h
      cases h
  | ok design =>
      rw [hparse] at h
      obtain ⟨x, hx, hP⟩ := List.any_eq_true.mp h
      exact ⟨design, x, rfl, hx, hP⟩

/-- A row is printed for a construct of the file, and laid out at the start of a line or inside a
group that is on one line. A row that forces no break, and that has room on a line of its own at the
level at which it is printed, is on one line of the output, from its place on, if all breaks of the
construct stand in groups. If not, the row is broken, but inside a group that is on one line. -/
theorem fitting_rows_stay_on_one_line (f : SourceFile) (s : Settings) (bag : Bag)
    (design : DesignFile) (hparse : (f.parsed bag).1 = .ok design) (x : PlacedRow)
    (hx : x ∈ design.rows s) (hforced : x.row.Unforced)
    (hroom : x.row.HasRoom (s.layout (s.newline f.flags.hadCrlf)).normalize x.level) :
    ∃ output c, (f.format s bag).1 = .ok output ∧
      design.Contains c ∧ c.Prints (design.printer s) x.row ∧ (c.whole = true ↔ x.row.Grouped) ∧
      (∃ v, design.LaysOut s (s.newline f.flags.hadCrlf) x v) ∧
      ∀ v, design.LaysOut s (s.newline f.flags.hadCrlf) x v →
        (v.flat = true ∨ c.whole = true →
          ∃ text, x.OnOneLine (s.layout (s.newline f.flags.hadCrlf)).normalize v text output) ∧
        (v.flat = false → c.whole = false →
          ∃ text, x.OnLines (s.layout (s.newline f.flags.hadCrlf)).normalize v text output) := by
  generalize hnewline : s.newline f.flags.hadCrlf = newline at hroom ⊢
  have hends : IsNewline newline := hnewline ▸ s.isNewline_newline _
  have hlf : Bytes.lf ∈ (s.layout newline).normalize.newline := by
    rw [LayoutOptions.newline_normalize (o := s.layout newline) hends]
    exact hends.lf_mem
  obtain ⟨c, hc, hprints⟩ := design.explains_rows s x hx
  have hgrouped := hprints.grouped_iff hforced
  have hformat : (f.format s bag).1 = .ok (design.render s newline) := by
    rw [f.format_eq, hparse, hnewline]
    rfl
  refine ⟨_, c, hformat, hc, hprints, hgrouped.symm, design.exists_place s newline hx, ?_⟩
  intro v hv
  constructor
  · intro hwhole
    have hfits : v.flat = false → x.Fits (s.layout newline).normalize := fun hflat =>
      ⟨hforced, hgrouped.mpr (hwhole.resolve_left (by simp [hflat])), hroom⟩
    obtain ⟨text, hline⟩ := hv.startsAt.onOneLine hfits hv.staysIn
    exact ⟨text, hline.mono (design.result_isPrefix s newline)⟩
  · intro hflat hwhole
    obtain ⟨text, hlines⟩ := (hprints.breaks hlf hwhole).onLines hflat hv.staysIn
    exact ⟨text, hlines.mono (design.result_isPrefix s newline)⟩

/-- A variable assignment of exactly the width of the line. -/
theorem fitting_rows_stay_on_one_line_assignment :
    let f := SourceFile.ofBytes "a.vhd"
      "architecture a of e is begin process begin vv := alpha and beta; end process; end;"
    let s : Settings := { lineLength := 25 }
    ∃ design x, (f.parsed (Bag.ofLimit 100)).1 = .ok design ∧ x ∈ design.rows s ∧
      x.row.texts = [("vv := alpha and beta;" : Bytes)] ∧ x.row.Unforced ∧ x.row.Grouped ∧
      x.row.HasRoom (s.layout (s.newline f.flags.hadCrlf)).normalize x.level ∧
      ∃ output v, (f.format s (Bag.ofLimit 100)).1 = .ok output ∧
        design.LaysOut s (s.newline f.flags.hadCrlf) x v ∧
        x.OnOneLine (s.layout (s.newline f.flags.hadCrlf)).normalize v "vv := alpha and beta;"
          output := by
  intro f s
  obtain ⟨design, x, hparse, hx, hrow⟩ := f.exists_row s (Bag.ofLimit 100)
    (P := fun x => decide (x.row.texts = [("vv := alpha and beta;" : Bytes)] ∧ x.row.Unforced ∧
      x.row.Grouped ∧
      x.row.HasRoom (s.layout (s.newline f.flags.hadCrlf)).normalize x.level)) (by decide +kernel)
  obtain ⟨htexts, hforced, hgrouped, hroom⟩ := of_decide_eq_true hrow
  obtain ⟨output, c, hformat, -, -, hwhole, ⟨v, hv⟩, hplaced⟩ :=
    fitting_rows_stay_on_one_line f s _ design hparse x hx hforced hroom
  obtain ⟨text, hline⟩ := (hplaced v hv).1 (.inr (hwhole.mpr hgrouped))
  obtain rfl : text = "vv := alpha and beta;" := by
    simpa [htexts] using hline.mem_texts
  exact ⟨design, x, hparse, hx, htexts, hforced, hgrouped, hroom, output, v, hformat, hv, hline⟩

/-- The time of a wait statement stands in no group, and is broken although there is room. -/
theorem wait_is_broken_despite_room :
    let f := SourceFile.ofBytes "a.vhd"
      "architecture a of e is begin process begin wait for a + b; end process; end;"
    let s : Settings := {}
    ∃ design x, (f.parsed (Bag.ofLimit 100)).1 = .ok design ∧ x ∈ design.rows s ∧
      x.row.texts = [("wait for a + b;" : Bytes)] ∧ x.row.Unforced ∧ ¬x.row.Grouped ∧
      x.row.HasRoom (s.layout (s.newline f.flags.hadCrlf)).normalize x.level ∧
      ∃ before after, (f.format s (Bag.ofLimit 100)).1.toOption =
        some (before ++ "    wait for a +\n    b;\n" ++ after) := by
  intro f s
  obtain ⟨design, x, hparse, hx, hrow⟩ := f.exists_row s (Bag.ofLimit 100)
    (P := fun x => decide (x.row.texts = [("wait for a + b;" : Bytes)] ∧ x.row.Unforced ∧
      ¬x.row.Grouped ∧
      x.row.HasRoom (s.layout (s.newline f.flags.hadCrlf)).normalize x.level)) (by decide +kernel)
  obtain ⟨htexts, hforced, hgrouped, hroom⟩ := of_decide_eq_true hrow
  refine ⟨design, x, hparse, hx, htexts, hforced, hgrouped, hroom,
    "architecture a of e is\nbegin\n  process\n  begin\n",
    "  end process;\nend architecture a;\n", ?_⟩
  decide +kernel

end VhdlStyle
