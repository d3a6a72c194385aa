import VhdlStyle.Proofs.Layout.SideBySide
import VhdlStyle.Proofs.Layout.Writing

/-! # Documents one below the other

At the left margin the end of a line brings the writer back to where it started. Documents with
line ends between them are therefore written as each of them is written on its own. -/

namespace VhdlStyle

namespace Writer

/-- The writer, with a text written above all it has written. -/
def below (above : Bytes) (w : Writer) : Writer := { w with out := w.out ++ above.reverse }

variable {o : LayoutOptions} {above : Bytes}

/-- Blanks are dropped only as far as the text above. -/
theorem dropWhile_below (habove : Trimmed above) (out : Bytes) :
    (out ++ above.reverse).dropWhile isBlank = out.dropWhile isBlank ++ above.reverse := by
  have htrimmed : above.reverse.dropWhile isBlank = above.reverse :=
    List.reverse_inj.mp (habove.trans (List.reverse_reverse _).symm)
  rw [List.dropWhile_append]
  split
  · rename_i hnil
    rw [List.isEmpty_iff.mp hnil, htrimmed, List.nil_append]
  · rfl

theorem push_below (w : Writer) (s : Bytes) : (w.below above).push s = (w.push s).below above := by
  simp [below, push]

theorem startLine_below (w : Writer) :
    (w.below above).startLine o = (w.startLine o).below above := by
  rw [startLine, startLine]
  split
  · rename_i hstart
    rw [if_pos (show (!w.atLineStart) = true from hstart)]
  · rename_i hstart
    rw [if_neg (show ¬(!w.atLineStart) = true from hstart)]
    simp [below, push]

theorem newline_below (habove : Trimmed above) (w : Writer) (indent : Int) :
    (w.below above).newline o indent = (w.newline o indent).below above := by
  simp [below, newline, dropWhile_below habove]

theorem textLines_below (habove : Trimmed above) (lines : List Bytes) (w : Writer) :
    textLines o (w.below above) lines = (textLines o w lines).below above := by
  induction lines generalizing w with
  | nil => rfl
  | cons line lines ih =>
      rw [textLines, List.foldl_cons, newline_below habove, push_below]
      exact ih { (w.newline o 0).push line with col := Cells.width line, atLineStart := false }

/-- No step looks at the text above. -/
theorem below_inStep (habove : Trimmed above) : InStep o o fun w w' => w = w'.below above where
  width := rfl
  column := by
    rintro _ w rfl
    rfl
  newline := by
    rintro _ w indent rfl
    exact newline_below habove w indent
  text := by
    rintro _ w s rfl
    obtain ⟨first, rest, hsplit⟩ := List.exists_cons_of_ne_nil (Bytes.split_ne_nil Bytes.lf s)
    simp only [text, hsplit]
    rw [← textLines_below habove]
    congr 1
    split
    · rfl
    · rw [startLine_below, push_below]
      rfl
  spaces := by
    rintro _ w n rfl
    rw [spaces, spaces]
    split
    · rfl
    · simp only [startLine_below, push_below]
      rfl

theorem result_below (habove : Trimmed above) (w : Writer) :
    (w.below above).result = above ++ w.result := by
  simp [below, result, dropWhile_below habove]

/-- After the end of a line at the margin the writer is as at its start. -/
theorem newline_margin (w : Writer) :
    w.newline o 0 = ({} : Writer).below (w.result ++ o.newline) := by
  simp [below, newline, result]

end Writer

namespace Doc

open Writer

variable {o : LayoutOptions}

/-- A document written at the margin, on its own. -/
def onItsOwn (o : LayoutOptions) (d : Doc) : Bytes := (write o 0 false 0 d {}).result

theorem write_below {above : Bytes} (habove : Trimmed above) (d : Doc) :
    write o 0 false 0 d (({} : Writer).below above) =
      (write o 0 false 0 d {}).below above :=
  have hstep : InStep o o fun w w' => w = w'.below above := below_inStep habove
  hstep.write 0 false 0 d rfl

theorem result_writeAll (ho : IsNewline o.newline) (d : Doc) (ds : List Doc) {above : Bytes}
    (habove : Trimmed above) :
    (writeAll o 0 false 0 ((d :: ds).intersperse .hardLine) (({} : Writer).below above)).result =
      above ++ o.newline.intercalate ((d :: ds).map (onItsOwn o)) := by
  induction ds generalizing d above with
  | nil =>
      rw [List.map_singleton, List.intercalate_singleton, onItsOwn, ← result_below habove,
        ← write_below habove]
      rfl
  | cons e rest ih =>
      have hends : Trimmed (above ++ onItsOwn o d ++ o.newline) :=
        trimmed_append (trimmed_newline ho) (newline_ne_nil ho)
      have hrest := ih e hends
      -- a line end follows, so nothing behind the first document is on its line
      have hstep : writeAll o 0 false 0 ((d :: e :: rest).intersperse .hardLine)
          (({} : Writer).below above) = writeAll o 0 false 0 ((e :: rest).intersperse .hardLine)
            ((write o 0 false 0 d (({} : Writer).below above)).newline o 0) := rfl
      rw [hstep, write_below habove, newline_margin, result_below habove, List.map_cons,
        List.map_cons, List.intercalate_cons_cons, ← List.map_cons]
      exact hrest.trans (by simp only [List.append_assoc])

/-- Documents on lines of their own at the margin are laid out one by one. -/
theorem render_lines (ho : IsNewline o.newline) (ds : List Doc) :
    (concat (ds.intersperse .hardLine)).render o =
      o.newline.intercalate (ds.map fun d => d.render o) := by
  have hnormal := LayoutOptions.newline_normalize ho
  cases ds with
  | nil => rfl
  | cons d rest =>
      have hmargin : Trimmed [] := rfl
      have hlines := result_writeAll (o := o.normalize) (hnormal.symm ▸ ho) d rest hmargin
      rw [hnormal, List.nil_append] at hlines
      exact hlines

end Doc

end VhdlStyle
