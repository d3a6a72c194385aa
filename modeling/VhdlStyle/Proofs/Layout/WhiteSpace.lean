import VhdlStyle.Proofs.Layout.Writing

/-! # Layout changes only white space

Every byte of a document that is not white space is written once and in its place. -/

namespace VhdlStyle

namespace Bytes

/-- A byte that a layout may add or remove. -/
def isWhite (b : UInt8) : Bool := b == space || b == tab || b == cr || b == lf

/-- The bytes that are not white space. -/
def visible (s : Bytes) : Bytes := s.filter fun b => !isWhite b

@[simp] theorem visible_append (s t : Bytes) : visible (s ++ t) = visible s ++ visible t :=
  List.filter_append s t

theorem visible_of_blank {s : Bytes} (h : ∀ c ∈ s, Writer.isBlank c = true) : visible s = [] := by
  rw [visible, List.filter_eq_nil_iff]
  intro c hc
  have hblank := h c hc
  rw [Writer.isBlank, Bool.or_eq_true] at hblank
  rcases hblank with hblank | hblank <;> simp [isWhite, hblank]

theorem visible_newline {newline : Bytes} (h : IsNewline newline) : visible newline = [] := by
  rcases h with rfl | rfl <;> decide

/-- Trimming removes only white space. -/
theorem visible_trimRight (s : Bytes) : visible (trimRight Writer.isBlank s) = visible s := by
  have hblank : visible (s.rtakeWhile Writer.isBlank) = [] :=
    visible_of_blank fun c hc => List.mem_rtakeWhile_imp hc
  have hsplit := congrArg visible (Writer.trimRight_append s)
  rwa [visible_append, hblank, List.append_nil] at hsplit

/-- Lines may be trimmed and end in another line end. -/
theorem visible_lines {newline : Bytes} (h : IsNewline newline) (lines : List Bytes) :
    visible (lines.flatMap (newline ++ trimRight Writer.isBlank ·)) =
      visible (lines.flatMap (lf :: ·)) := by
  induction lines with
  | nil => rfl
  | cons line lines ih =>
      rw [List.flatMap_cons, List.flatMap_cons, visible_append, visible_append, visible_append,
        visible_newline h, visible_trimRight, ih]
      rfl

end Bytes

namespace Piece

open Bytes

/-- A text is written with all it shows. -/
theorem visible_written {newline : Bytes} (h : IsNewline newline) (s : Bytes) :
    visible (written newline s) = visible s := by
  obtain ⟨first, rest, hsplit⟩ := List.exists_cons_of_ne_nil (split_ne_nil lf s)
  rw [written_eq hsplit, visible_append, visible_trimRight, visible_lines h,
    ← visible_append, ← eq_of_split hsplit]

/-- Only the texts among pieces show something. -/
theorem visible_output {newline : Bytes} (h : IsNewline newline) (ps : List Piece) :
    visible (output newline ps) = visible (texts ps).flatten := by
  induction ps with
  | nil => rfl
  | cons p ps ih =>
      rw [output_cons, visible_append, ih]
      cases p with
      | text s => simp [bytes, visible_written h]
      | blank tab => cases tab <;> rfl
      | newline => simp [bytes, visible_newline h]

end Piece

/-- Layout changes only white space: without it, every rendering is the texts of the document in
their order. -/
theorem render_shows_leaves (d : Doc) (o : LayoutOptions) (ho : IsNewline o.newline) :
    Bytes.visible (d.render o) = Bytes.visible d.leaves.flatten := by
  obtain ⟨ps, hlaid, hrender⟩ := d.render_laid ho
  rw [hrender, Piece.visible_output ho, hlaid.texts_eq, itemLeaves_cons]
  simp [itemLeaves]

/-- A broken table under a comment and a text of two lines are written with all they show. -/
theorem render_shows_table_and_lines :
    let table := Doc.table [.mk [.text "-- c"] [.text "a", .empty, .text "b"] (.text ";"),
      .mk [] [.text "cd"] .hardLine] [3, 0, 7] .softLine
    let d := Doc.group (.concat [.indent (-1) (.text "x \n  y"), .line, table])
    let o : LayoutOptions := { newline := "\r\n", tabs := true }
    IsNewline o.newline ∧ Bytes.visible (d.render o) = Bytes.visible d.leaves.flatten :=
  ⟨by decide, render_shows_leaves _ _ (by decide)⟩

end VhdlStyle
