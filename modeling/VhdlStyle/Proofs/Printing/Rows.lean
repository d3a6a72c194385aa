import VhdlStyle.Proofs.Comments.Collected
import VhdlStyle.Proofs.Printing.Flow
import VhdlStyle.Design.Interface.Printer

/-! # Rows in print

The comments of a row go on lines of their own above it and behind it at the end of its line, in
the blocks of statements and declarations as well as in the tables of lists. -/

namespace VhdlStyle

open Doc (Shows Breaks)

/-! ## Comments behind a row and above it -/

section

variable {due : Bool} (t : RowTrivia) {sep : Bytes}

theorem Doc.shows_inline (comment : Bytes) :
    Shows false [Doc.inline comment] true (RowTrivia.behind comment) := by
  rw [Doc.inline, RowTrivia.behind]
  split
  · exact Shows.empty.mono (Bool.le_refl _) (Bool.le_true _)
  · have htext := Shows.after_code Doc.quiet_space (Shows.text comment)
    have h := Shows.breakParent.cons htext
    rw [zero_add] at h
    exact h.concat

theorem Doc.breaks_inline (comment : Bytes) : Breaks (Doc.inline comment) := by
  rw [Doc.inline]
  split
  · exact .inl Doc.quiet_empty
  · exact .inr rfl

theorem Doc.shows_rowTail (last : Bool) (hsep : sep.isCode = true) :
    Shows false [Doc.rowTail t last sep] true (RowTrivia.behind t.inline) := by
  refine (Shows.after_code ?_ (Doc.shows_inline t.inline)).concat
  split
  · exact Doc.quiet_empty
  · exact Doc.quiet_text.mpr hsep

theorem Doc.breaks_rowTail (last : Bool) (hsep : sep.isCode = true) :
    Breaks (Doc.rowTail t last sep) := by
  refine .concat fun d hd => ?_
  rcases List.mem_pair.mp hd with rfl | rfl
  · refine .inl ?_
    split
    · exact Doc.quiet_empty
    · exact Doc.quiet_text.mpr hsep
  · exact Doc.breaks_inline t.inline

/-- Lines of their own. -/
def Doc.ended (ds : List Doc) : List Doc := ds.flatMap fun d => [d, .hardLine]

theorem Doc.shows_ended_text (s : Bytes) : Shows false (Doc.ended [.text s]) false {s} :=
  (Shows.text s).append Shows.hardLine

theorem Doc.shows_ended_empty : Shows false (Doc.ended [.empty]) false 0 :=
  Shows.empty.append Shows.hardLine

theorem Doc.ended_append (xs ys : List Doc) : Doc.ended (xs ++ ys) = Doc.ended xs ++ Doc.ended ys :=
  List.flatMap_append

/-- A comment of its own line, and maybe a blank line above it. -/
theorem Doc.shows_ended_line (blank : Bool) (c : Comment) :
    Shows false (Doc.ended (if blank then [.empty, .text c.text] else [.text c.text])) false
      {c.text} := by
  split
  · have h := Doc.shows_ended_empty.append (Doc.shows_ended_text c.text)
    rwa [zero_add] at h
  · exact Doc.shows_ended_text c.text

theorem Doc.shows_ended_lines (blank : Comment → Bool) (cs : List Comment) :
    Shows false (Doc.ended (cs.flatMap fun c =>
      if blank c then [.empty, .text c.text] else [.text c.text])) false (Comment.texts cs) := by
  induction cs with
  | nil => exact .nil
  | cons c rest ih =>
      rw [List.flatMap_cons, Doc.ended_append]
      exact (Doc.shows_ended_line (blank c) c).append ih

theorem Doc.shows_leadingLines (top : Bool) :
    Shows false (Doc.ended (Doc.leadingLines t top)) false t.above := by
  have hblank (p : Bool) : Shows false (Doc.ended (if p then [.empty] else [])) false 0 := by
    split
    · exact Doc.shows_ended_empty
    · exact .nil
  rw [Doc.leadingLines, Doc.ended_append, RowTrivia.above, ← add_zero (Comment.texts _)]
  refine Shows.append ?_ (hblank _)
  split
  · rename_i hnone
    rw [hnone]
    exact .nil
  · rename_i c rest hsome
    rw [hsome, Doc.ended_append]
    exact (Doc.shows_ended_line _ c).append (Doc.shows_ended_lines _ rest)

end

/-! ## Blocks -/

/-- The lines of a block, last one first, show those of the texts that are not code. -/
inductive Block.LinesShow : List (Option Doc) → Multiset Bytes → Prop where
  | nil : LinesShow [] 0
  | blank {lines : List (Option Doc)} {cs : Multiset Bytes} (h : LinesShow lines cs) :
      LinesShow (none :: lines) cs
  | line {lines : List (Option Doc)} {d : Doc} {cs cs' : Multiset Bytes} (h : LinesShow lines cs)
      (hd : Shows false [d] true cs') : LinesShow (some d :: lines) (cs + cs')

namespace Block

/-- The block shows those of the texts that are not code. -/
def Shows (b : Block) (cs : Multiset Bytes) : Prop := LinesShow b.lines cs

theorem LinesShow.dropBlanks {lines : List (Option Doc)} {cs : Multiset Bytes}
    (h : LinesShow lines cs) : LinesShow (lines.dropWhile Option.isNone) cs := by
  induction h with
  | nil => exact .nil
  | blank _ ih => exact ih
  | line h hd => exact .line h hd

theorem intersperse_concat {α : Type} (sep x : α) {xs : List α} (hxs : xs ≠ []) :
    (xs ++ [x]).intersperse sep = xs.intersperse sep ++ [sep, x] := by
  induction xs with
  | nil => exact absurd rfl hxs
  | cons y ys ih =>
      cases ys with
      | nil => rfl
      | cons z zs =>
          have hrest := ih (List.cons_ne_nil z zs)
          rw [List.cons_append] at hrest
          rw [List.cons_append, List.cons_append, List.intersperse_cons_cons, hrest,
            List.intersperse_cons_cons, List.cons_append, List.cons_append]

/-- The lines of a block, last one first, with the line ends between them. -/
def stacked (lines : List (Option Doc)) : List Doc :=
  (lines.reverse.map fun line => line.getD .empty).intersperse .hardLine

theorem stacked_cons (line : Option Doc) {lines : List (Option Doc)} (hlines : lines ≠ []) :
    stacked (line :: lines) = stacked lines ++ [.hardLine, line.getD .empty] := by
  rw [stacked, List.reverse_cons, List.map_append]
  exact intersperse_concat _ _ (by simpa using hlines)

theorem LinesShow.stacked_cons {lines : List (Option Doc)} (line : Option Doc)
    {cs cs' : Multiset Bytes} (h : LinesShow lines cs)
    (hlines : Doc.Shows false (stacked lines) true cs)
    (hline : Doc.Shows false [line.getD .empty] true cs') :
    Doc.Shows false (stacked (line :: lines)) true (cs + cs') := by
  cases lines with
  | nil =>
      cases h
      rw [zero_add]
      exact hline
  | cons next lines =>
      rw [Block.stacked_cons line (List.cons_ne_nil next lines)]
      exact hlines.append hline.after_hardLine

theorem LinesShow.stacked {lines : List (Option Doc)} {cs : Multiset Bytes}
    (h : LinesShow lines cs) : Doc.Shows false (stacked lines) true cs := by
  induction h with
  | nil => exact Doc.Shows.nil.mono (Bool.le_refl _) (Bool.le_true _)
  | blank h ih =>
      have hempty : Doc.Shows false [.empty] true 0 :=
        Doc.Shows.empty.mono (Bool.le_refl _) (Bool.le_true _)
      have hlines := h.stacked_cons none ih hempty
      rwa [add_zero] at hlines
  | @line lines d cs cs' h hd ih => exact h.stacked_cons (some d) ih hd

variable {b : Block} {d body : Doc} {cs cs' : Multiset Bytes}

theorem shows_empty : Shows {} 0 := .nil

theorem Shows.add (h : b.Shows cs) (hd : Doc.Shows false [d] true cs') :
    (b.add d).Shows (cs + cs') := .line h hd

theorem Shows.blank (h : b.Shows cs) : b.blank.Shows cs := by
  rw [Block.blank]
  split
  · exact h
  · exact h
  · exact LinesShow.blank h

/-- A block that elements are added to one by one shows the comments of each of them. -/
theorem Shows.foldl {α : Type} {add : Block → α → Block} {comments : α → Multiset Bytes}
    {xs : List α} (hadd : ∀ x ∈ xs, ∀ {b cs}, b.Shows cs → (add b x).Shows (cs + comments x))
    (h : b.Shows cs) : (xs.foldl add b).Shows (cs + allComments comments xs) := by
  induction xs generalizing b cs with
  | nil =>
      rw [allComments_nil, add_zero]
      exact h
  | cons x rest ih =>
      rw [List.forall_mem_cons] at hadd
      have hrest := ih hadd.2 (hadd.1 h)
      rw [add_assoc] at hrest
      rw [allComments_cons]
      exact hrest

theorem Shows.comments (h : b.Shows cs) (tail : List Comment) :
    (b.comments tail).Shows (cs + Comment.texts tail) := by
  induction tail generalizing b cs with
  | nil =>
      rw [Comment.texts_nil, add_zero]
      exact h
  | cons c rest ih =>
      have hline : Shows ((if c.blankBefore then b.blank else b).add (.text c.text))
          (cs + {c.text}) := by
        refine Shows.add ?_ (.text c.text)
        split
        · exact h.blank
        · exact h
      have hrest := ih hline
      rw [add_assoc] at hrest
      exact hrest

theorem Shows.leading (h : b.Shows cs) (t : RowTrivia) : (b.leading t).Shows (cs + t.above) := by
  have hcomments := h.comments t.leading
  rw [Block.leading]
  split
  · exact hcomments.blank
  · exact hcomments

/-- A row, with the comments above it and the one behind it. -/
theorem Shows.row (h : b.Shows cs) (t : RowTrivia) (hbody : Doc.Shows false [body] false cs') :
    (b.row t body).Shows (cs + (t.comments + cs')) := by
  have hline := (hbody.append (Doc.shows_inline t.inline)).concat
  have hrow := (h.leading t).add hline
  rw [RowTrivia.comments, add_assoc, add_comm (RowTrivia.behind _), ← add_assoc]
  exact hrow

theorem Shows.doc (h : b.Shows cs) : Doc.Shows false [b.doc] true cs :=
  (LinesShow.dropBlanks h).stacked.concat

theorem Shows.nest {due : Bool} (h : b.Shows cs) : Doc.Shows due [b.nest] true cs := by
  rw [Block.nest]
  split
  · rename_i hnone
    rw [Shows, List.isEmpty_iff.mp hnone] at h
    cases h
    exact Doc.Shows.empty.mono (Bool.le_refl _) (Bool.le_true _)
  · exact h.doc.after_hardLine.concat.indent 1

end Block

theorem Doc.shows_commentLines (tail : List Comment) :
    Shows false [Doc.commentLines tail] true (Comment.texts tail) := by
  have h := (Block.shows_empty.comments tail).doc
  rwa [zero_add] at h

/-! ## Lists in tables -/

namespace Columns

/-- However columns are aligned, a table shows its rows. -/
theorem shows_table {rows : List TableRow} {cs : Multiset Bytes} (hrows : TableRow.AllShow rows cs)
    {sep : Doc} (hsep : Shows true [sep] false 0) (hquiet : sep.Quiet) (enabled : Bool)
    (pad : List Bool) : Shows false [table rows sep enabled pad] true cs := by
  rw [table]
  split
  · exact .table hrows hsep hquiet
  · exact .table hrows hsep hquiet

theorem breaks_table {rows : List TableRow} {cs : Multiset Bytes}
    (hrows : TableRow.AllShow rows cs) {sep : Doc} (hquiet : sep.Quiet) (enabled : Bool)
    (pad : List Bool) : Breaks (table rows sep enabled pad) := by
  rw [table]
  split
  · exact .table hrows hquiet
  · exact .table hrows hquiet

end Columns

namespace Printer

theorem shows_listRows {α : Type} {trivia : α → RowTrivia} {cells : α → List Doc} {sep : Bytes}
    (hsep : sep.isCode = true) (first : Bool) {items : List α}
    (hcells : ∀ item ∈ items, ∀ c ∈ cells item, c.Quiet) :
    TableRow.AllShow (listRows trivia cells sep first items)
      (allComments (fun item => (trivia item).comments) items) := by
  induction items generalizing first with
  | nil => exact .nil
  | cons item rest ih =>
      rw [List.forall_mem_cons] at hcells
      refine .cons ?_ (ih false hcells.2)
      exact .mk (Doc.shows_leadingLines _ _) hcells.1 (Doc.shows_rowTail _ _ hsep)
        (Doc.breaks_rowTail _ _ hsep)

variable {table : Doc} {cs : Multiset Bytes}

theorem shows_withTail (h : Shows false [table] true cs) (tail : List Comment) :
    Shows false [withTail table tail] true (cs + Comment.texts tail) := by
  rw [withTail]
  split
  · rename_i hnone
    rw [List.isEmpty_iff.mp hnone, Comment.texts_nil, add_zero]
    exact h.concat
  · exact (h.append (Doc.shows_commentLines tail).after_hardLine).concat

theorem breaks_withTail (h : Breaks table) (tail : List Comment) :
    Breaks (withTail table tail) := by
  rw [withTail]
  split
  · exact .concat (by simpa using h)
  · exact .inr (Doc.forced_flatAll (d := .hardLine) (by simp) rfl)

end Printer

/-! ## Brackets -/

namespace Doc

variable {opening closing : Bytes} {body br : Doc} {cs : Multiset Bytes}

/-- A bracket with line breaks inside it. -/
def enclosed (opening : Bytes) (br body : Doc) (closing : Bytes) : Doc :=
  .concat [.text opening, .indent 1 (.concat [br, body]), br, .text closing]

theorem Shows.enclosed (h : Shows false [body] true cs) (hbr : ∀ due, Shows due [br] false 0)
    (hopening : opening.isCode = true) (hclosing : closing.isCode = true) :
    Shows false [enclosed opening br body closing] false cs := by
  have hbody := ((hbr false).cons h).concat.indent 1
  have hclose := (hbr true).cons (.code (quiet_text.mpr hclosing))
  have hall := (hbody.cons hclose).after_code (quiet_text.mpr hopening)
  rw [zero_add, zero_add, add_zero] at hall
  exact hall.concat

theorem Breaks.enclosed (h : body.Breaks) (hbr : br.Quiet) (hopening : opening.isCode = true)
    (hclosing : closing.isCode = true) : (Doc.enclosed opening br body closing).Breaks := by
  have hinside : (Doc.indent 1 (.concat [br, body])).Breaks :=
    .indent 1 (.concat (by simpa using ⟨.inl hbr, h⟩))
  refine .concat ?_
  simp only [List.forall_mem_cons, List.not_mem_nil, false_imp_iff, implies_true, and_true]
  exact ⟨.inl (quiet_text.mpr hopening), hinside, .inl hbr, .inl (quiet_text.mpr hclosing)⟩

theorem Shows.bracket (h : Shows false [body] true cs) (hbreaks : body.Breaks)
    (hopening : opening.isCode = true) (hclosing : closing.isCode = true) :
    Shows false [Doc.bracket opening body closing] false cs :=
  .group (h.enclosed (fun _ => .line) hopening hclosing)
    (hbreaks.enclosed quiet_line hopening hclosing)

theorem Shows.wrap (h : Shows false [body] true cs) (hbreaks : body.Breaks)
    (hopening : opening.isCode = true) (hclosing : closing.isCode = true) :
    Shows false [Doc.wrap opening body closing] false cs :=
  .group (h.enclosed (fun _ => .softLine) hopening hclosing)
    (hbreaks.enclosed quiet_softLine hopening hclosing)

theorem Breaks.wrap (h : body.Breaks) (hopening : opening.isCode = true)
    (hclosing : closing.isCode = true) : (Doc.wrap opening body closing).Breaks :=
  .group (h.enclosed quiet_softLine hopening hclosing)

end Doc

end VhdlStyle
