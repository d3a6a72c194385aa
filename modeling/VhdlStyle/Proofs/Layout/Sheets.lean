import Mathlib.Algebra.GroupWithZero.Nat
import VhdlStyle.Proofs.Layout.Fitting

/-! # Layouts as sheets of lines

The output of the writer does not show which of its spaces are breaks that were not taken, and
nothing shows the breaks that leave no space. A document without tables is laid out here as lines
of texts and such breaks, in any measure of the width of texts. In the cells of a terminal, what
the writer writes are the bytes of these lines. -/

namespace VhdlStyle

/-! ## Documents of text and breaks -/

/-- A document without tables and break marks. -/
inductive Prose where
  | text (s : Bytes)
  | line
  | softLine
  | hardLine
  | indent (levels : Int) (body : Prose)
  | group (body : Prose)
  | concat (parts : List Prose)

namespace Doc

mutual

/-- There is no table and no break mark in the document. -/
def isProse : Doc → Bool
  | .text _ | .line | .softLine | .hardLine => true
  | .breakParent | .table .. => false
  | .indent _ body => isProse body
  | .group body => isProse body
  | .concat parts => allProse parts

/-- There is no table and no break mark in the documents. -/
def allProse : List Doc → Bool
  | [] => true
  | d :: rest => isProse d && allProse rest

end

end Doc

namespace Prose

mutual

/-- The document. -/
def doc : Prose → Doc
  | .text s => .text s
  | .line => .line
  | .softLine => .softLine
  | .hardLine => .hardLine
  | .indent levels body => .indent levels (doc body)
  | .group body => .group (doc body)
  | .concat parts => .concat (docs parts)

/-- The documents. -/
def docs : List Prose → List Doc
  | [] => []
  | p :: rest => doc p :: docs rest

end

mutual

theorem exists_doc {d : Doc} (h : d.isProse = true) : ∃ p : Prose, p.doc = d := by
  cases d with
  | text s => exact ⟨.text s, rfl⟩
  | line => exact ⟨.line, rfl⟩
  | softLine => exact ⟨.softLine, rfl⟩
  | hardLine => exact ⟨.hardLine, rfl⟩
  | breakParent => cases h
  | indent levels body =>
      obtain ⟨p, rfl⟩ := exists_doc (d := body) h
      exact ⟨.indent levels p, rfl⟩
  | group body =>
      obtain ⟨p, rfl⟩ := exists_doc (d := body) h
      exact ⟨.group p, rfl⟩
  | concat parts =>
      obtain ⟨ps, rfl⟩ := exists_docs h
      exact ⟨.concat ps, rfl⟩
  | table rows widths sep => cases h

theorem exists_docs {ds : List Doc} (h : Doc.allProse ds = true) :
    ∃ ps : List Prose, docs ps = ds := by
  cases ds with
  | nil => exact ⟨[], rfl⟩
  | cons d rest =>
      rw [Doc.allProse, Bool.and_eq_true] at h
      obtain ⟨p, rfl⟩ := exists_doc h.1
      obtain ⟨ps, rfl⟩ := exists_docs h.2
      exact ⟨p :: ps, rfl⟩

end

/-! ### Widths in a measure -/

section

variable (measure : Bytes → Nat)

mutual

/-- The width on one line, and whether something forces a break. -/
def flat : Prose → Doc.Flat
  | .text s => if s.contains Bytes.lf then ⟨0, true⟩ else ⟨measure s, false⟩
  | .line => ⟨1, false⟩
  | .softLine => ⟨0, false⟩
  | .hardLine => ⟨0, true⟩
  | .indent _ body => flat body
  | .group body => flat body
  | .concat parts => flatAll parts

/-- The width of documents one after the other. -/
def flatAll : List Prose → Doc.Flat
  | [] => {}
  | p :: rest => flat p ++ flatAll rest

end

mutual

/-- The width up to the first place where a line may break, and whether there is one. -/
def lead : Prose → Nat × Bool
  | .text s => (measure (Doc.firstLine s), s.contains Bytes.lf)
  | .line | .softLine | .hardLine => (0, true)
  | .indent _ body => lead body
  | .group body => lead body
  | .concat parts => leadAll parts

/-- The width of documents one after the other up to the first place where a line may break. -/
def leadAll : List Prose → Nat × Bool
  | [] => (0, false)
  | p :: rest =>
    match lead p with
    | (w, true) => (w, true)
    | (w, false) =>
      let (v, stop) := leadAll rest
      (w + v, stop)

end

/-- A width up to a place to break, and `outer` after it if there is none. -/
def reach (lead : Nat × Bool) (outer : Nat) : Nat :=
  match lead with
  | (w, true) => w
  | (w, false) => w + outer

/-- The width of what follows on the line, as it is for documents. -/
def trailAfter (rest : List Prose) (outer : Nat) : Nat := reach (leadAll measure rest) outer

theorem reach_leadAll_cons (p : Prose) (rest : List Prose) (outer : Nat) :
    reach (leadAll measure (p :: rest)) outer =
      reach (lead measure p) (trailAfter measure rest outer) := by
  rw [leadAll, trailAfter]
  rcases lead measure p with ⟨w, _ | _⟩
  · rcases leadAll measure rest with ⟨v, _ | _⟩ <;> simp [reach, Nat.add_assoc]
  · rfl

end

mutual

theorem flat_doc (p : Prose) : p.doc.flat = p.flat Cells.width := by
  cases p with
  | text s => rfl
  | line => rfl
  | softLine => rfl
  | hardLine => rfl
  | indent levels body => exact flat_doc body
  | group body => exact flat_doc body
  | concat parts => exact flatAll_docs parts

theorem flatAll_docs (ps : List Prose) : Doc.flatAll (docs ps) = flatAll Cells.width ps := by
  cases ps with
  | nil => rfl
  | cons p rest => rw [docs, Doc.flatAll, flatAll, flat_doc p, flatAll_docs rest]

end

mutual

theorem lead_doc (p : Prose) : p.doc.lead = p.lead Cells.width := by
  cases p with
  | text s => rfl
  | line => rfl
  | softLine => rfl
  | hardLine => rfl
  | indent levels body => exact lead_doc body
  | group body => exact lead_doc body
  | concat parts => exact leadAll_docs parts

theorem leadAll_docs (ps : List Prose) : Doc.leadAll (docs ps) = leadAll Cells.width ps := by
  cases ps with
  | nil => rfl
  | cons p rest =>
      rw [docs, Doc.leadAll, lead_doc p, leadAll_docs rest]
      rfl

end

theorem trailAfter_docs (rest : List Prose) (outer : Nat) :
    Doc.trailAfter (docs rest) outer = trailAfter Cells.width rest outer := by
  rw [Doc.trailAfter, trailAfter, leadAll_docs]
  rfl

end Prose

/-! ## Sheets -/

/-- What a line consists of: texts, and breaks that were not taken, with a space for each or
nothing. -/
inductive Mark where
  | text (s : Bytes)
  | unused (space : Bool)
  deriving DecidableEq

namespace Mark

/-- What is written for the mark. -/
def bytes : Mark → Bytes
  | text s => s
  | unused space => if space then [Bytes.space] else []

/-- The mark starts its line: the indentation stands before it. -/
def isWritten : Mark → Bool
  | text _ => true
  | unused space => space

/-- The mark is a break that was not taken. -/
def isUnused : Mark → Bool
  | text _ => false
  | unused _ => true

/-- The width of the mark; nothing has none. -/
def width (measure : Bytes → Nat) : Mark → Nat
  | text s => measure s
  | unused space => if space then measure [Bytes.space] else 0

end Mark

/-- A line with its indentation level. -/
structure Sheet.Line where
  level : Int
  marks : List Mark := []
  deriving DecidableEq

/-- The line being written and those above it, the last one first. -/
structure Sheet where
  above : List Sheet.Line := []
  current : Sheet.Line
  deriving DecidableEq

namespace Sheet

namespace Line

/-- The width of the indentation and of all that stands on the line. -/
def width (measure : Bytes → Nat) (o : LayoutOptions) (l : Line) : Int :=
  l.level * o.indentSize + (l.marks.map (Mark.width measure)).sum

/-- A break on the line was not taken. -/
def hasUnused (l : Line) : Bool := l.marks.any Mark.isUnused

/-- The indentation of the line is written. -/
def isStarted (l : Line) : Bool := l.marks.any Mark.isWritten

/-- The line with a further mark. -/
def add (l : Line) (m : Mark) : Line := { l with marks := l.marks ++ [m] }

/-- The indentation of the line. -/
def indentation (o : LayoutOptions) (l : Line) : Bytes := o.indentation l.level

/-- The bytes of the line. -/
def bytes (o : LayoutOptions) (l : Line) : Bytes :=
  (if l.isStarted then l.indentation o else []) ++ l.marks.flatMap Mark.bytes

@[simp]
theorem width_add (measure : Bytes → Nat) (o : LayoutOptions) (l : Line) (m : Mark) :
    (l.add m).width measure o = l.width measure o + m.width measure := by
  simp [width, add, Int.add_assoc]

@[simp]
theorem hasUnused_add (l : Line) (m : Mark) : (l.add m).hasUnused = (l.hasUnused || m.isUnused) := by
  simp [hasUnused, add]

@[simp]
theorem isStarted_add (l : Line) (m : Mark) :
    (l.add m).isStarted = (l.isStarted || m.isWritten) := by
  simp [isStarted, add]

@[simp]
theorem width_nil (measure : Bytes → Nat) (o : LayoutOptions) (level : Int) :
    (⟨level, []⟩ : Line).width measure o = level * o.indentSize := by
  simp [width]

theorem marks_bytes_of_not_isStarted {l : Line} (h : l.isStarted = false) :
    l.marks.flatMap Mark.bytes = [] := by
  rw [List.flatMap_eq_nil_iff]
  intro m hm
  have hwritten : m.isWritten = false := by
    rw [isStarted, List.any_eq_false] at h
    simpa using h m hm
  cases m with
  | text s => cases hwritten
  | unused space =>
      cases space with
      | false => rfl
      | true => cases hwritten

/-- The first mark that is written brings the indentation. -/
theorem bytes_add (o : LayoutOptions) (l : Line) {m : Mark} (hm : m.isWritten = true) :
    (l.add m).bytes o =
      l.bytes o ++ (if l.isStarted then [] else l.indentation o) ++ m.bytes := by
  rw [bytes, isStarted_add, hm, Bool.or_true, if_pos rfl, bytes]
  cases hstarted : l.isStarted with
  | true => simp [add, indentation]
  | false => simp [add, indentation, marks_bytes_of_not_isStarted hstarted]

end Line

/-- The lines of the sheet. -/
def lines (s : Sheet) : List Line := s.current :: s.above

/-- A further mark on the line. -/
def add (s : Sheet) (m : Mark) : Sheet := { s with current := s.current.add m }

/-- The next line. -/
def newline (s : Sheet) (level : Int) : Sheet := ⟨s.current :: s.above, ⟨level, []⟩⟩

/-- The lines of a text after its first. -/
def textLines (s : Sheet) (lines : List Bytes) : Sheet :=
  lines.foldl (fun s line => (s.newline 0).add (.text line)) s

/-- A text. -/
def text (s : Sheet) (t : Bytes) : Sheet :=
  match Bytes.split Bytes.lf t with
  | [] => s
  | first :: rest => textLines (if first.isEmpty then s else s.add (.text first)) rest

/-- The bytes of the lines above, the last one first; blanks at the end of a line are removed. -/
def finished (o : LayoutOptions) : List Line → Bytes
  | [] => []
  | l :: above => Bytes.trimRight Writer.isBlank (finished o above ++ l.bytes o) ++ o.newline

/-- The bytes of the sheet. -/
def output (o : LayoutOptions) (s : Sheet) : Bytes :=
  Bytes.trimRight Writer.isBlank (finished o s.above ++ s.current.bytes o)

end Sheet

/-! ## Laying out -/

namespace Prose

section

variable (measure : Bytes → Nat) (o : LayoutOptions)

mutual

/-- Lays out a document as the writer does; breaks that are not taken stay as marks. -/
def lay (indent : Int) (flatMode : Bool) (trail : Nat) : Prose → Sheet → Sheet
  | .text t, s => s.text t
  | .line, s => if flatMode then s.add (.unused true) else s.newline indent
  | .softLine, s => if flatMode then s.add (.unused false) else s.newline indent
  | .hardLine, s => s.newline indent
  | .indent levels body, s => lay (indent + levels) flatMode trail body s
  | .group body, s =>
    let f := flat measure body
    let fits := flatMode ||
      (!f.forced && s.current.width measure o + f.width + trail ≤ o.width)
    lay indent fits trail body s
  | .concat parts, s => layAll indent flatMode trail parts s

/-- Lays out documents one after the other. -/
def layAll (indent : Int) (flatMode : Bool) (trail : Nat) : List Prose → Sheet → Sheet
  | [], s => s
  | p :: rest, s =>
    layAll indent flatMode trail rest
      (lay indent flatMode (trailAfter measure rest trail) p s)

end

end

/-- The sheet of a document. -/
def sheet (measure : Bytes → Nat) (o : LayoutOptions) (p : Prose) : Sheet :=
  p.lay measure o.normalize 0 false 0 { current := ⟨0, []⟩ }

end Prose

/-! ### The writer writes the sheet -/

/-- The writer has written the sheet, except for blanks it still removes. -/
structure Writer.HasWritten (o : LayoutOptions) (w : Writer) (s : Sheet) : Prop where
  out_eq : w.out.reverse = Sheet.finished o s.above ++ s.current.bytes o
  pending_eq : w.pending = s.current.level
  atLineStart_eq : w.atLineStart = !s.current.isStarted
  column_eq : w.column o = s.current.width Cells.width o

namespace Writer.HasWritten

variable {o : LayoutOptions} {w : Writer} {s : Sheet}

theorem result_eq (h : HasWritten o w s) : w.result = s.output o := by
  rw [Writer.result, Sheet.output, ← h.out_eq, Bytes.trimRight, List.reverse_reverse]

theorem newline (h : HasWritten o w s) (indent : Int) :
    HasWritten o (w.newline o indent) (s.newline indent) where
  out_eq := by
    rw [Writer.newline, Sheet.newline, Sheet.finished, ← h.out_eq, Bytes.trimRight]
    simp [Sheet.Line.bytes, Sheet.Line.isStarted]
  pending_eq := rfl
  atLineStart_eq := rfl
  column_eq := by simp [Writer.newline, Sheet.newline, Writer.column]

theorem out_startLine (h : HasWritten o w s) :
    (w.startLine o).out.reverse = Sheet.finished o s.above ++
      (s.current.bytes o ++ (if s.current.isStarted then [] else s.current.indentation o)) := by
  rw [Writer.startLine, h.atLineStart_eq]
  cases s.current.isStarted with
  | true => simp [h.out_eq]
  | false =>
      simp [Writer.push, h.out_eq, h.pending_eq, Sheet.Line.indentation, LayoutOptions.indentation]

theorem pending_startLine (h : HasWritten o w s) :
    (w.startLine o).pending = s.current.level := by
  rw [← h.pending_eq, Writer.startLine]
  split <;> rfl

/-- A text on the line. -/
theorem add_text (h : HasWritten o w s) {m : Mark} (hm : m.isWritten = true)
    (hwidth : m.width Cells.width = Cells.width m.bytes) :
    HasWritten o { (w.startLine o).push m.bytes with
      col := (w.startLine o).col + Cells.width m.bytes } (s.add m) where
  out_eq := by
    have hpushed : ((w.startLine o).push m.bytes).out.reverse =
        (w.startLine o).out.reverse ++ m.bytes := by
      simp [Writer.push]
    rw [hpushed, h.out_startLine, Sheet.add, Sheet.Line.bytes_add o s.current hm]
    simp
  pending_eq := h.pending_startLine
  atLineStart_eq := by simp [Writer.push, w.atLineStart_startLine, Sheet.add, hm]
  column_eq := by
    have hcolumn := h.column_eq
    rw [← w.col_startLine] at hcolumn
    rw [Sheet.add, Sheet.Line.width_add, hwidth, ← hcolumn, Writer.column]
    simp [Writer.push, w.atLineStart_startLine]

/-- A line of a text, after its first. -/
theorem next_line (h : HasWritten o w s) (line : Bytes) :
    HasWritten o { (w.newline o 0).push line with col := Cells.width line, atLineStart := false }
      ((s.newline 0).add (.text line)) where
  out_eq := by
    have hnext := (h.newline 0).out_eq
    rw [Sheet.add, Sheet.Line.bytes_add o _ rfl, ← List.append_assoc, ← List.append_assoc, ← hnext]
    simp [Writer.push, Sheet.newline, Sheet.Line.isStarted, Sheet.Line.indentation,
      LayoutOptions.indentation, Mark.bytes]
  pending_eq := rfl
  atLineStart_eq := by simp [Sheet.add, Mark.isWritten]
  column_eq := by simp [Writer.column, Sheet.add, Sheet.newline, Mark.width]

theorem textLines (h : HasWritten o w s) (lines : List Bytes) :
    HasWritten o (Writer.textLines o w lines) (s.textLines lines) := by
  induction lines generalizing w s with
  | nil => exact h
  | cons line lines ih => exact ih (h.next_line line)

theorem text (h : HasWritten o w s) (t : Bytes) : HasWritten o (w.text o t) (s.text t) := by
  obtain ⟨first, rest, hsplit⟩ := List.exists_cons_of_ne_nil (Bytes.split_ne_nil Bytes.lf t)
  rw [Writer.text, Sheet.text, hsplit]
  dsimp only
  by_cases hfirst : first.isEmpty = true
  · rw [if_pos hfirst, if_pos hfirst]
    exact h.textLines rest
  · rw [if_neg hfirst, if_neg hfirst]
    exact (h.add_text (m := .text first) rfl rfl).textLines rest

/-- A break that is not taken. -/
theorem add_unused (h : HasWritten o w s) (space : Bool) :
    HasWritten o (if space then w.text o [Bytes.space] else w) (s.add (.unused space)) := by
  cases space with
  | true => exact h.add_text (m := .unused true) rfl rfl
  | false =>
      refine ⟨?_, h.pending_eq, ?_, ?_⟩
      · simp [h.out_eq, Sheet.add, Sheet.Line.bytes, Sheet.Line.add, Sheet.Line.isStarted,
          Sheet.Line.indentation, Mark.bytes, Mark.isWritten]
      · simp [h.atLineStart_eq, Sheet.add, Mark.isWritten]
      · simp [h.column_eq, Sheet.add, Mark.width]

mutual

theorem lay (indent : Int) (flatMode : Bool) (trail : Nat) (p : Prose) {w : Writer} {s : Sheet}
    (h : HasWritten o w s) :
    HasWritten o (Doc.write o indent flatMode trail p.doc w)
      (p.lay Cells.width o indent flatMode trail s) := by
  cases p with
  | text t => exact h.text t
  | line =>
      cases flatMode with
      | true => exact h.add_unused true
      | false => exact h.newline indent
  | softLine =>
      cases flatMode with
      | true => exact h.add_unused false
      | false => exact h.newline indent
  | hardLine => exact h.newline indent
  | indent levels body => exact lay (indent + levels) flatMode trail body h
  | group body =>
      rw [Prose.doc, Doc.write, Prose.lay, Prose.flat_doc, h.column_eq]
      exact lay indent _ trail body h
  | concat parts => exact layAll indent flatMode trail parts h

theorem layAll (indent : Int) (flatMode : Bool) (trail : Nat) (ps : List Prose) {w : Writer}
    {s : Sheet} (h : HasWritten o w s) :
    HasWritten o (Doc.writeAll o indent flatMode trail (Prose.docs ps) w)
      (Prose.layAll Cells.width o indent flatMode trail ps s) := by
  cases ps with
  | nil => exact h
  | cons p rest =>
      rw [Prose.docs, Doc.writeAll, Prose.layAll, Prose.trailAfter_docs]
      exact layAll indent flatMode trail rest (lay indent flatMode _ p h)

end

end Writer.HasWritten

theorem Prose.render_doc (p : Prose) (o : LayoutOptions) :
    p.doc.render o = (p.sheet Cells.width o).output o.normalize := by
  have hstart : Writer.HasWritten o.normalize {} { current := ⟨0, []⟩ } := by
    refine ⟨rfl, rfl, rfl, ?_⟩
    simp [Writer.column]
  exact (hstart.lay 0 false 0 p).result_eq

end VhdlStyle
