import VhdlStyle.Doc.Layout
import VhdlStyle.Proofs.Text.Splitting

/-! # The pieces of a layout

Whatever groups break, a layout is the texts of the document in their order, with blanks before
them and line ends between them. `Laid` gives the rules by which documents become pieces. -/

namespace VhdlStyle

/-! ## Leaves -/

namespace Doc

mutual

/-- The texts of a document in their order. -/
def leaves : Doc → List Bytes
  | .text s => [s]
  | .indent _ body => leaves body
  | .group body => leaves body
  | .concat parts => allLeaves parts
  | .table rows _ sep => (leaves sep).intercalate (rowLeaves rows)
  | .line | .softLine | .hardLine | .breakParent => []

/-- The texts of documents one after the other. -/
def allLeaves : List Doc → List Bytes
  | [] => []
  | d :: rest => leaves d ++ allLeaves rest

/-- The texts of each row: those above it, those of its cells and those of its tail. -/
def rowLeaves : List TableRow → List (List Bytes)
  | [] => []
  | .mk leading cells tail :: rest =>
    (allLeaves leading ++ allLeaves cells ++ leaves tail) :: rowLeaves rest

end

theorem allLeaves_eq (ds : List Doc) : allLeaves ds = ds.flatMap leaves := by
  induction ds with
  | nil => rw [allLeaves, List.flatMap_nil]
  | cons d rest ih => rw [allLeaves, List.flatMap_cons, ih]

mutual

/-- An empty document has only empty texts. -/
theorem leaves_of_isEmpty (d : Doc) (hempty : d.isEmpty = true) : ∀ s ∈ d.leaves, s = [] := by
  cases d with
  | text s =>
      rw [isEmpty, List.isEmpty_iff] at hempty
      simp [leaves, hempty]
  | concat parts =>
      rw [isEmpty] at hempty
      rw [leaves]
      exact allLeaves_of_allEmpty parts hempty
  | indent levels body =>
      rw [isEmpty] at hempty
      rw [leaves]
      exact leaves_of_isEmpty body hempty
  | group body =>
      rw [isEmpty] at hempty
      rw [leaves]
      exact leaves_of_isEmpty body hempty
  | line | softLine | hardLine | breakParent => simp [leaves]
  | table rows widths sep => simp [isEmpty] at hempty

/-- Empty documents have only empty texts. -/
theorem allLeaves_of_allEmpty (ds : List Doc) (hempty : allEmpty ds = true) :
    ∀ s ∈ allLeaves ds, s = [] := by
  cases ds with
  | nil => simp [allLeaves]
  | cons d rest =>
      rw [allEmpty, Bool.and_eq_true] at hempty
      intro s hs
      rw [allLeaves, List.mem_append] at hs
      rcases hs with hs | hs
      · exact leaves_of_isEmpty d hempty.1 s hs
      · exact allLeaves_of_allEmpty rest hempty.2 s hs

end

end Doc

/-! ## Pieces -/

/-- A part of the output: a text of the document, a blank or the end of a line. -/
inductive Piece where
  | text (s : Bytes)
  | blank (tab : Bool)
  | newline
  deriving DecidableEq

namespace Piece

/-- A text as it is written: its lines end with the newline of the output and without blanks. -/
def written (newline s : Bytes) : Bytes :=
  newline.intercalate ((Bytes.split Bytes.lf s).map (Bytes.trimRight Writer.isBlank))

/-- The bytes of a piece. -/
def bytes (newline : Bytes) : Piece → Bytes
  | text s => written newline s
  | blank tab => [if tab then Bytes.tab else Bytes.space]
  | .newline => newline

/-- The text of a piece, if it is one. -/
def text? : Piece → Option Bytes
  | text s => some s
  | _ => none

/-- Blanks as pieces. -/
def ofBlanks (b : Bytes) : List Piece := b.map fun c => blank (c == Bytes.tab)

/-- The bytes of pieces one after the other. -/
def output (newline : Bytes) (ps : List Piece) : Bytes := ps.flatMap (bytes newline)

/-- The texts among pieces. -/
def texts (ps : List Piece) : List Bytes := ps.filterMap text?

@[simp] theorem output_nil (newline : Bytes) : output newline [] = [] := rfl

@[simp] theorem output_cons (newline : Bytes) (p : Piece) (ps : List Piece) :
    output newline (p :: ps) = p.bytes newline ++ output newline ps := List.flatMap_cons

@[simp] theorem output_append (newline : Bytes) (ps qs : List Piece) :
    output newline (ps ++ qs) = output newline ps ++ output newline qs := List.flatMap_append

@[simp] theorem texts_nil : texts [] = [] := rfl

@[simp] theorem texts_cons_text (s : Bytes) (ps : List Piece) :
    texts (.text s :: ps) = s :: texts ps := rfl

@[simp] theorem texts_cons_newline (ps : List Piece) : texts (.newline :: ps) = texts ps := rfl

@[simp] theorem texts_cons_blank (tab : Bool) (ps : List Piece) :
    texts (.blank tab :: ps) = texts ps := rfl

@[simp] theorem texts_append (ps qs : List Piece) : texts (ps ++ qs) = texts ps ++ texts qs :=
  List.filterMap_append

@[simp] theorem texts_ofBlanks (b : Bytes) : texts (ofBlanks b) = [] := by
  induction b with
  | nil => rfl
  | cons c b ih => exact ih

theorem output_ofBlanks (newline : Bytes) {b : Bytes} (hb : ∀ c ∈ b, Writer.isBlank c = true) :
    output newline (ofBlanks b) = b := by
  induction b with
  | nil => rfl
  | cons c b ih =>
      have hc : Piece.bytes newline (blank (c == Bytes.tab)) = [c] := by
        have hblank := hb c List.mem_cons_self
        by_cases htab : c = Bytes.tab
        · simp [bytes, htab]
        · simp_all [bytes, Writer.isBlank]
      have hrest := ih fun d hd => hb d (List.mem_cons_of_mem _ hd)
      simp only [ofBlanks, List.map_cons, output_cons, hc] at hrest ⊢
      rw [hrest, List.singleton_append]

end Piece

/-! ## The rules of layout

What is still to be laid out is a list of documents, each with its mode: on one line, or broken. -/

/-- The cells of a row in the mode of the row. In a broken row all cells but the last that is not
empty stay on one line. -/
def TableRow.cellItems (flat : Bool) : List Doc → List (Bool × Doc)
  | [] => []
  | cell :: rest => (flat || !Doc.allEmpty rest, cell) :: cellItems flat rest

/-- The parts of a row: the documents above it end their lines. -/
def TableRow.items (flat : Bool) : TableRow → List (Bool × Doc)
  | .mk leading cells tail =>
    leading.flatMap (fun d => [(flat, d), (flat, Doc.hardLine)]) ++ cellItems flat cells ++
      [(flat, tail)]

/-- The documents in their modes may be laid out as the pieces. Blanks stand only before a text
that shows something. -/
inductive Laid : List (Bool × Doc) → List Piece → Prop where
  | nil : Laid [] []
  /-- A text of blanks shows nothing by itself. -/
  | blank {flat s rest ps} (hblank : ∀ c ∈ s, Writer.isBlank c = true) (hrest : Laid rest ps) :
      Laid ((flat, .text s) :: rest) (.text s :: ps)
  | text {flat s rest ps} (before : Bytes) (hshown : ∃ c ∈ s, Writer.isBlank c = false)
      (hrest : Laid rest ps) :
      Laid ((flat, .text s) :: rest) (Piece.ofBlanks before ++ .text s :: ps)
  | lineFlat {rest ps} (hrest : Laid rest ps) : Laid ((true, .line) :: rest) ps
  | lineBroken {rest ps} (hrest : Laid rest ps) :
      Laid ((false, .line) :: rest) (.newline :: ps)
  | softLineFlat {rest ps} (hrest : Laid rest ps) : Laid ((true, .softLine) :: rest) ps
  | softLineBroken {rest ps} (hrest : Laid rest ps) :
      Laid ((false, .softLine) :: rest) (.newline :: ps)
  | hardLine {flat rest ps} (hrest : Laid rest ps) :
      Laid ((flat, .hardLine) :: rest) (.newline :: ps)
  | breakParent {flat rest ps} (hrest : Laid rest ps) : Laid ((flat, .breakParent) :: rest) ps
  | indent {flat levels body rest ps} (hrest : Laid ((flat, body) :: rest) ps) :
      Laid ((flat, .indent levels body) :: rest) ps
  /-- A group in a broken document may stay on one line unless something in it forces a break. -/
  | group {flat fits body rest ps}
      (hfits : fits = true → flat = true ∨ (Doc.flat body).forced = false)
      (hrest : Laid ((fits, body) :: rest) ps) : Laid ((flat, .group body) :: rest) ps
  | concat {flat parts rest ps} (hrest : Laid (parts.map (flat, ·) ++ rest) ps) :
      Laid ((flat, .concat parts) :: rest) ps
  | table {flat rows widths sep rest ps}
      (hrest : Laid ([(flat, sep)].intercalate (rows.map (TableRow.items flat)) ++ rest) ps) :
      Laid ((flat, .table rows widths sep) :: rest) ps

/-- The pieces are a layout of the documents, whatever comes after them. -/
def Lays (items : List (Bool × Doc)) (new : List Piece) : Prop :=
  ∀ rest ps, Laid rest ps → Laid (items ++ rest) (new ++ ps)

namespace Lays

theorem nil : Lays [] [] := fun _ _ hrest => hrest

theorem append {xs ys : List (Bool × Doc)} {ps qs : List Piece} (hxs : Lays xs ps)
    (hys : Lays ys qs) : Lays (xs ++ ys) (ps ++ qs) := by
  intro rest rs hrest
  rw [List.append_assoc, List.append_assoc]
  exact hxs _ _ (hys _ _ hrest)

mutual

/-- An empty document is laid out as its empty texts, in every mode. -/
theorem of_isEmpty (flat : Bool) (d : Doc) (hempty : d.isEmpty = true) :
    Lays [(flat, d)] (d.leaves.map .text) := by
  intro rest ps hrest
  cases d with
  | text s =>
      rw [Doc.isEmpty, List.isEmpty_iff] at hempty
      subst hempty
      exact .blank (by simp) hrest
  | concat parts =>
      rw [Doc.isEmpty] at hempty
      exact .concat (of_allEmpty flat parts hempty rest ps hrest)
  | indent levels body =>
      rw [Doc.isEmpty] at hempty
      exact .indent (of_isEmpty flat body hempty rest ps hrest)
  | group body =>
      rw [Doc.isEmpty] at hempty
      exact .group (fun h => .inl h) (of_isEmpty flat body hempty rest ps hrest)
  | line | softLine | hardLine | breakParent | table => simp [Doc.isEmpty] at hempty

/-- Empty documents are laid out as their empty texts, in every mode. -/
theorem of_allEmpty (flat : Bool) (ds : List Doc) (hempty : Doc.allEmpty ds = true) :
    Lays (ds.map (flat, ·)) ((Doc.allLeaves ds).map .text) := by
  cases ds with
  | nil => exact nil
  | cons d rest =>
      rw [Doc.allEmpty, Bool.and_eq_true] at hempty
      rw [Doc.allLeaves, List.map_append]
      exact (of_isEmpty flat d hempty.1).append (of_allEmpty flat rest hempty.2)

end

/-- Empty cells are laid out as their empty texts. -/
theorem of_emptyCells (flat : Bool) (cells : List Doc) (hempty : Doc.allEmpty cells = true) :
    Lays (TableRow.cellItems flat cells) ((Doc.allLeaves cells).map .text) := by
  induction cells with
  | nil => exact nil
  | cons cell rest ih =>
      rw [Doc.allEmpty, Bool.and_eq_true] at hempty
      rw [Doc.allLeaves, List.map_append]
      exact (of_isEmpty _ cell hempty.1).append (ih hempty.2)

end Lays

/-! ## Texts cut into lines -/

/-- Parts with a separator between them: the first, and each other after a separator. -/
theorem intercalate_cons_eq {α : Type} (sep x : List α) (xs : List (List α)) :
    sep.intercalate (x :: xs) = x ++ xs.flatMap (sep ++ ·) := by
  induction xs generalizing x with
  | nil => simp
  | cons y ys ih => rw [List.intercalate_cons_cons, ih, List.flatMap_cons, List.append_assoc,
      List.append_assoc]

namespace Piece

theorem written_eq {newline s first : Bytes} {rest : List Bytes}
    (h : Bytes.split Bytes.lf s = first :: rest) :
    written newline s = Bytes.trimRight Writer.isBlank first ++
      rest.flatMap (newline ++ Bytes.trimRight Writer.isBlank ·) := by
  rw [written, h, List.map_cons, intercalate_cons_eq, List.flatMap_map]

@[simp] theorem written_nil (newline : Bytes) : written newline [] = [] := rfl

end Piece

/-! ## The texts of a layout -/

/-- The texts of documents in modes. -/
def itemLeaves (items : List (Bool × Doc)) : List Bytes := items.flatMap fun item => item.2.leaves

@[simp] theorem itemLeaves_cons (flat : Bool) (d : Doc) (items : List (Bool × Doc)) :
    itemLeaves ((flat, d) :: items) = d.leaves ++ itemLeaves items := List.flatMap_cons

@[simp] theorem itemLeaves_append (xs ys : List (Bool × Doc)) :
    itemLeaves (xs ++ ys) = itemLeaves xs ++ itemLeaves ys := List.flatMap_append

theorem itemLeaves_map (flat : Bool) (ds : List Doc) :
    itemLeaves (ds.map (flat, ·)) = Doc.allLeaves ds := by
  rw [Doc.allLeaves_eq, itemLeaves, List.flatMap_map]

theorem TableRow.itemLeaves_cells (flat : Bool) (cells : List Doc) :
    itemLeaves (cellItems flat cells) = Doc.allLeaves cells := by
  induction cells with
  | nil => rfl
  | cons cell rest ih => rw [cellItems, itemLeaves_cons, ih, Doc.allLeaves]

theorem TableRow.itemLeaves_leading (flat : Bool) (ds : List Doc) :
    itemLeaves (ds.flatMap fun d => [(flat, d), (flat, Doc.hardLine)]) = Doc.allLeaves ds := by
  induction ds with
  | nil => rfl
  | cons d rest ih =>
      rw [List.flatMap_cons, itemLeaves_append, ih, Doc.allLeaves]
      simp [itemLeaves, Doc.leaves]

theorem TableRow.rowLeaves_eq (flat : Bool) (rows : List TableRow) :
    Doc.rowLeaves rows = (rows.map (items flat)).map itemLeaves := by
  induction rows with
  | nil => rfl
  | cons row rows ih =>
      obtain ⟨leading, cells, tail⟩ := row
      rw [Doc.rowLeaves, ih, List.map_cons, List.map_cons, items, itemLeaves_append,
        itemLeaves_append, itemLeaves_leading, itemLeaves_cells]
      simp [itemLeaves]

theorem itemLeaves_intercalate (sep : List (Bool × Doc)) (parts : List (List (Bool × Doc))) :
    itemLeaves (sep.intercalate parts) = (itemLeaves sep).intercalate (parts.map itemLeaves) := by
  cases parts with
  | nil => rfl
  | cons part parts =>
      rw [intercalate_cons_eq, List.map_cons, intercalate_cons_eq, itemLeaves_append]
      congr 1
      simp [itemLeaves, List.flatMap_assoc, List.flatMap_map]

/-- The texts of a layout are those of the documents, in their order. -/
theorem Laid.texts_eq {items : List (Bool × Doc)} {ps : List Piece} (h : Laid items ps) :
    Piece.texts ps = itemLeaves items := by
  induction h with
  | nil => rfl
  | blank hblank hrest ih => simpa [Doc.leaves] using ih
  | text before hshown hrest ih => simpa [Doc.leaves] using ih
  | lineFlat hrest ih => simpa [Doc.leaves] using ih
  | lineBroken hrest ih => simpa [Doc.leaves] using ih
  | softLineFlat hrest ih => simpa [Doc.leaves] using ih
  | softLineBroken hrest ih => simpa [Doc.leaves] using ih
  | hardLine hrest ih => simpa [Doc.leaves] using ih
  | breakParent hrest ih => simpa [Doc.leaves] using ih
  | indent hrest ih => simpa [Doc.leaves] using ih
  | group hfits hrest ih => simpa [Doc.leaves] using ih
  | concat hrest ih => rw [ih, itemLeaves_append, itemLeaves_map, itemLeaves_cons, Doc.leaves]
  | table hrest ih =>
      rw [ih, itemLeaves_append, itemLeaves_intercalate, ← TableRow.rowLeaves_eq]
      simp [Doc.leaves, itemLeaves]

end VhdlStyle
