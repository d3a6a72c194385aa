import VhdlStyle.Proofs.Comments.Scanned
import VhdlStyle.Proofs.Text.Numbers
import VhdlStyle.Proofs.Text.Splitting
import VhdlStyle.Patch.Unified

/-! # Reading a unified difference

A reader of unified differences that shares nothing with the writer: it goes by the marks in front
of the lines and takes the headers at their word. What is written is read back. -/

namespace VhdlStyle

/-! ## The reader -/

/-- The lines of one side that a hunk covers: how many come before them, and how many they are. -/
structure LineRange where
  before : Nat
  count : Nat
  deriving DecidableEq, Inhabited

namespace LineRange

/-- The number of lines up to the end of the range. -/
def after (r : LineRange) : Nat := r.before + r.count

/-- The lines of the range. -/
def slice (r : LineRange) (ls : List Bytes) : List Bytes := (ls.drop r.before).take r.count

/-- A range by its first line, counted from one. An empty range names the line before it. -/
def ofStart? : Nat → Nat → Option LineRange
  | start, 0 => some ⟨start, 0⟩
  | 0, _ + 1 => none
  | before + 1, count + 1 => some ⟨before, count + 1⟩

/-- A number in decimal digits. -/
def number? (text : Bytes) : Option Nat :=
  if text.isEmpty || !text.all Bytes.isDigit then none
  else some (text.foldl (fun n b => 10 * n + (b.toNat - 48)) 0)

/-- A first line and a count, which is one where it is left out. -/
def read? (text : Bytes) : Option LineRange :=
  match Bytes.cut? ',' text with
  | none => do ofStart? (← number? text) 1
  | some (start, count) => do ofStart? (← number? start) (← number? count)

end LineRange

/-- A hunk as it is read: what its header says, and its lines. -/
structure ReadHunk where
  old : LineRange
  new : LineRange
  edits : Script Bytes
  deriving DecidableEq, Inhabited

namespace ReadHunk

/-- The two ranges of a header. -/
def header? (line : Bytes) : Option (LineRange × LineRange) := do
  let line ← Bytes.dropPrefix? "@@ -" line
  let (old, line) ← Bytes.cut? Bytes.space line
  let line ← Bytes.dropPrefix? "+" line
  let (new, line) ← Bytes.cut? Bytes.space line
  if line == Bytes.ofString "@@" then return (← LineRange.read? old, ← LineRange.read? new)
  none

/-- A line with its mark. -/
def edit? : Bytes → Option (Edit Bytes)
  | [] => none
  | mark :: line =>
    if mark == ' ' then some (.keep line)
    else if mark == '-' then some (.delete line)
    else if mark == '+' then some (.insert line)
    else none

/-- A line in front of what has been read: the lines before the first header, and the hunks. -/
def readLine? (line : Bytes) (rest : Script Bytes × List ReadHunk) :
    Option (Script Bytes × List ReadHunk) :=
  match edit? line with
  | some e => some (e :: rest.1, rest.2)
  | none => (header? line).map fun (old, new) => ([], ⟨old, new, rest.1⟩ :: rest.2)

/-- Lines and hunks, up to the empty piece behind the last line feed. -/
def readLines? : List Bytes → Option (Script Bytes × List ReadHunk)
  | [] => none
  | [last] => if last.isEmpty then some ([], []) else none
  | line :: next :: rest => do readLine? line (← readLines? (next :: rest))

end ReadHunk

namespace Patch

/-- The two lines that name the file. -/
def fileHeader (path : Bytes) : Bytes :=
  List.flatten ["--- ", path, "\t(original)\n+++ ", path, "\t(formatted)\n"]

/-- The hunks of a difference of a file; the empty text has none. -/
def read? (path text : Bytes) : Option (List ReadHunk) :=
  if text.isEmpty then some []
  else do
    let body ← Bytes.dropPrefix? (fileHeader path) text
    match ← ReadHunk.readLines? (Bytes.split Bytes.lf body) with
    | ([], hs) => some hs
    | _ => none

end Patch

/-! ## Cutting texts -/

namespace Bytes

theorem dropPrefix?_append (pattern rest : Bytes) :
    dropPrefix? pattern (pattern ++ rest) = some rest := by
  rw [dropPrefix?, if_pos (by simp), List.drop_left]

end Bytes

/-! ## Numbers and ranges -/

namespace LineRange

theorem number?_ofNat (n : Nat) : number? (Bytes.ofNat n) = some n := by
  have hdigits : (Bytes.ofNat n).all Bytes.isDigit = true :=
    List.all_eq_true.mpr fun b hb => Bytes.isDigit_of_mem_ofNat hb
  have hvalue : ∀ (cs : List Char) (init : Nat), (∀ c ∈ cs, c.isDigit = true) →
      (cs.map Char.toUInt8).foldl (fun n b => 10 * n + (b.toNat - 48)) init =
        Nat.ofDigitChars 10 cs init := by
    intro cs
    induction cs with
    | nil => intros; rfl
    | cons c cs ih =>
        intro init hcs
        rw [List.map_cons, List.foldl_cons, Nat.ofDigitChars_cons,
          Bytes.toNat_digit (hcs c List.mem_cons_self)]
        exact ih _ fun d hd => hcs d (List.mem_cons_of_mem c hd)
  rw [number?, hdigits, if_neg (by simp [Bytes.ofNat_ne_nil]), Bytes.ofNat,
    hvalue _ 0 fun c hc => Nat.isDigit_of_mem_toDigits (by decide) (by decide) hc,
    Nat.ofDigitChars_ten_toDigits]

/-- A range is read back from its text. -/
theorem read?_rangeText (before count : Nat) :
    read? (Hunk.rangeText before count) = some ⟨before, count⟩ := by
  have hcomma (n : Nat) : (',' : Char).toUInt8 ∉ Bytes.ofNat n := Bytes.not_mem_ofNat (by decide)
  rw [Hunk.rangeText]
  split
  case isTrue hone =>
    obtain rfl : count = 1 := eq_of_beq hone
    rw [read?, Bytes.cut?_eq_none (hcomma _)]
    simp [number?_ofNat, ofStart?]
  case isFalse hone =>
    split
    case isTrue hzero =>
      obtain rfl : count = 0 := eq_of_beq hzero
      have htext : Bytes.ofNat before ++ Bytes.ofString ",0" =
          Bytes.ofNat before ++ (',' : Char).toUInt8 :: Bytes.ofNat 0 := rfl
      rw [read?, htext, Bytes.cut?_append (hcomma _)]
      simp [number?_ofNat, ofStart?]
    case isFalse hzero =>
      have htext : List.flatten [Bytes.ofNat (before + 1), Bytes.ofString ",", Bytes.ofNat count] =
          Bytes.ofNat (before + 1) ++ (',' : Char).toUInt8 :: Bytes.ofNat count := by
        simp only [List.flatten_cons, List.flatten_nil, List.append_nil]
        rfl
      rw [read?, htext, Bytes.cut?_append (hcomma _)]
      cases count with
      | zero => exact absurd rfl hzero
      | succ count => simp [number?_ofNat, ofStart?]

/-- A byte that is neither a digit nor a comma does not stand in a range. -/
theorem not_mem_rangeText {b : UInt8} (hdigit : Bytes.isDigit b = false)
    (hcomma : b ≠ (',' : Char).toUInt8) (before count : Nat) :
    b ∉ Hunk.rangeText before count := by
  have hnumber (n : Nat) : b ∉ Bytes.ofNat n := Bytes.not_mem_ofNat hdigit
  rw [Hunk.rangeText]
  split
  · exact hnumber _
  · split
    · have hempty : Bytes.ofString ",0" = (',' : Char).toUInt8 :: Bytes.ofNat 0 := rfl
      simp [hempty, hnumber, hcomma]
    · have hmark : Bytes.ofString "," = [(',' : Char).toUInt8] := rfl
      simp [hmark, hnumber, hcomma]

end LineRange

/-! ## Hunks -/

namespace Hunk

/-- What a reader sees of the hunk. -/
def toRead (h : Hunk) : ReadHunk :=
  ⟨⟨h.oldBefore, h.edits.source.length⟩, ⟨h.newBefore, h.edits.target.length⟩, h.edits⟩

/-- The header without its line feed. -/
def headerLine (h : Hunk) : Bytes :=
  Bytes.ofString "@@ -" ++ (rangeText h.oldBefore h.edits.source.length ++ Bytes.space ::
    (Bytes.ofString "+" ++ (rangeText h.newBefore h.edits.target.length ++ Bytes.space ::
      Bytes.ofString "@@")))

/-- A line of a hunk without its line feed. -/
def editLine : Edit Bytes → Bytes
  | .keep l => (' ' : Char).toUInt8 :: l
  | .delete l => ('-' : Char).toUInt8 :: l
  | .insert l => ('+' : Char).toUInt8 :: l

theorem lineText_eq (e : Edit Bytes) : lineText e = editLine e ++ [Bytes.lf] := by
  cases e <;> simp only [lineText, editLine, List.flatten_cons, List.flatten_nil,
    List.append_nil, List.cons_append] <;> rfl

theorem render_eq (h : Hunk) :
    h.render = h.headerLine ++ Bytes.lf :: h.edits.flatMap fun e => editLine e ++ [Bytes.lf] := by
  have hlines : h.edits.flatMap lineText = h.edits.flatMap fun e => editLine e ++ [Bytes.lf] :=
    congrArg (fun f => h.edits.flatMap f) (funext lineText_eq)
  have hend : Bytes.ofString " @@\n" = Bytes.space :: (Bytes.ofString "@@" ++ [Bytes.lf]) := rfl
  have hplus : Bytes.ofString " +" = Bytes.space :: Bytes.ofString "+" := rfl
  rw [render, headerLine, hlines, hend, hplus]
  simp only [List.flatten_cons, List.flatten_nil, List.append_nil, List.append_assoc,
    List.cons_append, List.nil_append]

theorem edit?_editLine (e : Edit Bytes) : ReadHunk.edit? (editLine e) = some e := by
  cases e <;> rfl

theorem edit?_headerLine (h : Hunk) : ReadHunk.edit? h.headerLine = none := rfl

/-- The ranges of a header are read back. -/
theorem header?_headerLine (h : Hunk) :
    ReadHunk.header? h.headerLine = some (h.toRead.old, h.toRead.new) := by
  have hspace (before count : Nat) : Bytes.space ∉ rangeText before count :=
    LineRange.not_mem_rangeText (by decide) (by decide) before count
  simp only [ReadHunk.header?, headerLine, toRead, Bytes.dropPrefix?_append,
    Bytes.cut?_append (hspace _ _), LineRange.read?_rangeText, Option.bind_eq_bind,
    Option.bind_some, beq_self_eq_true, if_true]
  rfl

theorem lf_not_mem_headerLine (h : Hunk) : Bytes.lf ∉ h.headerLine := by
  have hrange (before count : Nat) : Bytes.lf ∉ rangeText before count :=
    LineRange.not_mem_rangeText (by decide) (by decide) before count
  have hstart : Bytes.lf ∉ Bytes.ofString "@@ -" := by decide
  have hplus : Bytes.lf ∉ Bytes.ofString "+" := by decide
  have hend : Bytes.lf ∉ Bytes.ofString "@@" := by decide
  have hspace : Bytes.lf ≠ Bytes.space := by decide
  simp [headerLine, hrange, hstart, hplus, hend, hspace]

/-- No line of the hunk holds a line feed. -/
def OneLiners (h : Hunk) : Prop := ∀ e ∈ h.edits, Bytes.lf ∉ editLine e

end Hunk

namespace ReadHunk

theorem readLines?_cons (line : Bytes) {rest : List Bytes} (h : rest ≠ []) :
    readLines? (line :: rest) = (readLines? rest).bind (readLine? line) := by
  cases rest with
  | nil => exact absurd rfl h
  | cons next rest => rfl

/-- Lines of a hunk are read back in front of what follows. -/
theorem readLines?_edits {edits : Script Bytes} (h : ∀ e ∈ edits, Bytes.lf ∉ Hunk.editLine e)
    {rest : Bytes} {script : Script Bytes} {hs : List ReadHunk}
    (hrest : readLines? (Bytes.split Bytes.lf rest) = some (script, hs)) :
    readLines? (Bytes.split Bytes.lf
      ((edits.flatMap fun e => Hunk.editLine e ++ [Bytes.lf]) ++ rest)) =
      some (edits ++ script, hs) := by
  induction edits with
  | nil => exact hrest
  | cons e edits ih =>
      have hline : Bytes.lf ∉ Hunk.editLine e := h e List.mem_cons_self
      have htail := ih fun x hx => h x (List.mem_cons_of_mem e hx)
      rw [List.flatMap_cons, List.append_assoc, List.append_assoc, List.singleton_append,
        Bytes.split_append hline, readLines?_cons _ (Bytes.split_ne_nil _ _), htail,
        Option.bind_some, readLine?, Hunk.edit?_editLine]
      rfl

/-- Hunks are read back from their text. -/
theorem readLines?_render {hs : List Hunk} (h : ∀ g ∈ hs, g.OneLiners) :
    readLines? (Bytes.split Bytes.lf (hs.flatMap Hunk.render)) =
      some ([], hs.map Hunk.toRead) := by
  induction hs with
  | nil => rfl
  | cons g hs ih =>
      have hrest := ih fun x hx => h x (List.mem_cons_of_mem g hx)
      have hedits := readLines?_edits (h g List.mem_cons_self) hrest
      rw [List.flatMap_cons, Hunk.render_eq, List.append_assoc, List.cons_append,
        Bytes.split_append g.lf_not_mem_headerLine, readLines?_cons _ (Bytes.split_ne_nil _ _),
        hedits, Option.bind_some, readLine?, Hunk.edit?_headerLine, Hunk.header?_headerLine]
      simp [Hunk.toRead]

end ReadHunk

end VhdlStyle
