import VhdlStyle.Patch.Shortest
import VhdlStyle.Text.Bytes

/-! # Unified differences

A difference shows the changed lines in hunks with a few kept lines around them. -/

namespace VhdlStyle

namespace Patch

/-- The number of kept lines shown on each side of a change. -/
def context : Nat := 3

/-- The lines of a text without their terminators, CR LF included. -/
def lines (text : Bytes) : List Bytes :=
  if text.isEmpty then []
  else
    let text := if Bytes.endsWith "\n" text then text.dropLast else text
    (Bytes.split Bytes.lf text).map fun l => if Bytes.endsWith "\r" l then l.dropLast else l

/-- The kept lines at the front of a script are the last of it, or too many to stay in one hunk. -/
def closes (s : Script Bytes) : Bool :=
  let run := s.takeWhile Edit.isKeep
  run.length == s.length || 2 * context < run.length

/-- The rest of a hunk and what comes after it. -/
def splitHunk : Script Bytes → Script Bytes × Script Bytes
  | [] => ([], [])
  | e :: rest =>
    if e.isKeep && closes (e :: rest) then ((e :: rest).take context, (e :: rest).drop context)
    else
      let (body, after) := splitHunk rest
      (e :: body, after)

theorem splitHunk_append (s : Script Bytes) : (splitHunk s).1 ++ (splitHunk s).2 = s := by
  fun_induction splitHunk s with
  | case1 => rfl
  | case2 e rest h => exact List.take_append_drop context (e :: rest)
  | case3 e rest h body after hs ih => rw [hs] at ih; simpa using ih

theorem length_splitHunk_le (s : Script Bytes) : (splitHunk s).2.length ≤ s.length := by
  have h := congrArg List.length (splitHunk_append s)
  simp only [List.length_append] at h
  omega

end Patch

/-- A part of a script, with the numbers of old and new lines before it. -/
structure Hunk where
  oldBefore : Nat
  newBefore : Nat
  edits : Script Bytes
  deriving DecidableEq, Inhabited

namespace Hunk

/-- Cuts a script into hunks; `oldBefore` and `newBefore` lines have been passed. -/
def cut (oldBefore newBefore : Nat) (s : Script Bytes) : List Hunk :=
  let gap := s.takeWhile Edit.isKeep
  let skipped := gap.take (gap.length - Patch.context)
  let lead := gap.drop (gap.length - Patch.context)
  match _h : s.dropWhile Edit.isKeep with
  | [] => []
  | e :: rest =>
    let parts := Patch.splitHunk rest
    let hunk : Hunk :=
      ⟨oldBefore + skipped.length, newBefore + skipped.length, lead ++ e :: parts.1⟩
    hunk :: cut (hunk.oldBefore + hunk.edits.source.length)
      (hunk.newBefore + hunk.edits.target.length) parts.2
termination_by s.length
decreasing_by
  have hle := List.Sublist.length_le (List.dropWhile_sublist Edit.isKeep (l := s))
  rw [_h] at hle
  have := Patch.length_splitHunk_le rest
  simp only [List.length_cons] at hle
  omega

/-- The lines of one side: first line and count, the count only when it is not one. An empty range
names the line before it. -/
def rangeText (before count : Nat) : Bytes :=
  if count == 1 then Bytes.ofNat (before + 1)
  else if count == 0 then Bytes.ofNat before ++ Bytes.ofString ",0"
  else List.flatten [Bytes.ofNat (before + 1), ",", Bytes.ofNat count]

/-- One line of a hunk. -/
def lineText : Edit Bytes → Bytes
  | .keep l => List.flatten [" ", l, "\n"]
  | .delete l => List.flatten ["-", l, "\n"]
  | .insert l => List.flatten ["+", l, "\n"]

/-- The header of a hunk and its lines. -/
def render (h : Hunk) : Bytes :=
  List.flatten ["@@ -", rangeText h.oldBefore h.edits.source.length, " +",
    rangeText h.newBefore h.edits.target.length, " @@\n", h.edits.flatMap lineText]

end Hunk

namespace Patch

/-- The hunks that lead from one text to another, by lines. -/
def hunks (old new : Bytes) : List Hunk := Hunk.cut 0 0 (Script.shortest (lines old) (lines new))

/-- The unified difference of two texts, empty when no line differs. -/
def unified (path old new : Bytes) : Bytes :=
  let found := if old == new then [] else hunks old new
  if found.isEmpty then []
  else List.flatten ["--- ", path, "\t(original)\n+++ ", path, "\t(formatted)\n",
    found.flatMap Hunk.render]

end Patch

end VhdlStyle
