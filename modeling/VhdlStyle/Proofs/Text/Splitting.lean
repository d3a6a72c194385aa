import Mathlib.Data.List.TakeDrop
import Mathlib.Data.List.TakeWhile
import VhdlStyle.Text.Bytes

/-! # Cutting texts at a byte

A text cut at every separator, and what the pieces say of the text. -/

namespace VhdlStyle.Bytes

theorem split_ne_nil (sep : UInt8) (s : Bytes) : split sep s ≠ [] := by
  cases s with
  | nil => simp [split]
  | cons b s =>
      rw [split]
      split
      · simp
      · split <;> simp

/-- The pieces of a text with the separators between them are the text. -/
theorem eq_of_split {sep : UInt8} {s first : Bytes} {rest : List Bytes}
    (h : split sep s = first :: rest) : s = first ++ rest.flatMap (sep :: ·) := by
  induction s generalizing first rest with
  | nil =>
      rw [split, List.cons.injEq] at h
      simp [← h.1, ← h.2]
  | cons b s ih =>
      rw [split] at h
      split at h
      case isTrue hsep =>
        obtain ⟨rfl, hrest⟩ := List.cons.inj h
        obtain ⟨next, others, hsplit⟩ := List.exists_cons_of_ne_nil (split_ne_nil sep s)
        rw [← hrest, hsplit, beq_iff_eq.mp hsep]
        simpa using ih hsplit
      case isFalse hsep =>
        split at h
        case h_1 hnil => exact absurd hnil (split_ne_nil sep s)
        case h_2 piece pieces hsplit =>
          obtain ⟨rfl, rfl⟩ := List.cons.inj h
          rw [ih hsplit, List.cons_append]

theorem split_of_not_mem {sep : UInt8} {s : Bytes} (h : sep ∉ s) : split sep s = [s] := by
  induction s with
  | nil => rfl
  | cons b s ih =>
      rw [List.mem_cons, not_or] at h
      have hb : (b == sep) = false := beq_false_of_ne (Ne.symm h.1)
      rw [split, hb, if_neg Bool.false_ne_true, ih h.2]

theorem not_mem_of_split {sep : UInt8} (s : Bytes) : ∀ piece ∈ split sep s, sep ∉ piece := by
  induction s with
  | nil => simp [split]
  | cons b s ih =>
      rw [split]
      split
      · intro piece hpiece
        rcases List.mem_cons.mp hpiece with rfl | hpiece
        · exact List.not_mem_nil
        · exact ih piece hpiece
      · rename_i hb
        have hne : sep ≠ b := fun heq => hb (by simp [heq])
        split
        · simp [hne]
        · rename_i piece pieces hsplit
          rw [hsplit] at ih
          intro p hp
          rcases List.mem_cons.mp hp with rfl | hp
          · simp [hne, ih piece List.mem_cons_self]
          · exact ih p (List.mem_cons_of_mem _ hp)

/-- A separator between two texts always cuts. -/
theorem split_concat (sep : UInt8) (s t : Bytes) :
    split sep (s ++ sep :: t) = split sep s ++ split sep t := by
  induction s with
  | nil => simp [split]
  | cons b s ih =>
      obtain ⟨piece, pieces, hsplit⟩ := List.exists_cons_of_ne_nil (split_ne_nil sep s)
      by_cases hb : (b == sep) = true
      · simp [split, hb, ih]
      · simp [split, hb, ih, hsplit]

theorem split_append {sep : UInt8} {line : Bytes} (h : sep ∉ line) (rest : Bytes) :
    split sep (line ++ sep :: rest) = line :: split sep rest := by
  rw [split_concat, split_of_not_mem h, List.singleton_append]

/-- The last of some joined parts is the last piece, if it has no separator in it. -/
theorem split_join_last {sep : UInt8} {last : Bytes} (h : sep ∉ last) (parts : List Bytes) :
    ∃ front, split sep (join [sep] (parts ++ [last])) = front ++ [last] := by
  induction parts with
  | nil => exact ⟨[], by simpa [join] using split_of_not_mem h⟩
  | cons part rest ih =>
      obtain ⟨front, hfront⟩ := ih
      obtain ⟨next, others, hnext⟩ := List.exists_cons_of_ne_nil
        (List.append_ne_nil_of_right_ne_nil rest (List.cons_ne_nil last []))
      refine ⟨split sep part ++ front, ?_⟩
      rw [hnext] at hfront
      rw [List.cons_append, hnext, join, List.intercalate_cons_cons, List.append_assoc,
        List.singleton_append, split_concat, List.append_assoc, ← hfront, join]

/-- Elements without separators come back from the text that joins them. -/
theorem split_join {sep : UInt8} {parts : List Bytes} (hne : parts ≠ [])
    (h : ∀ part ∈ parts, sep ∉ part) : split sep (join [sep] parts) = parts := by
  induction parts with
  | nil => exact absurd rfl hne
  | cons part rest ih =>
      rw [List.forall_mem_cons] at h
      cases rest with
      | nil => simpa [join] using split_of_not_mem h.1
      | cons next others =>
          rw [join, List.intercalate_cons_cons, List.append_assoc, List.singleton_append,
            split_append h.1, ← join, ih (List.cons_ne_nil _ _) h.2]

/-! ## Cutting once -/

/-- A text has no separator, or a last one. -/
theorem exists_last (sep : UInt8) (s : Bytes) :
    sep ∉ s ∨ ∃ before after, s = before ++ sep :: after ∧ sep ∉ after := by
  induction s with
  | nil => exact .inl List.not_mem_nil
  | cons b s ih =>
      rcases ih with hs | ⟨before, after, rfl, hafter⟩
      · by_cases hb : b = sep
        · exact .inr ⟨[], s, by rw [hb]; rfl, hs⟩
        · exact .inl (by simp [Ne.symm hb, hs])
      · exact .inr ⟨b :: before, after, rfl, hafter⟩

theorem bne_of_not_mem {sep : UInt8} {s : Bytes} (h : sep ∉ s) : ∀ b ∈ s, (b != sep) = true :=
  fun _ hb => bne_iff_ne.mpr fun heq => h (heq ▸ hb)

theorem takeWhile_bne {sep : UInt8} {s : Bytes} (h : sep ∉ s) : s.takeWhile (· != sep) = s :=
  List.takeWhile_eq_self_iff.mpr (bne_of_not_mem h)

theorem takeWhile_bne_append {sep : UInt8} {s : Bytes} (h : sep ∉ s) (rest : Bytes) :
    (s ++ sep :: rest).takeWhile (· != sep) = s := by
  rw [List.takeWhile_append_of_pos (bne_of_not_mem h)]
  simp

theorem span_ne {sep : UInt8} {s : Bytes} (h : sep ∉ s) (rest : Bytes) :
    (s ++ sep :: rest).span (· != sep) = (s, sep :: rest) := by
  rw [List.span_eq_takeWhile_dropWhile, takeWhile_bne_append h,
    List.dropWhile_append_of_pos (bne_of_not_mem h)]
  simp

theorem cut?_append {sep : UInt8} {s : Bytes} (h : sep ∉ s) (rest : Bytes) :
    cut? sep (s ++ sep :: rest) = some (s, rest) := by
  rw [cut?, span_ne h]

/-- The first separator parts a text in one way. -/
theorem append_cons_inj {sep : UInt8} {s s' rest rest' : Bytes} (hs : sep ∉ s) (hs' : sep ∉ s')
    (h : s ++ sep :: rest = s' ++ sep :: rest') : s = s' ∧ rest = rest' := by
  have hcut := congrArg (cut? sep) h
  rw [cut?_append hs, cut?_append hs'] at hcut
  exact Prod.mk.inj (Option.some.inj hcut)

theorem cut?_eq_none {sep : UInt8} {s : Bytes} (h : sep ∉ s) : cut? sep s = none := by
  rw [cut?, List.span_eq_takeWhile_dropWhile, List.dropWhile_eq_nil_iff.mpr (bne_of_not_mem h)]

end VhdlStyle.Bytes
