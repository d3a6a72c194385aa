import VhdlStyle.Proofs.LineEnds.Exchange

/-! # What loading leaves

Loading takes one byte order mark from the front of a text and replaces the CR LF pairs it finds.
It does either once: a second mark comes to the front, and a carriage return before a pair makes a
new pair with the line feed of the old one. In all other texts nothing is left to do. -/

namespace VhdlStyle

namespace Source

open Bytes

/-- Loading has nothing to do: no pair anywhere, and no mark at the front. -/
structure IsNormal (content : Bytes) : Prop where
  pairless : ¬[cr, lf] <:+: content
  markless : ¬byteOrderMark <+: content

/-! ## Pairs -/

theorem pair_prefix_iff {b : UInt8} {s : Bytes} :
    [cr, lf] <+: b :: s ↔ b = cr ∧ s.head? = some lf := by
  cases s with
  | nil => simp [List.cons_prefix_cons]
  | cons c s => simp [List.cons_prefix_cons, eq_comm]

/-- Neither function finds a pair at the front of such a text. -/
theorem no_pair_at_front {b : UInt8} {s : Bytes}
    (h : ∀ rest, b = cr → s = lf :: rest → False) : ¬[cr, lf] <+: b :: s := by
  rw [pair_prefix_iff]
  rintro ⟨rfl, hhead⟩
  obtain ⟨rest, rfl⟩ := List.head?_eq_some_iff.mp hhead
  exact h rest rfl rfl

theorem hasCrlf_iff {s : Bytes} : hasCrlf s = true ↔ [cr, lf] <:+: s := by
  induction s using hasCrlf.induct with
  | case1 => simp [hasCrlf]
  | case2 rest => exact iff_of_true (hasCrlf_crlf rest) ⟨[], rest, rfl⟩
  | case3 b rest hpair ih =>
      rw [hasCrlf.eq_3 b rest hpair, ih, List.infix_cons_iff]
      simp [no_pair_at_front hpair]

/-- A line feed comes to the front from the front, alone or in a pair. -/
theorem head?_unifyNewlines {s : Bytes} :
    (unifyNewlines s).head? = some lf ↔ s.head? = some lf ∨ [cr, lf] <+: s := by
  cases s with
  | nil => simp [unifyNewlines]
  | cons b s =>
      by_cases hpair : [cr, lf] <+: b :: s
      · obtain ⟨rest, hrest⟩ := hpair
        rw [← hrest]
        exact iff_of_true rfl (.inr (List.prefix_append _ _))
      · rw [or_iff_left hpair]
        rw [pair_prefix_iff] at hpair
        rw [unifyNewlines_cons hpair]
        rfl

/-- Replacing pairs makes a pair where a carriage return stands before one. -/
theorem pair_unifyNewlines_iff {s : Bytes} :
    [cr, lf] <:+: unifyNewlines s ↔ [cr, cr, lf] <:+: s := by
  induction s using unifyNewlines.induct with
  | case1 => simp [unifyNewlines]
  | case2 rest ih =>
      change [cr, lf] <:+: unifyNewlines (cr :: lf :: rest) ↔ [cr, cr, lf] <:+: cr :: lf :: rest
      rw [unifyNewlines_crlf, List.infix_cons_iff, ih, List.infix_cons_iff, List.infix_cons_iff]
      simp [List.cons_prefix_cons, show cr ≠ lf by decide]
  | case3 b rest hpair ih =>
      have hfront := no_pair_at_front hpair
      rw [pair_prefix_iff] at hfront
      have hpushed : [cr, lf] <+: b :: unifyNewlines rest ↔ [cr, cr, lf] <+: b :: rest := by
        rw [pair_prefix_iff, head?_unifyNewlines, List.cons_prefix_cons]
        -- without the line feed at once, the pair must follow
        grind
      rw [unifyNewlines_cons hfront, List.infix_cons_iff, ih, List.infix_cons_iff, hpushed]

theorem length_unifyNewlines_le (s : Bytes) : (unifyNewlines s).length ≤ s.length := by
  induction s using unifyNewlines.induct with
  | case1 => rfl
  | case2 rest ih =>
      change (lf :: unifyNewlines rest).length ≤ (cr :: lf :: rest).length
      simp only [List.length_cons]
      omega
  | case3 b rest hpair ih =>
      rw [unifyNewlines.eq_3 b rest hpair]
      simpa using ih

/-- Only a text without pairs is kept. -/
theorem unifyNewlines_eq_self_iff {s : Bytes} : unifyNewlines s = s ↔ ¬[cr, lf] <:+: s := by
  rw [← hasCrlf_iff, Bool.not_eq_true]
  refine ⟨fun h => ?_, unifyNewlines_of_hasCrlf⟩
  induction s using unifyNewlines.induct with
  | case1 => rfl
  | case2 rest =>
      have hlength := length_unifyNewlines_le rest
      have hsame := congrArg List.length h
      change (lf :: unifyNewlines rest).length = (cr :: lf :: rest).length at hsame
      simp only [List.length_cons] at hsame
      omega
  | case3 b rest hpair ih =>
      rw [unifyNewlines.eq_3 b rest hpair] at h
      rw [hasCrlf.eq_3 b rest hpair]
      exact ih (List.cons.inj h).2

/-! ## Marks -/

/-- What stands at the front of a text stays there, if it has no line ends. -/
theorem prefix_unifyNewlines_iff {mark : Bytes} (hcr : cr ∉ mark) (hlf : lf ∉ mark) (s : Bytes) :
    mark <+: unifyNewlines s ↔ mark <+: s := by
  induction mark generalizing s with
  | nil => simp
  | cons m mark ih =>
      rw [List.mem_cons, not_or] at hcr hlf
      cases s with
      | nil => simp [unifyNewlines]
      | cons b s =>
          by_cases hpair : b = cr ∧ s.head? = some lf
          · obtain ⟨rfl, hhead⟩ := hpair
            obtain ⟨rest, rfl⟩ := List.head?_eq_some_iff.mp hhead
            rw [unifyNewlines_crlf, List.cons_prefix_cons, List.cons_prefix_cons]
            simp [Ne.symm hcr.1, Ne.symm hlf.1]
          · rw [unifyNewlines_cons hpair, List.cons_prefix_cons, List.cons_prefix_cons,
              ih hcr.2 hlf.2]

theorem body_mark_append (s : Bytes) : body (byteOrderMark ++ s) = s := by
  simp [body, dropPrefix?]

theorem body_of_unmarked {s : Bytes} (h : ¬byteOrderMark <+: s) : body s = s := by
  simp [body, dropPrefix?, h]

/-- The body of a text has a mark at its front if the text has two. -/
theorem mark_body_iff {s : Bytes} :
    byteOrderMark <+: body s ↔ byteOrderMark ++ byteOrderMark <+: s := by
  by_cases h : byteOrderMark <+: s
  · obtain ⟨rest, rfl⟩ := h
    rw [body_mark_append, List.prefix_append_right_inj]
  · rw [body_of_unmarked h]
    exact iff_of_false h fun htwo => h ((List.prefix_append _ _).trans htwo)

/-- The mark has no part in pairs. -/
theorem pairs_body_iff {s : Bytes} : [cr, cr, lf] <:+: body s ↔ [cr, cr, lf] <:+: s := by
  by_cases h : byteOrderMark <+: s
  · obtain ⟨rest, rfl⟩ := h
    rw [body_mark_append]
    have hother : cr ≠ 0xEF ∧ cr ≠ 0xBB ∧ cr ≠ 0xBF := by decide
    simp [byteOrderMark, List.infix_cons_iff, List.cons_prefix_cons, hother]
  · rw [body_of_unmarked h]

end Source

/-! ## Loading again -/

namespace FileTable

open Bytes Source

variable {content : Bytes} (t : FileTable) (path : Bytes) (flags : FileFlags)

/-- A normal text is loaded as it is. -/
theorem load_of_isNormal (h : IsNormal content) :
    (t.load path content flags).1 = ⟨t.nextId, Path.clean path, content, flags⟩ := by
  have hmark : (dropPrefix? byteOrderMark content).isSome = false := by
    simp [dropPrefix?, h.markless]
  have hpair : hasCrlf content = false := by
    rw [← Bool.not_eq_true, hasCrlf_iff]
    exact h.pairless
  rw [load_eq, body_of_unmarked h.markless, unifyNewlines_of_hasCrlf hpair, hmark, hpair]
  simp

/-- A text that loading keeps is normal. -/
theorem isNormal_of_load (h : (t.load path content flags).1.content = content) :
    IsNormal content := by
  rw [load_eq] at h
  have hmark : ¬byteOrderMark <+: content := by
    rintro ⟨rest, rfl⟩
    rw [body_mark_append] at h
    have hle := length_unifyNewlines_le rest
    have hlength := congrArg List.length h
    simp [byteOrderMark] at hlength
    omega
  rw [body_of_unmarked hmark] at h
  exact ⟨unifyNewlines_eq_self_iff.mp h, hmark⟩

theorem isNormal_load_iff : IsNormal (t.load path content flags).1.content ↔
    ¬[cr, cr, lf] <:+: content ∧ ¬byteOrderMark ++ byteOrderMark <+: content := by
  have hmark : byteOrderMark <+: unifyNewlines (body content) ↔
      byteOrderMark ++ byteOrderMark <+: content := by
    rw [prefix_unifyNewlines_iff (by decide) (by decide), mark_body_iff]
  have hpair : [cr, lf] <:+: unifyNewlines (body content) ↔ [cr, cr, lf] <:+: content := by
    rw [pair_unifyNewlines_iff, pairs_body_iff]
  rw [load_eq, ← hpair, ← hmark]
  exact ⟨fun h => ⟨h.pairless, h.markless⟩, fun h => ⟨h.1, h.2⟩⟩

end FileTable

open Bytes Source in
/-- What is stored of a text has neither a pair nor a mark at its front exactly when no carriage
return stood before a pair and no second mark behind the first. Then, and only then, loading it
again stores the same bytes; no flag is set that was not given. -/
theorem loaded_content_is_normal_iff (t : FileTable) (path content : Bytes) (flags : FileFlags) :
    let stored := (t.load path content flags).1.content
    (IsNormal stored ↔
      ¬[cr, cr, lf] <:+: content ∧ ¬byteOrderMark ++ byteOrderMark <+: content) ∧
    (IsNormal stored ↔ ∀ (t' : FileTable) (path' : Bytes) (flags' : FileFlags),
      (t'.load path' stored flags').1.content = stored ∧
      (t'.load path' stored flags').1.flags = flags') := by
  intro stored
  refine ⟨t.isNormal_load_iff path flags, fun h t' path' flags' => ?_, fun h => ?_⟩
  · rw [t'.load_of_isNormal path' flags' h]
    exact ⟨rfl, rfl⟩
  · exact t.isNormal_of_load path flags (h t path flags).1

open Bytes Source in
/-- Two marks leave one, and a carriage return before a pair leaves a pair. -/
theorem loading_once_is_not_enough :
    ¬IsNormal (FileTable.load {} "a.vhd" (byteOrderMark ++ byteOrderMark) {}).1.content ∧
    ¬IsNormal (FileTable.load {} "a.vhd" [cr, cr, lf] {}).1.content := by
  constructor
  · intro h
    exact h.markless (by decide)
  · intro h
    exact h.pairless (by decide)

end VhdlStyle
