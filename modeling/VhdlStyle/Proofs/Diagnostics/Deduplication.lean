import Mathlib.Data.List.Nodup
import Mathlib.Data.Prod.Lex
import VhdlStyle.Diagnostic.Bag
import VhdlStyle.Proofs.Text.Numbers
import VhdlStyle.Proofs.Text.Splitting

/-! # Sorted diagnostics without repetitions

A bag that is sorted and then rid of repetitions still says what it said. Dropping repetitions looks
at code and span only and keeps what comes first; the sort has put the gravest first and, being
stable, left the equally grave in the order they were recorded in. -/

namespace VhdlStyle

/-! ## Written spans -/

/-- A number in front of a byte that is no digit can be read back. -/
theorem Bytes.ofNat_cons_inj {n m : Nat} {b : UInt8} {rest rest' : Bytes}
    (hb : isDigit b = false) (h : ofNat n ++ b :: rest = ofNat m ++ b :: rest') :
    n = m ∧ rest = rest' := by
  obtain ⟨hdigits, hrest⟩ := append_cons_inj (not_mem_ofNat hb) (not_mem_ofNat hb) h
  exact ⟨ofNat_injective hdigits, hrest⟩

theorem Span.text_eq (s : Span) : s.text = Bytes.ofNat s.file.toNat ++ (':' : UInt8) ::
    (Bytes.ofNat s.start.toNat ++ ('-' : UInt8) :: Bytes.ofNat s.stop.toNat) := by
  rw [← List.append_nil (Bytes.ofNat s.stop.toNat)]
  rfl

/-- Different spans are written differently. -/
theorem Span.text_injective : Function.Injective Span.text := by
  intro s s' h
  rw [text_eq, text_eq] at h
  obtain ⟨hfile, hplace⟩ := Bytes.ofNat_cons_inj (by decide) h
  obtain ⟨hstart, hstop⟩ := Bytes.ofNat_cons_inj (by decide) hplace
  cases s
  cases s'
  simp only [Span.mk.injEq]
  exact ⟨UInt32.toNat_inj.mp hfile, UInt32.toNat_inj.mp hstart,
    UInt32.toNat_inj.mp (Bytes.ofNat_injective hstop)⟩

/-! ## Keys and ranks -/

namespace Diagnostic

/-- What makes two diagnostics repetitions of each other. -/
def key (d : Diagnostic) : Code × Span := (d.code, d.span)

/-- What diagnostics are sorted by: file, start, end, severity from grave to light, code. -/
def rank (d : Diagnostic) : ℕ ×ₗ ℕ ×ₗ ℕ ×ₗ ℕᵒᵈ ×ₗ ℕ :=
  toLex (d.span.file.toNat, toLex (d.span.start.toNat, toLex (d.span.stop.toNat,
    toLex (OrderDual.toDual d.severity.level.toNat, d.code.number.toNat))))

/-- `d` stands among `ds`, graver than those of its key in front of it and at least as grave as those
of its key behind it. -/
def FirstGravest (ds : List Diagnostic) (d : Diagnostic) : Prop :=
  ∃ before after, ds = before ++ d :: after ∧
    (∀ e ∈ before, e.key = d.key → e.severity.level < d.severity.level) ∧
    ∀ e ∈ after, e.key = d.key → e.severity.level ≤ d.severity.level

variable {a b d : Diagnostic} {ds seen : List Diagnostic}

theorem sameKey_iff : a.sameKey b = true ↔ a.key = b.key := by
  simp [sameKey, key, Span.text_injective.eq_iff]

theorem le_iff : a.le b = true ↔ a.rank ≤ b.rank := by
  obtain ⟨⟨sa⟩, ⟨ca⟩, ⟨fa, ba, ea⟩, -, -⟩ := a
  obtain ⟨⟨sb⟩, ⟨cb⟩, ⟨fb, bb, eb⟩, -, -⟩ := b
  simp only [le, rank, Prod.Lex.toLex_le_toLex, OrderDual.toDual_lt_toDual, bne_iff_ne,
    OrderDual.toDual_inj, UInt32.toNat_inj, UInt8.toNat_inj, ← UInt32.lt_iff_toNat_lt,
    ← UInt8.lt_iff_toNat_lt, ← UInt16.le_iff_toNat_le]
  grind

theorem rank_eq_iff : a.rank = b.rank ↔ a.key = b.key ∧ a.severity = b.severity := by
  obtain ⟨⟨sa⟩, ⟨ca⟩, ⟨fa, ba, ea⟩, -, -⟩ := a
  obtain ⟨⟨sb⟩, ⟨cb⟩, ⟨fb, bb, eb⟩, -, -⟩ := b
  simp only [rank, key, toLex_inj, Prod.mk.injEq, OrderDual.toDual_inj, UInt32.toNat_inj,
    UInt8.toNat_inj, UInt16.toNat_inj, Code.mk.injEq, Span.mk.injEq, Severity.mk.injEq]
  tauto

/-- Of diagnostics with one key the graver ranks first. -/
theorem level_le_of_rank_le (hkey : a.key = b.key) (hrank : a.rank ≤ b.rank) :
    b.severity.level ≤ a.severity.level := by
  obtain ⟨hcode, hspan⟩ := Prod.mk.inj hkey
  simp only [rank, hcode, hspan, Prod.Lex.toLex_le_toLex, lt_self_iff_false, false_or, true_and,
    OrderDual.toDual_lt_toDual, OrderDual.toDual_inj] at hrank
  rw [UInt8.le_iff_toNat_le]
  omega

/-! ## Sorting -/

theorem trans_le (a b c : Diagnostic) (hab : a.le b = true) (hbc : b.le c = true) :
    a.le c = true :=
  le_iff.mpr ((le_iff.mp hab).trans (le_iff.mp hbc))

theorem total_le (a b : Diagnostic) : (a.le b || b.le a) = true := by
  rw [Bool.or_eq_true, le_iff, le_iff]
  exact le_total a.rank b.rank

theorem pairwise_sort (ds : List Diagnostic) :
    (ds.mergeSort le).Pairwise fun a b => a.rank ≤ b.rank :=
  (List.pairwise_mergeSort trans_le total_le ds).imp le_iff.mp

theorem sort_of_pairwise (h : ds.Pairwise fun a b => a.rank ≤ b.rank) : ds.mergeSort le = ds :=
  List.mergeSort_of_pairwise (h.imp le_iff.mpr)

/-- Sorting leaves diagnostics of one rank in their order. -/
theorem filter_sort (ds : List Diagnostic) (d : Diagnostic) :
    (ds.mergeSort le).filter (·.rank = d.rank) = ds.filter (·.rank = d.rank) := by
  have halike : (ds.filter (·.rank = d.rank)).Pairwise fun a b => a.le b = true := by
    refine List.pairwise_of_forall_mem_list ?_
    intro a ha b hb
    have hra := of_decide_eq_true (List.mem_filter.mp ha).2
    have hrb := of_decide_eq_true (List.mem_filter.mp hb).2
    exact le_iff.mpr (hra.trans hrb.symm).le
  have hsublist := (List.sublist_mergeSort trans_le total_le halike List.filter_sublist).filter
    (fun e => decide (e.rank = d.rank))
  rw [List.filter_filter] at hsublist
  simp only [Bool.and_self] at hsublist
  have hlength := ((List.mergeSort_perm ds le).filter (·.rank = d.rank)).length_eq
  exact (hsublist.eq_of_length hlength.symm).symm

/-- What comes first of its key in the sorted diagnostics was the first of the gravest. -/
theorem firstGravest_of_sort {before after : List Diagnostic}
    (hsort : ds.mergeSort le = before ++ d :: after) (hfirst : ∀ e ∈ before, e.key ≠ d.key) :
    d.FirstGravest ds := by
  have hsorted := pairwise_sort ds
  rw [hsort, List.pairwise_append, List.pairwise_cons] at hsorted
  -- none of the key is graver
  have hgravest : ∀ e ∈ ds, e.key = d.key → e.severity.level ≤ d.severity.level := by
    intro e he hkey
    have hmem : e ∈ before ++ d :: after := hsort ▸ List.mem_mergeSort.mpr he
    rcases List.mem_append.mp hmem with hbefore | hrest
    · exact absurd hkey (hfirst e hbefore)
    rcases List.mem_cons.mp hrest with rfl | hafter
    · exact UInt8.le_refl _
    · exact level_le_of_rank_le hkey.symm (hsorted.2.1.1 e hafter)
  -- the first of the rank is the same with and without the sort
  have hnone : before.filter (·.rank = d.rank) = [] := by
    rw [List.filter_eq_nil_iff]
    intro e he hrank
    exact hfirst e he (rank_eq_iff.mp (of_decide_eq_true hrank)).1
  have halike : ds.filter (·.rank = d.rank) = d :: after.filter (·.rank = d.rank) := by
    rw [← filter_sort, hsort, List.filter_append, hnone, List.nil_append,
      List.filter_cons_of_pos (by simp)]
  obtain ⟨front, behind, hds, hfront, -, -⟩ := List.filter_eq_cons_iff.mp halike
  refine ⟨front, behind, hds, ?_, ?_⟩
  · intro e he hkey
    have hmem : e ∈ ds := by simp [hds, he]
    have hne : e.severity ≠ d.severity := by
      intro hsame
      exact hfront e he (decide_eq_true (rank_eq_iff.mpr ⟨hkey, hsame⟩))
    refine UInt8.lt_of_le_of_ne (hgravest e hmem hkey) ?_
    intro hlevel
    exact hne (congrArg Severity.mk hlevel)
  · intro e he hkey
    exact hgravest e (by simp [hds, he]) hkey

theorem FirstGravest.level_le {e : Diagnostic} (h : d.FirstGravest ds) (he : e ∈ ds)
    (hkey : e.key = d.key) : e.severity.level ≤ d.severity.level := by
  obtain ⟨before, after, rfl, hbefore, hafter⟩ := h
  rcases List.mem_append.mp he with hfront | hrest
  · exact UInt8.le_of_lt (hbefore e hfront hkey)
  rcases List.mem_cons.mp hrest with rfl | hbehind
  · exact UInt8.le_refl _
  · exact hafter e hbehind hkey

end Diagnostic

/-! ## Dropping repetitions -/

namespace Bag

open Diagnostic

variable {d : Diagnostic} {ds seen : List Diagnostic}

theorem dedupItems_cons (d : Diagnostic) (rest : List Diagnostic) :
    dedupItems seen (d :: rest) = if d.key ∈ seen.map key then dedupItems seen rest
      else d :: dedupItems (d :: seen) rest := by
  have hseen : seen.any d.sameKey = true ↔ d.key ∈ seen.map key := by
    simp only [List.any_eq_true, sameKey_iff, List.mem_map]
    exact exists_congr fun e => and_congr_right fun _ => eq_comm
  rw [dedupItems]
  exact if_congr hseen rfl rfl

theorem dedupItems_sublist (seen ds : List Diagnostic) : (dedupItems seen ds).Sublist ds := by
  induction ds generalizing seen with
  | nil => exact List.Sublist.slnil
  | cons d rest ih =>
      rw [dedupItems_cons]
      split
      · exact (ih seen).cons d
      · exact (ih (d :: seen)).cons_cons d

/-- Every key that has not been seen is kept. -/
theorem mem_keys_dedupItems {k : Code × Span} :
    k ∈ (dedupItems seen ds).map key ↔ k ∈ ds.map key ∧ k ∉ seen.map key := by
  induction ds generalizing seen with
  | nil => simp [dedupItems]
  | cons d rest ih =>
      rw [dedupItems_cons]
      split
      case isTrue hseen =>
        rw [ih, List.map_cons, List.mem_cons]
        grind
      case isFalse hnew =>
        rw [List.map_cons, List.mem_cons, ih, List.map_cons, List.mem_cons, List.map_cons,
          List.mem_cons]
        grind

/-- Every key is kept once. -/
theorem nodup_keys_dedupItems (seen ds : List Diagnostic) :
    ((dedupItems seen ds).map key).Nodup := by
  induction ds generalizing seen with
  | nil => exact List.nodup_nil
  | cons d rest ih =>
      rw [dedupItems_cons]
      split
      · exact ih seen
      · rw [List.map_cons, List.nodup_cons, mem_keys_dedupItems]
        exact ⟨by simp, ih (d :: seen)⟩

/-- What is kept comes first of its key. -/
theorem exists_first_of_dedupItems (h : d ∈ dedupItems seen ds) :
    ∃ before after, ds = before ++ d :: after ∧ ∀ e ∈ before, e.key ≠ d.key := by
  induction ds generalizing seen with
  | nil => exact absurd h List.not_mem_nil
  | cons e rest ih =>
      -- the key of what is kept is none of those seen
      have hnew := (mem_keys_dedupItems.mp (List.mem_map_of_mem h)).2
      rw [dedupItems_cons] at h
      split at h
      case isTrue hseen =>
        obtain ⟨before, after, rfl, hfirst⟩ := ih h
        refine ⟨e :: before, after, rfl, List.forall_mem_cons.mpr ⟨?_, hfirst⟩⟩
        intro hkey
        exact hnew (hkey ▸ hseen)
      case isFalse =>
        rcases List.mem_cons.mp h with rfl | hrest
        · exact ⟨[], rest, rfl, List.forall_mem_nil _⟩
        obtain ⟨before, after, rfl, hfirst⟩ := ih hrest
        have hfresh := (mem_keys_dedupItems.mp (List.mem_map_of_mem hrest)).2
        refine ⟨e :: before, after, rfl, List.forall_mem_cons.mpr ⟨?_, hfirst⟩⟩
        intro hkey
        exact hfresh (by simp [hkey])

/-- Without repetitions nothing is dropped. -/
theorem dedupItems_of_nodup (h : ((seen ++ ds).map key).Nodup) : dedupItems seen ds = ds := by
  induction ds generalizing seen with
  | nil => rfl
  | cons d rest ih =>
      have hperm : (seen ++ d :: rest).Perm ((d :: seen) ++ rest) := List.perm_middle
      have hnodup := (hperm.map key).nodup_iff.mp h
      have hnew : d.key ∉ seen.map key := by
        intro hseen
        rw [List.cons_append, List.map_cons, List.map_append, List.nodup_cons] at hnodup
        exact hnodup.1 (List.mem_append_left _ hseen)
      rw [dedupItems_cons, if_neg hnew, ih hnodup]

end Bag

open Diagnostic in
/-- A sorted bag without repetitions is ordered by file, start, end, severity from grave to light
and code; it has each code and span of the bag once, with the first of its gravest diagnostics. It
has errors if the bag has, and doing the same again changes nothing. -/
theorem gravest_findings_are_kept (b : Bag) :
    let kept := b.sort.dedup
    (kept.items.Pairwise fun d e => d.rank ≤ e.rank) ∧
    (kept.items.map key).Nodup ∧
    (∀ k, k ∈ kept.items.map key ↔ k ∈ b.items.map key) ∧
    (∀ d ∈ kept.items, d.FirstGravest b.items) ∧
    kept.hasErrors = b.hasErrors ∧
    kept.sort.dedup = kept := by
  intro kept
  have hordered : kept.items.Pairwise fun d e => d.rank ≤ e.rank :=
    (pairwise_sort b.items).sublist (Bag.dedupItems_sublist [] _)
  have honce : (kept.items.map key).Nodup := Bag.nodup_keys_dedupItems [] _
  have hkeys : ∀ k, k ∈ kept.items.map key ↔ k ∈ b.items.map key := by
    intro k
    have hsort := ((List.mergeSort_perm b.items le).map key).mem_iff (a := k)
    rw [← hsort]
    exact Bag.mem_keys_dedupItems.trans (and_iff_left List.not_mem_nil)
  have hgravest : ∀ d ∈ kept.items, d.FirstGravest b.items := by
    intro d hd
    obtain ⟨before, after, hsort, hfirst⟩ := Bag.exists_first_of_dedupItems hd
    exact firstGravest_of_sort hsort hfirst
  refine ⟨hordered, honce, hkeys, hgravest, ?_, ?_⟩
  · rw [Bool.eq_iff_iff, Bag.hasErrors, Bag.hasErrors, List.any_eq_true, List.any_eq_true]
    constructor
    · rintro ⟨d, hd, herror⟩
      obtain ⟨before, after, hitems, -⟩ := hgravest d hd
      exact ⟨d, by simp [hitems], herror⟩
    · rintro ⟨e, he, herror⟩
      obtain ⟨d, hd, hkey⟩ := List.mem_map.mp ((hkeys e.key).mpr (List.mem_map_of_mem he))
      have hlevel := (hgravest d hd).level_le he hkey.symm
      refine ⟨d, hd, decide_eq_true (UInt8.le_trans (of_decide_eq_true herror) hlevel)⟩
  · have hsort : kept.items.mergeSort le = kept.items := sort_of_pairwise hordered
    have hdedup : Bag.dedupItems [] kept.items = kept.items := Bag.dedupItems_of_nodup honce
    have hitems : Bag.dedupItems [] (kept.items.mergeSort le) = kept.items := by
      rw [hsort, hdedup]
    exact congrArg (fun items => { b with items }) hitems

open Diagnostic in
/-- A warning gives way to the errors of its code and span, and of these the first is kept. -/
theorem gravest_findings_are_kept_of_four :
    let warning : Diagnostic := ⟨.warning, .endLabelMismatch, ⟨0, 4, 9⟩, "a", []⟩
    let first : Diagnostic := ⟨.error, .endLabelMismatch, ⟨0, 4, 9⟩, "b", []⟩
    let second : Diagnostic := ⟨.error, .endLabelMismatch, ⟨0, 4, 9⟩, "c", []⟩
    let info : Diagnostic := ⟨.info, .unknownChar, ⟨0, 1, 2⟩, "d", []⟩
    let b : Bag := ⟨9, [warning, first, second, info]⟩
    b.sort.dedup.items = [info, first] ∧ first.FirstGravest b.items := by
  intro warning first second info b
  have hsort : b.items.mergeSort le = [info, first, second, warning] := by
    have hwarning : warning.le first = false ∧ warning.le second = false := by decide
    have hfirst : first.le second = true ∧ first.le info = false := by decide
    have hsecond : second.le info = false := by decide
    change [warning, first, second, info].mergeSort le = _
    simp [List.mergeSort, List.MergeSort.Internal.splitInTwo, hwarning, hfirst, hsecond]
  have hkept : b.sort.dedup.items = [info, first] := by
    change Bag.dedupItems [] (b.items.mergeSort le) = _
    rw [hsort]
    decide +kernel
  exact ⟨hkept, (gravest_findings_are_kept b).2.2.2.1 first (by simp [hkept])⟩

end VhdlStyle
