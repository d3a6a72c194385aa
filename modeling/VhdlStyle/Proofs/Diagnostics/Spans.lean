import VhdlStyle.Proofs.Lexing.Faults

/-! # Where diagnostics point

A diagnostic points at a token, behind the last one read, or at an open comment, and all of these
lie in the file. With the bound on diagnostics this describes what a bag holds: a beginning of one
list, whose members all point into the file. -/

namespace VhdlStyle

/-- The span is a range of the first `n` bytes of a file. -/
structure Span.LiesIn (n : Nat) (s : Span) : Prop where
  ordered : s.start ≤ s.stop
  stop_le : s.stop.toNat ≤ n

theorem Span.LiesIn.point {n : Nat} {s : Span} (h : s.LiesIn n) (file : UInt32) :
    (Span.point file s.stop).LiesIn n := ⟨UInt32.le_refl _, h.stop_le⟩

theorem Span.liesIn_default (n : Nat) : (default : Span).LiesIn n :=
  ⟨UInt32.le_refl _, Nat.zero_le n⟩

/-! ## Spans of tokens -/

namespace SourceFile

variable {f : SourceFile}

theorem Tiled.liesIn {start stop : Nat} {parts : List (Span × Bytes)} (h : f.Tiled start parts stop)
    {n : Nat} (hstop : stop ≤ n) : ∀ part ∈ parts, part.1.LiesIn n := by
  induction h with
  | nil => simp
  | cons _ hstart hend _ hrest ih =>
      rw [List.forall_mem_cons]
      refine ⟨⟨?_, ?_⟩, ih hstop⟩
      · dsimp only
        rw [UInt32.le_iff_toNat_le]
        omega
      · have hle := hrest.le
        dsimp only
        omega

theorem parts_lieIn (hlength : f.content.length < 2 ^ 32) :
    ∀ t ∈ f.tokens.1, ∀ part ∈ t.parts, part.1.LiesIn f.content.length := by
  have hfuel : (Lexer.ofFile f).rest.length < f.content.length + 2 :=
    Nat.lt_add_of_pos_right Nat.zero_lt_two
  have htiled := (Lexer.allN_tiled (Lexer.within_ofFile f) hlength _ rfl hfuel).1
  intro t ht part hpart
  exact htiled.liesIn (Nat.le_refl _) part (List.mem_flatMap.mpr ⟨t, ht, hpart⟩)

theorem tokens_lieIn (hlength : f.content.length < 2 ^ 32) :
    ∀ t ∈ f.tokens.1, t.span.LiesIn f.content.length := fun t ht =>
  parts_lieIn hlength t ht (t.span, t.text) (by simp [Token.parts])

theorem trivia_lieIn (hlength : f.content.length < 2 ^ 32) :
    ∀ tr ∈ f.tokens.1.flatMap Token.leading, tr.span.LiesIn f.content.length := by
  intro tr htr
  obtain ⟨t, ht, htr⟩ := List.mem_flatMap.mp htr
  refine parts_lieIn hlength t ht (tr.span, tr.text) (List.mem_append_left _ ?_)
  exact List.mem_map.mpr ⟨tr, htr, rfl⟩

/-- A fault of the lexer points at a token or at a comment. -/
theorem faults_lieIn (hlength : f.content.length < 2 ^ 32) :
    ∀ d ∈ f.tokens.2, d.span.LiesIn f.content.length := by
  intro d hd
  have hspan : d.span ∈ f.tokens.2.map Diagnostic.span := List.mem_map_of_mem hd
  rw [f.tokens_faults_eq.2, List.mem_append] at hspan
  rcases hspan with htoken | htrivia
  · obtain ⟨t, ht, heq⟩ := List.mem_map.mp htoken
    exact heq ▸ tokens_lieIn hlength t (List.mem_of_mem_filter ht)
  · obtain ⟨tr, htr, heq⟩ := List.mem_map.mp htrivia
    exact heq ▸ trivia_lieIn hlength tr (List.mem_of_mem_filter htr)

end SourceFile

/-! ## Spans that parsing reports -/

/-- The spans of a state lie in the first `n` bytes: those of the tokens left, of the last token
read and of the diagnostics. -/
structure ParseState.Pointed (n : Nat) (s : ParseState) : Prop where
  tokens : ∀ t ∈ s.rest, t.span.LiesIn n
  last : s.last.LiesIn n
  items : ∀ d ∈ s.bag.items, d.span.LiesIn n

namespace ParseState.Pointed

variable {n : Nat} {s : ParseState}

theorem current (h : s.Pointed n) : s.current.span.LiesIn n := by
  unfold ParseState.current
  cases hrest : s.rest with
  | nil => exact Span.liesIn_default n
  | cons t rest => exact h.tokens t (by simp [hrest])

theorem setLeading (h : s.Pointed n) (leading : List Trivia) : (s.setLeading leading).Pointed n := by
  unfold ParseState.setLeading
  split
  · exact h
  · rename_i t rest hrest
    have htokens := h.tokens
    rw [hrest, List.forall_mem_cons] at htokens
    exact ⟨List.forall_mem_cons.mpr htokens, h.last, h.items⟩

/-- Each place that is reported lies in the file. -/
theorem place (h : s.Pointed n) (p : Parse.Place) : (p.span s).LiesIn n := by
  cases p with
  | last => exact h.last
  | current =>
      change s.faultSpan.LiesIn n
      unfold ParseState.faultSpan
      split
      · exact h.last.point _
      · exact h.current

end ParseState.Pointed

theorem Bag.items_add_subset (b : Bag) (d : Diagnostic) : (b.add d).items ⊆ b.items ++ [d] := by
  unfold add
  split
  · exact List.Subset.refl _
  · exact List.subset_append_left _ _

namespace Parse

variable {n : Nat} {s : ParseState}

theorem advance_pointed (h : s.Pointed n) : (advance s).2.Pointed n := by
  unfold advance
  split
  · exact h
  · rename_i t rest hrest
    have htokens := h.tokens
    rw [hrest, List.forall_mem_cons] at htokens
    split
    · exact h
    · exact ⟨htokens.2, htokens.1, h.items⟩

theorem report_pointed (h : s.Pointed n) (severity : Severity) (code : Code) {span : Span}
    (hspan : span.LiesIn n) (message : Bytes) : (report severity code span message s).2.Pointed n := by
  refine ⟨h.tokens, h.last, ?_⟩
  intro d hd
  let new : Diagnostic := ⟨severity, code, span, message, []⟩
  have hmem : d ∈ s.bag.items ++ [new] := by
    change d ∈ (ite _ s.bag (s.bag.add new)).items at hd
    split at hd
    · exact List.mem_append_left _ hd
    · exact s.bag.items_add_subset new hd
  rcases List.mem_append.mp hmem with hold | hnew
  · exact h.items d hold
  · rw [List.mem_singleton.mp hnew]
    exact hspan

/-- Whatever the parser does, its diagnostics point into the file. -/
theorem Built.pointed {takes : Bool} {α : Type} {p : Parse α} (hp : Built takes p)
    (h : s.Pointed n) : (p s).2.Pointed n := by
  induction hp generalizing s with
  | pure a => exact h
  | bind _ _ ihp ihf => exact ihf _ (ihp h)
  | look _ ih => exact ih _ h
  | advance => exact advance_pointed h
  | report place severity code message => exact report_pointed h severity code (h.place place) message
  | giveUp a => exact ⟨h.tokens, h.last, h.items⟩
  | rowTrivia _ | tail _ =>
      have hset := h.setLeading []
      exact ⟨hset.tokens, hset.last, hset.items⟩
  | inline _ =>
      unfold Parse.inline
      split
      · exact h.setLeading _
      · exact h

end Parse

/-! ## Bags -/

/-- Every diagnostic of a file points into it. -/
theorem SourceFile.parse_spans {f : SourceFile} (hlength : f.content.length < 2 ^ 32) {bag : Bag}
    (hempty : bag.items = []) :
    ∀ d ∈ (f.parse bag).2.items, d.span.LiesIn f.content.length := by
  have hbounded : bag.Bounded := by simp [Bag.Bounded, hempty]
  let start : ParseState :=
    { rest := f.tokens.1, maxErrors := bag.limit, bag := bag.addAll f.tokens.2 }
  have hstart : start.Pointed f.content.length := by
    refine ⟨tokens_lieIn hlength, Span.liesIn_default _, ?_⟩
    intro d hd
    have htake : d ∈ (bag.items ++ f.tokens.2).take bag.limit := by
      simpa only [start, Bag.addAll_eq hbounded] using hd
    rw [hempty, List.nil_append] at htake
    exact faults_lieIn hlength d (List.mem_of_mem_take htake)
  exact (DesignFile.built_parseTokens.pointed hstart).items

theorem Bag.limit_ofLimit {m : Int} (hm : 1 ≤ m) : (Bag.ofLimit m).limit = m.toNat := by
  rw [Bag.ofLimit, if_neg (by omega)]

/-- A larger limit reads the same design. The smaller bag holds the first diagnostics of the larger
one, as many as it has room for, and all of them point into the file. -/
theorem limit_only_truncates (f : SourceFile) {m M : Int} (hm : 1 ≤ m) (hle : m ≤ M) :
    let small := f.parse (Bag.ofLimit m)
    let large := f.parse (Bag.ofLimit M)
    small.1 = large.1 ∧
    small.2.items = large.2.items.take (min m.toNat large.2.items.length) ∧
    (f.content.length < 2 ^ 32 → ∀ d ∈ large.2.items,
      d.span.start ≤ d.span.stop ∧ d.span.stop.toNat ≤ f.content.length) := by
  intro small large
  obtain ⟨design, all, hparse⟩ := f.parse_uniform
  have hsmall : small = (design, ⟨m.toNat, all.take m.toNat⟩) := by
    rw [← Bag.limit_ofLimit hm]
    exact hparse _ rfl
  have hlarge : large = (design, ⟨M.toNat, all.take M.toNat⟩) := by
    rw [← Bag.limit_ofLimit (Int.le_trans hm hle)]
    exact hparse _ rfl
  refine ⟨by rw [hsmall, hlarge], ?_, ?_⟩
  · have hlimits : m.toNat ≤ M.toNat := Int.toNat_le_toNat hle
    rw [hsmall, hlarge, ← List.take_take, List.take_length, List.take_take,
      Nat.min_eq_left hlimits]
  · intro hlength d hd
    have hlies := SourceFile.parse_spans hlength rfl d hd
    exact ⟨hlies.ordered, hlies.stop_le⟩

/-- A fault of the lexer, errors of the parser and a warning, which is the last one that a bag with
room for four holds. -/
theorem limit_only_truncates_up_to_warning :
    let f := SourceFile.ofBytes "a.vhd" "entity a $ is end b; x"
    (1 : Int) ≤ 4 ∧ (4 : Int) ≤ 9 ∧
    (f.parse (Bag.ofLimit 4)).1 = (f.parse (Bag.ofLimit 9)).1 ∧
    (f.parse (Bag.ofLimit 4)).2.items = (f.parse (Bag.ofLimit 9)).2.items.take 4 ∧
    ∀ d ∈ (f.parse (Bag.ofLimit 9)).2.items,
      d.span.start ≤ d.span.stop ∧ d.span.stop.toNat ≤ 22 := by
  intro f
  obtain ⟨hdesign, hitems, hspans⟩ :=
    limit_only_truncates f (m := 4) (M := 9) (by decide) (by decide)
  have hroom : min (4 : Int).toNat (f.parse (Bag.ofLimit 9)).2.items.length = 4 := by
    decide +kernel
  rw [hroom] at hitems
  exact ⟨by decide, by decide, hdesign, hitems, hspans (by decide +kernel)⟩

end VhdlStyle
