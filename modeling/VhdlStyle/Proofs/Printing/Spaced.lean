import VhdlStyle.Proofs.Parsing.Complete
import VhdlStyle.Proofs.Printing.Rows

/-! # Blank lines in print

`Doc.Spaced` says of documents how many line ends may stand in a row before them and after them,
with no more than two in a row between. It is built up along the document and holds of any layout,
whatever groups break. Most documents are `Solid`: they start and end on lines that show
something. -/

namespace VhdlStyle

open Bytes (gaps inked)

namespace Doc

/-- With at most `before` line ends in a row in front of the documents, no layout of them has more
than two in a row or more than `after` at its end. -/
def Spaced (before : Nat) (ds : List Doc) (after : Nat) : Prop :=
  ∀ items : List (Bool × Doc), items.map Prod.snd = ds → ∀ newline, IsNewline newline →
    ∀ ps, Laid items ps → ∀ j ≤ before, ∃ n ≤ after, gaps j (Piece.output newline ps) = some n

namespace Spaced

variable {k k' m m' n : Nat} {d body : Doc} {xs ys : List Doc} {s : Bytes}

theorem nil : Spaced k [] k := by
  intro items hitems newline hnewline ps hps j hj
  obtain rfl := List.map_eq_nil_iff.mp hitems
  cases hps
  exact ⟨j, hj, rfl⟩

theorem append (hxs : Spaced k xs m) (hys : Spaced m ys n) : Spaced k (xs ++ ys) n := by
  intro items hitems newline hnewline ps hps j hj
  obtain ⟨front, back, rfl, hfront, hback⟩ := List.map_eq_append_iff.mp hitems
  obtain ⟨qs, rs, rfl, hqs, hrs⟩ := hps.split
  obtain ⟨i, hi, hgaps⟩ := hxs front hfront newline hnewline qs hqs j hj
  obtain ⟨l, hl, hgaps'⟩ := hys back hback newline hnewline rs hrs i hi
  refine ⟨l, hl, ?_⟩
  rw [Piece.output_append, Bytes.gaps_append, hgaps]
  exact hgaps'

theorem cons (hd : Spaced k [d] m) (hys : Spaced m ys n) : Spaced k (d :: ys) n := hd.append hys

theorem mono (h : Spaced k xs m) (hk : k' ≤ k) (hm : m ≤ m') : Spaced k' xs m' := by
  intro items hitems newline hnewline ps hps j hj
  obtain ⟨n, hn, hgaps⟩ := h items hitems newline hnewline ps hps j (hj.trans hk)
  exact ⟨n, hn.trans hm, hgaps⟩

/-- A single document may be in either mode. -/
theorem single (h : ∀ flat newline, IsNewline newline → ∀ ps, Laid [(flat, d)] ps → ∀ j ≤ k,
    ∃ n ≤ m, gaps j (Piece.output newline ps) = some n) : Spaced k [d] m := by
  intro items hitems newline hnewline ps hps
  obtain ⟨⟨flat, e⟩, rfl, rfl⟩ := List.map_eq_singleton_iff.mp hitems
  exact h flat newline hnewline ps hps

/-! ### Leaves -/

theorem gaps_ofBlanks (newline before : Bytes) (j : Nat) :
    gaps j (Piece.output newline (Piece.ofBlanks before)) = some j := by
  induction before with
  | nil => rfl
  | cons c before ih =>
      have hblank : gaps j [if c == Bytes.tab then Bytes.tab else Bytes.space] = some j := by
        split <;> rfl
      rw [Piece.ofBlanks, List.map_cons, Piece.output_cons, Piece.bytes, Bytes.gaps_append, hblank]
      exact ih

/-- A text is laid out with blanks before it. -/
theorem text (h : ∀ newline, IsNewline newline → ∀ j ≤ k,
    ∃ n ≤ m, gaps j (Piece.written newline s) = some n) : Spaced k [.text s] m := by
  refine single fun flat newline hnewline ps hps j hj => ?_
  cases hps with
  | blank hblank hrest =>
      cases hrest
      simpa [Piece.bytes] using h newline hnewline j hj
  | text before hshown hrest =>
      cases hrest
      rw [Piece.output_append, Bytes.gaps_append, gaps_ofBlanks]
      simpa [Piece.bytes] using h newline hnewline j hj

theorem text_of_not_mem (hs : Bytes.lf ∉ s) : Spaced k [.text s] k :=
  text fun _ _ j hj =>
    have ⟨n, hn, hgaps⟩ := Piece.gaps_written_line hs j
    ⟨n, hn.trans hj, hgaps⟩

theorem text_of_inked (hs : inked false s = true) : Spaced k [.text s] 0 :=
  text fun _ hnewline j _ => ⟨0, Nat.le_refl 0, Piece.gaps_written hnewline hs j⟩

/-- A line end, or nothing. -/
theorem lineEnd (h : ∀ flat ps, Laid [(flat, d)] ps → ps = [] ∨ ps = [.newline]) (hk : k ≤ 1) :
    Spaced k [d] (k + 1) := by
  refine single fun flat newline hnewline ps hps j hj => ?_
  rcases h flat ps hps with rfl | rfl
  · exact ⟨j, by omega, rfl⟩
  · refine ⟨j + 1, by omega, ?_⟩
    rw [Piece.output_cons, Piece.output_nil, List.append_nil, Piece.bytes,
      Bytes.gaps_newline hnewline, if_pos (by omega)]

theorem hardLine (hk : k ≤ 1) : Spaced k [.hardLine] (k + 1) := by
  refine lineEnd (fun flat ps hps => ?_) hk
  cases hps with
  | hardLine hrest => cases hrest; exact .inr rfl

theorem line (hk : k ≤ 1) : Spaced k [.line] (k + 1) := by
  refine lineEnd (fun flat ps hps => ?_) hk
  cases hps with
  | lineFlat hrest => cases hrest; exact .inl rfl
  | lineBroken hrest => cases hrest; exact .inr rfl

theorem softLine (hk : k ≤ 1) : Spaced k [.softLine] (k + 1) := by
  refine lineEnd (fun flat ps hps => ?_) hk
  cases hps with
  | softLineFlat hrest => cases hrest; exact .inl rfl
  | softLineBroken hrest => cases hrest; exact .inr rfl

theorem breakParent : Spaced k [.breakParent] k := by
  refine single fun flat newline hnewline ps hps j hj => ?_
  cases hps with
  | breakParent hrest => cases hrest; exact ⟨j, hj, rfl⟩

/-! ### Nodes -/

theorem indent (levels : Int) (h : Spaced k [body] m) : Spaced k [.indent levels body] m := by
  refine single fun flat newline hnewline ps hps => ?_
  cases hps with
  | indent hrest => exact h [(flat, body)] rfl newline hnewline ps hrest

theorem group (h : Spaced k [body] m) : Spaced k [.group body] m := by
  refine single fun flat newline hnewline ps hps => ?_
  cases hps with
  | @group _ fits _ _ _ _ hrest => exact h [(fits, body)] rfl newline hnewline ps hrest

theorem concat (h : Spaced k xs m) : Spaced k [.concat xs] m := by
  refine single fun flat newline hnewline ps hps => ?_
  cases hps with
  | concat hrest => exact h _ (by simp) newline hnewline ps hrest

theorem empty : Spaced k [.empty] k := .concat .nil

end Spaced

/-! ## Kinds of documents -/

/-- The document starts and ends on lines that show something. -/
def Solid (d : Doc) : Prop := Spaced 2 [d] 0

/-- The document starts and ends on a line that shows something, or shows nothing. -/
def Still (d : Doc) : Prop := ∀ k ≤ 2, Spaced k [d] k

/-- The document goes on with a line and ends on one. -/
def Level (d : Doc) : Prop := Spaced 0 [d] 0

section

variable {k : Nat} {d sep body : Doc} {ds parts : List Doc} {s opening closing : Bytes}

theorem Solid.still (h : d.Solid) : d.Still := fun k hk => h.mono hk (Nat.zero_le k)

theorem Still.level (h : d.Still) : d.Level := h 0 (Nat.zero_le 2)

theorem Solid.level (h : d.Solid) : d.Level := h.still.level

@[simp] theorem solid_text (h : inked false s = true) : (text s).Solid := .text_of_inked h

theorem still_space : space.Still := fun _ _ => .text_of_not_mem (by decide)

@[simp] theorem level_space : space.Level := still_space.level

@[simp] theorem level_text (h : inked false s = true) : (text s).Level := (solid_text h).level

@[simp] theorem level_empty : empty.Level := .empty

@[simp] theorem solid_group : (group body).Solid ↔ body.Solid := by
  refine ⟨fun h => .single fun flat newline hnewline ps hps => ?_, .group⟩
  exact h [(flat, group body)] rfl newline hnewline ps (.group .inl hps)

@[simp] theorem solid_indent {levels : Int} : (indent levels body).Solid ↔ body.Solid := by
  refine ⟨fun h => .single fun flat newline hnewline ps hps => ?_, .indent levels⟩
  exact h [(flat, indent levels body)] rfl newline hnewline ps (.indent hps)

theorem Spaced.levels (h : ∀ d ∈ ds, d.Level) : Spaced 0 ds 0 := by
  induction ds with
  | nil => exact .nil
  | cons d rest ih =>
      rw [List.forall_mem_cons] at h
      exact .cons h.1 (ih h.2)

theorem Spaced.stills (hk : k ≤ 2) (h : ∀ d ∈ ds, d.Still) : Spaced k ds k := by
  induction ds with
  | nil => exact .nil
  | cons d rest ih =>
      rw [List.forall_mem_cons] at h
      exact .cons (h.1 k hk) (ih h.2)

/-- What starts a line may be followed on the line. -/
theorem Spaced.solids (hd : d.Solid) (hds : ∀ e ∈ ds, e.Level) : Spaced 2 (d :: ds) 0 :=
  .cons hd (.levels hds)

@[simp] theorem solid_concat (hd : d.Solid) (hds : ∀ e ∈ ds, e.Level) :
    (concat (d :: ds)).Solid := .concat (.solids hd hds)

@[simp] theorem level_concat (h : ∀ d ∈ ds, d.Level) : (concat ds).Level := .concat (.levels h)

/-- A line end after a line, and the next line. -/
theorem Spaced.next {br : Doc} (hbr : ∀ k ≤ 1, Spaced k [br] (k + 1)) (hd : d.Solid)
    (hds : ∀ e ∈ ds, e.Level) : Spaced 0 (br :: d :: ds) 0 :=
  .cons (hbr 0 (Nat.zero_le 1)) ((Spaced.solids hd hds).mono (by decide) (Nat.le_refl 0))

mutual

/-- An empty document adds no line ends. -/
theorem Spaced.of_isEmpty (d : Doc) (h : d.isEmpty = true) (k : Nat) : Spaced k [d] k := by
  cases d with
  | text s =>
      rw [isEmpty, List.isEmpty_iff] at h
      exact .text_of_not_mem (by simp [h])
  | concat parts =>
      rw [isEmpty] at h
      exact .concat (Spaced.of_allEmpty parts h k)
  | indent levels body =>
      rw [isEmpty] at h
      exact .indent levels (Spaced.of_isEmpty body h k)
  | group body =>
      rw [isEmpty] at h
      exact .group (Spaced.of_isEmpty body h k)
  | line | softLine | hardLine | breakParent | table => simp [isEmpty] at h

theorem Spaced.of_allEmpty (ds : List Doc) (h : allEmpty ds = true) (k : Nat) : Spaced k ds k := by
  cases ds with
  | nil => exact .nil
  | cons d rest =>
      rw [allEmpty, Bool.and_eq_true] at h
      exact .cons (Spaced.of_isEmpty d h.1 k) (Spaced.of_allEmpty rest h.2 k)

end

/-- What shows something is not empty: an empty document leaves the line ends before it. -/
theorem Solid.isEmpty_eq (h : d.Solid) : d.isEmpty = false := by
  by_contra hempty
  rw [Bool.not_eq_false] at hempty
  have hlaid : Laid ([(false, d)] ++ []) (d.leaves.map .text ++ []) :=
    Lays.of_isEmpty false d hempty [] [] .nil
  rw [List.append_nil, List.append_nil] at hlaid
  have hnone : Piece.output "\n" (d.leaves.map .text) = [] := by
    have hleaves := leaves_of_isEmpty d hempty
    rw [Piece.output, List.flatMap_eq_nil_iff]
    intro piece hpiece
    obtain ⟨s, hs, rfl⟩ := List.mem_map.mp hpiece
    rw [hleaves s hs]
    rfl
  obtain ⟨n, hn, hgaps⟩ := h _ rfl "\n" (.inl rfl) _ hlaid 2 (Nat.le_refl 2)
  rw [hnone, Bytes.gaps_nil, Option.some.injEq] at hgaps
  omega

/-! ### Lists of documents -/

/-- The document is solid, or empty and left out of a list. -/
def Firm (d : Doc) : Prop := d.isEmpty = true ∨ d.Solid

/-- What stands between the elements of a list on a line. -/
theorem Spaced.separator (hs : Bytes.lf ∉ s) : Spaced 0 [.text s] 2 :=
  (Spaced.text_of_not_mem hs).mono (Nat.le_refl 0) (Nat.zero_le 2)

theorem Spaced.intersperse (hsep : Spaced 0 [sep] 2) (hds : ∀ d ∈ ds, d.Solid) (hne : ds ≠ []) :
    Spaced 2 (ds.intersperse sep) 0 := by
  induction ds with
  | nil => exact absurd rfl hne
  | cons d rest ih =>
      rw [List.forall_mem_cons] at hds
      cases rest with
      | nil => exact hds.1
      | cons e rest =>
          rw [List.intersperse_cons_cons]
          exact .cons hds.1 (.cons hsep (ih hds.2 (List.cons_ne_nil e rest)))

theorem Firm.still (h : d.Firm) : d.Still :=
  h.elim (fun hempty k _ => .of_isEmpty d hempty k) Solid.still

theorem Firm.level (h : d.Firm) : d.Level := h.still.level

theorem Solid.firm (h : d.Solid) : d.Firm := .inr h

/-- Among documents that leave line ends as they are one shows something. -/
theorem Spaced.of_mem (h : ∀ d ∈ ds, d.Still) (hsome : ∃ d ∈ ds, d.Solid) : Spaced 2 ds 0 := by
  obtain ⟨d, hmem, hd⟩ := hsome
  obtain ⟨front, back, rfl⟩ := List.append_of_mem hmem
  rw [List.forall_mem_append, List.forall_mem_cons] at h
  exact (Spaced.stills (Nat.le_refl 2) h.1).append (.solids hd fun e he => (h.2.2 e he).level)

theorem solid_of_mem_filter (hparts : ∀ d ∈ parts, d.Firm) :
    ∀ d ∈ parts.filter fun d => !d.isEmpty, d.Solid := by
  intro d hd
  obtain ⟨hmem, hshown⟩ := List.mem_filter.mp hd
  exact (hparts d hmem).resolve_left (by simpa using hshown)

theorem still_join (hsep : Spaced 0 [sep] 2) (hparts : ∀ d ∈ parts, d.Firm) :
    (join sep parts).Still := by
  intro k hk
  by_cases hnil : (parts.filter fun d => !d.isEmpty) = []
  · rw [join, hnil]
    exact .empty
  · exact (Spaced.intersperse hsep (solid_of_mem_filter hparts) hnil).concat.mono hk (Nat.zero_le k)

theorem solid_join (hsep : Spaced 0 [sep] 2) (hparts : ∀ d ∈ parts, d.Firm)
    (hsome : ∃ d ∈ parts, d.Solid) : (join sep parts).Solid := by
  refine .concat (.intersperse hsep (solid_of_mem_filter hparts) fun hnil => ?_)
  obtain ⟨d, hmem, hd⟩ := hsome
  have hfilter := List.filter_eq_nil_iff.mp hnil d hmem
  simp [hd.isEmpty_eq] at hfilter

theorem solid_words (hparts : ∀ d ∈ parts, d.Firm) (hsome : ∃ d ∈ parts, d.Solid) :
    (words parts).Solid := solid_join (.separator (by decide)) hparts hsome

theorem solid_joinAll (hsep : Spaced 0 [sep] 2) (hparts : AtLeastOne Solid parts) :
    (join sep parts).Solid := by
  obtain ⟨d, hd⟩ := List.exists_mem_of_ne_nil parts hparts.1
  exact solid_join hsep (fun e he => .inr (hparts.2 e he)) ⟨d, hd, hparts.2 d hd⟩

/-! ### Brackets -/

/-- A bracket may hold nothing but line ends. -/
theorem solid_enclosed {br : Doc} (hbr : ∀ k ≤ 1, Spaced k [br] (k + 1))
    (hbody : Spaced 1 [body] 1) (hopening : inked false opening = true)
    (hclosing : inked false closing = true) : (enclosed opening br body closing).Solid := by
  refine .concat (.cons (solid_text hopening) ?_)
  have hinside : Spaced 0 [.indent 1 (.concat [br, body])] 1 :=
    (Spaced.cons (hbr 0 (Nat.zero_le 1)) hbody).concat.indent 1
  exact hinside.cons (.cons (hbr 1 (Nat.le_refl 1)) (solid_text hclosing))

theorem solid_bracket (hbody : Spaced 1 [body] 1) (hopening : inked false opening = true)
    (hclosing : inked false closing = true) : (bracket opening body closing).Solid :=
  .group (solid_enclosed (fun _ => .line) hbody hopening hclosing)

theorem solid_wrap (hbody : Spaced 1 [body] 1) (hopening : inked false opening = true)
    (hclosing : inked false closing = true) : (wrap opening body closing).Solid :=
  .group (solid_enclosed (fun _ => .softLine) hbody hopening hclosing)

end

end Doc

open Doc (Spaced Solid Level)

/-! ## Comments -/

/-- Every line of the comments shows something. -/
def Comment.AllInked (cs : Multiset Bytes) : Prop := ∀ c ∈ cs, inked false c = true

namespace Comment

@[simp] theorem allInked_zero : AllInked 0 := by simp [AllInked]

@[simp] theorem allInked_add {cs cs' : Multiset Bytes} :
    AllInked (cs + cs') ↔ AllInked cs ∧ AllInked cs' := by
  simp only [AllInked, Multiset.mem_add, or_imp, forall_and]

@[simp] theorem allInked_texts {cs : List Comment} :
    AllInked (texts cs) ↔ ∀ c ∈ cs, inked false c.text = true := by
  simp [AllInked, texts]

@[simp] theorem allInked_all {α : Type} {comments : α → Multiset Bytes} {xs : List α} :
    AllInked (allComments comments xs) ↔ ∀ x ∈ xs, AllInked (comments x) := by
  induction xs with
  | nil => simp
  | cons x xs ih => rw [allComments_cons, allInked_add, ih, List.forall_mem_cons]

@[simp] theorem allInked_any {α : Type} {comments : α → Multiset Bytes} {o : Option α} :
    AllInked (anyComments comments o) ↔ ∀ x ∈ o, AllInked (comments x) := by
  cases o <;> simp [anyComments]

end Comment

namespace Doc

open Comment (AllInked)

variable {t : RowTrivia} {sep : Bytes}

theorem level_inline {comment : Bytes} (h : AllInked (RowTrivia.behind comment)) :
    (inline comment).Level := by
  rw [RowTrivia.behind] at h
  rw [inline]
  split
  · exact level_empty
  · rename_i hsome
    rw [if_neg hsome, AllInked] at h
    have hbreak : Level .breakParent := Spaced.breakParent
    have htext : (text comment).Solid := solid_text (h comment (Multiset.mem_singleton_self _))
    simp [hbreak, htext.level]

theorem level_rowTail (h : AllInked (RowTrivia.behind t.inline)) (hsep : inked false sep = true)
    (last : Bool) : (rowTail t last sep).Level := by
  have hinline := level_inline h
  cases last <;> simp [rowTail, hinline, hsep]

theorem Spaced.ended_line {blank : Bool} {c : Comment} (hc : inked false c.text = true) :
    Spaced 1 (ended (if blank then [.empty, .text c.text] else [.text c.text])) 1 := by
  have htext : Spaced 2 (ended [.text c.text]) 1 :=
    .cons (solid_text hc) (.hardLine (Nat.zero_le 1))
  split
  · exact .append (.cons .empty (.hardLine (Nat.le_refl 1))) htext
  · exact htext.mono (by decide) (Nat.le_refl 1)

theorem Spaced.ended_lines (blank : Comment → Bool) {cs : List Comment}
    (h : ∀ c ∈ cs, inked false c.text = true) :
    Spaced 1 (ended (cs.flatMap fun c =>
      if blank c then [.empty, .text c.text] else [.text c.text])) 1 := by
  induction cs with
  | nil => exact .nil
  | cons c rest ih =>
      rw [List.forall_mem_cons] at h
      rw [List.flatMap_cons, ended_append]
      exact (Spaced.ended_line h.1).append (ih h.2)

/-- A blank line may stand in front of a row. -/
theorem Spaced.ended_blank (p : Bool) : Spaced 1 (ended (if p then [.empty] else [])) 2 := by
  split
  · exact .cons .empty (.hardLine (Nat.le_refl 1))
  · exact Spaced.nil.mono (Nat.le_refl 1) (by decide)

/-- The lines above a row that is not the first go on after a line. -/
theorem Spaced.leadingLines (h : AllInked t.above) (top : Bool) :
    Spaced 1 (ended (Doc.leadingLines t top)) 2 := by
  rw [RowTrivia.above, Comment.allInked_texts] at h
  rw [Doc.leadingLines, ended_append]
  refine .append ?_ (.ended_blank _)
  split
  · exact .nil
  · rename_i c rest hsome
    rw [hsome, List.forall_mem_cons] at h
    rw [ended_append]
    exact (Spaced.ended_line h.1).append (.ended_lines _ h.2)

/-- The lines above the first row do not start with a blank line. -/
theorem Spaced.leadingLines_first (h : AllInked t.above) :
    Spaced 2 (ended (Doc.leadingLines t false)) 2 := by
  rw [RowTrivia.above, Comment.allInked_texts] at h
  rw [Doc.leadingLines, ended_append]
  split
  · rename_i hnone
    simpa [hnone, ended] using Spaced.nil
  · rename_i c rest hsome
    rw [hsome, List.forall_mem_cons] at h
    have hfirst : Spaced 2 (ended [.text c.text]) 1 :=
      .cons (solid_text h.1) (.hardLine (Nat.zero_le 1))
    rw [ended_append]
    refine .append (.append ?_ (.ended_lines _ h.2)) (.ended_blank _)
    simpa using hfirst

end Doc

/-! ## Tables -/

namespace TableRow

/-- The documents of a row in their order. -/
def parts : TableRow → List Doc
  | .mk leading cells tail => Doc.ended leading ++ cells ++ [tail]

theorem map_items (flat : Bool) (row : TableRow) : (row.items flat).map Prod.snd = row.parts := by
  obtain ⟨leading, cells, tail⟩ := row
  have hcells : (cellItems flat cells).map Prod.snd = cells := by
    induction cells with
    | nil => rfl
    | cons cell rest ih => rw [cellItems, List.map_cons, ih]
  simp [items, parts, Doc.ended, hcells, List.map_flatMap]

section

variable {t : RowTrivia} {cells : List Doc} {tail : Doc}

/-- A row shows something below the lines above it. -/
theorem spaced_parts (habove : Comment.AllInked t.above) (top : Bool) (hcells : Spaced 2 cells 0)
    (htail : tail.Level) : Spaced 1 (mk (Doc.leadingLines t top) cells tail).parts 0 :=
  ((Spaced.leadingLines habove top).append hcells).append htail

theorem spaced_parts_first (habove : Comment.AllInked t.above) (hcells : Spaced 2 cells 0)
    (htail : tail.Level) : Spaced 2 (mk (Doc.leadingLines t false) cells tail).parts 0 :=
  ((Spaced.leadingLines_first habove).append hcells).append htail

end

end TableRow

namespace Doc

variable {k : Nat} {row : TableRow} {rows : List TableRow} {widths : List Int} {sep : Doc}

theorem Spaced.table (hrow : Spaced k row.parts 0) (hrows : ∀ r ∈ rows, Spaced 1 r.parts 0)
    (hsep : Spaced 0 [sep] 1) : Spaced k [.table (row :: rows) widths sep] 0 := by
  have hrest : Spaced 0 (rows.flatMap fun r => sep :: r.parts) 0 := by
    induction rows with
    | nil => exact .nil
    | cons r rest ih =>
        rw [List.forall_mem_cons] at hrows
        exact (hsep.cons hrows.1).append (ih hrows.2)
  refine .single fun flat newline hnewline ps hps => ?_
  cases hps with
  | table hlaid =>
      refine hrow.append hrest _ ?_ newline hnewline ps hlaid
      rw [List.append_nil, List.map_cons, intercalate_cons_eq]
      simp [TableRow.map_items, List.flatMap_map, List.map_flatMap]

theorem Spaced.columns (hrow : Spaced k row.parts 0) (hrows : ∀ r ∈ rows, Spaced 1 r.parts 0)
    (hsep : Spaced 0 [sep] 1) (enabled : Bool) (pad : List Bool) :
    Spaced k [Columns.table (row :: rows) sep enabled pad] 0 := by
  rw [Columns.table]
  split
  · exact .table hrow hrows hsep
  · exact .table hrow hrows hsep

/-- A table without rows shows nothing. -/
theorem Spaced.columns_nil (enabled : Bool) (pad : List Bool) :
    Spaced k [Columns.table [] sep enabled pad] k := by
  have htable (widths : List Int) : Spaced k [.table [] widths sep] k := by
    refine .single fun flat newline hnewline ps hps => ?_
    cases hps with
    | table hlaid => exact Spaced.nil [] rfl newline hnewline ps hlaid
  rw [Columns.table]
  split
  · exact htable _
  · exact htable _

/-- A table at the start of a line. -/
theorem Spaced.columns_any (hrows : ∀ r ∈ rows, Spaced 1 r.parts 0) (hsep : Spaced 0 [sep] 1)
    (enabled : Bool) (pad : List Bool) : Spaced 1 [Columns.table rows sep enabled pad] 1 := by
  cases rows with
  | nil => exact .columns_nil enabled pad
  | cons row rows =>
      rw [List.forall_mem_cons] at hrows
      exact (Spaced.columns hrows.1 hrows.2 hsep enabled pad).mono (Nat.le_refl 1) (by decide)

end Doc

/-! ## Blocks -/

namespace Block

open Comment (AllInked)

/-- The lines of a block, last one first, show something but for blank lines, of which there is
none at the start and never two together. -/
inductive LinesSolid : List (Option Doc) → Prop where
  | nil : LinesSolid []
  | line {lines : List (Option Doc)} {d : Doc} (h : LinesSolid lines) (hd : d.Solid) :
      LinesSolid (some d :: lines)
  | blank {lines : List (Option Doc)} {d : Doc} (h : LinesSolid (some d :: lines)) :
      LinesSolid (none :: some d :: lines)

/-- The lines of the block show something. -/
def Solid (b : Block) : Prop := LinesSolid b.lines

theorem LinesSolid.spaced {lines : List (Option Doc)} (h : LinesSolid lines) :
    (∀ d rest, lines = some d :: rest → Spaced 2 (stacked lines) 0) ∧
      (lines ≠ [] → Spaced 2 (stacked lines) 1) := by
  induction h with
  | nil => exact ⟨by simp, fun hne => absurd rfl hne⟩
  | @line lines d h hd ih =>
      have hall : Spaced 2 (stacked (some d :: lines)) 0 := by
        by_cases hlines : lines = []
        · rw [hlines]
          exact hd
        · rw [stacked_cons (some d) hlines]
          exact (ih.2 hlines).append (.cons (.hardLine (Nat.le_refl 1)) hd)
      exact ⟨fun _ _ _ => hall, fun _ => hall.mono (Nat.le_refl 2) (by decide)⟩
  | @blank lines d h ih =>
      refine ⟨by simp, fun _ => ?_⟩
      rw [stacked_cons none (List.cons_ne_nil _ _)]
      exact (ih.1 d lines rfl).append (.cons (.hardLine (Nat.zero_le 1)) .empty)

/-- Without the blank line at its end a block that is not empty ends with a line. -/
theorem LinesSolid.dropBlanks {lines : List (Option Doc)} (h : LinesSolid lines)
    (hne : lines ≠ []) : ∃ d rest, lines.dropWhile Option.isNone = some d :: rest ∧
      LinesSolid (some d :: rest) := by
  cases h with
  | nil => exact absurd rfl hne
  | @line lines d h hd => exact ⟨d, lines, rfl, .line h hd⟩
  | @blank lines d h => exact ⟨d, lines, rfl, h⟩

variable {b : Block} {d body : Doc}

theorem solid_empty : Solid {} := .nil

theorem Solid.add (h : b.Solid) (hd : d.Solid) : (b.add d).Solid := .line h hd

theorem Solid.blank (h : b.Solid) : b.blank.Solid := by
  rw [Block.blank]
  split
  · exact h
  · exact h
  · rename_i d rest hlines
    rw [Solid, hlines] at h
    rw [Solid, hlines]
    exact .blank h

theorem Solid.foldl {α : Type} {add : Block → α → Block} {xs : List α}
    (hadd : ∀ x ∈ xs, ∀ {b}, b.Solid → (add b x).Solid) (h : b.Solid) : (xs.foldl add b).Solid := by
  induction xs generalizing b with
  | nil => exact h
  | cons x rest ih =>
      rw [List.forall_mem_cons] at hadd
      exact ih hadd.2 (hadd.1 h)

theorem Solid.comments (h : b.Solid) {cs : List Comment} (hcs : AllInked (Comment.texts cs)) :
    (b.comments cs).Solid := by
  rw [Comment.allInked_texts] at hcs
  refine h.foldl fun c hc b hb => Solid.add ?_ (Doc.solid_text (hcs c hc))
  split
  · exact hb.blank
  · exact hb

theorem Solid.leading (h : b.Solid) {t : RowTrivia} (ht : AllInked t.above) :
    (b.leading t).Solid := by
  have hcomments := h.comments ht
  rw [Block.leading]
  split
  · exact hcomments.blank
  · exact hcomments

theorem Solid.row (h : b.Solid) {t : RowTrivia} (ht : AllInked t.comments) (hbody : body.Solid) :
    (b.row t body).Solid := by
  rw [RowTrivia.comments, Comment.allInked_add] at ht
  refine (h.leading ht.1).add (Doc.solid_concat hbody ?_)
  simpa using Doc.level_inline ht.2

theorem Solid.doc (h : b.Solid) (hne : b.lines ≠ []) : b.doc.Solid := by
  obtain ⟨d, rest, hlines, hsolid⟩ := LinesSolid.dropBlanks h hne
  have hspaced : Spaced 2 (stacked (b.lines.dropWhile Option.isNone)) 0 := by
    rw [hlines]
    exact hsolid.spaced.1 d rest rfl
  exact hspaced.concat

/-- A block on lines of its own, if it has any. -/
theorem Solid.nest (h : b.Solid) : b.nest.Level := by
  rw [Block.nest]
  split
  · exact Doc.level_empty
  · rename_i hlines
    have hdoc := h.doc (by simpa using hlines)
    exact (Spaced.next (fun _ => .hardLine) hdoc (by simp)).concat.indent 1

end Block

open Comment (AllInked)

/-- Comments on lines of their own. -/
theorem Doc.solid_commentLines {cs : List Comment} (hne : cs ≠ [])
    (hcs : AllInked (Comment.texts cs)) : (Doc.commentLines cs).Solid := by
  refine (Block.solid_empty.comments hcs).doc ?_
  have hlines : ∀ (cs : List Comment) (b : Block), b.lines ≠ [] → (b.comments cs).lines ≠ [] := by
    intro cs
    induction cs with
    | nil => exact fun b hb => hb
    | cons c rest ih => exact fun b _ => ih _ (List.cons_ne_nil _ _)
  cases cs with
  | nil => exact absurd rfl hne
  | cons c rest => exact hlines rest _ (List.cons_ne_nil _ _)

namespace Printer

theorem spaced_listRows {α : Type} {trivia : α → RowTrivia} {cells : α → List Doc} {sep : Bytes}
    {items : List α} (hsep : inked false sep = true)
    (htrivia : ∀ item ∈ items, AllInked (trivia item).comments)
    (hcells : ∀ item ∈ items, Spaced 2 (cells item) 0) (first : Bool) :
    ∀ row ∈ listRows trivia cells sep first items, Spaced 1 row.parts 0 := by
  induction items generalizing first with
  | nil => simp [listRows]
  | cons item rest ih =>
      rw [List.forall_mem_cons] at htrivia hcells
      obtain ⟨habove, hbehind⟩ := Comment.allInked_add.mp htrivia.1
      rw [listRows, List.forall_mem_cons]
      exact ⟨TableRow.spaced_parts habove _ hcells.1 (Doc.level_rowTail hbehind hsep _),
        ih htrivia.2 hcells.2 false⟩

theorem spaced_withTail {table : Doc} (h : Spaced 1 [table] 1) {tail : List Comment}
    (htail : AllInked (Comment.texts tail)) : Spaced 1 [withTail table tail] 1 := by
  rw [withTail]
  split
  · exact h.concat
  · rename_i hsome
    have hlines := Doc.solid_commentLines (by simpa using hsome) htail
    refine .concat (h.cons (.cons (.hardLine (Nat.le_refl 1)) ?_))
    exact hlines.mono (Nat.le_refl 2) (by decide)

end Printer

end VhdlStyle
