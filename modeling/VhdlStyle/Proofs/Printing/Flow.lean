import Mathlib.Algebra.Order.Group.Multiset
import Mathlib.Data.Multiset.Filter
import VhdlStyle.Proofs.Layout.Writing
import VhdlStyle.Proofs.Printing.Words

/-! # Nothing is written behind a comment

Once a comment is written the end of its line is due: only a newline may come next. `Doc.Shows`
says of documents which comments they show and that they keep to this rule when their lines are
broken. It is built up along the document; a group keeps to the rule because whatever shows a
comment forces the group to break. -/

namespace VhdlStyle

/-! ## Pieces -/

namespace Piece

/-- Whether the end of the line is due after a piece; nothing may be written while it is. -/
def step (due : Bool) : Piece → Option Bool
  | text s =>
    if s.all Writer.isBlank then some due else if due then none else some s.isComment
  | blank _ => if due then none else some false
  | newline => some false

/-- Whether the end of the line is due after pieces. -/
def run (due : Bool) (ps : List Piece) : Option Bool := ps.foldlM step due

@[simp] theorem run_nil (due : Bool) : run due [] = some due := rfl

@[simp] theorem run_cons (due : Bool) (p : Piece) (ps : List Piece) :
    run due (p :: ps) = (step due p).bind fun after => run after ps := rfl

@[simp] theorem run_append (due : Bool) (ps qs : List Piece) :
    run due (ps ++ qs) = (run due ps).bind fun after => run after qs :=
  List.foldlM_append

/-- Pieces without comments leave nothing due. -/
theorem run_of_no_comments {ps : List Piece} (h : ∀ s ∈ texts ps, s.isComment = false) :
    run false ps = some false := by
  induction ps with
  | nil => rfl
  | cons p ps ih =>
      cases p with
      | text s =>
          rw [texts_cons_text, List.forall_mem_cons] at h
          have hstep : step false (text s) = some false := by simp [step, h.1]
          rw [run_cons, hstep]
          exact ih h.2
      | blank tab => exact ih h
      | newline => exact ih h

end Piece

/-! ## Parts of a layout -/

theorem Laid.split_nil {ys items : List (Bool × Doc)} {ps : List Piece} (hitems : [] ++ ys = items)
    (h : Laid items ps) : ∃ qs rs, ps = qs ++ rs ∧ Laid [] qs ∧ Laid ys rs := by
  subst hitems
  exact ⟨[], ps, rfl, .nil, h⟩

/-- Documents one after the other are laid out one after the other. -/
theorem Laid.split {xs ys : List (Bool × Doc)} {ps : List Piece} (h : Laid (xs ++ ys) ps) :
    ∃ qs rs, ps = qs ++ rs ∧ Laid xs qs ∧ Laid ys rs := by
  generalize hitems : xs ++ ys = items at h
  induction h generalizing xs with
  | nil =>
      obtain ⟨rfl, rfl⟩ := List.append_eq_nil_iff.mp hitems
      exact ⟨[], [], rfl, .nil, .nil⟩
  | blank hblank hrest ih =>
      cases xs with
      | nil => exact split_nil hitems (.blank hblank hrest)
      | cons x xs =>
          obtain ⟨rfl, hxs⟩ := List.cons.inj hitems
          obtain ⟨qs, rs, rfl, hqs, hrs⟩ := ih hxs
          exact ⟨_ :: qs, rs, rfl, .blank hblank hqs, hrs⟩
  | text before hshown hrest ih =>
      cases xs with
      | nil => exact split_nil hitems (.text before hshown hrest)
      | cons x xs =>
          obtain ⟨rfl, hxs⟩ := List.cons.inj hitems
          obtain ⟨qs, rs, rfl, hqs, hrs⟩ := ih hxs
          refine ⟨_, rs, ?_, .text before hshown hqs, hrs⟩
          rw [List.append_assoc, List.cons_append]
  | lineFlat hrest ih =>
      cases xs with
      | nil => exact split_nil hitems (.lineFlat hrest)
      | cons x xs =>
          obtain ⟨rfl, hxs⟩ := List.cons.inj hitems
          obtain ⟨qs, rs, rfl, hqs, hrs⟩ := ih hxs
          exact ⟨qs, rs, rfl, .lineFlat hqs, hrs⟩
  | lineBroken hrest ih =>
      cases xs with
      | nil => exact split_nil hitems (.lineBroken hrest)
      | cons x xs =>
          obtain ⟨rfl, hxs⟩ := List.cons.inj hitems
          obtain ⟨qs, rs, rfl, hqs, hrs⟩ := ih hxs
          exact ⟨_ :: qs, rs, rfl, .lineBroken hqs, hrs⟩
  | softLineFlat hrest ih =>
      cases xs with
      | nil => exact split_nil hitems (.softLineFlat hrest)
      | cons x xs =>
          obtain ⟨rfl, hxs⟩ := List.cons.inj hitems
          obtain ⟨qs, rs, rfl, hqs, hrs⟩ := ih hxs
          exact ⟨qs, rs, rfl, .softLineFlat hqs, hrs⟩
  | softLineBroken hrest ih =>
      cases xs with
      | nil => exact split_nil hitems (.softLineBroken hrest)
      | cons x xs =>
          obtain ⟨rfl, hxs⟩ := List.cons.inj hitems
          obtain ⟨qs, rs, rfl, hqs, hrs⟩ := ih hxs
          exact ⟨_ :: qs, rs, rfl, .softLineBroken hqs, hrs⟩
  | hardLine hrest ih =>
      cases xs with
      | nil => exact split_nil hitems (.hardLine hrest)
      | cons x xs =>
          obtain ⟨rfl, hxs⟩ := List.cons.inj hitems
          obtain ⟨qs, rs, rfl, hqs, hrs⟩ := ih hxs
          exact ⟨_ :: qs, rs, rfl, .hardLine hqs, hrs⟩
  | breakParent hrest ih =>
      cases xs with
      | nil => exact split_nil hitems (.breakParent hrest)
      | cons x xs =>
          obtain ⟨rfl, hxs⟩ := List.cons.inj hitems
          obtain ⟨qs, rs, rfl, hqs, hrs⟩ := ih hxs
          exact ⟨qs, rs, rfl, .breakParent hqs, hrs⟩
  | @indent flat levels body rest ps hrest ih =>
      cases xs with
      | nil => exact split_nil hitems (.indent hrest)
      | cons x xs =>
          obtain ⟨rfl, rfl⟩ := List.cons.inj hitems
          obtain ⟨qs, rs, rfl, hqs, hrs⟩ := ih (List.cons_append (a := (flat, body)))
          exact ⟨qs, rs, rfl, .indent hqs, hrs⟩
  | @group flat fits body rest ps hfits hrest ih =>
      cases xs with
      | nil => exact split_nil hitems (.group hfits hrest)
      | cons x xs =>
          obtain ⟨rfl, rfl⟩ := List.cons.inj hitems
          obtain ⟨qs, rs, rfl, hqs, hrs⟩ := ih (List.cons_append (a := (fits, body)))
          exact ⟨qs, rs, rfl, .group hfits hqs, hrs⟩
  | concat hrest ih =>
      cases xs with
      | nil => exact split_nil hitems (.concat hrest)
      | cons x xs =>
          obtain ⟨rfl, rfl⟩ := List.cons.inj hitems
          obtain ⟨qs, rs, rfl, hqs, hrs⟩ := ih (List.append_assoc _ xs ys)
          exact ⟨qs, rs, rfl, .concat hqs, hrs⟩
  | table hrest ih =>
      cases xs with
      | nil => exact split_nil hitems (.table hrest)
      | cons x xs =>
          obtain ⟨rfl, rfl⟩ := List.cons.inj hitems
          obtain ⟨qs, rs, rfl, hqs, hrs⟩ := ih (List.append_assoc _ xs ys)
          exact ⟨qs, rs, rfl, .table hqs, hrs⟩

/-! ## Documents in their modes -/

/-- Nothing is written behind a comment in any layout; the end of a line may be due before the
documents only if `due` says so, and after them only if `after` does. -/
def Flows (due : Bool) (items : List (Bool × Doc)) (after : Bool) : Prop :=
  ∀ ps, Laid items ps → ∀ x ≤ due, ∃ y ≤ after, Piece.run x ps = some y

/-- The document shows nothing but code. -/
def Doc.Quiet (d : Doc) : Prop := ∀ s ∈ d.leaves, s.isCode = true

namespace Flows

variable {due due' middle after after' : Bool} {xs ys : List (Bool × Doc)}

theorem nil : Flows due [] due := by
  intro ps hps x hx
  cases hps
  exact ⟨x, hx, rfl⟩

theorem append (hxs : Flows due xs middle) (hys : Flows middle ys after) :
    Flows due (xs ++ ys) after := by
  intro ps hps x hx
  obtain ⟨qs, rs, rfl, hqs, hrs⟩ := hps.split
  obtain ⟨y, hy, hrun⟩ := hxs qs hqs x hx
  obtain ⟨z, hz, hrun'⟩ := hys rs hrs y hy
  refine ⟨z, hz, ?_⟩
  rw [Piece.run_append, hrun]
  exact hrun'

theorem mono (h : Flows due xs after) (hdue : due' ≤ due) (hafter : after ≤ after') :
    Flows due' xs after' := by
  intro ps hps x hx
  obtain ⟨y, hy, hrun⟩ := h ps hps x (hx.trans hdue)
  exact ⟨y, hy.trans hafter, hrun⟩

/-- Where no comment is shown the mode does not matter. -/
theorem quiet (h : ∀ item ∈ xs, item.2.Quiet) : Flows false xs false := by
  intro ps hps x hx
  obtain rfl : x = false := Bool.eq_false_of_le_false hx
  refine ⟨false, Bool.le_refl _, Piece.run_of_no_comments ?_⟩
  rw [hps.texts_eq]
  intro s hs
  obtain ⟨item, hitem, hleaf⟩ := List.mem_flatMap.mp hs
  exact (Bytes.isCode_iff.mp (h item hitem s hleaf)).1

/-- A text leaves the end of its line due. -/
theorem text (flat : Bool) (s : Bytes) : Flows false [(flat, .text s)] true := by
  intro ps hps x hx
  obtain rfl : x = false := Bool.eq_false_of_le_false hx
  cases hps with
  | blank hblank hrest =>
      cases hrest
      refine ⟨false, Bool.false_le _, ?_⟩
      simp [Piece.step, List.all_eq_true.mpr hblank]
  | text before hshown hrest =>
      cases hrest
      have hblanks : Piece.run false (Piece.ofBlanks before) = some false :=
        Piece.run_of_no_comments (by simp)
      rw [Piece.run_append, hblanks]
      simp only [Option.bind_some, Piece.run_cons, Piece.step, Piece.run_nil]
      split
      · exact ⟨false, Bool.false_le _, rfl⟩
      · exact ⟨s.isComment, Bool.le_true _, rfl⟩

theorem hardLine (flat : Bool) : Flows true [(flat, .hardLine)] false := by
  intro ps hps x hx
  cases hps with
  | hardLine hrest =>
      cases hrest
      exact ⟨false, Bool.le_refl _, rfl⟩

theorem line : Flows true [(false, .line)] false := by
  intro ps hps x hx
  cases hps with
  | lineBroken hrest =>
      cases hrest
      exact ⟨false, Bool.le_refl _, rfl⟩

theorem softLine : Flows true [(false, .softLine)] false := by
  intro ps hps x hx
  cases hps with
  | softLineBroken hrest =>
      cases hrest
      exact ⟨false, Bool.le_refl _, rfl⟩

theorem breakParent (flat : Bool) : Flows due [(flat, .breakParent)] due := by
  intro ps hps x hx
  cases hps with
  | breakParent hrest => exact nil _ hrest x hx

theorem indent {flat : Bool} {levels : Int} {body : Doc} (h : Flows due [(flat, body)] after) :
    Flows due [(flat, .indent levels body)] after := by
  intro ps hps
  cases hps with
  | indent hrest => exact h ps hrest

theorem concat {flat : Bool} {parts : List Doc} (h : Flows due (parts.map (flat, ·)) after) :
    Flows due [(flat, .concat parts)] after := by
  intro ps hps
  cases hps with
  | concat hrest =>
      rw [List.append_nil] at hrest
      exact h ps hrest

/-- A group that has to break is as good as its body. -/
theorem group {body : Doc} (h : Flows due [(false, body)] after)
    (hforced : body.flat.forced = true) : Flows due [(false, .group body)] after := by
  intro ps hps
  cases hps with
  | @group _ fits _ _ _ hfits hrest =>
      cases fits with
      | false => exact h ps hrest
      | true => simp [hforced] at hfits

end Flows

namespace Doc

/-! ## Documents of code -/

section

variable {d sep body : Doc} {ds parts : List Doc} {s opening closing : Bytes}

@[simp] theorem quiet_text : (text s).Quiet ↔ s.isCode = true := by simp [Quiet, leaves]

@[simp] theorem quiet_concat : (concat ds).Quiet ↔ ∀ d ∈ ds, d.Quiet := by
  simp only [Quiet, leaves, allLeaves_eq, List.mem_flatMap]
  constructor
  · intro h d hd s hs
    exact h s ⟨d, hd, hs⟩
  · rintro h s ⟨d, hd, hs⟩
    exact h d hd s hs

@[simp] theorem quiet_indent {levels : Int} : (indent levels body).Quiet ↔ body.Quiet := by
  simp [Quiet, leaves]

@[simp] theorem quiet_group : (group body).Quiet ↔ body.Quiet := by simp [Quiet, leaves]

@[simp] theorem quiet_line : line.Quiet := by simp [Quiet, leaves]

@[simp] theorem quiet_softLine : softLine.Quiet := by simp [Quiet, leaves]

@[simp] theorem quiet_hardLine : hardLine.Quiet := by simp [Quiet, leaves]

@[simp] theorem quiet_empty : empty.Quiet := by simp [empty]

@[simp] theorem quiet_space : space.Quiet := by simp +decide [space]

theorem mem_intersperse {α : Type} {x sep : α} {xs : List α} (h : x ∈ xs.intersperse sep) :
    x = sep ∨ x ∈ xs := by
  induction xs with
  | nil => simp at h
  | cons y ys ih =>
      cases ys with
      | nil => exact .inr (by simpa using h)
      | cons z zs =>
          rw [List.intersperse_cons_cons, List.mem_cons, List.mem_cons] at h
          rcases h with rfl | rfl | h
          · exact .inr List.mem_cons_self
          · exact .inl rfl
          · exact (ih h).imp id (List.mem_cons_of_mem y)

@[simp] theorem quiet_join (hsep : sep.Quiet) (hparts : ∀ d ∈ parts, d.Quiet) :
    (join sep parts).Quiet := by
  rw [join, quiet_concat]
  intro d hd
  rcases mem_intersperse hd with rfl | hd
  · exact hsep
  · exact hparts d (List.mem_filter.mp hd).1

@[simp] theorem quiet_words (hparts : ∀ d ∈ parts, d.Quiet) : (words parts).Quiet :=
  quiet_join quiet_space hparts

@[simp] theorem quiet_wrap (hopening : opening.isCode = true) (hbody : body.Quiet)
    (hclosing : closing.isCode = true) : (wrap opening body closing).Quiet := by
  simp [wrap, hopening, hbody, hclosing]

end

/-! ## Documents with their comments -/

/-- The texts that are not code. -/
def remarksOf (texts : List Bytes) : Multiset Bytes :=
  (texts.filter fun s => !s.isCode : List Bytes)

/-- The comments among texts. -/
def commentsOf (texts : List Bytes) : Multiset Bytes := (texts.filter Bytes.isComment : List Bytes)

theorem commentsOf_eq (texts : List Bytes) :
    commentsOf texts = (remarksOf texts).filter fun s => s.isComment = true := by
  rw [commentsOf, remarksOf, Multiset.filter_coe, List.filter_filter]
  congr 1
  refine List.filter_congr fun s _ => ?_
  cases hs : s.isComment <;> simp [Bytes.isCode, hs]

theorem remarksOf_append (xs ys : List Bytes) :
    remarksOf (xs ++ ys) = remarksOf xs + remarksOf ys := by simp [remarksOf]

/-- What documents show besides code. -/
def remarks (ds : List Doc) : Multiset Bytes := remarksOf (allLeaves ds)

/-- The documents show code and those of the texts that are none, and write nothing behind comments
when lines are broken. -/
structure Shows (due : Bool) (ds : List Doc) (after : Bool) (cs : Multiset Bytes) : Prop where
  remarks_eq : remarks ds = cs.filter fun s => !s.isCode
  flows : Flows due (ds.map (false, ·)) after

theorem remarks_append (xs ys : List Doc) : remarks (xs ++ ys) = remarks xs + remarks ys := by
  rw [remarks, allLeaves_eq, List.flatMap_append, remarksOf_append]
  simp only [remarks, allLeaves_eq]

theorem remarks_of_quiet (h : ∀ d ∈ xs, d.Quiet) : remarks xs = 0 := by
  have hnone : ((allLeaves xs).filter fun s => !s.isCode) = [] := by
    rw [List.filter_eq_nil_iff, allLeaves_eq]
    intro s hs
    obtain ⟨d, hd, hleaf⟩ := List.mem_flatMap.mp hs
    simp [h d hd s hleaf]
  rw [remarks, remarksOf, hnone]
  rfl

namespace Shows

variable {due due' middle after after' : Bool} {d body : Doc} {xs ys : List Doc}
  {cs cs' : Multiset Bytes}

theorem nil : Shows due [] due 0 := ⟨rfl, .nil⟩

theorem append (hxs : Shows due xs middle cs) (hys : Shows middle ys after cs') :
    Shows due (xs ++ ys) after (cs + cs') where
  remarks_eq := by rw [remarks_append, hxs.remarks_eq, hys.remarks_eq, Multiset.filter_add]
  flows := by
    rw [List.map_append]
    exact hxs.flows.append hys.flows

theorem cons (hd : Shows due [d] middle cs) (hys : Shows middle ys after cs') :
    Shows due (d :: ys) after (cs + cs') := hd.append hys

theorem mono (h : Shows due xs after cs) (hdue : due' ≤ due) (hafter : after ≤ after') :
    Shows due' xs after' cs := ⟨h.remarks_eq, h.flows.mono hdue hafter⟩

theorem codes (h : ∀ d ∈ xs, d.Quiet) : Shows false xs false 0 where
  remarks_eq := by rw [remarks_of_quiet h, Multiset.filter_zero]
  flows := .quiet (by simpa using h)

theorem code (hd : d.Quiet) : Shows false [d] false 0 := codes (by simpa using hd)

theorem text (s : Bytes) : Shows false [.text s] true {s} where
  remarks_eq := by
    rw [Multiset.filter_singleton]
    by_cases hs : s.isCode = true <;> simp [remarks, remarksOf, allLeaves, leaves, hs]
  flows := .text false s

theorem hardLine : Shows due [.hardLine] false 0 where
  remarks_eq := remarks_of_quiet (by simp)
  flows := (Flows.hardLine false).mono (Bool.le_true due) (Bool.le_refl _)

theorem line : Shows due [.line] false 0 where
  remarks_eq := remarks_of_quiet (by simp)
  flows := Flows.line.mono (Bool.le_true due) (Bool.le_refl _)

theorem softLine : Shows due [.softLine] false 0 where
  remarks_eq := remarks_of_quiet (by simp)
  flows := Flows.softLine.mono (Bool.le_true due) (Bool.le_refl _)

theorem breakParent : Shows due [.breakParent] due 0 where
  remarks_eq := remarks_of_quiet (by simp [Quiet, leaves])
  flows := .breakParent false

theorem indent (levels : Int) (h : Shows due [body] after cs) :
    Shows due [.indent levels body] after cs where
  remarks_eq := by simpa [remarks, allLeaves, leaves] using h.remarks_eq
  flows := .indent h.flows

theorem concat (h : Shows due xs after cs) : Shows due [.concat xs] after cs where
  remarks_eq := by simpa [remarks, allLeaves, leaves] using h.remarks_eq
  flows := .concat h.flows

theorem empty : Shows due [.empty] due 0 := .concat .nil

/-! ### Parts of a concatenation -/

theorem after_codes (hxs : ∀ d ∈ xs, d.Quiet) (hys : Shows false ys after cs) :
    Shows false (xs ++ ys) after cs := by
  have h := (codes hxs).append hys
  rwa [zero_add] at h

theorem after_code (hd : d.Quiet) (hys : Shows false ys after cs) :
    Shows false (d :: ys) after cs :=
  after_codes (List.forall_mem_singleton.mpr hd) hys

theorem after_hardLine (hys : Shows false ys after cs) :
    Shows due (.hardLine :: ys) after cs := by
  rw [← zero_add cs]
  exact hardLine.cons hys

end Shows

/-! ## Groups that have to break -/

/-- A document that shows a comment forces the groups around it to break. -/
def Breaks (d : Doc) : Prop := d.Quiet ∨ d.flat.forced = true

theorem forced_flatAll {d : Doc} {ds : List Doc} (hd : d ∈ ds) (h : d.flat.forced = true) :
    (flatAll ds).forced = true := by
  induction ds with
  | nil => simp at hd
  | cons e rest ih =>
      rw [flatAll, Flat.forced_append, Bool.or_eq_true]
      rcases List.mem_cons.mp hd with rfl | hd
      · exact .inl h
      · exact .inr (ih hd)

namespace Breaks

variable {d body : Doc} {ds : List Doc}

theorem concat (h : ∀ d ∈ ds, d.Breaks) : (Doc.concat ds).Breaks := by
  by_cases hforced : ∃ d ∈ ds, d.flat.forced = true
  · obtain ⟨d, hd, hflat⟩ := hforced
    exact .inr (forced_flatAll hd hflat)
  · refine .inl (quiet_concat.mpr fun d hd => (h d hd).resolve_right fun hflat => ?_)
    exact hforced ⟨d, hd, hflat⟩

theorem indent (levels : Int) (h : body.Breaks) : (Doc.indent levels body).Breaks :=
  h.imp quiet_indent.mpr id

theorem group (h : body.Breaks) : (Doc.group body).Breaks := h.imp quiet_group.mpr id

end Breaks

/-- A group shows what its body does if that breaks where it has to. -/
theorem Shows.group {after : Bool} {body : Doc} {cs : Multiset Bytes}
    (h : Shows false [body] after cs) (hbreaks : body.Breaks) :
    Shows false [.group body] after cs where
  remarks_eq := by simpa [remarks, allLeaves, leaves] using h.remarks_eq
  flows := by
    rcases hbreaks with hquiet | hforced
    · exact (Flows.quiet (by simpa using hquiet)).mono (Bool.le_refl _) (Bool.false_le _)
    · exact .group h.flows hforced

/-! ## Tables -/

end Doc

/-- The row shows those of the texts that are not code, above it or in its tail. -/
inductive TableRow.Shows : TableRow → Multiset Bytes → Prop where
  | mk {leading cells : List Doc} {tail : Doc} {above behind : Multiset Bytes}
      (habove : Doc.Shows false (leading.flatMap fun d => [d, .hardLine]) false above)
      (hcells : ∀ c ∈ cells, c.Quiet) (htail : Doc.Shows false [tail] true behind)
      (hbreaks : tail.Breaks) : Shows (.mk leading cells tail) (above + behind)

/-- The rows show those of the texts that are not code. -/
inductive TableRow.AllShow : List TableRow → Multiset Bytes → Prop where
  | nil : AllShow [] 0
  | cons {row : TableRow} {rows : List TableRow} {cs cs' : Multiset Bytes} (hrow : row.Shows cs)
      (hrows : AllShow rows cs') : AllShow (row :: rows) (cs + cs')

namespace TableRow

theorem mem_cellItems {flat : Bool} {cells : List Doc} {item : Bool × Doc}
    (h : item ∈ cellItems flat cells) : item.2 ∈ cells := by
  induction cells with
  | nil => simp [cellItems] at h
  | cons cell rest ih =>
      rcases List.mem_cons.mp h with rfl | h
      · exact List.mem_cons_self
      · exact List.mem_cons_of_mem cell (ih h)

variable {row : TableRow} {rows : List TableRow} {sep : Doc} {cs : Multiset Bytes}

theorem AllShow.of_mem (h : AllShow rows cs) (hrow : row ∈ rows) : ∃ cs', row.Shows cs' := by
  induction h with
  | nil => simp at hrow
  | cons hshows _ ih =>
      rcases List.mem_cons.mp hrow with rfl | hrow
      · exact ⟨_, hshows⟩
      · exact ih hrow

theorem Shows.flows (h : row.Shows cs) : Flows false (row.items false) true := by
  cases h with
  | @mk leading cells tail _ _ habove hcells htail _ =>
      have hleading : Flows false (leading.flatMap fun d => [(false, d), (false, Doc.hardLine)])
          false := by
        have hflows := habove.flows
        rwa [List.map_flatMap] at hflows
      have hquiet : Flows false (cellItems false cells) false :=
        .quiet fun item hitem => hcells item.2 (mem_cellItems hitem)
      exact (hleading.append hquiet).append htail.flows

/-- Rows with line ends between them. -/
theorem AllShow.flows (h : AllShow rows cs) (hsep : Doc.Shows true [sep] false 0) :
    Flows false ([(false, sep)].intercalate (rows.map (items false))) true := by
  cases h with
  | nil => exact Flows.nil.mono (Bool.le_refl _) (Bool.le_true _)
  | cons hrow hrows =>
      rw [List.map_cons, intercalate_cons_eq]
      refine hrow.flows.append ?_
      -- each further row comes after a separator
      induction hrows with
      | nil => exact .nil
      | cons hrow' _ ih =>
          rw [List.map_cons, List.flatMap_cons, List.singleton_append]
          exact (hsep.flows.append hrow'.flows).append ih

theorem Shows.remarks_eq (flat : Bool) (h : row.Shows cs) :
    Doc.remarksOf (itemLeaves (row.items flat)) = cs.filter fun s => !s.isCode := by
  cases h with
  | @mk leading cells tail _ _ habove hcells htail _ =>
      have hleading := habove.remarks_eq
      have hquiet := Doc.remarks_of_quiet hcells
      have hbehind := htail.remarks_eq
      have habove : Doc.allLeaves (leading.flatMap fun d => [d, Doc.hardLine]) =
          Doc.allLeaves leading := by
        simp [Doc.allLeaves_eq, List.flatMap_assoc, Doc.leaves]
      rw [Doc.remarks] at hleading hquiet hbehind
      rw [habove] at hleading
      rw [items, itemLeaves_append, itemLeaves_append, itemLeaves_leading, itemLeaves_cells,
        Doc.remarksOf_append, Doc.remarksOf_append, hleading, hquiet, add_zero,
        Multiset.filter_add, ← hbehind]
      simp [itemLeaves, Doc.allLeaves]

/-- The separators of rows are code. -/
theorem AllShow.remarks_eq (flat : Bool) (h : AllShow rows cs) (hsep : sep.Quiet) :
    Doc.remarksOf (itemLeaves ([(flat, sep)].intercalate (rows.map (items flat)))) =
      cs.filter fun s => !s.isCode := by
  have hnone : Doc.remarksOf (itemLeaves [(flat, sep)]) = 0 := by
    have hquiet := Doc.remarks_of_quiet (List.forall_mem_singleton.mpr hsep)
    simpa [Doc.remarks, Doc.allLeaves, itemLeaves] using hquiet
  cases h with
  | nil => rfl
  | cons hrow hrows =>
      rw [List.map_cons, intercalate_cons_eq, itemLeaves_append, Doc.remarksOf_append,
        hrow.remarks_eq flat, Multiset.filter_add]
      congr 1
      induction hrows with
      | nil => rfl
      | cons hrow' _ ih =>
          rw [List.map_cons, List.flatMap_cons, itemLeaves_append, itemLeaves_append,
            Doc.remarksOf_append, Doc.remarksOf_append, hnone, zero_add,
            hrow'.remarks_eq flat, ih, Multiset.filter_add]

end TableRow

namespace Doc

variable {rows : List TableRow} {widths : List Int} {sep : Doc} {cs : Multiset Bytes}

theorem Shows.table (hrows : TableRow.AllShow rows cs) (hsep : Shows true [sep] false 0)
    (hquiet : sep.Quiet) : Shows false [.table rows widths sep] true cs where
  remarks_eq := by
    have hremarks := hrows.remarks_eq false hquiet
    rw [itemLeaves_intercalate, ← TableRow.rowLeaves_eq] at hremarks
    rw [← hremarks]
    simp [remarks, allLeaves, leaves, itemLeaves]
  flows := by
    intro ps hps
    cases hps with
    | table hrest =>
        rw [List.map_nil, List.append_nil] at hrest
        exact hrows.flows hsep ps hrest

theorem forced_flatRows {sep : Flat} {first : Bool} {row : TableRow} (hrow : row ∈ rows)
    (h : (flatRow row).forced = true) : (flatRows sep first rows).forced = true := by
  induction rows generalizing first with
  | nil => simp at hrow
  | cons other rest ih =>
      rw [flatRows, Flat.forced_append, Flat.forced_append, Bool.or_eq_true, Bool.or_eq_true]
      rcases List.mem_cons.mp hrow with rfl | hrow
      · exact .inl (.inr h)
      · exact .inr (ih hrow)

theorem quiet_table (hsep : sep.Quiet) (hrows : ∀ row ∈ rows, (∀ d ∈ row.leading, d.Quiet) ∧
    (∀ c ∈ row.cells, c.Quiet) ∧ row.tail.Quiet) : (Doc.table rows widths sep).Quiet := by
  have hleaves : ∀ texts ∈ rowLeaves rows, ∀ s ∈ texts, s.isCode = true := by
    induction rows with
    | nil => simp [rowLeaves]
    | cons row rest ih =>
        obtain ⟨leading, cells, tail⟩ := row
        rw [List.forall_mem_cons] at hrows
        obtain ⟨⟨hleading, hcells, htail⟩, hrest⟩ := hrows
        rw [rowLeaves, List.forall_mem_cons]
        refine ⟨?_, ih hrest⟩
        intro s hs
        rw [List.mem_append, List.mem_append, allLeaves_eq, allLeaves_eq] at hs
        rcases hs with (hs | hs) | hs
        · exact quiet_concat.mpr hleading s (by rwa [leaves, allLeaves_eq])
        · exact quiet_concat.mpr hcells s (by rwa [leaves, allLeaves_eq])
        · exact htail s hs
  intro s hs
  rw [leaves, List.intercalate, List.mem_flatten] at hs
  obtain ⟨texts, htexts, hs⟩ := hs
  rcases mem_intersperse htexts with rfl | htexts
  · exact hsep s hs
  · exact hleaves texts htexts s hs

/-- Lines above a row and comments behind it break the groups around the table. -/
theorem Breaks.table (hrows : TableRow.AllShow rows cs) (hquiet : sep.Quiet) :
    (Doc.table rows widths sep).Breaks := by
  by_cases hforced : ∃ row ∈ rows, (flatRow row).forced = true
  · obtain ⟨row, hrow, hflat⟩ := hforced
    exact .inr (forced_flatRows hrow hflat)
  · refine .inl (quiet_table hquiet ?_)
    intro row hrow
    have hflat : (flatRow row).forced = false :=
      Bool.eq_false_iff.mpr fun hflat => hforced ⟨row, hrow, hflat⟩
    obtain ⟨_, hshows⟩ := hrows.of_mem hrow
    cases hshows with
    | @mk leading cells tail _ _ habove hcells htail hbreaks =>
        simp only [flatRow, Flat.forced_append, Bool.or_eq_false_iff, Bool.not_eq_false',
          List.isEmpty_iff] at hflat
        obtain ⟨⟨rfl, -⟩, htailFlat⟩ := hflat
        refine ⟨by simp [TableRow.leading], hcells, ?_⟩
        exact hbreaks.resolve_right (by rw [htailFlat]; exact Bool.false_ne_true)

end Doc

end VhdlStyle
