import VhdlStyle.Proofs.Printing.Constructs

/-! # Which rows have all their breaks in groups

A line may be broken after some operators. Values and lists in parentheses are groups of their
own, but other expressions are printed as they are: the breaks in them belong to the row itself, and
are taken even where there is room. -/

namespace VhdlStyle

/-- No break stands outside the parentheses of lists in the expression. -/
def Expr.whole : Expr → Bool
  | .leaf _ | .aggregate _ => true
  | .unary _ x | .paren x | .call x _ | .selected x _ | .attribute x _ => x.whole
  | .binary op x y => !Printer.breaksAfter op.kind && x.whole && y.whole
  | .qualified mark x => mark.whole && x.whole

/-- No break stands outside the parentheses of lists in the subtype. -/
def SubtypeIndication.whole (s : SubtypeIndication) : Bool :=
  s.resolution.all Expr.whole && s.mark.whole &&
    match s.constraint with
    | some (.index ranges) => ranges.all Expr.whole
    | some (.range r) => r.whole
    | none => true

/-- All breaks of the statement stand in groups; compound statements have breaks of their own. -/
def SeqStmt.whole : SeqStmt → Bool
  | .varAssign _ target _ => target.whole
  | .waitStmt _ on _ for_ => on.all Expr.whole && for_.all Expr.whole
  | .reportStmt _ _ severity => severity.all Expr.whole
  | .ifStmt .. | .caseStmt .. | .loop .. => false
  | _ => true

/-- All breaks of the type definition stand in groups; a record has rows inside. -/
def TypeDef.whole : TypeDef → Bool
  | .enum _ => true
  | .range r units => r.whole && units.isEmpty
  | .array indexes element => indexes.all Expr.whole && element.whole
  | .record .. => false
  | .access target => target.whole

/-- All breaks of the declaration stand in groups. -/
def Decl.whole : Decl → Bool
  | .object _ _ _ _ s x => x.isSome || s.whole
  | .type _ _ definition => definition.all TypeDef.whole
  | .subtype _ _ s => s.whole
  | .alias _ _ s target => s.all SubtypeIndication.whole && target.whole
  | .component .. | .subprogramBody .. => false
  | .attribute _ _ mark => mark.whole
  | .attributeSpec _ _ entities _ _ => entities.all Expr.whole
  | .subprogram _ spec => spec.result.all Expr.whole
  | .use clause => clause.names.all Expr.whole
  | .raw .. => true

/-- All breaks of the statement stand in groups. -/
def ConcStmt.whole : ConcStmt → Bool
  | .process .. | .forGenerate .. | .ifGenerate .. => false
  | _ => true

/-- All breaks of the context item stand in groups. -/
def ContextItem.whole : ContextItem → Bool
  | .library .. => true
  | .use clause => clause.names.all Expr.whole

/-- All breaks of the construct stand in groups. -/
def Construct.whole : Construct → Bool
  | .context item => item.whole
  | .interface i => i.default.isSome || i.indication.whole
  | .association m => !m.assoc.choices.isEmpty || m.assoc.actual.whole
  | .field f => f.indication.whole
  | .declaration d => d.whole
  | .statement s => s.whole
  | .choices xs => xs.all Expr.whole
  | .concurrent s => s.whole

namespace Doc

@[simp]
theorem grouped_text (s : Bytes) : (text s).grouped = true := rfl

@[simp]
theorem grouped_space : space.grouped = true := rfl

@[simp]
theorem grouped_line : line.grouped = false := rfl

@[simp]
theorem grouped_hardLine : hardLine.grouped = false := rfl

@[simp]
theorem grouped_group (body : Doc) : (group body).grouped = true := rfl

@[simp]
theorem grouped_concat (ds : List Doc) : (concat ds).grouped = allGrouped ds := rfl

@[simp]
theorem allGrouped_nil : allGrouped [] = true := rfl

@[simp]
theorem allGrouped_cons (d : Doc) (rest : List Doc) :
    allGrouped (d :: rest) = (d.grouped && allGrouped rest) := rfl

mutual

theorem grouped_of_isEmpty {d : Doc} (h : d.isEmpty = true) : d.grouped = true := by
  cases d with
  | text s => rfl
  | indent levels body => exact grouped_of_isEmpty (d := body) h
  | group body => rfl
  | concat parts => exact allGrouped_of_allEmpty h
  | line | softLine | hardLine | breakParent | table => cases h

theorem allGrouped_of_allEmpty {ds : List Doc} (h : allEmpty ds = true) :
    allGrouped ds = true := by
  cases ds with
  | nil => rfl
  | cons d rest =>
      rw [allEmpty, Bool.and_eq_true] at h
      rw [allGrouped, grouped_of_isEmpty h.1, allGrouped_of_allEmpty h.2]
      rfl

end

theorem lastGrouped_of_allEmpty {ds : List Doc} (h : allEmpty ds = true) :
    lastGrouped ds = true := by
  cases ds with
  | nil => rfl
  | cons d rest =>
      rw [allEmpty, Bool.and_eq_true] at h
      rw [lastGrouped, if_pos h.2, grouped_of_isEmpty h.1]

/-- A cell whose breaks stand in groups leaves the matter to the cells behind it. -/
theorem lastGrouped_cons {d : Doc} {rest : List Doc} (h : d.grouped = true) :
    lastGrouped (d :: rest) = lastGrouped rest := by
  rw [lastGrouped]
  split
  · next hempty => rw [h, lastGrouped_of_allEmpty hempty]
  · rfl

@[simp]
theorem allGrouped_append (xs ys : List Doc) :
    allGrouped (xs ++ ys) = (allGrouped xs && allGrouped ys) := by
  induction xs with
  | nil => rfl
  | cons d xs ih => rw [List.cons_append, allGrouped, allGrouped, ih, Bool.and_assoc]

end Doc

namespace Printer

variable (p : Printer)

@[simp]
theorem grouped_name (text : Bytes) : (p.name text).grouped = true := rfl

@[simp]
theorem grouped_keyword (text : Bytes) : (p.keyword text).grouped = true := rfl

@[simp]
theorem grouped_leaf (l : Leaf) : (p.leaf l).grouped = true := by
  rw [leaf]
  split
  · rfl
  · split <;> rfl

@[simp]
theorem grouped_operator (l : Leaf) : (p.operator l).grouped = true := by
  rw [operator]
  split <;> rfl

/-- An expression has all its breaks in groups if it is whole. -/
@[simp]
theorem grouped_expr (x : Expr) : (p.expr x).grouped = x.whole := by
  match x with
  | .leaf l => exact p.grouped_leaf l
  | .unary op x =>
      have hx := grouped_expr x
      rw [expr]
      split <;> simp [hx, Expr.whole]
  | .binary op x y =>
      have hx := grouped_expr x
      have hy := grouped_expr y
      cases hbreaks : breaksAfter op.kind <;>
        simp [expr, hbreaks, hx, hy, Expr.whole]
  | .paren x => simp [expr, grouped_expr x, Expr.whole]
  | .call f args => simp [expr, parens, Doc.wrap, grouped_expr f, Expr.whole]
  | .selected x l => simp [expr, grouped_expr x, Expr.whole]
  | .attribute x l => simp [expr, grouped_expr x, Expr.whole]
  | .qualified mark x => simp [expr, grouped_expr mark, grouped_expr x, Expr.whole]
  | .aggregate elems => rfl

/-- Texts and groups between which there is nothing to break. -/
theorem allGrouped_intersperse {sep : Doc} (hsep : sep.grouped = true) (ds : List Doc) :
    Doc.allGrouped (ds.intersperse sep) = Doc.allGrouped ds := by
  induction ds with
  | nil => rfl
  | cons d rest ih =>
      cases rest with
      | nil => rfl
      | cons next rest =>
          rw [List.intersperse_cons_cons, Doc.allGrouped, Doc.allGrouped, ih, hsep, Bool.true_and]
          rfl

theorem allGrouped_filter (ds : List Doc) :
    Doc.allGrouped (ds.filter fun d => !d.isEmpty) = Doc.allGrouped ds := by
  induction ds with
  | nil => rfl
  | cons d rest ih =>
      cases hempty : d.isEmpty with
      | true => simp [hempty, ih, Doc.grouped_of_isEmpty hempty]
      | false => simp [hempty, ih]

theorem grouped_join {sep : Doc} (hsep : sep.grouped = true) (ds : List Doc) :
    (Doc.join sep ds).grouped = Doc.allGrouped ds := by
  rw [Doc.join, Doc.grouped, allGrouped_intersperse hsep, allGrouped_filter]

@[simp]
theorem grouped_exprList (xs : List Expr) : (p.exprList xs).grouped = xs.all Expr.whole := by
  rw [exprList, grouped_join rfl]
  induction xs with
  | nil => rfl
  | cons x rest ih => rw [exprs, Doc.allGrouped, ih, p.grouped_expr, List.all_cons]

@[simp]
theorem grouped_choices (xs : List Expr) : (p.choices xs).grouped = xs.all Expr.whole := by
  rw [choices, grouped_join rfl]
  induction xs with
  | nil => rfl
  | cons x rest ih => rw [exprs, Doc.allGrouped, ih, p.grouped_expr, List.all_cons]

@[simp]
theorem grouped_names (ns : List Bytes) : (p.names ns).grouped = true := by
  rw [names, grouped_join rfl]
  induction ns with
  | nil => rfl
  | cons n rest ih => simp [ih]

@[simp]
theorem grouped_labeled (label : Bytes) (body : Doc) :
    (p.labeled label body).grouped = body.grouped := by
  rw [labeled]
  split <;> simp

@[simp]
theorem grouped_value (x : Expr) : (p.value x).grouped = true := rfl

/-- What follows a reserved word decides over the clause. -/
@[simp]
theorem allGrouped_clause (word : Bytes) (shown : Expr → Doc) (x : Option Expr) :
    Doc.allGrouped (p.clause word shown x) = x.all fun x => (shown x).grouped := by
  cases x <;> simp [clause]

/-! ### Subtypes and the cells of rows -/

@[simp]
theorem grouped_subtype (s : SubtypeIndication) : (p.subtype s).grouped = s.whole := by
  obtain ⟨resolution, mark, constraint⟩ := s
  rw [subtype, SubtypeIndication.whole, Doc.grouped, Doc.allGrouped_append, Doc.allGrouped_append]
  congr 1
  · congr 1
    · cases resolution <;> simp
    · simp
  · rcases constraint with _ | ranges | r
    · rfl
    · simp
    · simp

/-- An object, a port, a generic or a parameter without an initial value may be broken in its
subtype. -/
theorem lastGrouped_initializer (s : SubtypeIndication) (x : Option Expr) :
    Doc.lastGrouped [p.subtype s, p.initializer x] = (x.isSome || s.whole) := by
  cases x with
  | some x => rfl
  | none => exact p.grouped_subtype s

theorem lastGrouped_interfaceCells (i : InterfaceItem) :
    Doc.lastGrouped (p.interfaceCells i) = (i.default.isSome || i.indication.whole) := by
  have hnames : (Doc.words [p.keyword i.objectClass, p.names i.names]).grouped = true := by
    rw [Doc.words, grouped_join rfl]
    simp
  rw [interfaceCells, Doc.lastGrouped_cons hnames, Doc.lastGrouped_cons rfl,
    Doc.lastGrouped_cons rfl, lastGrouped_initializer]

theorem lastGrouped_object (word : Bytes) (ns : List Bytes) (s : SubtypeIndication)
    (x : Option Expr) :
    Doc.lastGrouped [p.keyword word, p.names ns, .text ":", p.subtype s, p.initializer x] =
      (x.isSome || s.whole) := by
  rw [Doc.lastGrouped_cons rfl, Doc.lastGrouped_cons (p.grouped_names ns), Doc.lastGrouped_cons rfl,
    lastGrouped_initializer]

theorem lastGrouped_field (ns : List Bytes) (s : SubtypeIndication) :
    Doc.lastGrouped [p.names ns, .text ":", p.subtype s] = s.whole := by
  rw [Doc.lastGrouped_cons (p.grouped_names ns), Doc.lastGrouped_cons rfl]
  exact p.grouped_subtype s

/-- A positional association may be broken in its actual part, a named one only in a group. -/
theorem lastGrouped_mapCells (m : MapItem) :
    Doc.lastGrouped (p.mapCells m) = (!m.assoc.choices.isEmpty || m.assoc.actual.whole) := by
  rw [mapCells]
  cases m.assoc.choices.isEmpty with
  | true => exact p.grouped_expr _
  | false =>
      have hactual : Doc.lastGrouped [p.value m.assoc.actual] = true := rfl
      have harrow : Doc.lastGrouped [.text "=>", p.value m.assoc.actual] = true := by
        rw [Doc.lastGrouped_cons rfl, hactual]
      rw [if_neg Bool.false_ne_true, Doc.lastGrouped, harrow]
      rfl

/-! ### Statements and choices -/

theorem grouped_choiceHeader (xs : List Expr) :
    (p.choiceHeader xs).grouped = xs.all Expr.whole := by
  simp [choiceHeader]

/-- Statements of one row are broken in groups, but for the target of a variable assignment, the
signals and the time of a wait statement, and the severity of a report. -/
theorem grouped_seqStmt (s : SeqStmt) : (p.seqStmt s).grouped = s.whole := by
  cases s with
  | signalAssign h target arms => simp [seqStmt, signalAssign, SeqStmt.whole]
  | varAssign h target x => simp [seqStmt, SeqStmt.whole]
  | ifStmt h branches endLabel => simp [seqStmt, SeqStmt.whole]
  | caseStmt h matching selector alts endLabel tail => simp [seqStmt, SeqStmt.whole]
  | loop h scheme stmts endLabel tail => simp [seqStmt, SeqStmt.whole]
  | loopControl h word loopLabel cond =>
      cases hlabel : loopLabel.isEmpty <;> simp [seqStmt, SeqStmt.whole, hlabel]
  | returnStmt h x => cases x <;> simp [seqStmt, SeqStmt.whole]
  | nullStmt h => simp [seqStmt, SeqStmt.whole]
  | waitStmt h on until_ for_ => cases on <;> simp [seqStmt, SeqStmt.whole, Bool.and_assoc]
  | reportStmt h message severity => simp [seqStmt, SeqStmt.whole]
  | assertStmt h a => simp [seqStmt, assertion, SeqStmt.whole]
  | call h callee => simp [seqStmt, SeqStmt.whole]

/-! ### Declarations and concurrent statements -/

theorem grouped_nest {b : Block} (h : b.lines ≠ []) : b.nest.grouped = false := by
  rw [Block.nest, if_neg (by simpa using h)]
  rfl

theorem grouped_typeDecl (name : Bytes) (definition : Option TypeDef) :
    (p.typeDecl name definition).grouped = definition.all TypeDef.whole := by
  match definition with
  | none => simp [typeDecl]
  | some (.enum literals) => simp [typeDecl, parens, Doc.wrap, TypeDef.whole]
  | some (.range r units) =>
      cases hunits : units.isEmpty with
      | true => simp [typeDecl, rangeType, hunits, TypeDef.whole]
      | false =>
          simp [typeDecl, rangeType, hunits, TypeDef.whole, grouped_nest, Block.add]
  | some (.array indexes element) => simp [typeDecl, TypeDef.whole]
  | some (.record fields endLabel tail) => simp [typeDecl, recordType, TypeDef.whole]
  | some (.access target) => simp [typeDecl, TypeDef.whole]

@[simp]
theorem grouped_words (ds : List Doc) : (Doc.words ds).grouped = Doc.allGrouped ds :=
  grouped_join rfl ds

theorem grouped_subprogramSpec (spec : SubprogramSpec) :
    (p.subprogramSpec spec).grouped = spec.result.all Expr.whole := by
  rw [subprogramSpec]
  split <;> simp [Doc.wrap]

theorem grouped_declaration {d : Decl} {t : RowTrivia} {body : Doc}
    (h : p.declRow d = .single t body) : body.grouped = d.whole := by
  match d, h with
  | .type t name definition, rfl => exact p.grouped_typeDecl name definition
  | .subtype t name s, rfl => simp [Decl.whole]
  | .alias t name s target, rfl => cases s <;> simp [Decl.whole]
  | .component t name generics ports endLabel tail, rfl => simp [component, Decl.whole]
  | .attribute t name mark, rfl => simp [Decl.whole]
  | .attributeSpec t name entities entityClass x, rfl => simp [Decl.whole]
  | .subprogram t spec, rfl => simp [grouped_subprogramSpec, Decl.whole]
  | .subprogramBody t spec decls declTail stmts endLabel tail, rfl => simp [Decl.whole]
  | .use clause, rfl => simp [useClause, Decl.whole]
  | .raw t [], rfl | .raw t (_ :: _), rfl => rfl

theorem grouped_concStmt (s : ConcStmt) : (p.concStmt s).grouped = s.whole := by
  cases s with
  | assign h target arms => simp [concStmt, signalAssign, ConcStmt.whole]
  | selectedAssign h selector target arms => simp [concStmt, selectedAssign, ConcStmt.whole]
  | process h body => simp [concStmt, process, ConcStmt.whole]
  | instantiation h inst => simp [concStmt, instantiation, ConcStmt.whole]
  | forGenerate h param range body endLabel => simp [concStmt, ConcStmt.whole]
  | ifGenerate h branches endLabel => simp [concStmt, ConcStmt.whole]
  | assertStmt h a => simp [concStmt, assertion, ConcStmt.whole]
  | call h callee => simp [concStmt, ConcStmt.whole]

theorem grouped_contextItem (item : ContextItem) :
    (p.contextItem item).grouped = item.whole := by
  cases item with
  | library t names => simp [contextItem, ContextItem.whole]
  | use clause => simp [contextItem, useClause, ContextItem.whole]

/-- A comment behind a row forces a break. -/
theorem grouped_inline {comment : Bytes} (h : (Doc.inline comment).flat.forced = false) :
    (Doc.inline comment).grouped = true := by
  rw [Doc.inline] at h ⊢
  split at h
  · rw [if_pos ‹_›]
    rfl
  · cases h

theorem grouped_behind {sep : Doc} (hsep : sep.grouped = true) {comment : Bytes}
    (h : (Doc.concat [sep, Doc.inline comment]).flat.forced = false) :
    (Doc.concat [sep, Doc.inline comment]).grouped = true := by
  have hparts : (sep.flat.forced || ((Doc.inline comment).flat.forced || false)) = false := h
  have hcomment : (Doc.inline comment).flat.forced = false := by simp_all
  simp [hsep, grouped_inline hcomment]

end Printer

/-- All breaks of a row stand in groups if the construct is whole. -/
theorem Construct.Prints.grouped_iff {p : Printer} {c : Construct} {r : Row} (h : c.Prints p r)
    (hforced : r.Unforced) : r.Grouped ↔ c.whole = true := by
  have hline {d : Doc} {b : Bool} (h : d.grouped = b) : (Row.line d).Grouped ↔ b = true :=
    iff_of_eq (congrArg (· = true) h)
  have hcells {widths : List Int} {leading cells : List Doc} {sep : Doc} {comment : Bytes}
      (hforced : (Row.cells widths
        (.mk leading cells (.concat [sep, Doc.inline comment]))).Unforced)
      (hsep : sep.grouped = true) {b : Bool} (h : Doc.lastGrouped cells = b) :
      (Row.cells widths (.mk leading cells (.concat [sep, Doc.inline comment]))).Grouped ↔
        b = true :=
    h ▸ and_iff_left (Printer.grouped_behind hsep hforced.2)
  have hsep (last : Bool) (sep : Bytes) :
      (if last then Doc.empty else .text sep).grouped = true := by
    cases last <;> rfl
  cases h with
  | context item => exact hline (p.grouped_contextItem item)
  | interface i widths top last =>
      exact hcells hforced (hsep last _) (p.lastGrouped_interfaceCells i)
  | association m widths top last =>
      exact hcells hforced (hsep last _) (p.lastGrouped_mapCells m)
  | field f widths top => exact hcells hforced rfl (p.lastGrouped_field f.names f.indication)
  | @object d t cells hobject widths first =>
      cases d with
      | object t _ word ns s x =>
          cases hobject
          exact hcells hforced rfl (p.lastGrouped_object word ns s x)
      | _ => cases hobject
  | declaration hsingle => exact hline (p.grouped_declaration hsingle)
  | statement s => exact hline (p.grouped_seqStmt s)
  | choices xs => exact hline (p.grouped_choiceHeader xs)
  | concurrent s => exact hline (p.grouped_concStmt s)

/-! ## Breaks that are always taken -/

namespace Printer

variable (p : Printer) {o : LayoutOptions}

theorem isEmpty_eq_false {d : Doc} (h : d.grouped = false) : d.isEmpty = false := by
  by_contra hempty
  rw [Doc.grouped_of_isEmpty (by simpa using hempty)] at h
  cases h

/-- An expression that is not whole is broken behind each operator outside its parentheses that
allows it, whether there is room or not. -/
theorem endsLine_expr (hnewline : Bytes.lf ∈ o.newline) {x : Expr} (h : x.whole = false) :
    (p.expr x).EndsLine o := by
  match x with
  | .leaf l => cases h
  | .unary op x =>
      have hx := endsLine_expr hnewline (x := x) h
      rw [expr]
      split <;> exact hx.concat (by simp)
  | .binary op x y =>
      rw [expr]
      rw [Expr.whole, Bool.and_eq_false_iff, Bool.and_eq_false_iff, Bool.not_eq_false'] at h
      rcases h with (hop | hx) | hy
      · rw [if_pos hop]
        exact (Doc.endsLine_line hnewline).concat (by simp)
      · exact (endsLine_expr hnewline hx).concat (by simp)
      · exact (endsLine_expr hnewline hy).concat (by simp)
  | .paren x => exact (endsLine_expr hnewline (x := x) h).concat (by simp)
  | .call f args => exact (endsLine_expr hnewline (x := f) h).concat (by simp)
  | .selected x l => exact (endsLine_expr hnewline (x := x) h).concat (by simp)
  | .attribute x l => exact (endsLine_expr hnewline (x := x) h).concat (by simp)
  | .qualified mark x =>
      rw [expr]
      rw [Expr.whole, Bool.and_eq_false_iff] at h
      rcases h with hmark | hx
      · exact (endsLine_expr hnewline hmark).concat (by simp)
      · exact (endsLine_expr hnewline hx).concat (by simp)
  | .aggregate elems => cases h

theorem mem_exprs {x : Expr} {xs : List Expr} (h : x ∈ xs) : p.expr x ∈ p.exprs xs := by
  induction xs with
  | nil => cases h
  | cons y rest ih =>
      rw [exprs]
      rcases List.mem_cons.mp h with rfl | h
      · exact List.mem_cons_self
      · exact List.mem_cons_of_mem _ (ih h)

theorem endsLine_labeled {body : Doc} (h : body.EndsLine o) (label : Bytes) :
    (p.labeled label body).EndsLine o := by
  rw [labeled]
  split
  · exact h
  · exact h.concat (by simp)

section

variable (hnewline : Bytes.lf ∈ o.newline)

include hnewline

theorem endsLine_join {xs : List Expr} (h : xs.all Expr.whole = false) (sep : Doc) :
    (Doc.join sep (p.exprs xs)).EndsLine o := by
  obtain ⟨x, hx, hwhole⟩ := List.all_eq_false.mp h
  have hbroken : x.whole = false := by simpa using hwhole
  exact (p.endsLine_expr hnewline hbroken).join (p.mem_exprs hx)
    (isEmpty_eq_false (by rw [grouped_expr, hbroken])) sep

theorem endsLine_subtype {s : SubtypeIndication} (h : s.whole = false) :
    (p.subtype s).EndsLine o := by
  obtain ⟨resolution, mark, constraint⟩ := s
  simp only [SubtypeIndication.whole, Bool.and_eq_false_iff] at h
  rw [subtype]
  rcases h with (hresolution | hmark) | hconstraint
  · cases resolution with
    | none => cases hresolution
    | some x => exact (p.endsLine_expr hnewline (x := x) hresolution).concat (by simp)
  · exact (p.endsLine_expr hnewline hmark).concat (by simp)
  · rcases constraint with _ | ranges | r
    · cases hconstraint
    · have hranges : (p.exprList ranges).EndsLine o := p.endsLine_join hnewline hconstraint _
      exact hranges.concat (by simp)
    · exact (p.endsLine_expr hnewline (x := r) hconstraint).concat (by simp)

theorem endsLine_seqStmt {s : SeqStmt} (h : s.whole = false) : (p.seqStmt s).EndsLine o := by
  have hhard := Doc.endsLine_hardLine hnewline
  cases s with
  | varAssign head target x =>
      exact p.endsLine_labeled ((p.endsLine_expr hnewline (x := target) h).concat (by simp)) _
  | ifStmt | caseStmt | loop =>
      exact p.endsLine_labeled (hhard.concat (by simp)) _
  | waitStmt head on until_ for_ =>
      refine p.endsLine_labeled ?_ _
      rw [SeqStmt.whole, Bool.and_eq_false_iff] at h
      rcases h with hon | hfor
      · have hlist : (p.exprList on).EndsLine o := p.endsLine_join hnewline hon _
        cases on with
        | nil => cases hon
        | cons x rest => exact hlist.concat (by simp)
      · cases for_ with
        | none => cases hfor
        | some x => exact (p.endsLine_expr hnewline (x := x) hfor).concat (by simp [clause])
  | reportStmt head message severity =>
      refine p.endsLine_labeled ?_ _
      cases severity with
      | none => cases h
      | some x => exact (p.endsLine_expr hnewline (x := x) h).concat (by simp [clause])
  | signalAssign | loopControl | returnStmt | nullStmt | assertStmt | call => cases h

theorem endsLine_typeDef {name : Bytes} {definition : TypeDef} (h : definition.whole = false) :
    (p.typeDecl name (some definition)).EndsLine o := by
  have hhard := Doc.endsLine_hardLine hnewline
  cases definition with
  | enum literals => cases h
  | range r units =>
      rw [typeDecl, rangeType]
      cases hunits : units.isEmpty with
      | true =>
          have hr : r.whole = false := by simpa [TypeDef.whole, hunits] using h
          exact (p.endsLine_expr hnewline hr).concat (by simp)
      | false =>
          have hlist (b : Block) (d : Doc) : (b.add d).nest.EndsLine o := by
            have hlines : (Doc.concat [.hardLine, (b.add d).doc]).EndsLine o :=
              hhard.concat List.mem_cons_self
            exact hlines.indent 1
          rw [if_neg Bool.false_ne_true]
          exact (hlist _ _).concat (List.mem_append_left _
            (List.mem_append_right _ (List.mem_append_right _ List.mem_cons_self)))
  | array indexes element =>
      rw [TypeDef.whole, Bool.and_eq_false_iff] at h
      rw [typeDecl]
      rcases h with hindexes | helement
      · have hlist : (p.exprList indexes).EndsLine o := p.endsLine_join hnewline hindexes _
        exact hlist.concat (by simp)
      · exact (p.endsLine_subtype hnewline helement).concat (by simp)
  | record fields endLabel tail =>
      have hrecord : (p.recordType name fields endLabel tail).EndsLine o := hhard.concat (by simp)
      exact hrecord.concat (by simp)
  | access target => exact (p.endsLine_subtype hnewline (s := target) h).concat (by simp)

theorem endsLine_useClause {clause : UseClause} (h : clause.names.all Expr.whole = false) :
    (p.useClause clause).EndsLine o := by
  have hlist : (p.exprList clause.names).EndsLine o := p.endsLine_join hnewline h _
  exact hlist.concat (by simp)

theorem endsLine_declaration {d : Decl} {t : RowTrivia} {body : Doc}
    (hrow : p.declRow d = .single t body) (h : d.whole = false) : body.EndsLine o := by
  have hhard := Doc.endsLine_hardLine hnewline
  match d, hrow with
  | .type t name none, rfl => cases h
  | .type t name (some definition), rfl => exact p.endsLine_typeDef hnewline h
  | .subtype t name s, rfl =>
      have hs : (p.subtype s).EndsLine o := p.endsLine_subtype hnewline h
      have hwords : (Doc.words [p.keyword "subtype", p.name name, p.keyword "is",
          p.subtype s]).EndsLine o :=
        hs.join (by simp) (isEmpty_eq_false ((p.grouped_subtype s).trans h)) _
      exact hwords.concat (by simp)
  | .alias t name s target, rfl =>
      rw [Decl.whole, Bool.and_eq_false_iff] at h
      rcases h with hs | htarget
      · cases s with
        | none => cases hs
        | some s => exact (p.endsLine_subtype hnewline (s := s) hs).concat (by simp)
      · exact (p.endsLine_expr hnewline htarget).concat (by simp)
  | .component t name generics ports endLabel tail, rfl => exact hhard.concat (by simp)
  | .attribute t name mark, rfl =>
      have hmark : (p.expr mark).EndsLine o := p.endsLine_expr hnewline h
      have hwords : (Doc.words [p.keyword "attribute", p.name name, .text ":",
          p.expr mark]).EndsLine o :=
        hmark.join (by simp) (isEmpty_eq_false ((p.grouped_expr mark).trans h)) _
      exact hwords.concat (by simp)
  | .attributeSpec t name entities entityClass x, rfl =>
      have hlist : (p.exprList entities).EndsLine o := p.endsLine_join hnewline h _
      have hwords : (Doc.words [p.keyword "attribute", p.name name, p.keyword "of",
          p.exprList entities, .text ":", p.keyword entityClass, p.keyword "is",
          p.value x]).EndsLine o :=
        hlist.join (by simp) (isEmpty_eq_false ((p.grouped_exprList entities).trans h)) _
      exact hwords.concat (by simp)
  | .subprogram t spec, rfl =>
      have hspec : (p.subprogramSpec spec).EndsLine o := by
        rw [subprogramSpec]
        cases hresult : spec.result with
        | none => simp [Decl.whole, hresult] at h
        | some x =>
            have hx : x.whole = false := by simpa [Decl.whole, hresult] using h
            exact (p.endsLine_expr hnewline hx).concat (by simp [clause])
      exact hspec.concat (by simp)
  | .subprogramBody t spec decls declTail stmts endLabel tail, rfl => exact hhard.concat (by simp)
  | .use clause, rfl => exact p.endsLine_useClause hnewline h
  | .raw t tokens, rfl => cases h

theorem endsLine_concStmt {s : ConcStmt} (h : s.whole = false) : (p.concStmt s).EndsLine o := by
  have hhard := Doc.endsLine_hardLine hnewline
  cases s with
  | process head body =>
      have hprocess : (p.process head.label body).EndsLine o := hhard.concat (by simp)
      exact p.endsLine_labeled hprocess _
  | forGenerate | ifGenerate => exact p.endsLine_labeled (hhard.concat (by simp)) _
  | assign | selectedAssign | instantiation | assertStmt | call => cases h

theorem endsLine_contextItem {item : ContextItem} (h : item.whole = false) :
    (p.contextItem item).EndsLine o := by
  cases item with
  | library t names => cases h
  | use clause => exact p.endsLine_useClause hnewline h

end

end Printer

/-- The row of a construct that is not whole is broken, whether there is room or not. -/
theorem Construct.Prints.breaks {p : Printer} {c : Construct} {r : Row} (h : c.Prints p r)
    {o : LayoutOptions} (hnewline : Bytes.lf ∈ o.newline) (hwhole : c.whole = false) :
    r.Breaks o := by
  have hcells {s : SubtypeIndication} (hs : s.whole = false) {rest : List Doc}
      (hrest : Doc.allEmpty rest = true) (front leading : List Doc) (tail : Doc)
      (widths : List Int) :
      (Row.cells widths (.mk leading (front ++ p.subtype s :: rest) tail)).Breaks o :=
    Row.breaks_cells (p.endsLine_subtype hnewline hs)
      (Printer.isEmpty_eq_false ((p.grouped_subtype s).trans hs)) hrest front leading tail widths
  cases h with
  | context item => exact Row.breaks_line (p.endsLine_contextItem hnewline hwhole)
  | interface i widths top last =>
      simp only [Construct.whole, Bool.or_eq_false_iff, Option.isSome_eq_false_iff,
        Option.isNone_iff_eq_none] at hwhole
      obtain ⟨hdefault, hs⟩ := hwhole
      rw [Printer.interfaceCells, hdefault]
      exact hcells hs rfl [_, _, _] _ _ _
  | association m widths top last =>
      simp only [Construct.whole, Bool.or_eq_false_iff, Bool.not_eq_false'] at hwhole
      obtain ⟨hchoices, hactual⟩ := hwhole
      rw [Printer.mapCells, if_pos hchoices]
      exact Row.breaks_cells (p.endsLine_expr hnewline hactual)
        (Printer.isEmpty_eq_false ((p.grouped_expr _).trans hactual)) rfl [] _ _ _
  | field f widths top => exact hcells hwhole rfl [_, _] _ _ _
  | @object d t cells hobject widths first =>
      cases d with
      | object =>
          cases hobject
          simp only [Construct.whole, Decl.whole, Bool.or_eq_false_iff, Option.isSome_eq_false_iff,
            Option.isNone_iff_eq_none] at hwhole
          obtain ⟨rfl, hs⟩ := hwhole
          exact hcells hs rfl [_, _, _] _ _ _
      | _ => cases hobject
  | declaration hsingle => exact Row.breaks_line (p.endsLine_declaration hnewline hsingle hwhole)
  | statement s => exact Row.breaks_line (p.endsLine_seqStmt hnewline hwhole)
  | choices xs =>
      have hchoices : (p.choices xs).EndsLine o := p.endsLine_join hnewline hwhole _
      exact Row.breaks_line (hchoices.concat (by simp))
  | concurrent s => exact Row.breaks_line (p.endsLine_concStmt hnewline hwhole)

end VhdlStyle
