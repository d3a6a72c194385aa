import VhdlStyle.Design.Unit.Basic

/-! # Design trees without gaps

Where something cannot be read the parser leaves a gap in the tree and goes on: an empty name, an
invalid leaf, a list without elements. `Complete` says of each kind of node that there is no gap in
it at any depth, so that all that is printed of it was read. -/

namespace VhdlStyle

section

variable {α : Type}

/-- There is an element, and every element has the property. -/
def AtLeastOne (P : α → Prop) (xs : List α) : Prop := xs ≠ [] ∧ ∀ x ∈ xs, P x

/-- There are names, and none is empty. -/
abbrev Named (names : List Bytes) : Prop := AtLeastOne (· ≠ []) names

/-- There is an arm, and only the last may lack a condition. -/
def Guarded (cond : α → Option Expr) (arms : List α) : Prop :=
  arms ≠ [] ∧ ∀ a ∈ arms.dropLast, (cond a).isSome = true

variable {P : α → Prop} {cond : α → Option Expr}

theorem forall_mem_some {a : α} (h : P a) : ∀ x ∈ some a, P x := by simpa using h

theorem AtLeastOne.single {x : α} (h : P x) : AtLeastOne P [x] :=
  ⟨List.cons_ne_nil _ _, by simpa using h⟩

theorem AtLeastOne.cons {x : α} {xs : List α} (hx : P x) (hxs : ∀ y ∈ xs, P y) :
    AtLeastOne P (x :: xs) := ⟨List.cons_ne_nil _ _, List.forall_mem_cons.mpr ⟨hx, hxs⟩⟩

theorem Guarded.single (a : α) : Guarded cond [a] := ⟨List.cons_ne_nil _ _, by simp⟩

/-- Arms that all have conditions may be followed by one that has none. -/
theorem Guarded.append {arms last : List α} (hne : arms ≠ [])
    (harms : ∀ a ∈ arms, (cond a).isSome = true) (hlast : last.length ≤ 1) :
    Guarded cond (arms ++ last) := by
  refine ⟨List.append_ne_nil_of_left_ne_nil hne last, ?_⟩
  intro a ha
  cases last with
  | nil =>
      rw [List.append_nil] at ha
      exact harms a (List.dropLast_subset arms ha)
  | cons b rest =>
      have hrest : rest = [] := List.eq_nil_of_length_eq_zero (by simpa using hlast)
      subst hrest
      rw [List.dropLast_concat] at ha
      exact harms a ha

/-- Behind arms with conditions there is at most one more, and all have the property. -/
theorem Guarded.arms {first : α} {others last : List α}
    (hfirst : P first ∧ (cond first).isSome = true)
    (hothers : ∀ a ∈ others, P a ∧ (cond a).isSome = true) (hlength : last.length ≤ 1)
    (hlast : ∀ a ∈ last, P a) :
    Guarded cond (first :: others ++ last) ∧ ∀ a ∈ first :: others ++ last, P a := by
  have hconds : ∀ a ∈ first :: others, P a ∧ (cond a).isSome = true :=
    List.forall_mem_cons.mpr ⟨hfirst, hothers⟩
  refine ⟨.append (List.cons_ne_nil _ _) (fun a ha => (hconds a ha).2) hlength, ?_⟩
  exact List.forall_mem_append.mpr ⟨fun a ha => (hconds a ha).1, hlast⟩

theorem Guarded.cons {a : α} {arms : List α} (ha : (cond a).isSome = true)
    (harms : Guarded cond arms) : Guarded cond (a :: arms) := by
  refine ⟨List.cons_ne_nil _ _, ?_⟩
  rw [List.dropLast_cons_of_ne_nil harms.1]
  exact List.forall_mem_cons.mpr ⟨ha, harms.2⟩

end

/-! ## Expressions -/

/-- The leaf is a word. -/
structure Leaf.Present (l : Leaf) : Prop where
  kind : l.kind ≠ .invalid
  text : l.text ≠ []

mutual

def Expr.Complete : Expr → Prop
  | .leaf l => l.Present
  | .unary op x => op.Present ∧ x.Complete
  | .binary op x y => op.Present ∧ x.Complete ∧ y.Complete
  | .paren x => x.Complete
  | .call callee args => callee.Complete ∧ Assoc.AllComplete args
  | .selected x l | .attribute x l => x.Complete ∧ l.Present
  | .qualified mark x => mark.Complete ∧ x.Complete
  | .aggregate elems => Assoc.AllComplete elems

def Expr.AllComplete : List Expr → Prop
  | [] => True
  | x :: rest => x.Complete ∧ Expr.AllComplete rest

def Assoc.Complete : Assoc → Prop
  | .mk choices actual => Expr.AllComplete choices ∧ actual.Complete

def Assoc.AllComplete : List Assoc → Prop
  | [] => True
  | a :: rest => a.Complete ∧ Assoc.AllComplete rest

end

theorem Expr.allComplete_iff {xs : List Expr} : AllComplete xs ↔ ∀ x ∈ xs, x.Complete := by
  induction xs with
  | nil => simp [AllComplete]
  | cons x rest ih => rw [AllComplete, List.forall_mem_cons, ih]

theorem Assoc.allComplete_iff {as : List Assoc} : AllComplete as ↔ ∀ a ∈ as, a.Complete := by
  induction as with
  | nil => simp [AllComplete]
  | cons a rest ih => rw [AllComplete, List.forall_mem_cons, ih]

/-! ## Subtypes and lists -/

def Constraint.Complete : Constraint → Prop
  | .index ranges => AtLeastOne Expr.Complete ranges
  | .range r => r.Complete

structure SubtypeIndication.Complete (s : SubtypeIndication) : Prop where
  resolution : ∀ x ∈ s.resolution, x.Complete
  mark : s.mark.Complete
  constraint : ∀ c ∈ s.constraint, c.Complete

structure InterfaceItem.Complete (i : InterfaceItem) : Prop where
  names : Named i.names
  indication : i.indication.Complete
  default : ∀ x ∈ i.default, x.Complete

def InterfaceList.Complete (l : InterfaceList) : Prop := ∀ i ∈ l.items, i.Complete

def MapItem.Complete (m : MapItem) : Prop := m.assoc.Complete

def MapList.Complete (l : MapList) : Prop := ∀ m ∈ l.items, m.Complete

/-! ## Sequential statements -/

structure CondWaveform.Complete (w : CondWaveform) : Prop where
  waveform : AtLeastOne Expr.Complete w.waveform
  cond : ∀ x ∈ w.cond, x.Complete

structure Assertion.Complete (a : Assertion) : Prop where
  cond : a.cond.Complete
  report : ∀ x ∈ a.report, x.Complete
  severity : ∀ x ∈ a.severity, x.Complete

def LoopScheme.Complete : LoopScheme → Prop
  | .forIn param range => param ≠ [] ∧ range.Complete
  | .while_ cond => cond.Complete
  | .forever => True

/-- The condition of an arm, if it has one. -/
def IfBranch.cond : IfBranch → Option Expr
  | .mk cond _ _ => cond

mutual

def SeqStmt.Complete : SeqStmt → Prop
  | .signalAssign _ target arms =>
    target.Complete ∧ Guarded CondWaveform.cond arms ∧ ∀ w ∈ arms, w.Complete
  | .varAssign _ target value => target.Complete ∧ value.Complete
  | .ifStmt _ branches _ => Guarded IfBranch.cond branches ∧ IfBranch.AllComplete branches
  | .caseStmt _ _ selector alts _ _ => selector.Complete ∧ CaseAlt.AllComplete alts
  | .loop _ scheme stmts _ _ => scheme.Complete ∧ SeqStmt.AllComplete stmts
  | .loopControl _ _ _ cond => ∀ x ∈ cond, x.Complete
  | .returnStmt _ value => ∀ x ∈ value, x.Complete
  | .nullStmt _ => True
  | .waitStmt _ on until_ for_ =>
    (∀ x ∈ on, x.Complete) ∧ (∀ x ∈ until_, x.Complete) ∧ ∀ x ∈ for_, x.Complete
  | .reportStmt _ message severity => message.Complete ∧ ∀ x ∈ severity, x.Complete
  | .assertStmt _ assertion => assertion.Complete
  | .call _ callee => callee.Complete

def SeqStmt.AllComplete : List SeqStmt → Prop
  | [] => True
  | s :: rest => s.Complete ∧ SeqStmt.AllComplete rest

def IfBranch.Complete : IfBranch → Prop
  | .mk cond stmts _ => (∀ x ∈ cond, x.Complete) ∧ SeqStmt.AllComplete stmts

def IfBranch.AllComplete : List IfBranch → Prop
  | [] => True
  | b :: rest => b.Complete ∧ IfBranch.AllComplete rest

def CaseAlt.Complete : CaseAlt → Prop
  | .mk _ choices stmts => AtLeastOne Expr.Complete choices ∧ SeqStmt.AllComplete stmts

def CaseAlt.AllComplete : List CaseAlt → Prop
  | [] => True
  | a :: rest => a.Complete ∧ CaseAlt.AllComplete rest

end

theorem SeqStmt.allComplete_iff {ss : List SeqStmt} : AllComplete ss ↔ ∀ s ∈ ss, s.Complete := by
  induction ss with
  | nil => simp [AllComplete]
  | cons s rest ih => rw [AllComplete, List.forall_mem_cons, ih]

theorem IfBranch.allComplete_iff {bs : List IfBranch} : AllComplete bs ↔ ∀ b ∈ bs, b.Complete := by
  induction bs with
  | nil => simp [AllComplete]
  | cons b rest ih => rw [AllComplete, List.forall_mem_cons, ih]

theorem CaseAlt.allComplete_iff {as : List CaseAlt} : AllComplete as ↔ ∀ a ∈ as, a.Complete := by
  induction as with
  | nil => simp [AllComplete]
  | cons a rest ih => rw [AllComplete, List.forall_mem_cons, ih]

/-! ## Declarations -/

structure PhysicalUnit.Complete (u : PhysicalUnit) : Prop where
  name : u.name ≠ []
  value : ∀ x ∈ u.value, x.Complete

structure RecordField.Complete (f : RecordField) : Prop where
  names : Named f.names
  indication : f.indication.Complete

def TypeDef.Complete : TypeDef → Prop
  | .enum literals => AtLeastOne Leaf.Present literals
  | .range r units => r.Complete ∧ ∀ u ∈ units, u.Complete
  | .array indexes element => AtLeastOne Expr.Complete indexes ∧ element.Complete
  | .record fields _ _ => ∀ f ∈ fields, f.Complete
  | .access target => target.Complete

structure SubprogramSpec.Complete (s : SubprogramSpec) : Prop where
  kind : s.kind ≠ []
  name : s.name ≠ []
  params : ∀ i ∈ s.params, i.Complete
  result : ∀ x ∈ s.result, x.Complete

def UseClause.Complete (c : UseClause) : Prop := AtLeastOne Expr.Complete c.names

mutual

/-- A declaration that is kept as its tokens has no parts. -/
def Decl.Complete : Decl → Prop
  | .object _ _ _ names indication default =>
    Named names ∧ indication.Complete ∧ ∀ x ∈ default, x.Complete
  | .type _ name definition => name ≠ [] ∧ ∀ d ∈ definition, d.Complete
  | .subtype _ name indication => name ≠ [] ∧ indication.Complete
  | .alias _ name indication target =>
    name ≠ [] ∧ (∀ i ∈ indication, i.Complete) ∧ target.Complete
  | .component _ name generics ports _ _ =>
    name ≠ [] ∧ (∀ l ∈ generics, l.Complete) ∧ ∀ l ∈ ports, l.Complete
  | .attribute _ name mark => name ≠ [] ∧ mark.Complete
  | .attributeSpec _ name entities _ value =>
    name ≠ [] ∧ AtLeastOne Expr.Complete entities ∧ value.Complete
  | .subprogram _ spec => spec.Complete
  | .subprogramBody _ spec decls _ stmts _ _ =>
    spec.Complete ∧ Decl.AllComplete decls ∧ ∀ s ∈ stmts, s.Complete
  | .use clause => clause.Complete
  | .raw _ _ => True

def Decl.AllComplete : List Decl → Prop
  | [] => True
  | d :: rest => d.Complete ∧ Decl.AllComplete rest

end

theorem Decl.allComplete_iff {ds : List Decl} : AllComplete ds ↔ ∀ d ∈ ds, d.Complete := by
  induction ds with
  | nil => simp [AllComplete]
  | cons d rest ih => rw [AllComplete, List.forall_mem_cons, ih]

/-! ## Concurrent statements -/

structure SelectedWaveform.Complete (w : SelectedWaveform) : Prop where
  waveform : AtLeastOne Expr.Complete w.waveform
  choices : AtLeastOne Expr.Complete w.choices

structure ProcessBody.Complete (b : ProcessBody) : Prop where
  sensitivity : ∀ x ∈ b.sensitivity, x.Complete
  decls : ∀ d ∈ b.decls, d.Complete
  stmts : ∀ s ∈ b.stmts, s.Complete

structure Instantiation.Complete (i : Instantiation) : Prop where
  unit : i.unit.Complete
  genericMap : ∀ l ∈ i.genericMap, l.Complete
  portMap : ∀ l ∈ i.portMap, l.Complete

/-- The condition of an arm, if it has one. -/
def GenerateBranch.cond : GenerateBranch → Option Expr
  | .mk cond _ => cond

mutual

def ConcStmt.Complete : ConcStmt → Prop
  | .assign _ target arms =>
    target.Complete ∧ Guarded CondWaveform.cond arms ∧ ∀ w ∈ arms, w.Complete
  | .selectedAssign _ selector target arms =>
    selector.Complete ∧ target.Complete ∧ AtLeastOne SelectedWaveform.Complete arms
  | .process _ body => body.Complete
  | .instantiation h inst => h.label ≠ [] ∧ inst.Complete
  | .forGenerate h param range body _ =>
    h.label ≠ [] ∧ param ≠ [] ∧ range.Complete ∧ body.Complete
  | .ifGenerate h branches _ =>
    h.label ≠ [] ∧ Guarded GenerateBranch.cond branches ∧ GenerateBranch.AllComplete branches
  | .assertStmt _ assertion => assertion.Complete
  | .call _ callee => callee.Complete

def ConcStmt.AllComplete : List ConcStmt → Prop
  | [] => True
  | s :: rest => s.Complete ∧ ConcStmt.AllComplete rest

/-- Declarations stand before the word `begin`. -/
def GenerateBody.Complete : GenerateBody → Prop
  | .mk decls hasBegin stmts _ =>
    (decls ≠ [] → hasBegin = true) ∧ (∀ d ∈ decls, d.Complete) ∧ ConcStmt.AllComplete stmts

def GenerateBranch.Complete : GenerateBranch → Prop
  | .mk cond body => (∀ x ∈ cond, x.Complete) ∧ body.Complete

def GenerateBranch.AllComplete : List GenerateBranch → Prop
  | [] => True
  | b :: rest => b.Complete ∧ GenerateBranch.AllComplete rest

end

theorem ConcStmt.allComplete_iff {ss : List ConcStmt} : AllComplete ss ↔ ∀ s ∈ ss, s.Complete := by
  induction ss with
  | nil => simp [AllComplete]
  | cons s rest ih => rw [AllComplete, List.forall_mem_cons, ih]

theorem GenerateBranch.allComplete_iff {bs : List GenerateBranch} :
    AllComplete bs ↔ ∀ b ∈ bs, b.Complete := by
  induction bs with
  | nil => simp [AllComplete]
  | cons b rest ih => rw [AllComplete, List.forall_mem_cons, ih]

/-! ## Design units and files -/

def ContextItem.Complete : ContextItem → Prop
  | .library _ names => Named names
  | .use clause => clause.Complete

def UnitBody.Complete : UnitBody → Prop
  | .entity generics ports decls _ stmts =>
    (∀ l ∈ generics, l.Complete) ∧ (∀ l ∈ ports, l.Complete) ∧ (∀ d ∈ decls, d.Complete) ∧
      ∀ s ∈ stmts, s.Complete
  | .architecture entityName decls _ stmts =>
    entityName ≠ [] ∧ (∀ d ∈ decls, d.Complete) ∧ ∀ s ∈ stmts, s.Complete
  | .package generics decls => (∀ l ∈ generics, l.Complete) ∧ ∀ d ∈ decls, d.Complete
  | .packageBody decls => ∀ d ∈ decls, d.Complete

structure DesignUnit.Complete (u : DesignUnit) : Prop where
  context : ∀ i ∈ u.context, i.Complete
  name : u.name ≠ []
  body : u.body.Complete

def DesignFile.Complete (f : DesignFile) : Prop := ∀ u ∈ f.units, u.Complete

end VhdlStyle
