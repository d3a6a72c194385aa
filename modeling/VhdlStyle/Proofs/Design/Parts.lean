import VhdlStyle.Design.Unit.Basic

/-! # Where declarations stand

Declarations stand in the declarative parts of design units, processes, generate statements and
subprogram bodies, and these nest without bound. -/

namespace VhdlStyle

/-- The generic clause of an entity or a package. -/
def DesignUnit.generics (u : DesignUnit) : Option InterfaceList :=
  match u.body with
  | .entity generics .. | .package generics _ => generics
  | .architecture .. | .packageBody _ => none

/-- The declarative part of a unit. -/
def DesignUnit.decls (u : DesignUnit) : List Decl :=
  match u.body with
  | .entity _ _ decls _ _ | .architecture _ decls _ _ | .package _ decls | .packageBody decls =>
    decls

/-- The statement part of a unit; packages have none. -/
def DesignUnit.stmts (u : DesignUnit) : List ConcStmt :=
  match u.body with
  | .entity _ _ _ _ stmts | .architecture _ _ _ stmts => stmts
  | .package .. | .packageBody _ => []

/-- The declarative part of a generate body. -/
def GenerateBody.decls : GenerateBody → List Decl
  | .mk decls _ _ _ => decls

/-- The statement part of a generate body. -/
def GenerateBody.stmts : GenerateBody → List ConcStmt
  | .mk _ _ stmts _ => stmts

/-- The region of an arm. -/
def GenerateBranch.body : GenerateBranch → GenerateBody
  | .mk _ body => body

/-- The regions inside a generate statement. -/
def ConcStmt.generated : ConcStmt → List GenerateBody
  | .forGenerate _ _ _ body _ => [body]
  | .ifGenerate _ branches _ => branches.map GenerateBranch.body
  | _ => []

namespace DesignFile

/-- The statements are the statement part of a unit or of a generate body, at any depth. -/
inductive StatementPart (f : DesignFile) : List ConcStmt → Prop
  | unit {u : DesignUnit} : u ∈ f.units → StatementPart f u.stmts
  | generated {stmts : List ConcStmt} {s : ConcStmt} {body : GenerateBody} :
      StatementPart f stmts → s ∈ stmts → body ∈ s.generated → StatementPart f body.stmts

/-- The declarations are the declarative part of a unit, a process, a generate body or a subprogram
body, at any depth. -/
inductive DeclarativePart (f : DesignFile) : List Decl → Prop
  | unit {u : DesignUnit} : u ∈ f.units → DeclarativePart f u.decls
  | process {stmts : List ConcStmt} {head : Head} {body : ProcessBody} :
      f.StatementPart stmts → .process head body ∈ stmts → DeclarativePart f body.decls
  | generated {stmts : List ConcStmt} {s : ConcStmt} {body : GenerateBody} :
      f.StatementPart stmts → s ∈ stmts → body ∈ s.generated → DeclarativePart f body.decls
  | subprogram {decls inner : List Decl} {trivia : RowTrivia} {spec : SubprogramSpec}
      {declTail tail : List Comment} {stmts : List SeqStmt} {endLabel : Bytes} :
      DeclarativePart f decls →
        .subprogramBody trivia spec inner declTail stmts endLabel tail ∈ decls →
          DeclarativePart f inner

end DesignFile

/-! ## Properties of all declarations -/

/-- The declarative part of a subprogram body. -/
def Decl.inner : Decl → List Decl
  | .subprogramBody _ _ decls _ _ _ _ => decls
  | _ => []

/-- The declarative part of a process. -/
def ConcStmt.decls : ConcStmt → List Decl
  | .process _ body => body.decls
  | _ => []

variable {P : Decl → Prop}

/-- The declaration and all declarations inside it have a property. -/
inductive Decl.Each (P : Decl → Prop) : Decl → Prop
  | intro {d : Decl} : P d → (∀ e ∈ d.inner, Each P e) → Each P d

/-- All declarations inside the statement have a property. -/
inductive ConcStmt.Each (P : Decl → Prop) : ConcStmt → Prop
  | intro {s : ConcStmt} : (∀ d ∈ s.decls, d.Each P) →
      (∀ body ∈ s.generated, ∀ d ∈ body.decls, d.Each P) →
      (∀ body ∈ s.generated, ∀ t ∈ body.stmts, Each P t) → Each P s

/-- All declarations of the unit have a property. -/
structure DesignUnit.Each (P : Decl → Prop) (u : DesignUnit) : Prop where
  decls : ∀ d ∈ u.decls, d.Each P
  stmts : ∀ s ∈ u.stmts, s.Each P

namespace DesignFile

variable {f : DesignFile}

theorem StatementPart.each (hunits : ∀ u ∈ f.units, u.Each P) {stmts : List ConcStmt}
    (h : f.StatementPart stmts) : ∀ s ∈ stmts, s.Each P := by
  induction h with
  | unit hu => exact (hunits _ hu).stmts
  | generated _ hs hbody ih =>
      obtain ⟨-, -, hstmts⟩ := ih _ hs
      exact hstmts _ hbody

/-- What the declarations of all units have, those of every declarative part have. -/
theorem DeclarativePart.each (hunits : ∀ u ∈ f.units, u.Each P) {decls : List Decl}
    (h : f.DeclarativePart decls) : ∀ d ∈ decls, d.Each P := by
  induction h with
  | unit hu => exact (hunits _ hu).decls
  | process hstmts hs =>
      obtain ⟨hdecls, -, -⟩ := hstmts.each hunits _ hs
      exact hdecls
  | generated hstmts hs hbody =>
      obtain ⟨-, hdecls, -⟩ := hstmts.each hunits _ hs
      exact hdecls _ hbody
  | subprogram _ hd ih =>
      obtain ⟨-, hinner⟩ := ih _ hd
      exact hinner

end DesignFile

end VhdlStyle
