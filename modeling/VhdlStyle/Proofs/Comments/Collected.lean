import Mathlib.Algebra.Order.Group.Multiset
import Mathlib.Tactic.Abel
import VhdlStyle.Design.Unit.Basic

/-! # The comments of trivia and of design trees

`Trivia` carries comments before parsing, the rows and ends of a `DesignFile` carry them after it.
Both are collected here as multisets of texts. -/

namespace VhdlStyle

/-! ## Comments in front of tokens -/

/-- The texts of the line and block comments among trivia, without trailing blanks. -/
def Trivia.comments (trivia : List Trivia) : Multiset Bytes :=
  ((trivia.filter Trivia.isComment).map fun t => Comment.trim t.text : List Bytes)

/-- The texts of the comments in front of tokens. -/
def Token.comments (tokens : List Token) : Multiset Bytes :=
  Trivia.comments (tokens.flatMap Token.leading)

/-! ## Comments of rows -/

/-- The texts of comments. -/
def Comment.texts (cs : List Comment) : Multiset Bytes := (cs.map Comment.text : List Bytes)

/-- The text of the comment behind a row, if there is one. -/
def RowTrivia.behind (inline : Bytes) : Multiset Bytes := if inline.isEmpty then 0 else {inline}

/-- The comments above a row. -/
def RowTrivia.above (t : RowTrivia) : Multiset Bytes := Comment.texts t.leading

/-- The comments of a row. -/
def RowTrivia.comments (t : RowTrivia) : Multiset Bytes := t.above + behind t.inline

/-- The comments of the parts of a list. -/
def allComments {α : Type} (comments : α → Multiset Bytes) (xs : List α) : Multiset Bytes :=
  (xs.map comments).sum

@[simp] theorem allComments_nil {α : Type} (comments : α → Multiset Bytes) :
    allComments comments [] = 0 := rfl

@[simp] theorem allComments_cons {α : Type} (comments : α → Multiset Bytes) (x : α)
    (xs : List α) : allComments comments (x :: xs) = comments x + allComments comments xs :=
  List.sum_cons

@[simp] theorem allComments_append {α : Type} (comments : α → Multiset Bytes) (xs ys : List α) :
    allComments comments (xs ++ ys) = allComments comments xs + allComments comments ys := by
  simp [allComments]

/-- The comments of a part that may be missing. -/
def anyComments {α : Type} (comments : α → Multiset Bytes) : Option α → Multiset Bytes
  | none => 0
  | some x => comments x

@[simp] theorem Comment.texts_append (cs ds : List Comment) :
    Comment.texts (cs ++ ds) = Comment.texts cs + Comment.texts ds := by simp [Comment.texts]

@[simp] theorem Comment.texts_nil : Comment.texts [] = 0 := rfl

/-- Taking the comments out of trivia keeps them all. -/
theorem Comment.texts_ofTriviaFrom (newlines : Nat) (trivia : List Trivia) :
    Comment.texts (Comment.ofTriviaFrom newlines trivia).1 = Trivia.comments trivia := by
  induction trivia generalizing newlines with
  | nil => rfl
  | cons t rest ih =>
      unfold Comment.ofTriviaFrom
      split
      · rename_i hnewline
        have hcomment : t.isComment = false := by
          rw [Trivia.isComment, beq_iff_eq.mp hnewline]; rfl
        rw [ih]
        simp [Trivia.comments, hcomment]
      · split
        · rename_i hcomment
          have hrest := ih 0
          simp only [Comment.texts, Trivia.comments, List.filter_cons, hcomment, if_true,
            List.map_cons, ← Multiset.cons_coe] at hrest ⊢
          rw [hrest]
        · rename_i hcomment
          rw [ih]
          simp [Trivia.comments, hcomment]

theorem Comment.texts_ofTrivia (trivia : List Trivia) :
    Comment.texts (Comment.ofTrivia trivia).1 = Trivia.comments trivia :=
  Comment.texts_ofTriviaFrom 0 trivia

@[simp] theorem Token.comments_nil : Token.comments [] = 0 := rfl

@[simp] theorem Token.comments_cons (t : Token) (rest : List Token) :
    Token.comments (t :: rest) = Trivia.comments t.leading + Token.comments rest := by
  simp [Token.comments, Trivia.comments]

/-! ## Comments of lists -/

def InterfaceItem.comments (i : InterfaceItem) : Multiset Bytes := i.trivia.comments

def InterfaceList.comments (l : InterfaceList) : Multiset Bytes :=
  allComments InterfaceItem.comments l.items + Comment.texts l.tail

def MapItem.comments (m : MapItem) : Multiset Bytes := m.trivia.comments

def MapList.comments (l : MapList) : Multiset Bytes :=
  allComments MapItem.comments l.items + Comment.texts l.tail

/-! ## Comments of sequential statements -/

def Head.above (h : Head) : Multiset Bytes := h.trivia.above

def Head.comments (h : Head) : Multiset Bytes := h.trivia.comments

mutual

def SeqStmt.comments : SeqStmt → Multiset Bytes
  | .ifStmt h branches _ => h.comments + IfBranch.allComments branches
  | .caseStmt h _ _ alts _ tail => h.comments + CaseAlt.allComments alts + Comment.texts tail
  | .loop h _ stmts _ tail => h.comments + SeqStmt.allComments stmts + Comment.texts tail
  | .signalAssign h .. | .varAssign h .. | .loopControl h .. | .returnStmt h .. | .nullStmt h
  | .waitStmt h .. | .reportStmt h .. | .assertStmt h .. | .call h .. => h.comments

def SeqStmt.allComments : List SeqStmt → Multiset Bytes
  | [] => 0
  | s :: rest => s.comments + SeqStmt.allComments rest

def IfBranch.comments : IfBranch → Multiset Bytes
  | .mk _ stmts tail => SeqStmt.allComments stmts + Comment.texts tail

def IfBranch.allComments : List IfBranch → Multiset Bytes
  | [] => 0
  | b :: rest => b.comments + IfBranch.allComments rest

def CaseAlt.comments : CaseAlt → Multiset Bytes
  | .mk t _ stmts => t.comments + SeqStmt.allComments stmts

def CaseAlt.allComments : List CaseAlt → Multiset Bytes
  | [] => 0
  | a :: rest => a.comments + CaseAlt.allComments rest

end

theorem SeqStmt.allComments_eq (xs : List SeqStmt) :
    SeqStmt.allComments xs = VhdlStyle.allComments SeqStmt.comments xs := by
  induction xs with
  | nil => rw [SeqStmt.allComments, allComments_nil]
  | cons x xs ih => rw [SeqStmt.allComments, allComments_cons, ih]

theorem IfBranch.allComments_eq (xs : List IfBranch) :
    IfBranch.allComments xs = VhdlStyle.allComments IfBranch.comments xs := by
  induction xs with
  | nil => rw [IfBranch.allComments, allComments_nil]
  | cons x xs ih => rw [IfBranch.allComments, allComments_cons, ih]

theorem CaseAlt.allComments_eq (xs : List CaseAlt) :
    CaseAlt.allComments xs = VhdlStyle.allComments CaseAlt.comments xs := by
  induction xs with
  | nil => rw [CaseAlt.allComments, allComments_nil]
  | cons x xs ih => rw [CaseAlt.allComments, allComments_cons, ih]

/-! ## Comments of declarations -/

def PhysicalUnit.comments (u : PhysicalUnit) : Multiset Bytes := u.trivia.comments

def RecordField.comments (f : RecordField) : Multiset Bytes := f.trivia.comments

def TypeDef.comments : TypeDef → Multiset Bytes
  | .range _ units => allComments PhysicalUnit.comments units
  | .record fields _ tail => allComments RecordField.comments fields + Comment.texts tail
  | .enum _ | .array .. | .access _ => 0

def SubprogramSpec.comments (s : SubprogramSpec) : Multiset Bytes :=
  allComments InterfaceItem.comments s.params + Comment.texts s.tail

def UseClause.comments (c : UseClause) : Multiset Bytes := c.trivia.comments

mutual

def Decl.comments : Decl → Multiset Bytes
  | .type t _ definition => t.comments + anyComments TypeDef.comments definition
  | .component t _ generics ports _ tail =>
    t.comments + anyComments InterfaceList.comments generics +
      anyComments InterfaceList.comments ports + Comment.texts tail
  | .subprogram t spec => t.comments + spec.comments
  | .subprogramBody t spec decls declTail stmts _ tail =>
    t.comments + spec.comments + Decl.allComments decls + Comment.texts declTail +
      SeqStmt.allComments stmts + Comment.texts tail
  | .use clause => clause.comments
  | .object t .. | .subtype t .. | .alias t .. | .attribute t .. | .attributeSpec t ..
  | .raw t .. => t.comments

def Decl.allComments : List Decl → Multiset Bytes
  | [] => 0
  | d :: rest => d.comments + Decl.allComments rest

end

theorem Decl.allComments_eq (xs : List Decl) :
    Decl.allComments xs = VhdlStyle.allComments Decl.comments xs := by
  induction xs with
  | nil => rw [Decl.allComments, allComments_nil]
  | cons x xs ih => rw [Decl.allComments, allComments_cons, ih]

/-! ## Comments of concurrent statements -/

def ProcessBody.comments (b : ProcessBody) : Multiset Bytes :=
  Decl.allComments b.decls + Comment.texts b.declTail + SeqStmt.allComments b.stmts +
    Comment.texts b.tail

def Instantiation.comments (i : Instantiation) : Multiset Bytes :=
  anyComments MapList.comments i.genericMap + anyComments MapList.comments i.portMap

mutual

def ConcStmt.comments : ConcStmt → Multiset Bytes
  | .process h body => h.comments + body.comments
  | .instantiation h inst => h.comments + inst.comments
  | .forGenerate h _ _ body _ => h.comments + body.comments
  | .ifGenerate h branches _ => h.comments + GenerateBranch.allComments branches
  | .assign h .. | .selectedAssign h .. | .assertStmt h .. | .call h .. => h.comments

def ConcStmt.allComments : List ConcStmt → Multiset Bytes
  | [] => 0
  | s :: rest => s.comments + ConcStmt.allComments rest

def GenerateBody.comments : GenerateBody → Multiset Bytes
  | .mk decls _ stmts tail =>
    Decl.allComments decls + ConcStmt.allComments stmts + Comment.texts tail

def GenerateBranch.comments : GenerateBranch → Multiset Bytes
  | .mk _ body => body.comments

def GenerateBranch.allComments : List GenerateBranch → Multiset Bytes
  | [] => 0
  | b :: rest => b.comments + GenerateBranch.allComments rest

end

theorem ConcStmt.allComments_eq (xs : List ConcStmt) :
    ConcStmt.allComments xs = VhdlStyle.allComments ConcStmt.comments xs := by
  induction xs with
  | nil => rw [ConcStmt.allComments, allComments_nil]
  | cons x xs ih => rw [ConcStmt.allComments, allComments_cons, ih]

theorem GenerateBranch.allComments_eq (xs : List GenerateBranch) :
    GenerateBranch.allComments xs = VhdlStyle.allComments GenerateBranch.comments xs := by
  induction xs with
  | nil => rw [GenerateBranch.allComments, allComments_nil]
  | cons x xs ih => rw [GenerateBranch.allComments, allComments_cons, ih]

/-! ## Comments of design units and files -/

def ContextItem.comments (i : ContextItem) : Multiset Bytes := i.trivia.comments

def UnitBody.comments : UnitBody → Multiset Bytes
  | .entity generics ports decls _ stmts =>
    anyComments InterfaceList.comments generics + anyComments InterfaceList.comments ports +
      Decl.allComments decls + ConcStmt.allComments stmts
  | .architecture _ decls declTail stmts =>
    Decl.allComments decls + Comment.texts declTail + ConcStmt.allComments stmts
  | .package generics decls =>
    anyComments InterfaceList.comments generics + Decl.allComments decls
  | .packageBody decls => Decl.allComments decls

def DesignUnit.comments (u : DesignUnit) : Multiset Bytes :=
  allComments ContextItem.comments u.context + u.trivia.comments + u.body.comments +
    Comment.texts u.tail

/-- All comments of a file: above rows, behind them, before ends and after the last unit. -/
def DesignFile.comments (f : DesignFile) : Multiset Bytes :=
  allComments DesignUnit.comments f.units + Comment.texts f.trailing

end VhdlStyle
