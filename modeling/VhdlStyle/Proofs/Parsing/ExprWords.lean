import VhdlStyle.Proofs.Tokens.Spelling

/-! # The words of an expression

An expression written back as words: its operators in place, a physical literal as number and unit,
and the delimiters that its form says. Tokens are restored from these words up to what no tree
keeps, the spelling of a bar and a comma before a closing parenthesis. How tightly its operators
bind is seen from the expression alone. -/

namespace VhdlStyle

/-- The word of a leaf; a physical literal is two words. -/
def Leaf.words (l : Leaf) : List Leaf :=
  if quantityKinds.contains l.kind then
    match Bytes.cut? Bytes.space l.text with
    | some (number, unit) => [⟨l.kind, number⟩, ⟨.ident, unit⟩]
    | none => [l]
  else [l]

namespace Leaf

theorem words_of_not_mem {l : Leaf} (h : l.kind ∉ quantityKinds) : l.words = [l] :=
  if_neg (by simpa using h)

theorem WellSpelled.words_eq {l : Leaf} (h : l.WellSpelled) : l.words = [l] := by
  by_cases hkind : l.kind ∈ quantityKinds
  · rw [words, if_pos (List.contains_iff_mem.mpr hkind),
      Bytes.cut?_eq_none (h.space_not_mem hkind)]
  · exact words_of_not_mem hkind

theorem WellSpelled.words_physical {l : Leaf} (h : l.WellSpelled) (hkind : l.kind ∈ quantityKinds)
    (unit : Bytes) :
    words ⟨l.kind, l.text ++ Bytes.space :: unit⟩ = [l, ⟨.ident, unit⟩] := by
  rw [words, if_pos (List.contains_iff_mem.mpr hkind), Bytes.cut?_append (h.space_not_mem hkind)]

end Leaf

namespace Expr

mutual

/-- The words of an expression. -/
def words : Expr → List Leaf
  | .leaf token => token.words
  | .unary op x => op :: words x
  | .binary op x y => words x ++ op :: words y
  | .paren x => .mark .lParen :: words x ++ [.mark .rParen]
  | .call callee args => words callee ++ .mark .lParen :: listWords args ++ [.mark .rParen]
  | .selected x suffix => words x ++ [.mark .dot, suffix]
  | .attribute x name => words x ++ [.mark .tick, name]
  | .qualified mark x => words mark ++ .mark .tick :: words x
  | .aggregate elems => .mark .lParen :: listWords elems ++ [.mark .rParen]

/-- The words of a list element: its choices, an arrow if there are any, and the actual part. -/
def elementWords : Assoc → List Leaf
  | .mk choices actual =>
    choiceWords choices ++ (if choices.isEmpty then [] else [.mark .arrow]) ++ words actual

/-- The words of choices with bars between them. -/
def choiceWords : List Expr → List Leaf
  | [] => []
  | x :: more => words x ++ barWords more

/-- The words of choices with a bar before each. -/
def barWords : List Expr → List Leaf
  | [] => []
  | x :: more => .mark .bar :: words x ++ barWords more

/-- The words of list elements with commas between them. -/
def listWords : List Assoc → List Leaf
  | [] => []
  | a :: more => elementWords a ++ (if more.isEmpty then [] else [.mark .comma]) ++ listWords more

end

end Expr

/-! ## Tokens restored -/

/-- The tokens are the words, up to the spelling of bars and at most one comma before each closing
parenthesis. -/
inductive Restored : List Leaf → List Leaf → Prop where
  | nil : Restored [] []
  | word {ws ts} (w : Leaf) (h : Restored ws ts) : Restored (w :: ws) (w :: ts)
  | bar {ws ts} (text : Bytes) (h : Restored ws ts) :
      Restored (.mark .bar :: ws) (⟨.bar, text⟩ :: ts)
  | comma {ws ts} (h : Restored ws ts) :
      Restored (.mark .rParen :: ws) (.mark .comma :: .mark .rParen :: ts)

namespace Restored

variable {ws ts vs us : List Leaf}

theorem append (h : Restored ws ts) (hmore : Restored vs us) : Restored (ws ++ vs) (ts ++ us) := by
  induction h with
  | nil => exact hmore
  | word w _ ih => exact ih.word w
  | bar text _ ih => exact ih.bar text
  | comma _ ih => exact ih.comma

theorem single (w : Leaf) : Restored [w] [w] := .word w .nil

theorem concat (h : Restored ws ts) (w : Leaf) : Restored (ws ++ [w]) (ts ++ [w]) :=
  h.append (.single w)

/-- A delimiter is known by its kind. -/
theorem concat_mark (h : Restored ws ts) {l : Leaf} {k : Kind} (hk : l.kind = k)
    (hmark : k ∈ Leaf.markKinds) (hl : l.WellSpelled) : Restored (ws ++ [.mark k]) (ts ++ [l]) := by
  rw [hl.eq_mark_of_kind hk hmark]
  exact h.concat (.mark k)

theorem concat_bar (h : Restored ws ts) {l : Leaf} (hk : l.kind = .bar) :
    Restored (ws ++ [.mark .bar]) (ts ++ [l]) := by
  have hl : l = ⟨.bar, l.text⟩ := by rw [← hk]
  rw [hl]
  exact h.append (.bar _ .nil)

theorem eq_nil (h : Restored [] ts) : ts = [] := by
  cases h
  rfl

end Restored

/-! ## How tightly operators bind -/

namespace Kind

/-- The level of an operator between two operands, from weak to strong; 7 for what is none. -/
def level (k : Kind) : Nat :=
  if [.kwRange, .kwTo, .kwDownto].contains k then 0
  else if Expr.logicalOps.contains k then 1
  else if Expr.relationalOps.contains k then 2
  else if Expr.shiftOps.contains k then 3
  else if Expr.addingOps.contains k then 4
  else if Expr.multiplyingOps.contains k then 5
  else if k == .starStar then 6
  else 7

/-- Logical, adding and multiplying operators form chains to the left. -/
def chains (k : Kind) : Bool := k.level == 1 || k.level == 4 || k.level == 5

end Kind

namespace Expr

/-- The level of the operator of a binary expression; nothing else needs parentheses. -/
def level : Expr → Nat
  | .binary op _ _ => op.kind.level
  | _ => 7

/-- The operands of a binary operator bind more tightly than it; only to the left of a chain, and
to the right of `range`, they may have its level. -/
def binds (op : Kind) (x y : Expr) : Bool :=
  op.level < 7 && (op.level < x.level || op.level == x.level && op.chains) &&
    (op.level < y.level || op.level == y.level && op == .kwRange)

mutual

/-- Every binary operator of the expression binds its operands. -/
def wellBound : Expr → Bool
  | .leaf _ => true
  | .unary _ x => wellBound x
  | .binary op x y => binds op.kind x y && wellBound x && wellBound y
  | .paren x => wellBound x
  | .call callee args => wellBound callee && listBound args
  | .selected x _ => wellBound x
  | .attribute x _ => wellBound x
  | .qualified mark x => wellBound mark && wellBound x
  | .aggregate elems => listBound elems

/-- Every binary operator of a list element binds its operands. -/
def elementBound : Assoc → Bool
  | .mk choices actual => allBound choices && wellBound actual

/-- Every binary operator of the expressions binds its operands. -/
def allBound : List Expr → Bool
  | [] => true
  | x :: more => wellBound x && allBound more

/-- Every binary operator of the list elements binds its operands. -/
def listBound : List Assoc → Bool
  | [] => true
  | a :: more => elementBound a && listBound more

end

/-- The operators of the expression bind, and its own is of level `n` at least. -/
structure Bound (n : Nat) (x : Expr) : Prop where
  wellBound : x.wellBound = true
  level : n ≤ x.level

namespace Bound

variable {n : Nat} {x y : Expr} {op : Leaf}

theorem mono (h : x.Bound n) {m : Nat} (hle : m ≤ n) : x.Bound m := ⟨h.wellBound, hle.trans h.level⟩

/-- An operator of a chain. -/
theorem chain (hop : op.kind.level = n) (hn : n < 7) (hchains : op.kind.chains = true)
    (hx : x.Bound n) (hy : y.Bound (n + 1)) : (Expr.binary op x y).Bound n := by
  have hleft := hx.level
  have hright := hy.level
  refine ⟨?_, hop.ge⟩
  rw [Expr.wellBound, hx.wellBound, hy.wellBound, binds, hchains, hop]
  simp only [Bool.and_true, Bool.and_eq_true, Bool.or_eq_true, decide_eq_true_eq, beq_iff_eq]
  omega

/-- An operator that does not chain. -/
theorem pair (hop : op.kind.level = n) (hn : n < 7) (hx : x.Bound (n + 1)) (hy : y.Bound (n + 1)) :
    (Expr.binary op x y).Bound n := by
  have hleft := hx.level
  have hright := hy.level
  refine ⟨?_, hop.ge⟩
  rw [Expr.wellBound, hx.wellBound, hy.wellBound, binds, hop]
  simp only [Bool.and_true, Bool.and_eq_true, Bool.or_eq_true, decide_eq_true_eq, beq_iff_eq]
  omega

/-- The right operand of `range` may be a range. -/
theorem range (hop : op.kind = .kwRange) (hx : x.Bound 1) (hy : y.Bound 0) :
    (Expr.binary op x y).Bound 0 := by
  have hleft := hx.level
  have hlevel : Kind.level .kwRange = 0 := rfl
  refine ⟨?_, Nat.zero_le _⟩
  rw [Expr.wellBound, hx.wellBound, hy.wellBound, binds, hop, hlevel]
  simp only [Bool.and_true, Bool.and_eq_true, Bool.or_eq_true, decide_eq_true_eq, beq_iff_eq,
    BEq.rfl]
  omega

end Bound

end Expr

end VhdlStyle
