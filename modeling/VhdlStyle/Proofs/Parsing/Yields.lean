import VhdlStyle.Proofs.Parsing.Actions
import VhdlStyle.Proofs.Printing.Printable

/-! # What parsing yields

The words of a tree are those of the tokens it was read from, so that none of them reads as a
comment. `Yields` says this of an action; instances follow the parser. -/

namespace VhdlStyle

open Parse

set_option synthInstance.maxSize 2000

/-- The tokens still to be read hold words in code. -/
def ParseState.InCode (s : ParseState) : Prop := ∀ t ∈ s.rest, t.InCode

namespace ParseState

variable {s : ParseState}

theorem InCode.current (h : s.InCode) : s.current.InCode := by
  rw [ParseState.current]
  cases hrest : s.rest with
  | nil => rfl
  | cons t rest => exact h t (by simp [hrest])

theorem InCode.setLeading (h : s.InCode) (leading : List Trivia) :
    (s.setLeading leading).InCode := by
  rw [ParseState.setLeading]
  split
  · exact h
  · rename_i t rest hrest
    rw [InCode, hrest, List.forall_mem_cons] at h
    exact List.forall_mem_cons.mpr ⟨h.1, h.2⟩

end ParseState

namespace Parse

variable {α β : Type}

/-- Words in code are read from words in code. -/
class Yields [HasWords α] (p : Parse α) : Prop where
  yields : ∀ s : ParseState, s.InCode → HasWords.InCode (p s).1
  keeps : ∀ s : ParseState, s.InCode → (p s).2.InCode

section

variable [HasWords α] [HasWords β]

/-! ## Composition -/

instance yields_pure (a : α) [ha : Printable a] : Yields (pure a) where
  yields _ _ := ha.words
  keeps _ hs := hs

instance yields_giveUp (a : α) [ha : Printable a] : Yields (giveUp a) where
  yields _ _ := ha.words
  keeps _ hs := hs

theorem Yields.bind {p : Parse α} {f : α → Parse β} (hp : Yields p)
    (hf : ∀ a, Printable a → Yields (f a)) : Yields (p >>= f) where
  yields s hs := (hf _ ⟨hp.yields s hs⟩).yields _ (hp.keeps s hs)
  keeps s hs := (hf _ ⟨hp.yields s hs⟩).keeps _ (hp.keeps s hs)

instance yields_bind {p : Parse α} {f : α → Parse β} [hp : Yields p]
    [hf : ∀ a : {a : α // HasWords.InCode a}, Yields (f a.val)] : Yields (p >>= f) :=
  hp.bind fun a ha => hf ⟨a, ha.words⟩

instance yields_map {p : Parse α} {f : α → β} [hp : Yields p]
    [hf : ∀ a : {a : α // HasWords.InCode a}, Printable (f a.val)] : Yields (f <$> p) :=
  hp.bind fun a ha => @yields_pure _ _ (f a) (hf ⟨a, ha.words⟩)

instance yields_ite {b : Prop} [Decidable b] {p q : Parse α} [hp : Yields p] [hq : Yields q] :
    Yields (if b then p else q) := by
  split
  · exact hp
  · exact hq

instance yields_sized {f : Nat → Parse α} [hf : ∀ n, Yields (f n)] :
    Yields (fun s => f s.size s) where
  yields s hs := (hf s.size).yields s hs
  keeps s hs := (hf s.size).keeps s hs

/-- The same of runs from states whose current token has kind `k`. -/
structure YieldsAt (k : Kind) (p : Parse α) : Prop where
  yields : ∀ s : ParseState, s.InCode → s.kind = k → HasWords.InCode (p s).1
  keeps : ∀ s : ParseState, s.InCode → s.kind = k → (p s).2.InCode

theorem Yields.yieldsAt {p : Parse α} (hp : Yields p) (k : Kind) : YieldsAt k p where
  yields s hs _ := hp.yields s hs
  keeps s hs _ := hp.keeps s hs

theorem Yields.of_kind {f : Kind → Parse α} (hf : ∀ k, YieldsAt k (f k)) : Yields (kind >>= f) where
  yields s hs := (hf s.kind).yields s hs rfl
  keeps s hs := (hf s.kind).keeps s hs rfl

/-- An action after one that leaves the current token where it is. -/
theorem YieldsAt.bind {k : Kind} {p : Parse α} {f : α → Parse β} (hp : Yields p)
    (hkind : ∀ s, (p s).2.kind = s.kind) (hf : ∀ a, Printable a → YieldsAt k (f a)) :
    YieldsAt k (p >>= f) where
  yields s hs hk := (hf _ ⟨hp.yields s hs⟩).yields _ (hp.keeps s hs) ((hkind s).trans hk)
  keeps s hs hk := (hf _ ⟨hp.yields s hs⟩).keeps _ (hp.keeps s hs) ((hkind s).trans hk)

theorem YieldsAt.map {k : Kind} {p : Parse α} {f : α → β} (hp : YieldsAt k p)
    (hf : ∀ a, Printable a → Printable (f a)) : YieldsAt k (f <$> p) where
  yields s hs hk := (hf _ ⟨hp.yields s hs hk⟩).words
  keeps s hs hk := hp.keeps s hs hk

/-! ## Shared actions -/

instance yields_get {f : ParseState → Parse α} [hf : ∀ s, Yields (f s)] :
    Yields (MonadState.get >>= f) where
  yields s hs := (hf s).yields s hs
  keeps s hs := (hf s).keeps s hs

instance yields_current : Yields current where
  yields _ hs := hs.current
  keeps _ hs := hs

instance yields_kind : Yields kind where
  yields _ _ := trivial
  keeps _ hs := hs

instance yields_kindAhead (n : Nat) : Yields (kindAhead n) where
  yields _ _ := trivial
  keeps _ hs := hs

instance yields_isAt (k : Kind) : Yields (isAt k) where
  yields _ _ := trivial
  keeps _ hs := hs

instance yields_isAtAny (ks : List Kind) : Yields (isAtAny ks) where
  yields _ _ := trivial
  keeps _ hs := hs

/-- The token that is read is the current one. -/
theorem advance_fst (s : ParseState) : (advance s).1 = s.current := by
  rw [advance]
  split
  · rfl
  · rename_i t rest hrest
    have hcurrent : s.current = t := by simp [ParseState.current, hrest]
    split <;> exact hcurrent.symm

instance yields_advance : Yields advance where
  yields s hs := by
    rw [advance_fst]
    exact hs.current
  keeps s hs := by
    rw [advance]
    split
    · exact hs
    · rename_i t rest hrest
      split
      · exact hs
      · exact fun u hu => hs u (by simp [hrest, hu])

instance yields_report (severity : Severity) (code : Code) (span : Span) (message : Bytes) :
    Yields (report severity code span message) where
  yields _ _ := trivial
  keeps _ hs := hs

instance yields_skip : Yields skip := by rw [skip]; infer_instance

instance yields_accept? (k : Kind) : Yields (accept? k) := by rw [accept?]; infer_instance

instance yields_accept (k : Kind) : Yields (accept k) := by rw [accept]; infer_instance

instance yields_fault (code : Code) (message : Bytes) : Yields (fault code message) := by
  rw [fault]; infer_instance

instance yields_faultGot (code : Code) (expected : Bytes) : Yields (faultGot code expected) := by
  rw [faultGot]; infer_instance

instance yields_expect (k : Kind) (code : Code) (expected : Bytes) :
    Yields (expect k code expected) := by rw [expect]; infer_instance

theorem expect_fst (k : Kind) (code : Code) (expected : Bytes) (s : ParseState) :
    (expect k code expected s).1 = if s.kind == k then some s.current else none := by
  rw [expect]
  change ((if (s.kind == k) = true then _ else _ : Parse (Option Token)) s).1 = _
  split
  · exact congrArg some (advance_fst s)
  · rfl

/-- A token that was expected has the kind. -/
theorem Yields.expect {k : Kind} {code : Code} {expected : Bytes} {f : Option Token → Parse α}
    (hsome : ∀ t, Printable t → t.kind = k → Yields (f (some t))) (hnone : Yields (f none)) :
    Yields (Parse.expect k code expected >>= f) := by
  have hmore (s : ParseState) (hs : s.InCode) : Yields (f (Parse.expect k code expected s).1) := by
    rw [expect_fst]
    split
    · rename_i hk
      exact hsome _ ⟨hs.current⟩ (beq_iff_eq.mp hk)
    · exact hnone
  have hkeeps := (yields_expect k code expected).keeps
  exact ⟨fun s hs => (hmore s hs).yields _ (hkeeps s hs),
    fun s hs => (hmore s hs).keeps _ (hkeeps s hs)⟩

instance yields_expect_ (k : Kind) (code : Code) (expected : Bytes) :
    Yields (expect_ k code expected) := by rw [expect_]; infer_instance

instance yields_keyword (k : Kind) : Yields (keyword k) := by rw [keyword]; infer_instance

instance yields_semicolon : Yields semicolon := by rw [semicolon]; infer_instance

/-! ## Comments -/

instance yields_rowTrivia : Yields rowTrivia where
  yields _ _ := trivial
  keeps _ hs := hs.setLeading []

instance yields_tail : Yields Parse.tail where
  yields _ _ _ _ := trivial
  keeps _ hs := hs.setLeading []

/-- The comment behind a row is no word. -/
instance yields_inline {f : Bytes → Parse α} [hf : ∀ comment, Yields (f comment)] :
    Yields (inline >>= f) := by
  have hkeeps (s : ParseState) (hs : s.InCode) : (inline s).2.InCode := by
    rw [inline]
    split
    · exact hs.setLeading _
    · exact hs
  exact ⟨fun s hs => (hf _).yields _ (hkeeps s hs), fun s hs => (hf _).keeps _ (hkeeps s hs)⟩

instance yields_withInline (t : RowTrivia) : Yields (withInline t) := by
  rw [withInline]
  infer_instance

/-! ## Repetition -/

instance yields_manyN (stops : List Kind) (item : Parse (Option α)) [Yields item] (n : Nat) :
    Yields (manyN stops item n) := by
  induction n with
  | zero =>
      rw [manyN]
      infer_instance
  | succ n ih =>
      rw [manyN]
      infer_instance

instance yields_many (stops : List Kind) (item : Parse (Option α)) [Yields item] :
    Yields (many stops item) := yields_sized (f := manyN stops item)

instance yields_afterEachN (sep : Kind) (item : Parse α) [Yields item] (n : Nat) :
    Yields (afterEachN sep item n) := by
  induction n with
  | zero =>
      rw [afterEachN]
      infer_instance
  | succ n ih =>
      rw [afterEachN]
      infer_instance

instance yields_sepBy (sep : Kind) (item : Parse α) [Yields item] : Yields (sepBy sep item) := by
  rw [sepBy]
  infer_instance

instance yields_sepBySomeN (sep : Kind) (item : Parse (Option α)) [hitem : Yields item] (n : Nat) :
    Yields (sepBySomeN sep item n) := by
  induction n with
  | zero =>
      rw [sepBySomeN]
      infer_instance
  | succ n ih =>
      rw [sepBySomeN]
      refine hitem.bind fun o ho => ?_
      cases o with
      | none => infer_instance
      | some x =>
          have hx := ho.of_some
          infer_instance

instance yields_sepBySome (sep : Kind) (item : Parse (Option α)) [Yields item] :
    Yields (sepBySome sep item) := yields_sized (f := fun n => sepBySomeN sep item (n + 1))

instance yields_rowsN (sep : Kind) (row : RowTrivia → Parse α) (setInline : α → Bytes → α)
    [∀ t, Yields (row t)]
    [∀ (a : {a : α // HasWords.InCode a}) comment, Printable (setInline a.val comment)] (n : Nat) :
    Yields (rowsN sep row setInline n) := by
  induction n with
  | zero =>
      rw [rowsN]
      infer_instance
  | succ n ih =>
      rw [rowsN]
      infer_instance

instance yields_rows (sep : Kind) (row : RowTrivia → Parse α) (setInline : α → Bytes → α)
    [∀ t, Yields (row t)]
    [∀ (a : {a : α // HasWords.InCode a}) comment, Printable (setInline a.val comment)] :
    Yields (rows sep row setInline) := yields_sized (f := rowsN sep row setInline)

end

/-! ## Names and labels -/

instance yields_ident? : Yields ident? := by
  rw [ident?]
  infer_instance

instance yields_ident : Yields ident := by
  rw [ident]
  infer_instance

instance yields_identList : Yields identList := by
  rw [identList]
  infer_instance

instance yields_optLabel : Yields optLabel := by
  rw [optLabel]
  infer_instance

instance yields_checkEndLabel (label name : Bytes) : Yields (checkEndLabel label name) := by
  rw [checkEndLabel]
  infer_instance

instance yields_forM_keyword (words : List Kind) : Yields (words.forM keyword) := by
  induction words with
  | nil => exact yields_pure ()
  | cons word others ih => exact (yields_keyword word).bind fun _ _ => ih

instance yields_endClause (name : Bytes) (words : List Kind) : Yields (endClause name words) := by
  rw [endClause]
  refine (yields_keyword _).bind fun _ _ => ?_
  split <;> infer_instance

instance yields_resyncN (stops : List Kind) (n depth : Nat) : Yields (resyncN stops n depth) := by
  induction n generalizing depth with
  | zero =>
      rw [resyncN]
      infer_instance
  | succ n ih =>
      rw [resyncN]
      infer_instance

instance yields_resyncTo (stops : List Kind) : Yields (resyncTo stops) :=
  yields_sized (f := fun n => resyncN stops n 0)

end Parse

/-! ## Expressions -/

instance printable_leafOf {t : Token} [ht : Printable t] : Printable (Expr.leafOf t) :=
  ⟨Token.InCode.text ht.words⟩

/-- A number with a unit is left as it is, as the number alone. -/
theorem printable_physical {t unit : Token} (ht : Printable t) (hunit : Printable unit)
    (hk : t.kind = .decimalLit ∨ t.kind = .basedLit) :
    Printable (List.flatten [t.text, " ", unit.text]) := by
  have hother : ∀ k ∈ [Kind.decimalLit, .basedLit], k ∉ .eof :: Lexeme.delimiterKinds := by decide
  have hstart : t.text.startsWord = true :=
    Token.InCode.startsWord ht.words (hother _ (by simpa using hk))
  have hverbatim : CaseStyle.isVerbatim t.text = true := Token.InCode.isVerbatim ht.words hk
  have hnil : t.text ≠ [] := by
    rintro hnil
    rw [hnil] at hstart
    simp [Bytes.startsWord] at hstart
  have hsettled {u : Token} (hu : Printable u) : u.text.isSettled = true :=
    (Bytes.isCode_iff.mp (Token.InCode.text hu.words).isCode_eq).2
  have hinked := (Token.InCode.text ht.words).inked_eq hnil
  have hbehind : Bytes.inked true (List.flatten [" ", unit.text]) = true := by
    have hunit := (Token.InCode.text hunit.words).inked_behind .preserve
    rw [CaseStyle.apply_preserve] at hunit
    simpa using Bytes.inked_append (s := " ") (by decide) hunit
  have hall : Bytes.isSettled (List.flatten [t.text, " ", unit.text]) = true :=
    Bytes.isSettled_flatten (by simpa using ⟨hsettled ht, by decide, hsettled hunit⟩)
  exact ⟨Bytes.inCode_of_isVerbatim (CaseStyle.isVerbatim_append hverbatim hnil _)
    (Bytes.startsWord_append hstart _) hall (Bytes.inked_append hinked hbehind)⟩

namespace Expr

instance yields_parseAttributeName : Yields parseAttributeName := by
  rw [parseAttributeName]
  infer_instance

instance yields_parseSelectionsN (n : Nat) (x : Expr) [hx : Printable x] :
    Yields (parseSelectionsN n x) := by
  induction n generalizing x with
  | zero =>
      rw [parseSelectionsN]
      infer_instance
  | succ n ih =>
      rw [parseSelectionsN]
      infer_instance

instance yields_parseSelectedName : Yields parseSelectedName :=
  yields_ident.bind fun name _ => yields_sized (f := fun n => parseSelectionsN n (.ident name))

instance yields_parseMarkAttributesN (n : Nat) (x : Expr) [hx : Printable x] :
    Yields (parseMarkAttributesN n x) := by
  induction n generalizing x with
  | zero =>
      rw [parseMarkAttributesN]
      infer_instance
  | succ n ih =>
      rw [parseMarkAttributesN]
      infer_instance

instance yields_parseTypeMark : Yields parseTypeMark :=
  yields_parseSelectedName.bind fun x _ => yields_sized (f := fun n => parseMarkAttributesN n x)

section

variable (nested : Parse Expr) [hnested : Yields nested]

instance yields_parseAssoc : Yields (parseAssoc nested) := by
  rw [parseAssoc]
  infer_instance

instance yields_parseArgsN (n : Nat) : Yields (parseArgsN nested n) := by
  induction n with
  | zero =>
      rw [parseArgsN]
      infer_instance
  | succ n ih =>
      rw [parseArgsN]
      infer_instance

instance yields_parseArgs : Yields (parseArgs nested) := by
  rw [parseArgs]
  infer_instance

instance yields_parseParenOrAggregate : Yields (parseParenOrAggregate nested) := by
  refine (yields_parseArgs nested).bind fun elems helems => ?_
  split
  · rename_i x
    have hx : Printable x := ⟨(helems.words _ List.mem_cons_self).2⟩
    infer_instance
  · infer_instance

instance yields_parseSuffixesN (n : Nat) (x : Expr) [hx : Printable x] :
    Yields (parseSuffixesN nested n x) := by
  induction n generalizing x with
  | zero =>
      rw [parseSuffixesN]
      infer_instance
  | succ n ih =>
      rw [parseSuffixesN]
      refine yields_kind.bind fun k _ => ?_
      split <;> infer_instance

instance yields_parseSuffixes (x : Expr) [hx : Printable x] : Yields (parseSuffixes nested x) :=
  yields_sized (f := fun n => parseSuffixesN nested n x)

instance yields_parseNameWith : Yields (parseNameWith nested) := by
  rw [parseNameWith]
  infer_instance

theorem yields_number {t : Token} (ht : Printable t)
    (hk : t.kind = .decimalLit ∨ t.kind = .basedLit) :
    Yields (do
      skip
      match ← accept? .ident with
      | some unit => return .leaf ⟨t.kind, List.flatten [t.text, " ", unit.text]⟩
      | none => return .leaf (leafOf t) : Parse Expr) := by
  refine yields_skip.bind fun _ _ => (yields_accept? _).bind fun o ho => ?_
  cases o with
  | none => infer_instance
  | some unit =>
      have hphysical := printable_physical ht ho.of_some hk
      infer_instance

instance yields_parseOperand : Yields (parseOperand nested) := by
  rw [parseOperand]
  refine yields_current.bind fun t ht => ?_
  split
  case h_4 hkind => exact yields_number ht (by simp [hkind])
  case h_5 hkind => exact yields_number ht (by simp [hkind])
  all_goals infer_instance

instance yields_parseAllocatorsN (n : Nat) : Yields (parseAllocatorsN n) := by
  induction n with
  | zero =>
      rw [parseAllocatorsN]
      infer_instance
  | succ n ih =>
      rw [parseAllocatorsN]
      refine (yields_accept? _).bind fun o ho => ?_
      cases o with
      | none => infer_instance
      | some t =>
          have ht := ho.of_some
          infer_instance

instance printable_foldr_unary {ops : List Leaf} {x : Expr} [hops : Printable ops]
    [hx : Printable x] : Printable (ops.foldr Expr.unary x) := by
  obtain ⟨hops⟩ := hops
  induction ops with
  | nil => exact hx
  | cons op ops ih =>
      obtain ⟨hop, hops⟩ := List.forall_mem_cons.mp hops
      exact ⟨hop, (ih hops).words⟩

instance yields_parsePrimary : Yields (parsePrimary nested) :=
  (yields_sized (f := parseAllocatorsN)).bind fun _ _ =>
    (yields_parseOperand nested).bind fun _ _ => inferInstance

section

variable (ops : List Kind) (operand : Parse Expr) [hoperand : Yields operand]

instance yields_parseChainN (n : Nat) (x : Expr) [hx : Printable x] :
    Yields (parseChainN ops operand n x) := by
  induction n generalizing x with
  | zero =>
      rw [parseChainN]
      infer_instance
  | succ n ih =>
      rw [parseChainN]
      infer_instance

instance yields_parseChain (x : Expr) [hx : Printable x] : Yields (parseChain ops operand x) :=
  yields_sized (f := fun n => parseChainN ops operand n x)

instance yields_parsePair : Yields (parsePair ops operand) := by
  rw [parsePair]
  infer_instance

end

instance yields_parseFactor : Yields (parseFactor nested) := by
  rw [parseFactor]
  infer_instance

instance yields_parseTerm : Yields (parseTerm nested) := by
  rw [parseTerm]
  infer_instance

instance yields_parseAdding : Yields (parseAdding nested) := by
  rw [parseAdding]
  infer_instance

instance yields_parseShift : Yields (parseShift nested) := by
  rw [parseShift]
  infer_instance

instance yields_parseRelation : Yields (parseRelation nested) := by
  rw [parseRelation]
  infer_instance

instance yields_parseExprWith : Yields (parseExprWith nested) := by
  rw [parseExprWith]
  infer_instance

instance yields_parseRangeWith : Yields (parseRangeWith nested) := by
  have hrange (x : Expr) (word : Token) [Printable x] [Printable word] : Yields (do
      match ← accept? .box with
      | some box => return .binary (leafOf word) x (.leaf (leafOf box))
      | none => return .binary (leafOf word) x (← nested) : Parse Expr) := by
    refine (yields_accept? _).bind fun o ho => ?_
    cases o with
    | none => infer_instance
    | some box =>
        have hbox := ho.of_some
        infer_instance
  rw [parseRangeWith]
  infer_instance

end

instance yields_parseRangeN (n : Nat) : Yields (parseRangeN n) := by
  induction n with
  | zero =>
      rw [parseRangeN]
      infer_instance
  | succ n ih =>
      rw [parseRangeN]
      infer_instance

instance yields_parseRange : Yields parseRange := yields_sized (f := fun n => parseRangeN (n + 1))

instance yields_parse : Yields Expr.parse :=
  yields_sized (f := fun n => parseExprWith (parseRangeN n))

instance yields_parseName : Yields parseName :=
  yields_sized (f := fun n => parseNameWith (parseRangeN n))

instance yields_parseAssociation : Yields parseAssociation := by
  rw [parseAssociation]
  infer_instance

instance yields_parseChoices : Yields parseChoices := by
  rw [parseChoices]
  infer_instance

end Expr

end VhdlStyle
