import VhdlStyle.Proofs.Design.Parts
import VhdlStyle.Proofs.Parsing.CompleteFiles

/-! # Declarations that are kept as tokens

A declaration without structure of its own is read up to a semicolon. The reader counts the
parentheses that it passes, and the count may fall below zero: a semicolon ends the declaration if
as many parentheses have been closed as opened, in whatever order. -/

namespace VhdlStyle

open Parse

set_option synthInstance.maxSize 2000

/-! ## Parentheses -/

namespace RawToken

/-- What the token adds to the number of open parentheses. -/
def opens (t : RawToken) : Int := if t.text = "(" then 1 else if t.text = ")" then -1 else 0

/-- How many more parentheses the tokens open than they close. -/
def depth (ts : List RawToken) : Int := (ts.map opens).sum

@[simp] theorem depth_nil : depth [] = 0 := rfl

@[simp] theorem depth_cons (t : RawToken) (ts : List RawToken) :
    depth (t :: ts) = t.opens + depth ts := rfl

/-- As many parentheses are closed as opened, and at no semicolon is that so already. -/
structure EndsLevel (ts : List RawToken) : Prop where
  level : depth ts = 0
  semicolon : ∀ (before : List RawToken) (t : RawToken) (after : List RawToken),
    ts = before ++ t :: after → t.text = ";" → depth before ≠ 0

/-- Parentheses are balanced, and all semicolons are inside parentheses. -/
structure IsOneDeclaration (ts : List RawToken) : Prop where
  balanced : depth ts = 0
  nonneg : ∀ before, before <+: ts → 0 ≤ depth before
  semicolon : ∀ (before : List RawToken) (t : RawToken) (after : List RawToken),
    ts = before ++ t :: after → t.text = ";" → 0 < depth before

/-- What ends at its own level is one declaration unless it closes more than it has opened. -/
theorem EndsLevel.isOneDeclaration_iff {ts : List RawToken} (h : EndsLevel ts) :
    IsOneDeclaration ts ↔ ∀ before, before <+: ts → 0 ≤ depth before := by
  refine ⟨IsOneDeclaration.nonneg, fun hnonneg => ⟨h.level, hnonneg, ?_⟩⟩
  intro before t after hts ht
  have hbefore := hnonneg before ⟨t :: after, hts.symm⟩
  have hne := h.semicolon before t after hts ht
  omega

/-- What is kept of a token. -/
def ofToken (t : Token) : RawToken := ⟨t.text, t.isKeyword, t.isIdent⟩

end RawToken

theorem Leaf.Sound.kind_eq {k k' : Kind} {text : Bytes} (h : (Leaf.mk k text).Sound)
    (h' : (Leaf.mk k' text).Sound) : k = k' := by
  obtain ⟨b, rest, rfl, -, hscan⟩ := h.exists_cons
  obtain ⟨c, tail, htext, -, hscan'⟩ := h'.exists_cons
  obtain ⟨rfl, rfl⟩ := List.cons.inj htext
  exact congrArg Lexeme.kind (hscan.symm.trans hscan')

/-- Parentheses and semicolons are known by their texts. -/
theorem Token.Whole.delimiter_iff {t : Token} (h : t.Whole) (hkind : t.kind ≠ .eof) :
    (t.kind = .lParen ↔ t.text = "(") ∧ (t.kind = .rParen ↔ t.text = ")") ∧
      (t.kind = .semicolon ↔ t.text = ";") := by
  have hiff {k : Kind} {text : Bytes} (hk : k ∈ Lexeme.delimiterKinds)
      (hsound : (Leaf.mk k text).Sound) (honly : ∀ entry ∈ Lexeme.delimiters, entry.2 = k →
        Bytes.ofString entry.1 = text) : t.kind = k ↔ t.text = text := by
    constructor
    · rintro rfl
      obtain ⟨entry, hentry, heq, htext⟩ := (h.sound hkind).delimiter hk
      exact htext.trans (honly entry hentry heq)
    · rintro rfl
      exact (h.sound hkind).kind_eq hsound
  refine ⟨hiff (by decide) ?_ (by decide), hiff (by decide) ?_ (by decide),
    hiff (by decide) ?_ (by decide)⟩
  all_goals exact ⟨by decide, by decide⟩

/-- What a token adds to the number of open parentheses is seen from its kind. -/
theorem Token.Whole.opens_eq {t : Token} (h : t.Whole) (hkind : t.kind ≠ .eof) (depth : Int) :
    (match t.kind with
      | .lParen => depth + 1
      | .rParen => depth - 1
      | _ => depth) = depth + (RawToken.ofToken t).opens := by
  obtain ⟨hleft, hright, -⟩ := h.delimiter_iff hkind
  have hopens : (RawToken.ofToken t).opens =
      if t.kind = .lParen then 1 else if t.kind = .rParen then -1 else 0 :=
    if_congr hleft.symm rfl (if_congr hright.symm rfl rfl)
  rw [hopens]
  split
  case h_1 heq => rw [if_pos heq]
  case h_2 heq => rw [if_neg (by simp [heq]), if_pos heq, Int.sub_eq_add_neg]
  case h_3 hl hr => rw [if_neg hl, if_neg hr, Int.add_zero]

/-! ## Reading tokens -/

/-- Where a semicolon is read without an error, there is one. -/
theorem Parse.kind_of_semicolon {s : ParseState} (h : s.Clean (semicolon s).2) :
    s.kind = .semicolon := by
  by_contra hkind
  have hrun : (semicolon s).2 = if s.kind == .semicolon then (advance s).2
      else (faultGot .expectSemicolon "expected ';'" s).2 := by
    change ((if s.kind == .semicolon then some <$> advance
      else faultGot .expectSemicolon "expected ';'" >>= fun _ => pure none) s).2 = _
    split <;> rfl
  have heq := h.errors_eq
  rw [hrun, if_neg (by simpa using hkind)] at heq
  have hlt : s.errors < (faultGot .expectSemicolon "expected ';'" s).2.errors :=
    Nat.lt_succ_self s.errors
  omega

namespace Decl

/-- The reader passes a token unless the source ends or a semicolon ends the declaration. -/
theorem parseRawN_succ {s : ParseState} (hs : s.Whole) (fuel : Nat) (depth : Int) :
    parseRawN (fuel + 1) depth s =
      if s.kind = .eof ∨ depth = 0 ∧ s.kind = .semicolon then ([], s)
      else
        let rest := parseRawN fuel (depth + (RawToken.ofToken s.current).opens) (advance s).2
        (RawToken.ofToken s.current :: rest.1, rest.2) := by
  rw [parseRawN]
  change (if (s.kind == .eof || (depth == 0 && s.kind == .semicolon)) = true then pure [] else (do
    let t ← advance
    return RawToken.ofToken t :: (← parseRawN fuel _) : Parse (List RawToken))) s = _
  by_cases hstop : s.kind = .eof ∨ depth = 0 ∧ s.kind = .semicolon
  · rw [if_pos (by simpa using hstop), if_pos hstop]
    rfl
  · rw [if_neg (by simpa using hstop), if_neg hstop]
    have hkind : s.kind ≠ .eof := fun heof => hstop (.inl heof)
    rw [← hs.current.opens_eq hkind depth]
    change (RawToken.ofToken (advance s).1 :: _, _) = _
    rw [advance_fst]
    rfl

/-- Tokens are read until a semicolon comes where the level of parentheses is zero. -/
theorem parseRawN_endsLevel {s : ParseState} {fuel : Nat} {depth : Int} (hs : s.Whole)
    (hkept : (parseRawN fuel depth s).2.gaveUp = false)
    (hend : (parseRawN fuel depth s).2.kind = .semicolon) :
    depth + RawToken.depth (parseRawN fuel depth s).1 = 0 ∧
      ∀ (before : List RawToken) (t : RawToken) (after : List RawToken),
        (parseRawN fuel depth s).1 = before ++ t :: after → t.text = ";" →
          depth + RawToken.depth before ≠ 0 := by
  induction fuel generalizing s depth with
  | zero => exact absurd hkept Bool.true_eq_false.mp
  | succ fuel ih =>
      rw [parseRawN_succ hs] at hkept hend ⊢
      by_cases hstop : s.kind = .eof ∨ depth = 0 ∧ s.kind = .semicolon
      · rw [if_pos hstop] at hend ⊢
        obtain ⟨rfl, -⟩ := hstop.resolve_left (by rw [hend]; decide)
        exact ⟨rfl, by simp⟩
      · rw [if_neg hstop] at hkept hend ⊢
        dsimp only at hkept hend ⊢
        rw [not_or] at hstop
        obtain ⟨hlevel, hinside⟩ := ih (built_advance.whole hs) hkept hend
        refine ⟨by rw [RawToken.depth_cons, ← hlevel, Int.add_assoc], ?_⟩
        intro before t after hsplit ht
        cases before with
        | nil =>
            obtain ⟨rfl, -⟩ := List.cons.inj hsplit
            have hsemicolon : s.kind = .semicolon := 
              (hs.current.delimiter_iff hstop.1).2.2.mpr ht
            rw [RawToken.depth_nil, Int.add_zero]
            exact fun hdepth => hstop.2 ⟨hdepth, hsemicolon⟩
        | cons u before =>
            obtain ⟨rfl, hrest⟩ := List.cons.inj hsplit
            rw [RawToken.depth_cons, ← Int.add_assoc]
            exact hinside before t after hrest ht

/-- What is kept as tokens ends at its level. -/
def RawEnds : Decl → Prop
  | .raw _ tokens => RawToken.EndsLevel tokens
  | _ => True

theorem Each.leaf {d : Decl} (hd : d.RawEnds) (hinner : d.inner = []) : d.Each RawEnds :=
  .intro hd (by simp [hinner])

theorem gives_parseRaw_ends (t : RowTrivia) :
    Gives (parseRaw t) (Each RawEnds) := by
  refine ⟨inferInstance, fun s hs hclean => ?_⟩
  have htokens : Built true (fun s => parseRawN s.size 0 s) :=
    built_sized (f := fun n => parseRawN n 0)
  have hrest (tokens : List RawToken) : Built true (do
      semicolon
      return .raw (← withInline t) tokens : Parse Decl) := inferInstance
  obtain ⟨hread, hafter⟩ := Clean.of_bind htokens hrest hclean
  obtain ⟨hsemicolon, -⟩ := Clean.of_bind (p := semicolon) inferInstance
    (fun _ => inferInstance) hafter
  obtain ⟨hlevel, hinside⟩ :=
    parseRawN_endsLevel hs hread.kept (kind_of_semicolon hsemicolon)
  rw [Int.zero_add] at hlevel
  refine .leaf ⟨hlevel, fun before token after hsplit htoken => ?_⟩ rfl
  rw [← Int.zero_add (RawToken.depth before)]
  exact hinside before token after hsplit htoken

/-! ## Other declarations -/

theorem gives_parseObject_ends (t : RowTrivia) : Gives (parseObject t) (Each RawEnds) := by
  unfold parseObject
  refine .next fun word => .next fun names => .next fun _ => .next fun indication => ?_
  exact .next fun value => .next fun _ => .next fun _ => .pure (.leaf trivial rfl)

theorem gives_parseType_ends (t : RowTrivia) : Gives (parseType t) (Each RawEnds) := by
  unfold parseType
  refine .next fun _ => .next fun name => .next fun hasDefinition => ?_
  extract_lets -underBinder next
  have hnext (definition : Option TypeDef) : Gives (next definition) (Each RawEnds) :=
    .next fun _ => .next fun _ => .pure (.leaf trivial rfl)
  clear_value next
  exact .ite (fun _ => .next hnext) fun _ => hnext none

theorem gives_parseSubtype_ends (t : RowTrivia) : Gives (parseSubtype t) (Each RawEnds) := by
  unfold parseSubtype
  refine .next fun _ => .next fun name => .next fun _ => .next fun indication => ?_
  exact .next fun _ => .next fun _ => .pure (.leaf trivial rfl)

theorem gives_parseAlias_ends (t : RowTrivia) : Gives (parseAlias t) (Each RawEnds) := by
  unfold parseAlias
  refine .next fun _ => .next fun name => .next fun hasIndication => ?_
  extract_lets -underBinder next
  have hnext (indication : Option SubtypeIndication) : Gives (next indication) (Each RawEnds) :=
    .next fun _ => .next fun target => .next fun _ => .next fun _ => .pure (.leaf trivial rfl)
  clear_value next
  exact .ite (fun _ => .next fun indication => hnext (some indication)) fun _ => hnext none

theorem gives_parseComponent_ends (t : RowTrivia) : Gives (parseComponent t) (Each RawEnds) := by
  unfold parseComponent
  refine .next fun _ => .next fun name => .next fun _ => .next fun generics => ?_
  refine .next fun ports => .next fun tail => .next fun _ => .next fun _ => ?_
  exact .pure (.leaf trivial rfl)

theorem gives_parseAttribute_ends (t : RowTrivia) : Gives (parseAttribute t) (Each RawEnds) := by
  unfold parseAttribute
  refine .next fun _ => .next fun name => .next fun _ => .next fun mark => .next fun _ => ?_
  exact .next fun _ => .pure (.leaf trivial rfl)

theorem gives_parseAttributeSpec_ends (t : RowTrivia) :
    Gives (parseAttributeSpec t) (Each RawEnds) := by
  unfold parseAttributeSpec
  refine .next fun _ => .next fun name => .next fun _ => .next fun entities => ?_
  refine .next fun _ => .next fun word => ?_
  extract_lets -underBinder next
  have hnext (entityClass : Bytes) : Gives (next entityClass) (Each RawEnds) :=
    .next fun _ => .next fun value => .next fun _ => .next fun _ => .pure (.leaf trivial rfl)
  have hbuilt (entityClass : Bytes) : Built true (next entityClass) := (hnext entityClass).built
  clear_value next
  exact .ite (fun _ => .next fun _ => .next hnext) fun _ => .faultGot

theorem gives_parseTypeOrRaw_ends :
    Gives parseTypeOrRaw fun o => ∀ d ∈ o, d.Each RawEnds := by
  unfold parseTypeOrRaw
  refine .next fun k => ?_
  split
  case h_1 => exact .next fun t => .mapSome (gives_parseRaw_ends t)
  case h_2 => exact .fault
  case h_3 => exact .next fun t => .mapSome (gives_parseType_ends t)

section

variable {part : Parse (List Decl)} (hpart : Gives part fun ds => ∀ d ∈ ds, d.Each RawEnds)

include hpart

theorem gives_parseSubprogram_ends (t : RowTrivia) :
    Gives (parseSubprogram part t) (Each RawEnds) := by
  unfold parseSubprogram
  refine .next fun spec => .next fun hasBody => .ite ?_ fun _ => ?_
  · exact fun _ => .next fun _ => .next fun _ => .pure (.leaf trivial rfl)
  · refine hpart.bind fun ds => .next fun declTail => .next fun _ => .next fun ss => ?_
    refine .next fun tail => .next fun _ => .next fun atWord => ?_
    extract_lets -underBinder next
    have hnext (u : PUnit) : Gives (next u) fun d => (∀ d ∈ ds, d.Each RawEnds) →
        d.Each RawEnds := by
      refine .next fun hasLabel => ?_
      extract_lets -underBinder last
      have hlast (endLabel : Bytes) : Gives (last endLabel) fun d =>
          (∀ d ∈ ds, d.Each RawEnds) → d.Each RawEnds :=
        .next fun _ => .next fun _ => .next fun _ => .pure fun hds => .intro trivial hds
      clear_value last
      exact .ite (fun _ => .next fun _ => .next hlast) fun _ => .next hlast
    clear_value next
    exact .ite (fun _ => .next hnext) fun _ => hnext ⟨⟩

theorem gives_parseWith_ends : Gives (parseWith part) fun o => ∀ d ∈ o, d.Each RawEnds := by
  have hsome {p : RowTrivia → Parse Decl} (hp : ∀ t, Gives (p t) (Each RawEnds)) :
      Gives (rowTrivia >>= fun t => some <$> p t) fun o => ∀ d ∈ o, d.Each RawEnds :=
    .next fun t => .mapSome (hp t)
  unfold parseWith
  refine .next fun k => ?_
  split
  case h_1 | h_2 | h_3 | h_4 => exact hsome gives_parseObject_ends
  case h_5 => exact gives_parseTypeOrRaw_ends
  case h_6 => exact hsome gives_parseSubtype_ends
  case h_7 => exact hsome gives_parseAlias_ends
  case h_8 => exact hsome gives_parseComponent_ends
  case h_9 =>
    refine .next fun ahead => .ite (fun _ => hsome gives_parseAttribute_ends) fun _ => ?_
    exact hsome gives_parseAttributeSpec_ends
  case h_10 | h_11 | h_12 | h_13 => exact hsome (gives_parseSubprogram_ends hpart)
  case h_14 => exact .next fun clause => .pure (forall_mem_some (.leaf trivial rfl))
  case h_15 | h_16 | h_17 | h_18 => exact hsome gives_parseRaw_ends
  case h_19 => exact .faultGot

end

theorem gives_parsePartN_ends (n : Nat) :
    Gives (parsePartN n) fun ds => ∀ d ∈ ds, d.Each RawEnds := by
  induction n with
  | zero =>
      unfold parsePartN
      exact .giveUp
  | succ n ih =>
      unfold parsePartN
      exact gives_many (gives_parseWith_ends ih)

theorem gives_parsePart_ends : Gives parsePart fun ds => ∀ d ∈ ds, d.Each RawEnds :=
  .sized gives_parsePartN_ends

end Decl

/-! ## Statements -/

namespace ConcStmt

theorem Each.leaf {s : ConcStmt} (hdecls : s.decls = []) (hgenerated : s.generated = []) :
    s.Each Decl.RawEnds := .intro (by simp [hdecls]) (by simp [hgenerated]) (by simp [hgenerated])

theorem gives_parseProcess_ends (h : Head) (postponed : Bool) :
    Gives (parseProcess h postponed) (Each Decl.RawEnds) := by
  unfold parseProcess
  refine .next fun _ => .next fun sensitivity => .next fun hasIs => ?_
  refine .bind Decl.gives_parsePart_ends fun ds => .next fun declTail => .next fun _ => ?_
  refine .next fun ss => .next fun tail => .next fun _ => .next fun _ => .next fun _ => ?_
  refine .next fun endLabel => .next fun _ => .next fun _ => .next fun text => .pure fun hds => ?_
  exact .intro hds (fun _ hbody => absurd hbody List.not_mem_nil)
    fun _ hbody => absurd hbody List.not_mem_nil

theorem gives_parseMaps_ends (h : Head) (inst : Instantiation) :
    Gives (parseMaps h inst) (Each Decl.RawEnds) := by
  unfold parseMaps
  extract_lets -underBinder next
  have hnext (u : PUnit) : Gives (next u) (Each Decl.RawEnds) := by
    refine .next fun hasGenerics => ?_
    extract_lets -underBinder rest
    have hrest (genericMap : Option MapList) : Gives (rest genericMap) (Each Decl.RawEnds) := by
      refine .next fun hasPorts => ?_
      extract_lets -underBinder last
      have hlast (portMap : Option MapList) : Gives (last portMap) (Each Decl.RawEnds) :=
        .next fun _ => .pure (.leaf rfl rfl)
      clear_value last
      exact .ite (fun _ => .next fun ports => hlast (some ports)) fun _ => hlast none
    clear_value rest
    exact .ite (fun _ => .next fun generics => hrest (some generics)) fun _ => hrest none
  have hbuilt (u : PUnit) : Built true (next u) := (hnext u).built
  clear_value next
  exact .ite (fun _ => .fault) fun _ => hnext ⟨⟩

theorem gives_parseInstance_ends (h : Head) :
    Gives (parseInstance h) (Each Decl.RawEnds) := by
  unfold parseInstance
  refine .next fun word => .next fun unit => .next fun hasArch => ?_
  extract_lets -underBinder next
  have hnext (arch : Bytes) : Gives (next arch) (Each Decl.RawEnds) := gives_parseMaps_ends h _
  clear_value next
  exact .ite (fun _ => .next fun arch => .next fun _ => hnext arch) fun _ => hnext []

theorem gives_parseSelected_ends (h : Head) :
    Gives (parseSelected h) (Each Decl.RawEnds) := by
  unfold parseSelected
  refine .next fun _ => .next fun selector => .next fun _ => .next fun target => ?_
  exact .next fun _ => .next fun arms => .next fun _ => .pure (.leaf rfl rfl)

theorem gives_parseNamed_ends (h : Head) :
    Gives (parseNamed h) fun o => ∀ s ∈ o, s.Each Decl.RawEnds := by
  unfold parseNamed
  refine .next fun isName => .ite (fun _ => .faultGot) fun _ => ?_
  refine .next fun target => .next fun hasMaps => .ite (fun _ => ?_) fun _ => ?_
  · exact .mapSome (gives_parseMaps_ends h _)
  · refine .next fun isSignal => .ite (fun _ => .next fun arms => ?_) fun _ => ?_
    · exact .next fun _ => .pure (forall_mem_some (.leaf rfl rfl))
    · exact .next fun _ => .pure (forall_mem_some (.leaf rfl rfl))

section

variable {block : Parse (List ConcStmt)}
  (hblock : Gives block fun ss => ∀ s ∈ ss, s.Each Decl.RawEnds)

include hblock

/-- All declarations inside the region end. -/
theorem gives_parseBody_ends : Gives (parseBody block) fun b =>
    (∀ d ∈ b.decls, d.Each Decl.RawEnds) ∧ ∀ s ∈ b.stmts, s.Each Decl.RawEnds := by
  unfold parseBody
  refine .next fun hasDecls => ?_
  extract_lets -underBinder next
  have hnext (parts : List Decl × Bool) : Gives (next parts) fun b =>
      (∀ d ∈ parts.1, d.Each Decl.RawEnds) →
        (∀ d ∈ b.decls, d.Each Decl.RawEnds) ∧ ∀ s ∈ b.stmts, s.Each Decl.RawEnds :=
    hblock.bind fun ss => .next fun tail => .pure fun hss hds => ⟨hds, hss⟩
  clear_value next
  refine .ite (fun _ => ?_) fun _ => ?_
  · exact .bind Decl.gives_parsePart_ends fun ds => .next fun _ => hnext (ds, true)
  · exact .next fun hasBegin => (hnext ([], hasBegin)).mono fun b hb => hb (by simp)

theorem gives_parseForGenerate_ends (h : Head) :
    Gives (parseForGenerate block h) (Each Decl.RawEnds) := by
  unfold parseForGenerate
  refine .next fun _ => .next fun _ => .next fun param => .next fun _ => .next fun range => ?_
  refine .next fun _ => (gives_parseBody_ends hblock).bind fun body => .next fun endLabel => ?_
  refine .next fun text => .pure fun hbody => .intro (by simp [decls]) ?_ ?_
  · exact List.forall_mem_singleton.mpr hbody.1
  · exact List.forall_mem_singleton.mpr hbody.2

theorem gives_parseIfGenerate_ends (h : Head) :
    Gives (parseIfGenerate block h) (Each Decl.RawEnds) := by
  let Ends (b : GenerateBranch) : Prop :=
    (∀ d ∈ b.body.decls, d.Each Decl.RawEnds) ∧ ∀ s ∈ b.body.stmts, s.Each Decl.RawEnds
  have hbranch : Gives (parseCondBranch block) Ends := by
    unfold parseCondBranch
    refine .next fun cond => .next fun _ => ?_
    exact (gives_parseBody_ends hblock).bind fun body => .pure id
  unfold parseIfGenerate
  refine .next fun _ => .next fun _ => hbranch.bind fun first => ?_
  refine (Gives.sized (gives_afterEachN hbranch)).bind fun others => .next fun hasElse => ?_
  extract_lets -underBinder next
  have hnext (last : List GenerateBranch) : Gives (next last) fun s =>
      (∀ b ∈ last, Ends b) → (∀ b ∈ others, Ends b) → Ends first → s.Each Decl.RawEnds := by
    refine .next fun endLabel => .next fun text => .pure fun hlast hothers hfirst => ?_
    have hall : ∀ b ∈ first :: others ++ last, Ends b :=
      List.forall_mem_append.mpr ⟨List.forall_mem_cons.mpr ⟨hfirst, hothers⟩, hlast⟩
    refine .intro (by simp [decls]) ?_ ?_
    · exact List.forall_mem_map.mpr fun b hb => (hall b hb).1
    · exact List.forall_mem_map.mpr fun b hb => (hall b hb).2
  clear_value next
  refine .ite (fun _ => .next fun _ => ?_) fun _ => (hnext []).mono fun s hs => hs (by simp)
  refine (gives_parseBody_ends hblock).bind fun body => (hnext [.mk none body]).mono ?_
  exact fun s hs hbody => hs (List.forall_mem_singleton.mpr hbody)

theorem gives_parseWith_ends :
    Gives (parseWith block) fun o => ∀ s ∈ o, s.Each Decl.RawEnds := by
  unfold parseWith
  refine .next fun t => .next fun label => ?_
  extract_lets h
  refine .next fun postponed => .next fun k => ?_
  split
  case h_1 => exact .mapSome (gives_parseProcess_ends h postponed)
  case h_2 =>
    exact .next fun assertion => .next fun _ => .pure (forall_mem_some (.leaf rfl rfl))
  case h_3 => exact .mapSome (gives_parseSelected_ends h)
  case h_4 => exact .mapSome (gives_parseForGenerate_ends hblock h)
  case h_5 => exact .mapSome (gives_parseIfGenerate_ends hblock h)
  case h_6 | h_7 | h_8 => exact .mapSome (gives_parseInstance_ends h)
  case h_9 => exact .fault
  case h_10 => exact gives_parseNamed_ends h

end

theorem gives_parseBlockN_ends (n : Nat) :
    Gives (parseBlockN n) fun ss => ∀ s ∈ ss, s.Each Decl.RawEnds := by
  induction n with
  | zero =>
      unfold parseBlockN
      exact .giveUp
  | succ n ih =>
      unfold parseBlockN
      exact gives_many (gives_parseWith_ends ih)

theorem gives_parseBlock_ends : Gives parseBlock fun ss => ∀ s ∈ ss, s.Each Decl.RawEnds :=
  .sized gives_parseBlockN_ends

end ConcStmt

/-! ## Units and files -/

namespace DesignUnit

variable {context : List ContextItem}

/-- A unit has the declarations and statements of its body. -/
theorem gives_close_ends {t : RowTrivia} {name : Bytes} {body : UnitBody} {words : List Kind} :
    Gives (close t context name body words) fun u => u.body = body := by
  unfold close
  exact .next fun tail => .next fun endLabel => .next fun _ => .pure rfl

theorem gives_parseEntity_ends : Gives (parseEntity context) (Each Decl.RawEnds) := by
  unfold parseEntity
  refine .next fun t => .next fun _ => .next fun name => .next fun _ => .next fun generics => ?_
  refine .next fun ports => .bind Decl.gives_parsePart_ends fun ds => .next fun hasBegin => ?_
  extract_lets -underBinder next
  have hnext (ss : List ConcStmt) : Gives (next ss) fun u => (∀ s ∈ ss, s.Each Decl.RawEnds) →
      (∀ d ∈ ds, d.Each Decl.RawEnds) → u.Each Decl.RawEnds := by
    refine gives_close_ends.mono fun u hbody hss hds => ⟨?_, ?_⟩
    · rwa [decls, hbody]
    · rwa [stmts, hbody]
  clear_value next
  refine .ite (fun _ => .bind ConcStmt.gives_parseBlock_ends hnext) fun _ => (hnext []).mono ?_
  exact fun u hu => hu (by simp)

theorem gives_parseArchitecture_ends : Gives (parseArchitecture context) (Each Decl.RawEnds) := by
  unfold parseArchitecture
  refine .next fun t => .next fun _ => .next fun name => .next fun _ => .next fun entity => ?_
  refine .next fun _ => .bind Decl.gives_parsePart_ends fun ds => .next fun declTail => ?_
  refine .next fun _ => .bind ConcStmt.gives_parseBlock_ends fun ss => ?_
  refine gives_close_ends.mono fun u hbody hss hds => ⟨?_, ?_⟩
  · rwa [decls, hbody]
  · rwa [stmts, hbody]

theorem gives_parsePackage_ends : Gives (parsePackage context) (Each Decl.RawEnds) := by
  unfold parsePackage
  refine .next fun t => .next fun _ => .next fun name => .next fun _ => .next fun generics => ?_
  refine .bind Decl.gives_parsePart_ends fun ds => gives_close_ends.mono fun u hbody hds => ⟨?_, ?_⟩
  · rwa [decls, hbody]
  · simp [stmts, hbody]

theorem gives_parsePackageBody_ends : Gives (parsePackageBody context) (Each Decl.RawEnds) := by
  unfold parsePackageBody
  refine .next fun t => .next fun _ => .next fun _ => .next fun name => .next fun _ => ?_
  refine .bind Decl.gives_parsePart_ends fun ds => gives_close_ends.mono fun u hbody hds => ⟨?_, ?_⟩
  · rwa [decls, hbody]
  · simp [stmts, hbody]

end DesignUnit

namespace DesignFile

theorem gives_parseStep_ends (context : List ContextItem) :
    Gives (parseStep context) fun r => ∀ u ∈ r.1, u.Each Decl.RawEnds := by
  have hunit {p : Parse DesignUnit} (hp : Gives p fun u => u.Each Decl.RawEnds) :
      Gives (p >>= fun u => pure (some u, [])) fun r : Option DesignUnit × List ContextItem =>
        ∀ u ∈ r.1, u.Each Decl.RawEnds :=
    hp.bind fun u => .pure fun hu => forall_mem_some hu
  unfold parseStep
  refine .next fun k => ?_
  split
  case h_1 => exact .next fun i => .pure (by simp)
  case h_2 => exact .next fun clause => .pure (by simp)
  case h_3 => exact hunit DesignUnit.gives_parseEntity_ends
  case h_4 => exact hunit DesignUnit.gives_parseArchitecture_ends
  case h_5 =>
    refine .next fun ahead => .ite (fun _ => ?_) fun _ => hunit DesignUnit.gives_parsePackage_ends
    exact hunit DesignUnit.gives_parsePackageBody_ends
  case h_6 => exact .faultGot

theorem gives_parseUnitsN_ends (fuel : Nat) (context : List ContextItem) :
    Gives (parseUnitsN fuel context) fun r => ∀ u ∈ r.1, u.Each Decl.RawEnds := by
  induction fuel generalizing context with
  | zero =>
      unfold parseUnitsN
      exact .giveUp
  | succ fuel ih =>
      unfold parseUnitsN
      refine .next fun atEnd => .ite (fun _ => .pure (by simp)) fun _ => ?_
      refine .get (fun s t h => by simp only [ParseState.size_eq_of_view h]) fun before => ?_
      refine (gives_parseStep_ends context).bind fun step => ?_
      refine .get (fun s t h => by simp only [ParseState.size_eq_of_view h]) fun after => ?_
      extract_lets -underBinder next
      have hnext (u : PUnit) : Gives (next u) fun r =>
          (∀ u ∈ step.1, u.Each Decl.RawEnds) → ∀ u ∈ r.1, u.Each Decl.RawEnds := by
        refine (ih step.2).bind fun rest => .pure fun hrest hstep => ?_
        refine List.forall_mem_append.mpr ⟨?_, hrest⟩
        exact fun u hu => hstep u (Option.mem_toList.mp hu)
      clear_value next
      exact .ite (fun _ => .next hnext) fun _ => hnext ⟨⟩

theorem gives_parseTokens_ends :
    Gives parseTokens fun f => ∀ u ∈ f.units, u.Each Decl.RawEnds := by
  have hunits : Gives (fun s => parseUnitsN s.size [] s) fun r => ∀ u ∈ r.1, u.Each Decl.RawEnds :=
    .sized (f := fun n => parseUnitsN n []) fun n => gives_parseUnitsN_ends n []
  unfold parseTokens
  refine hunits.bind fun parts => ?_
  exact .ite (fun _ => .fault) fun _ => .next fun trailing => .pure id

end DesignFile

/-! ## Sources -/

/-- In a source for which neither the lexer nor the parser reports an error, a declaration that is
kept as tokens closes as many parentheses as it opens, and at no semicolon inside has it done so
already. It is one declaration if and only if it never closes more than it has opened. -/
theorem raw_declarations_end_level (f : SourceFile) (all : List Diagnostic) (hall : f.Finds all)
    (hclean : ∀ d ∈ all, d.isError = false) (bag : Bag) (hbag : bag.items = []) {decls : List Decl}
    (hdecls : (f.parse bag).1.DeclarativePart decls) {trivia : RowTrivia} {tokens : List RawToken}
    (hraw : .raw trivia tokens ∈ decls) :
    RawToken.EndsLevel tokens ∧ (RawToken.IsOneDeclaration tokens ↔
      ∀ before, before <+: tokens → 0 ≤ RawToken.depth before) := by
  have hunits := hall.parse_gives hclean DesignFile.gives_parseTokens_ends hbag
  obtain ⟨hends, -⟩ := hdecls.each hunits _ hraw
  exact ⟨hends, hends.isOneDeclaration_iff⟩

/-- The tokens of a declaration that is kept as tokens. -/
def Decl.rawTokens? : Decl → Option (List RawToken)
  | .raw _ tokens => some tokens
  | _ => none

/-- The declarations of units that are kept as tokens. -/
def DesignFile.rawDeclarations (f : DesignFile) : List (List RawToken) :=
  (f.units.flatMap DesignUnit.decls).filterMap Decl.rawTokens?

theorem DesignFile.exists_raw {f : DesignFile} {tokens : List RawToken}
    (h : tokens ∈ f.rawDeclarations) :
    ∃ decls trivia, f.DeclarativePart decls ∧ .raw trivia tokens ∈ decls := by
  obtain ⟨d, hd, htokens⟩ := List.mem_filterMap.mp h
  obtain ⟨u, hu, hd⟩ := List.mem_flatMap.mp hd
  cases d with
  | raw trivia ts =>
      obtain rfl := Option.some.inj htokens
      exact ⟨u.decls, trivia, .unit hu, hd⟩
  | _ => simp [Decl.rawTokens?] at htokens

/-- A file declaration with parentheses is one declaration. -/
theorem raw_declarations_end_level_of_file :
    let f := SourceFile.ofBytes "a.vhd" "architecture r of e is
  file f : t(1 to 2) open (read) is n; signal s : bit; begin end architecture r;"
    let all := (f.parse (Bag.ofLimit 9)).2.items
    f.Finds all ∧ (∀ d ∈ all, d.isError = false) ∧
      ∃ decls trivia tokens, (f.parse (Bag.ofLimit 1)).1.DeclarativePart decls ∧
        .raw trivia tokens ∈ decls ∧ tokens.length = 15 ∧ RawToken.IsOneDeclaration tokens := by
  intro f all
  have hrun : (f.parse (Bag.ofLimit 9)).2.hasRoom = true ∧ (∀ d ∈ all, d.isError = false) ∧
      ∃ tokens ∈ (f.parse (Bag.ofLimit 1)).1.rawDeclarations, tokens.length = 15 ∧
        ∀ before ∈ tokens.inits, 0 ≤ RawToken.depth before := by decide +kernel
  obtain ⟨hroom, hclean, tokens, htokens, hlength, hnonneg⟩ := hrun
  have hall : f.Finds all := ⟨Bag.ofLimit 9, rfl, hroom, rfl⟩
  obtain ⟨decls, trivia, hdecls, hraw⟩ := DesignFile.exists_raw htokens
  obtain ⟨-, hone⟩ :=
    raw_declarations_end_level f all hall hclean (Bag.ofLimit 1) rfl hdecls hraw
  refine ⟨hall, hclean, decls, trivia, tokens, hdecls, hraw, hlength, hone.mpr ?_⟩
  exact fun before hbefore => hnonneg before ((List.mem_inits before tokens).mpr hbefore)

/-- A parenthesis that closes nothing makes a declaration take in the one that follows, and no error
is reported if a later one is left open. -/
theorem raw_declaration_takes_in_the_next :
    let f := SourceFile.ofBytes "a.vhd" "architecture a of e is
  group g );
  signal s : bit;
  group h (a;
begin
end a;
"
    let all := (f.parse (Bag.ofLimit 9)).2.items
    f.Finds all ∧ (∀ d ∈ all, d.isError = false) ∧
      ∃ (decls : List Decl) (trivia : RowTrivia) (tokens : List RawToken),
        (f.parse (Bag.ofLimit 9)).1.DeclarativePart decls ∧ .raw trivia tokens ∈ decls ∧
          (∃ t ∈ tokens, t.text = "signal") ∧ ¬RawToken.IsOneDeclaration tokens := by
  intro f all
  have hrun : (f.parse (Bag.ofLimit 9)).2.hasRoom = true ∧ (∀ d ∈ all, d.isError = false) ∧
      ∃ tokens ∈ (f.parse (Bag.ofLimit 9)).1.rawDeclarations, (∃ t ∈ tokens, t.text = "signal") ∧
        RawToken.depth (tokens.take 3) < 0 := by decide +kernel
  obtain ⟨hroom, hclean, tokens, htokens, hsignal, hbelow⟩ := hrun
  obtain ⟨decls, trivia, hdecls, hraw⟩ := DesignFile.exists_raw htokens
  have hall : f.Finds all := ⟨Bag.ofLimit 9, rfl, hroom, rfl⟩
  refine ⟨hall, hclean, decls, trivia, tokens, hdecls, hraw, hsignal, fun hone => ?_⟩
  have hnonneg := hone.nonneg (tokens.take 3) (List.take_prefix 3 tokens)
  omega

end VhdlStyle
