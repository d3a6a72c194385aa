import Mathlib.Data.List.Infix
import VhdlStyle.Proofs.Comments.Scanned
import VhdlStyle.Proofs.Diagnostics.Rejection
import VhdlStyle.Proofs.Lexing.Lossless

/-! # The faults of a source

The lexer reports one error for each invalid token and one for a block comment that has no end.
Such a comment runs on to the end of the file, so its error is the last one. -/

namespace VhdlStyle

/-! ## Tokens -/

namespace Lexeme

/-- Something is wrong with the lexeme exactly when it is invalid. -/
def Reported (l : Lexeme) : Prop := l.fault.isSome = (l.kind == .invalid)

theorem reported_of_sound {kind : Kind} (hkind : kind ≠ .invalid) (more : Nat) :
    Reported ⟨kind, more, none⟩ := by simp [Reported, hkind]

theorem reported_of_fault (more : Nat) (fault : Code × Bytes) :
    Reported ⟨.invalid, more, some fault⟩ := rfl

theorem quoted_reported {kind : Kind} (hkind : kind ≠ .invalid) (code : Code) (what : Bytes)
    (n : Nat) (body : Bytes) : (quoted kind code what n body).Reported := by
  unfold quoted
  split
  · exact reported_of_sound hkind _
  · exact reported_of_fault _ _
  · exact reported_of_fault _ _

theorem extended_reported (rest : Bytes) : (extended rest).Reported := by
  unfold extended
  split
  · exact reported_of_sound (by decide) _
  · exact reported_of_fault _ _

theorem keyword_ne_invalid (text : Bytes) : (Kind.ofKeyword? text).getD .ident ≠ .invalid := by
  have hwords : ∀ k ∈ Kind.keywords, k ≠ .invalid := by decide
  cases hfind : Kind.ofKeyword? text with
  | none => simp
  | some k =>
      rw [Kind.ofKeyword?] at hfind
      exact hwords k (List.mem_of_find?_eq_some hfind)

theorem word_reported (first : UInt8) (rest : Bytes) : (word first rest).Reported := by
  unfold word
  dsimp only
  split
  · split
    · exact quoted_reported (by decide) ..
    · exact reported_of_sound (keyword_ne_invalid _) _
  · exact reported_of_sound (keyword_ne_invalid _) _

theorem based_reported (n : Nat) (body : Bytes) : (based n body).Reported := by
  unfold based
  dsimp only
  split
  · split
    · exact reported_of_sound (by decide) _
    · exact reported_of_fault _ _
  · exact reported_of_fault _ _

theorem number_reported (rest : Bytes) : (number rest).Reported := by
  unfold number
  dsimp only
  split
  · exact reported_of_sound (by decide) _
  · split
    · exact based_reported _ _
    · split
      · exact reported_of_sound (by decide) _
      · split
        · split
          · exact quoted_reported (by decide) ..
          · exact reported_of_sound (by decide) _
        · exact reported_of_sound (by decide) _

theorem delimiter_reported (first : UInt8) (rest : Bytes) : (delimiter first rest).Reported := by
  have hkinds : ∀ entry ∈ delimiters, entry.2 ≠ Kind.invalid := by decide
  unfold delimiter
  split
  · rename_i text kind hfind
    exact reported_of_sound (hkinds _ (List.mem_of_find?_eq_some hfind)) _
  · exact reported_of_fault _ _

/-- Every rule of the lexer gives a fault with an invalid token and with no other one. -/
theorem scan_reported (previous : Kind) (first : UInt8) (rest : Bytes) :
    (scan previous first rest).Reported := by
  unfold scan
  split
  · exact word_reported first rest
  · split
    · exact extended_reported rest
    · split
      · exact number_reported rest
      · split
        · exact quoted_reported (by decide) ..
        · split
          · exact reported_of_sound (by decide) _
          · exact delimiter_reported first rest

end Lexeme

/-! ## Block comments -/

/-- What ends a block comment. -/
def Trivia.commentEnd : Bytes := "*/"

/-- The trivia is a block comment without an end. -/
def Trivia.isOpen (t : Trivia) : Bool :=
  t.kind == .blockComment && !decide (commentEnd <:+: t.text.drop 2)

namespace TriviaPiece

theorem blockBody_cons (b : UInt8) (rest : Bytes) (h : ¬ Trivia.commentEnd <+: b :: rest) :
    blockBody (b :: rest) = ((blockBody rest).1 + 1, (blockBody rest).2) := by
  have hend : (b == ('*' : UInt8) && rest.head? == some ('/' : UInt8)) = false := by
    by_contra hne
    simp only [Bool.not_eq_false, Bool.and_eq_true, beq_iff_eq] at hne
    obtain ⟨rfl, hhead⟩ := hne
    obtain ⟨rest', rfl⟩ := List.head?_eq_some_iff.mp hhead
    exact h ⟨rest', rfl⟩
  rw [blockBody, hend]
  rfl

/-- A body ends where the first end is, and without one it is all of the text. -/
theorem blockBody_spec (text : Bytes) :
    (blockBody text).2 = true ∧ Trivia.commentEnd <:+: text.take (blockBody text).1 ∨
      (blockBody text).2 = false ∧ (blockBody text).1 = text.length ∧
        ¬ Trivia.commentEnd <:+: text := by
  induction text with
  | nil => exact .inr ⟨rfl, rfl, by decide⟩
  | cons b rest ih =>
      by_cases hend : Trivia.commentEnd <+: b :: rest
      · obtain ⟨rest', hrest'⟩ := hend
        obtain ⟨rfl, rfl⟩ : b = ('*' : UInt8) ∧ rest = ('/' : UInt8) :: rest' := by
          have hcons : (('*' : UInt8) :: ('/' : UInt8) :: rest') = b :: rest := hrest'
          simpa [eq_comm] using hcons
        exact .inl ⟨rfl, [], [], rfl⟩
      · rw [blockBody_cons b rest hend]
        rcases ih with ⟨hclosed, hinfix⟩ | ⟨hopen, hlength, hnone⟩
        · refine .inl ⟨hclosed, ?_⟩
          rw [List.take_succ_cons]
          exact hinfix.trans (List.suffix_cons b _).isInfix
        · refine .inr ⟨hopen, by simp [hlength], ?_⟩
          rw [List.infix_cons_iff]
          exact not_or.mpr ⟨hend, hnone⟩

/-- A piece of trivia that is not closed is an open block comment up to the end of the text. -/
theorem scan?_isOpen {first : UInt8} {rest : Bytes} {piece : TriviaPiece}
    (h : scan? first rest = some piece) (span : Span) :
    Trivia.isOpen ⟨piece.kind, span, (first :: rest).take (piece.more + 1)⟩ = !piece.closed ∧
      (piece.closed = false → piece.more = rest.length) := by
  unfold scan? at h
  split at h
  · obtain rfl := Option.some.inj h
    exact ⟨rfl, by simp⟩
  · split at h
    · obtain rfl := Option.some.inj h
      exact ⟨rfl, by simp⟩
    · split at h
      · obtain rfl := Option.some.inj h
        exact ⟨rfl, by simp⟩
      · split at h
        · rename_i hopen
          obtain rfl := Option.some.inj h
          simp only [Bool.and_eq_true, beq_iff_eq] at hopen
          obtain ⟨rest', rfl⟩ := List.head?_eq_some_iff.mp hopen.2
          simp only [Trivia.isOpen, List.take_succ_cons, List.drop_succ_cons, List.drop_zero]
          rcases blockBody_spec rest' with ⟨hclosed, hinfix⟩ | ⟨hfalse, hlength, hnone⟩
          · simp [hclosed, hinfix]
          · simp [hfalse, hlength, hnone]
        · simp at h

end TriviaPiece

/-! ## Runs of the lexer -/

namespace Lexer

/-- Only the last trivia can be open, and then nothing comes behind it. -/
theorem triviaN_open (fuel : Nat) (lx : Lexer) :
    (∀ t ∈ (triviaN fuel lx).1.dropLast, t.isOpen = false) ∧
      ((triviaN fuel lx).2.2.rest ≠ [] → ∀ t ∈ (triviaN fuel lx).1, t.isOpen = false) := by
  induction fuel generalizing lx with
  | zero => simp [triviaN]
  | succ fuel ih =>
      rw [triviaN]
      split
      case h_1 => simp
      case h_2 first rest hrest =>
        split
        case h_1 => simp
        case h_2 piece hpiece =>
          obtain ⟨hopen, hmore⟩ := TriviaPiece.scan?_isOpen hpiece (lx.spanOf (piece.more + 1))
          obtain ⟨hlast, hend⟩ := ih (lx.skip (piece.more + 1))
          rw [← hrest] at hopen
          cases hclosed : piece.closed with
          | true =>
              rw [hclosed, Bool.not_true] at hopen
              refine ⟨fun t ht => ?_, fun hne => List.forall_mem_cons.mpr ⟨hopen, hend hne⟩⟩
              dsimp only at ht
              cases htail : (triviaN fuel (lx.skip (piece.more + 1))).1 with
              | nil => simp [htail] at ht
              | cons u us =>
                  rw [htail, List.dropLast_cons_of_ne_nil (List.cons_ne_nil u us)] at ht
                  rw [htail] at hlast
                  rcases List.mem_cons.mp ht with rfl | ht
                  · exact hopen
                  · exact hlast t ht
          | false =>
              have hnil : (lx.skip (piece.more + 1)).rest = [] := by
                simp [skip, hrest, hmore hclosed]
              have hstop : triviaN fuel (lx.skip (piece.more + 1)) =
                  ([], [], lx.skip (piece.more + 1)) := by
                cases fuel with
                | zero => rfl
                | succ fuel => rw [triviaN, hnil]
              simp [hstop, hnil]

/-- The faults of trivia are those of its open comments. -/
theorem triviaN_faults_eq (fuel : Nat) (lx : Lexer) :
    (triviaN fuel lx).2.1.map Diagnostic.span =
      ((triviaN fuel lx).1.filter Trivia.isOpen).map Trivia.span := by
  induction fuel generalizing lx with
  | zero => rfl
  | succ fuel ih =>
      rw [triviaN]
      split
      case h_1 => rfl
      case h_2 first rest hrest =>
        split
        case h_1 => rfl
        case h_2 piece hpiece =>
          obtain ⟨hopen, -⟩ := TriviaPiece.scan?_isOpen hpiece (lx.spanOf (piece.more + 1))
          rw [← hrest] at hopen
          have hrec := ih (lx.skip (piece.more + 1))
          cases hclosed : piece.closed <;> rw [hclosed] at hopen <;>
            simp [hopen, hrec, Diagnostic.ofError]

/-- In front of the end the last comment may be open, and it is the only fault. -/
theorem scanToken_faults_end {lx : Lexer} (h : lx.scanToken.1.kind = .eof) :
    (∀ t ∈ lx.scanToken.1.leading.dropLast, t.isOpen = false) ∧
      lx.scanToken.2.1.map Diagnostic.span =
        (lx.scanToken.1.leading.filter Trivia.isOpen).map Trivia.span := by
  have hopen := (triviaN_open lx.rest.length lx).1
  have hfaults := triviaN_faults_eq lx.rest.length lx
  unfold scanToken at h ⊢
  dsimp only [trivia] at h ⊢
  split at h
  · exact ⟨hopen, hfaults⟩
  · exact absurd h (Lexeme.scan_kind _ _ _)

/-- In front of a token all comments are closed, and the token is at fault when it is invalid. -/
theorem scanToken_faults_token {lx : Lexer} (h : lx.scanToken.1.kind ≠ .eof) :
    (∀ t ∈ lx.scanToken.1.leading, t.isOpen = false) ∧
      lx.scanToken.2.1.map Diagnostic.span =
        ([lx.scanToken.1].filter fun t => t.kind == .invalid).map Token.span := by
  have hopen := (triviaN_open lx.rest.length lx).2
  have hfaults := triviaN_faults_eq lx.rest.length lx
  unfold scanToken at h ⊢
  dsimp only [trivia] at h ⊢
  split at h
  · exact absurd rfl h
  · rename_i first rest hrest
    have hclosed := hopen (by simp [hrest])
    have hreported := Lexeme.scan_reported (triviaN lx.rest.length lx).2.2.previous first rest
    rw [List.filter_eq_nil_iff.mpr (by simpa using hclosed), List.map_nil,
      List.map_eq_nil_iff] at hfaults
    refine ⟨hclosed, ?_⟩
    unfold Lexeme.Reported at hreported
    rw [hfaults, List.filter_singleton, ← hreported, List.nil_append]
    cases (Lexeme.scan (triviaN lx.rest.length lx).2.2.previous first rest).fault <;>
      simp [Diagnostic.ofError]

theorem forall_mem_dropLast_append {α : Type} {P : α → Prop} {xs ys : List α} (hxs : ∀ x ∈ xs, P x)
    (hys : ∀ y ∈ ys.dropLast, P y) : ∀ x ∈ (xs ++ ys).dropLast, P x := by
  rw [List.dropLast_append]
  split
  · exact fun x hx => hxs x (List.mem_of_mem_dropLast hx)
  · exact List.forall_mem_append.mpr ⟨hxs, hys⟩

/-- The faults up to the end: one for each invalid token, and last one for an open comment. -/
theorem allN_faults_eq (fuel : Nat) (lx : Lexer) (hlook : lx.look = none) :
    let tokens := (allN fuel lx).1
    (∀ t ∈ (tokens.flatMap Token.leading).dropLast, t.isOpen = false) ∧
      (allN fuel lx).2.1.map Diagnostic.span =
        (tokens.filter fun t => t.kind == .invalid).map Token.span ++
          ((tokens.flatMap Token.leading).filter Trivia.isOpen).map Trivia.span := by
  induction fuel generalizing lx with
  | zero => simp [allN]
  | succ fuel ih =>
      have hnext : lx.next = lx.scanToken := by rw [next, hlook]
      rw [allN, hnext]
      by_cases hkind : lx.scanToken.1.kind = .eof
      · obtain ⟨hopen, hfaults⟩ := scanToken_faults_end hkind
        simpa [hkind] using ⟨hopen, hfaults⟩
      · obtain ⟨hclosed, hfaults⟩ := scanToken_faults_token hkind
        obtain ⟨hopen, hrest⟩ := ih _ (lx.scanToken_look.trans hlook)
        have hnone : lx.scanToken.1.leading.filter Trivia.isOpen = [] :=
          List.filter_eq_nil_iff.mpr (by simpa using hclosed)
        have htoken := List.filter_append (p := fun t => t.kind == .invalid)
          [lx.scanToken.1] (allN fuel lx.scanToken.2.2).1
        rw [List.singleton_append] at htoken
        simp only [beq_iff_eq, hkind, if_false, List.flatMap_cons]
        refine ⟨forall_mem_dropLast_append hclosed hopen, ?_⟩
        rw [List.map_append, hfaults, hrest, List.filter_append, hnone, List.nil_append, htoken,
          List.map_append, List.append_assoc]

end Lexer

/-! ## Faults of files -/

theorem filter_eq_of_dropLast {α : Type} {p : α → Bool} {xs : List α}
    (h : ∀ x ∈ xs.dropLast, p x = false) : xs.filter p = (xs.getLast?.filter p).toList := by
  rcases List.eq_nil_or_concat' xs with rfl | ⟨init, last, rfl⟩
  · rfl
  · rw [List.dropLast_concat] at h
    rw [List.filter_append, List.filter_eq_nil_iff.mpr (by simpa using h), List.nil_append,
      List.getLast?_concat]
    cases hlast : p last <;> simp [Option.filter, hlast]

namespace SourceFile

/-- The block comment that runs on to the end of the file. -/
def openComment? (f : SourceFile) : Option Trivia :=
  (f.tokens.1.flatMap Token.leading).getLast?.filter Trivia.isOpen

/-- The lexer reports each invalid token and the open comment once, in the order of the source, and
nothing else; no comment but the one the file ends in is open. -/
structure FaultsListed (f : SourceFile) : Prop where
  errors : ∀ d ∈ f.tokens.2, d.isError = true
  spans : f.tokens.2.map Diagnostic.span =
    (f.tokens.1.filter fun t => t.kind == .invalid).map Token.span ++
      f.openComment?.toList.map Trivia.span
  others_closed : (f.tokens.1.flatMap Token.leading).filter Trivia.isOpen = f.openComment?.toList
  at_end : ∀ c ∈ f.openComment?, c.text <:+ f.content

theorem tokens_faults_eq (f : SourceFile) :
    (∀ t ∈ (f.tokens.1.flatMap Token.leading).dropLast, t.isOpen = false) ∧
      f.tokens.2.map Diagnostic.span =
        (f.tokens.1.filter fun t => t.kind == .invalid).map Token.span ++
          ((f.tokens.1.flatMap Token.leading).filter Trivia.isOpen).map Trivia.span :=
  Lexer.allN_faults_eq (f.content.length + 2) (Lexer.ofFile f) rfl

theorem filter_isOpen_eq (f : SourceFile) :
    (f.tokens.1.flatMap Token.leading).filter Trivia.isOpen = f.openComment?.toList :=
  filter_eq_of_dropLast f.tokens_faults_eq.1

/-- The open comment stands in front of the end token, as the last trivia of the file. -/
theorem exists_end_of_open {f : SourceFile} {c : Trivia} (hc : c ∈ f.openComment?) :
    ∃ init last before, f.tokens.1 = init ++ [last] ∧ last.text = [] ∧
      last.leading = before ++ [c] := by
  obtain ⟨init, last, htokens, hlast, hinit⟩ := f.tokens_ended
  have htext : last.text = [] :=
    f.forall_tokens (P := fun t => t.kind = .eof → t.text = []) Lexer.scanToken_eof last
      (by simp [htokens]) hlast
  have hclosed : ∀ t ∈ init.flatMap Token.leading, t.isOpen = false := by
    intro tr htr
    obtain ⟨t, ht, htr⟩ := List.mem_flatMap.mp htr
    have hfront : ∀ tr ∈ t.leading, tr.isOpen = false :=
      f.forall_tokens (P := fun t => t.kind ≠ .eof → ∀ tr ∈ t.leading, tr.isOpen = false)
        (fun lx hkind => (Lexer.scanToken_faults_token hkind).1) t (by simp [htokens, ht])
        (hinit t ht)
    exact hfront tr htr
  obtain ⟨hget, hopen⟩ := Option.filter_eq_some_iff.mp hc
  rw [htokens, List.flatMap_append, List.flatMap_singleton] at hget
  rcases List.eq_nil_or_concat' last.leading with hnil | ⟨before, d, hconcat⟩
  · rw [hnil, List.append_nil] at hget
    exact absurd hopen (by simp [hclosed c (List.mem_of_getLast? hget)])
  · rw [hconcat, ← List.append_assoc, List.getLast?_concat] at hget
    obtain rfl := Option.some.inj hget
    exact ⟨init, last, before, htokens, htext, hconcat⟩

theorem openComment_suffix {f : SourceFile} (hlength : f.content.length ≤ 2 ^ 32 - 4) {c : Trivia}
    (hc : c ∈ f.openComment?) : c.text <:+ f.content := by
  obtain ⟨init, last, before, htokens, htext, hleading⟩ := exists_end_of_open hc
  have hcontent := (tokens_lossless f hlength).1.content_eq
  rw [htokens, List.flatMap_append, List.flatMap_singleton, Token.fullText, hleading, htext,
    List.append_nil, List.flatMap_append, List.flatMap_singleton, ← List.append_assoc] at hcontent
  exact ⟨_, hcontent⟩

theorem faultsListed (f : SourceFile) (hlength : f.content.length ≤ 2 ^ 32 - 4) :
    f.FaultsListed where
  errors := f.tokens_faults
  spans := by
    rw [← f.filter_isOpen_eq]
    exact f.tokens_faults_eq.2
  others_closed := f.filter_isOpen_eq
  at_end := fun _ hc => openComment_suffix hlength hc

/-- The file has an invalid token or ends in a block comment. -/
def Broken (f : SourceFile) : Prop :=
  (∃ t ∈ f.tokens.1, t.kind = .invalid) ∨ f.openComment?.isSome = true

/-- A fault in a token is the first thing that is reported. -/
theorem tokens_clean_of_parse {f : SourceFile} {bag : Bag} (hbag : bag.items = []) (hroom : 0 < bag.limit)
    (hclean : (f.parse bag).2.hasErrors = false) : f.tokens.2 = [] := by
  obtain ⟨design, w, ds, -, hparse⟩ := f.exists_run
  rw [hparse bag hbag] at hclean
  cases hfaults : f.tokens.2 with
  | nil => rfl
  | cons d rest =>
      have herror : d.isError = true := f.tokens_faults d (by simp [hfaults])
      obtain ⟨n, hn⟩ := Nat.exists_eq_succ_of_ne_zero hroom.ne'
      simp [Bag.hasErrors, hfaults, hn, herror] at hclean

theorem Broken.faults_ne_nil {f : SourceFile} (h : f.Broken) : f.tokens.2 ≠ [] := by
  intro hnil
  have hspans := f.tokens_faults_eq.2
  rw [hnil, f.filter_isOpen_eq, List.map_nil, eq_comm, List.append_eq_nil_iff, List.map_eq_nil_iff,
    List.map_eq_nil_iff] at hspans
  obtain ⟨hvalid, hclosed⟩ := hspans
  rcases h with ⟨t, ht, hkind⟩ | hopen
  · simpa [hkind] using List.filter_eq_nil_iff.mp hvalid t ht
  · simp [Option.toList_eq_nil_iff.mp hclosed] at hopen

/-- What the lexer reports comes first, so no bag is too small for it. -/
theorem Broken.hasErrors {f : SourceFile} (h : f.Broken) (limit : Int) :
    (f.parse (Bag.ofLimit limit)).2.hasErrors = true := by
  have hroom : 0 < (Bag.ofLimit limit).limit := by
    simp only [Bag.ofLimit]
    split <;> omega
  by_contra hclean
  exact h.faults_ne_nil (tokens_clean_of_parse rfl hroom (by simpa using hclean))

end SourceFile

/-- Every fault that the lexer finds is reported, once and in order, and a file with one is never
formatted, whatever room there is for diagnostics. -/
theorem lexical_errors_are_reported (f : SourceFile) (hlength : f.content.length ≤ 2 ^ 32 - 4) :
    f.FaultsListed ∧
      (f.Broken → ∀ limit : Int,
        (∀ s : Settings, (f.format s (Bag.ofLimit limit)).1 = .error .syntaxErrors) ∧
        ∀ (o : RunOptions) (now : Instant) (path data : Bytes) (d : Disk),
          f = Job.fileOf path data → o.diagnosticLimit = limit → o.isCached d data = false →
            Job.Refused data (Job.formatText o now path data d).1) := by
  refine ⟨f.faultsListed hlength, fun hbroken limit => ⟨?_, ?_⟩⟩
  · intro s
    exact (f.format_eq_syntaxErrors_iff s _).mpr (hbroken.hasErrors limit)
  · rintro o now path data d rfl rfl hcache
    exact (Job.formatText_refused_iff o now path data d hcache).mpr (hbroken.hasErrors _)

/-- An unknown character, a string without an end and a comment without an end, under a limit of
less than one. -/
theorem lexical_errors_are_reported_of_three :
    let data : Bytes := "a $ \"b\n/* c"
    let f := Job.fileOf "a.vhd" data
    f.content.length ≤ 2 ^ 32 - 4 ∧ f.FaultsListed ∧ f.Broken ∧
      (f.format {} (Bag.ofLimit 0)).1 = .error .syntaxErrors ∧
      Job.Refused data (Job.formatText { diagnosticLimit := 0 } default "a.vhd" data {}).1 := by
  intro data f
  have hlength : f.content.length ≤ 2 ^ 32 - 4 := by decide +kernel
  have hbroken : f.Broken := .inr (by decide +kernel)
  obtain ⟨hlisted, hrefused⟩ := lexical_errors_are_reported f hlength
  obtain ⟨hformat, hjob⟩ := hrefused hbroken 0
  exact ⟨hlength, hlisted, hbroken, hformat {}, hjob _ default "a.vhd" data {} rfl rfl rfl⟩

end VhdlStyle
