import Mathlib.Algebra.GroupWithZero.Nat
import VhdlStyle.Proofs.Lexing.Extent
import VhdlStyle.Proofs.Parsing.Progress
import VhdlStyle.Token.Invariant

/-! # Lexing is lossless

The tokens of a file with the trivia in front of them tile its content: each starts where the one
before it ends, the first at the start and the last, the end token, at the end. -/

namespace VhdlStyle

/-! ## Tilings -/

/-- The trivia of a token and the token itself, as texts under spans. -/
def Token.parts (t : Token) : List (Span × Bytes) :=
  t.leading.map (fun trivia => (trivia.span, trivia.text)) ++ [(t.span, t.text)]

/-- The parts lie in the content of the file one after the other, from offset `start` up to offset
`stop`. -/
inductive SourceFile.Tiled (f : SourceFile) : Nat → List (Span × Bytes) → Nat → Prop where
  | nil (offset : Nat) : Tiled f offset [] offset
  | cons {start stop : Nat} {span : Span} {text : Bytes} {parts : List (Span × Bytes)}
      (hfile : span.file = f.id) (hstart : span.start.toNat = start)
      (hstop : span.stop.toNat = start + text.length) (htext : text <+: f.content.drop start)
      (hrest : Tiled f (start + text.length) parts stop) :
      Tiled f start ((span, text) :: parts) stop

namespace SourceFile.Tiled

variable {f : SourceFile} {start mid stop : Nat} {xs ys : List (Span × Bytes)}

theorem append (hxs : f.Tiled start xs mid) (hys : f.Tiled mid ys stop) :
    f.Tiled start (xs ++ ys) stop := by
  induction hxs with
  | nil => exact hys
  | cons hfile hstart hstop htext _ ih => exact .cons hfile hstart hstop htext (ih hys)

theorem of_append (h : f.Tiled start (xs ++ ys) stop) :
    ∃ mid, f.Tiled start xs mid ∧ f.Tiled mid ys stop := by
  induction xs generalizing start with
  | nil => exact ⟨start, .nil start, h⟩
  | cons x xs ih =>
      cases h with
      | cons hfile hstart hstop htext hrest =>
          obtain ⟨mid, hxs, hys⟩ := ih hrest
          exact ⟨mid, .cons hfile hstart hstop htext hxs, hys⟩

theorem le (h : f.Tiled start xs stop) : start ≤ stop := by
  induction h with
  | nil => exact Nat.le_refl _
  | cons _ _ _ _ _ ih => omega

theorem stop_eq {span : Span} {text : Bytes} (h : f.Tiled start [(span, text)] stop) :
    span.stop.toNat = stop := by
  cases h with
  | cons _ _ hstop _ hrest =>
      cases hrest
      exact hstop

/-- The texts of a tiling are the content between its ends. -/
theorem texts_eq (h : f.Tiled start xs stop) :
    xs.flatMap Prod.snd ++ f.content.drop stop = f.content.drop start := by
  induction h with
  | nil => rfl
  | cons _ _ _ htext _ ih =>
      obtain ⟨rest, hrest⟩ := htext
      rw [List.flatMap_cons, List.append_assoc, ih, ← List.drop_drop, ← hrest, List.drop_left]

end SourceFile.Tiled

/-! ## Places in a source -/

/-- The lexer stands in the content of the file. -/
structure Lexer.Within (f : SourceFile) (lx : Lexer) : Prop where
  file : lx.file = f.id
  bound : lx.offset ≤ f.content.length
  rest : lx.rest = f.content.drop lx.offset

namespace Lexer

variable {f : SourceFile} {lx : Lexer}

theorem within_ofFile (f : SourceFile) : Within f (ofFile f) := ⟨rfl, Nat.zero_le _, rfl⟩

theorem Within.length (h : Within f lx) : lx.offset + lx.rest.length = f.content.length := by
  have hbound := h.bound
  rw [h.rest, List.length_drop]
  omega

theorem Within.skip (h : Within f lx) {n : Nat} (hn : n ≤ lx.rest.length) :
    Within f (lx.skip n) := by
  have hlength := h.length
  refine ⟨h.file, ?_, ?_⟩
  · simp only [Lexer.skip]
    omega
  · simp only [Lexer.skip, h.rest, List.drop_drop]

/-- The next bytes are a tile. -/
theorem Within.tile (h : Within f lx) (hshort : f.content.length < 2 ^ 32) {n : Nat}
    (hn : n ≤ lx.rest.length) : f.Tiled lx.offset [(lx.spanOf n, lx.rest.take n)] (lx.offset + n) := by
  have hlength := h.length
  have htake : (lx.rest.take n).length = n := List.length_take_of_le hn
  have hstart : (UInt32.ofNat lx.offset).toNat = lx.offset :=
    UInt32.toNat_ofNat_of_lt' (by simp [UInt32.size]; omega)
  have hstop : (UInt32.ofNat (lx.offset + n)).toNat = lx.offset + n :=
    UInt32.toNat_ofNat_of_lt' (by simp [UInt32.size]; omega)
  refine .cons h.file hstart ?_ ?_ ?_
  · rw [htake]
    exact hstop
  · rw [← h.rest]
    exact List.take_prefix n lx.rest
  · rw [htake]
    exact .nil _

/-- Trivia is tiled by its pieces, none of which is empty. -/
theorem triviaN_tiled (h : Within f lx) (hshort : f.content.length < 2 ^ 32) (fuel : Nat) :
    Within f (triviaN fuel lx).2.2 ∧
      f.Tiled lx.offset ((triviaN fuel lx).1.map fun trivia => (trivia.span, trivia.text))
        (triviaN fuel lx).2.2.offset ∧
      ∀ trivia ∈ (triviaN fuel lx).1, trivia.text ≠ [] := by
  induction fuel generalizing lx with
  | zero => exact ⟨h, .nil _, by simp [triviaN]⟩
  | succ fuel ih =>
      have hstay : Within f lx ∧ f.Tiled lx.offset [] lx.offset ∧
          ∀ trivia ∈ ([] : List Trivia), trivia.text ≠ [] := ⟨h, .nil _, by simp⟩
      rw [triviaN]
      split
      case h_1 => exact hstay
      case h_2 first rest hrest =>
        split
        case h_1 => exact hstay
        case h_2 piece hpiece =>
          have hmore : piece.more + 1 ≤ lx.rest.length := by
            have hle := TriviaPiece.scan?_le hpiece
            rw [hrest, List.length_cons]
            omega
          obtain ⟨hwithin, htiled, hnonempty⟩ := ih (h.skip hmore)
          refine ⟨hwithin, (h.tile hshort hmore).append htiled, ?_⟩
          intro trivia htrivia
          rcases List.mem_cons.mp htrivia with rfl | htrivia
          · simp [hrest]
          · exact hnonempty trivia htrivia

/-- A token with its trivia tiles what the lexer passes over; only the end token is empty, and it
stands at the end. -/
theorem scanToken_tiled (h : Within f lx) (hshort : f.content.length < 2 ^ 32) :
    Within f lx.scanToken.2.2 ∧ f.Tiled lx.offset lx.scanToken.1.parts lx.scanToken.2.2.offset ∧
      (∀ trivia ∈ lx.scanToken.1.leading, trivia.text ≠ []) ∧
      (lx.scanToken.1.kind = .eof ∧ lx.scanToken.2.2.rest = [] ∨
        lx.scanToken.1.kind ≠ .eof ∧ lx.scanToken.1.text ≠ []) := by
  obtain ⟨hwithin, htiled, hnonempty⟩ := triviaN_tiled h hshort lx.rest.length
  rcases htrivia : triviaN lx.rest.length lx with ⟨leading, faults, after⟩
  simp only [htrivia] at hwithin htiled hnonempty
  simp only [scanToken, trivia, htrivia]
  split
  case h_1 hrest =>
    have hend := hwithin.tile hshort (Nat.zero_le _)
    exact ⟨⟨hwithin.file, hwithin.bound, hwithin.rest⟩, htiled.append hend, hnonempty,
      .inl ⟨rfl, hrest⟩⟩
  case h_2 first rest hrest =>
    have hmore : (Lexeme.scan after.previous first rest).more + 1 ≤ after.rest.length := by
      have hle := Lexeme.scan_le after.previous first rest
      rw [hrest, List.length_cons]
      omega
    have hnext := hwithin.skip hmore
    refine ⟨⟨hnext.file, hnext.bound, hnext.rest⟩, htiled.append (hwithin.tile hshort hmore),
      hnonempty, .inr ⟨Lexeme.scan_kind _ _ _, ?_⟩⟩
    simp [hrest]

/-- The tokens of the rest of a source tile it. -/
theorem allN_tiled (h : Within f lx) (hshort : f.content.length < 2 ^ 32) (fuel : Nat)
    (hlook : lx.look = none) (hfuel : lx.rest.length < fuel) :
    f.Tiled lx.offset ((allN fuel lx).1.flatMap Token.parts) f.content.length ∧
      ∀ t ∈ (allN fuel lx).1, (t.kind ≠ .eof → t.text ≠ []) ∧
        ∀ trivia ∈ t.leading, trivia.text ≠ [] := by
  induction fuel generalizing lx with
  | zero => exact absurd hfuel (Nat.not_lt_zero _)
  | succ fuel ih =>
      obtain ⟨hwithin, htiled, hnonempty, hkind⟩ := scanToken_tiled h hshort
      have hnext : lx.next = lx.scanToken := by rw [next, hlook]
      rw [allN, hnext]
      rcases hkind with ⟨hend, hrest⟩ | ⟨hkind, htext⟩
      · have hstop : lx.scanToken.2.2.offset = f.content.length := by
          simpa [hrest] using hwithin.length
        rw [hstop] at htiled
        simp only [hend, beq_self_eq_true, if_true]
        refine ⟨by simpa using htiled, ?_⟩
        intro t ht
        rw [List.mem_singleton.mp ht]
        exact ⟨fun hne => absurd hend hne, hnonempty⟩
      · have hlength := lx.scanToken_length hkind
        obtain ⟨hrest, htexts⟩ := ih hwithin (lx.scanToken_look.trans hlook) (by omega)
        simp only [beq_iff_eq, hkind, if_false]
        refine ⟨htiled.append hrest, ?_⟩
        intro t ht
        rcases List.mem_cons.mp ht with rfl | ht
        · exact ⟨fun _ => htext, hnonempty⟩
        · exact htexts t ht

/-! ## Calls of the lexer -/

/-- The ways to ask a lexer for a token. -/
inductive Call where
  | peek
  | next
  deriving DecidableEq

/-- The tokens that calls take from the lexer. -/
def taken : List Call → Lexer → List Token
  | [], _ => []
  | .peek :: calls, lx => taken calls lx.peek.2.2
  | .next :: calls, lx => lx.next.1 :: taken calls lx.next.2.2

/-- A token looked at is still the next one, and the lexer goes on from the same place. -/
theorem next_peek (lx : Lexer) :
    lx.peek.2.2.next.1 = lx.next.1 ∧ lx.peek.2.2.next.2.2 = lx.next.2.2 := by
  have hlook := lx.scanToken_look
  cases h : lx.look with
  | some token => simp [peek, next, h]
  | none =>
      rw [h] at hlook
      simp only [peek, next, h, true_and]
      rw [← hlook]

theorem taken_replicate_peek (n : Nat) (lx : Lexer) :
    taken (List.replicate n .next) lx.peek.2.2 = taken (List.replicate n .next) lx := by
  cases n with
  | zero => rfl
  | succ n =>
      obtain ⟨htoken, hplace⟩ := next_peek lx
      rw [List.replicate_succ, taken, taken, htoken, hplace]

/-- Looking ahead changes nothing about the tokens taken. -/
theorem taken_eq (calls : List Call) (lx : Lexer) :
    taken calls lx = taken (List.replicate (calls.count .next) .next) lx := by
  induction calls generalizing lx with
  | nil => rfl
  | cons call calls ih =>
      cases call with
      | peek => rw [taken, ih, taken_replicate_peek, List.count_cons_of_ne (by decide)]
      | next => rw [taken, ih, List.count_cons_self, List.replicate_succ, taken]

end Lexer

/-- The end token of a file without trivia. -/
def SourceFile.endToken (f : SourceFile) : Token :=
  ⟨.eof, .point f.id (UInt32.ofNat f.content.length), [], []⟩

namespace Lexer

variable {f : SourceFile} {lx : Lexer}

/-- At the end of the source the end token comes again and again. -/
theorem taken_end (h : Within f lx) (hlook : lx.look = none) (hrest : lx.rest = []) (n : Nat) :
    taken (List.replicate n .next) lx = List.replicate n f.endToken := by
  induction n generalizing lx with
  | zero => rfl
  | succ n ih =>
      have hoffset : lx.offset = f.content.length := by simpa [hrest] using h.length
      have hnext : lx.next = (f.endToken, [], { lx with previous := .eof }) := by
        simp [next, hlook, scanToken, trivia, triviaN, hrest, SourceFile.endToken, spanOf,
          Span.point, h.file, hoffset]
      rw [List.replicate_succ, List.replicate_succ, taken, hnext]
      exact congrArg _ (ih ⟨h.file, h.bound, h.rest⟩ hlook hrest)

/-- Taking tokens one by one gives those of the whole source, and then end tokens. -/
theorem taken_allN (h : Within f lx) (hshort : f.content.length < 2 ^ 32) (fuel : Nat)
    (hlook : lx.look = none) (hfuel : lx.rest.length < fuel) {n m : Nat} (hm : n ≤ m) :
    taken (List.replicate n .next) lx =
      ((allN fuel lx).1 ++ List.replicate m f.endToken).take n := by
  induction fuel generalizing lx n with
  | zero => exact absurd hfuel (Nat.not_lt_zero _)
  | succ fuel ih =>
      cases n with
      | zero => rfl
      | succ n =>
          obtain ⟨hwithin, -, -, hkind⟩ := scanToken_tiled h hshort
          have hnext : lx.next = lx.scanToken := by rw [next, hlook]
          have hlook' := lx.scanToken_look.trans hlook
          rw [List.replicate_succ, taken, allN, hnext]
          rcases hkind with ⟨hend, hrest⟩ | ⟨hkind, -⟩
          · simp only [hend, beq_self_eq_true, if_true]
            rw [taken_end hwithin hlook' hrest]
            rw [List.singleton_append, List.take_succ_cons, List.take_replicate,
              Nat.min_eq_left (by omega)]
          · have hlength := lx.scanToken_length hkind
            have hrec := ih hwithin hlook' (by omega) (Nat.le_of_succ_le hm)
            simp only [beq_iff_eq, hkind, if_false]
            rw [hrec, List.cons_append, List.take_succ_cons]

end Lexer

/-! ## The check of a token stream -/

namespace SourceFile

variable {f : SourceFile}

/-- A tile at the place where the last one ended passes the check. -/
theorem checkPiece_tile {start stop : Nat} {span : Span} {text : Bytes} {previous : UInt32}
    (h : f.Tiled start [(span, text)] stop) (hstop : stop ≤ f.content.length)
    (hprevious : previous.toNat = start) (what : Bytes) :
    f.checkPiece what span text previous = .ok span.stop ∧ span.stop.toNat = stop := by
  refine ⟨?_, h.stop_eq⟩
  cases h with
  | cons hfile hstart hend htext hrest =>
      cases hrest
      have hslice : span.slice? f.content = some text := by
        have hinside : ¬ (span.start > span.stop ∨ span.stop.toNat > f.content.length) := by
          rw [gt_iff_lt, UInt32.lt_iff_toNat_lt]
          omega
        have htake : (f.content.drop start).take text.length = text :=
          List.prefix_iff_eq_take.mp htext |>.symm
        rw [Span.slice?, if_neg (by simpa using hinside), hstart, hend, Nat.add_sub_cancel_left,
          htake]
      have hforward : ¬ span.start < previous := by
        rw [UInt32.lt_iff_toNat_lt]
        omega
      rw [checkPiece]
      simp [hfile, hslice, hforward]

theorem checkTrivia_tiles {start stop : Nat} {trivia : List Trivia} {previous : UInt32}
    (h : f.Tiled start (trivia.map fun t => (t.span, t.text)) stop)
    (hstop : stop ≤ f.content.length) (hprevious : previous.toNat = start) :
    ∃ reached, trivia.foldlM (fun p t => f.checkPiece "trivia" t.span t.text p) previous =
      Except.ok (ε := StreamFault) reached ∧ reached.toNat = stop := by
  induction trivia generalizing start previous with
  | nil =>
      cases h
      exact ⟨previous, rfl, hprevious⟩
  | cons t trivia ih =>
      have hsplit : f.Tiled start ([(t.span, t.text)] ++ _) stop := h
      obtain ⟨mid, hfirst, hrest⟩ := hsplit.of_append
      obtain ⟨hcheck, hmid⟩ :=
        checkPiece_tile hfirst (Nat.le_trans hrest.le hstop) hprevious "trivia"
      obtain ⟨reached, hfold, hreached⟩ := ih hrest hmid
      refine ⟨reached, ?_, hreached⟩
      rw [List.foldlM_cons, hcheck]
      exact hfold

theorem checkToken_tiles {start stop : Nat} {t : Token} {previous : UInt32}
    (h : f.Tiled start t.parts stop) (hstop : stop ≤ f.content.length)
    (hprevious : previous.toNat = start) :
    f.checkToken t previous = .ok t.span.stop ∧ t.span.stop.toNat = stop := by
  obtain ⟨mid, htrivia, htoken⟩ := h.of_append
  obtain ⟨reached, hfold, hreached⟩ :=
    checkTrivia_tiles htrivia (Nat.le_trans htoken.le hstop) hprevious
  obtain ⟨hcheck, hend⟩ := checkPiece_tile htoken hstop hreached t.kind.name
  refine ⟨?_, hend⟩
  rw [checkToken, hfold]
  exact hcheck

/-- Tokens that tile the file up to its end pass the check. -/
theorem checkFrom_tiles {start : Nat} {tokens : List Token} {previous : UInt32}
    (hended : Token.Ended tokens) (h : f.Tiled start (tokens.flatMap Token.parts) f.content.length)
    (hprevious : previous.toNat = start) (length i : Nat) :
    f.checkFrom length i previous tokens = .ok () := by
  induction tokens generalizing start previous i with
  | nil => rfl
  | cons t rest ih =>
      obtain ⟨mid, htoken, hrest⟩ := h.of_append
      obtain ⟨hcheck, hstop⟩ := checkToken_tiles htoken hrest.le hprevious
      have hcontinue : f.checkFrom length (i + 1) t.span.stop rest = .ok () := by
        rcases hended.of_cons with ⟨-, rfl⟩ | ⟨-, hended⟩
        · rfl
        · exact ih hended hrest hstop (i + 1)
      have hend : (t.kind == .eof && !rest.isEmpty) = false := by
        rcases hended.of_cons with ⟨-, rfl⟩ | ⟨hkind, -⟩
        · simp
        · simp [hkind]
      rw [checkFrom, hend, hcheck]
      exact hcontinue

theorem checkTokens_tiles {tokens : List Token} (hended : Token.Ended tokens)
    (h : f.Tiled 0 (tokens.flatMap Token.parts) f.content.length) :
    f.checkTokens tokens = .ok () := by
  have hfrom := checkFrom_tiles hended h UInt32.toNat_zero tokens.length 0
  obtain ⟨init, last, rfl, hlast, -⟩ := hended
  rw [List.flatMap_append] at h
  obtain ⟨mid, -, hend⟩ := h.of_append
  rw [List.flatMap_singleton] at hend
  obtain ⟨mid', -, hend⟩ := hend.of_append
  rw [checkTokens, List.getLast?_append]
  simp only [List.getLast?_singleton, Option.some_or]
  rw [hfrom]
  simp [hlast, hend.stop_eq]

end SourceFile

/-! ## Token streams that hold their file -/

/-- The tokens hold all of the file: one end token at the end, texts that make up the content,
spans that tile it, nothing empty but the end token, and the check of the stream accepts them. -/
structure SourceFile.Lossless (f : SourceFile) (tokens : List Token) : Prop where
  ended : Token.Ended tokens
  content_eq : tokens.flatMap Token.fullText = f.content
  tiled : f.Tiled 0 (tokens.flatMap Token.parts) f.content.length
  nonempty : ∀ t ∈ tokens, (t.kind ≠ .eof → t.text ≠ []) ∧
    ∀ trivia ∈ t.leading, trivia.text ≠ []
  accepted : f.checkTokens tokens = .ok ()

theorem Token.flatMap_parts (tokens : List Token) :
    (tokens.flatMap parts).flatMap Prod.snd = tokens.flatMap fullText := by
  rw [List.flatMap_assoc]
  congr 1
  funext t
  simp [parts, fullText, List.flatMap_map]

/-- Lexing is lossless, and however tokens are looked at before they are taken, those taken are
the tokens of the file and then end tokens. -/
theorem tokens_lossless (f : SourceFile) (hlength : f.content.length ≤ 2 ^ 32 - 4) :
    f.Lossless f.tokens.1 ∧ ∀ calls : List Lexer.Call,
      (Lexer.ofFile f).taken calls =
        (f.tokens.1 ++ List.replicate calls.length f.endToken).take (calls.count .next) := by
  have hshort : f.content.length < 2 ^ 32 := by omega
  have hfuel : (Lexer.ofFile f).rest.length < f.content.length + 2 :=
    Nat.lt_add_of_pos_right Nat.zero_lt_two
  obtain ⟨htiled, hnonempty⟩ :=
    Lexer.allN_tiled (Lexer.within_ofFile f) hshort (f.content.length + 2) rfl hfuel
  have hended := f.tokens_ended
  refine ⟨⟨hended, ?_, htiled, hnonempty, SourceFile.checkTokens_tiles hended htiled⟩, ?_⟩
  · have htexts := htiled.texts_eq
    rw [List.drop_length, List.append_nil] at htexts
    rw [← Token.flatMap_parts]
    exact htexts
  · intro calls
    rw [Lexer.taken_eq]
    exact Lexer.taken_allN (Lexer.within_ofFile f) hshort _ rfl hfuel List.count_le_length

/-- A comment, a byte outside ASCII, a zero byte and a string without its end are all kept. -/
theorem tokens_lossless_broken_source :
    let f : SourceFile := ⟨3, "f.vhd", List.flatten ["-- c\n x'1", [0, 0xC3, 0xA4], "8x\"f/*"], {}⟩
    f.content.length ≤ 2 ^ 32 - 4 ∧ f.Lossless f.tokens.1 ∧
      (Lexer.ofFile f).taken [.next, .peek, .peek, .next] =
        (f.tokens.1 ++ List.replicate 4 f.endToken).take 2 := by
  intro f
  have hlength : f.content.length ≤ 2 ^ 32 - 4 := by decide
  obtain ⟨hlossless, htaken⟩ := tokens_lossless f hlength
  exact ⟨hlength, hlossless, htaken [.next, .peek, .peek, .next]⟩

end VhdlStyle
