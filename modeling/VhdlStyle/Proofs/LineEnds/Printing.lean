import VhdlStyle.Proofs.Comments.Written
import VhdlStyle.Proofs.LineEnds.Tidy

/-! # Carriage returns in print

Printing makes up no carriage return at the end of a line: where one is written, it stands inside
a comment of the source, at the end of the same line. -/

namespace VhdlStyle

open Bytes

namespace Bytes

variable {n : Nat} {s : Bytes}

theorem returnsAtEnd_of_blank (n : Nat) (h : ∀ b ∈ s, Writer.isBlank b = true) :
    returnsAtEnd n s = n := by
  induction s with
  | nil => rfl
  | cons b s ih =>
      rw [List.forall_mem_cons] at h
      rw [returnsAtEnd_cons, returnsAfter_blank n h.1, ih h.2]

/-- Blanks at the end do not count. -/
theorem returnsAtEnd_trimRight (n : Nat) (s : Bytes) :
    returnsAtEnd n (trimRight Writer.isBlank s) = returnsAtEnd n s := by
  have hblank : ∀ b ∈ s.rtakeWhile Writer.isBlank, Writer.isBlank b = true :=
    fun b hb => List.mem_rtakeWhile_imp hb
  conv_rhs => rw [← Writer.trimRight_append s, returnsAtEnd_append, returnsAtEnd_of_blank _ hblank]

/-- Texts that do not end in carriage returns, one behind the other. -/
theorem lineReturns_flatten {texts : List Bytes} (h : ∀ s ∈ texts, returnsAtEnd 0 s = 0) :
    lineReturns 0 texts.flatten = texts.flatMap (lineReturns 0) := by
  induction texts with
  | nil => rfl
  | cons s texts ih =>
      rw [List.forall_mem_cons] at h
      rw [List.flatten_cons, lineReturns_append, h.1, ih h.2, List.flatMap_cons]

end Bytes

namespace Piece

/-- The blanks that are trimmed from the lines of a text do not count. -/
theorem returns_lines (n : Nat) {first : Bytes} {rest : List Bytes} (hfirst : lf ∉ first)
    (hrest : ∀ line ∈ rest, lf ∉ line) :
    let trimmed := trimRight Writer.isBlank first ++
      rest.flatMap fun line => lf :: trimRight Writer.isBlank line
    let plain := first ++ rest.flatMap (lf :: ·)
    lineReturns n trimmed = lineReturns n plain ∧ returnsAtEnd n trimmed = returnsAtEnd n plain := by
  have htrim {line : Bytes} (hline : lf ∉ line) : lf ∉ trimRight Writer.isBlank line :=
    fun hmem => hline (mem_of_mem_trimRight hmem)
  induction rest generalizing n first with
  | nil =>
      simp [lineReturns_of_not_mem n hfirst, lineReturns_of_not_mem n (htrim hfirst),
        returnsAtEnd_trimRight]
  | cons line rest ih =>
      rw [List.forall_mem_cons] at hrest
      have hmore := ih 0 hrest.1 hrest.2
      simp only [List.flatMap_cons, lineReturns_append, returnsAtEnd_append, List.cons_append,
        lineReturns_lf, returnsAtEnd_cons, returnsAfter_lf, returnsAtEnd_trimRight,
        lineReturns_of_not_mem n hfirst, lineReturns_of_not_mem n (htrim hfirst)] at hmore ⊢
      exact ⟨congrArg (returnsAtEnd n first :: ·) hmore.1, hmore.2⟩

theorem returns_written (n : Nat) (s : Bytes) :
    lineReturns n (written "\n" s) = lineReturns n s ∧
      returnsAtEnd n (written "\n" s) = returnsAtEnd n s := by
  obtain ⟨first, rest, hsplit⟩ := List.exists_cons_of_ne_nil (split_ne_nil lf s)
  have hlines : ∀ line ∈ split lf s, lf ∉ line := not_mem_of_split s
  rw [hsplit, List.forall_mem_cons] at hlines
  rw [written_eq hsplit, eq_of_split hsplit]
  exact returns_lines n hlines.1 hlines.2

theorem returnsAtEnd_bytes {p : Piece} (h : ∀ s ∈ p.text?, returnsAtEnd 0 s = 0) :
    returnsAtEnd 0 (p.bytes "\n") = 0 := by
  cases p with
  | text s => exact (returns_written 0 s).2.trans (h s rfl)
  | blank tab => cases tab <;> rfl
  | newline => rfl

theorem mem_texts {ps : List Piece} {s : Bytes} : s ∈ texts ps ↔ ∃ p ∈ ps, p.text? = some s :=
  List.mem_filterMap

end Piece

/-- The carriage returns at the ends of lines are those of its texts if none of these ends in
any. -/
theorem Doc.of_mem_lineReturns_page (d : Doc) {o : LayoutOptions} (ho : o.newline = "\n")
    (hleaves : ∀ s ∈ d.leaves, returnsAtEnd 0 s = 0) {k : Nat}
    (hk : k ∈ lineReturns 0 (d.page o)) : k = 0 ∨ ∃ s ∈ d.leaves, k ∈ lineReturns 0 s := by
  obtain ⟨ps, last, hlaid, hlast, hpage⟩ := d.page_laid (.inl ho)
  have htexts : Piece.texts (ps ++ last) = d.leaves := by
    have hlaid' := hlaid.texts_eq
    rw [itemLeaves_cons] at hlaid'
    rcases hlast with rfl | rfl <;> simpa [itemLeaves] using hlaid'
  rw [hpage, ho, Piece.output, List.flatMap_def, lineReturns_flatten] at hk
  · simp only [List.flatMap_map, List.mem_flatMap] at hk
    obtain ⟨p, hp, hk⟩ := hk
    cases p with
    | text s =>
        rw [Piece.bytes, (Piece.returns_written 0 s).1] at hk
        exact .inr ⟨s, htexts ▸ Piece.mem_texts.mpr ⟨_, hp, rfl⟩, hk⟩
    | blank tab => cases tab <;> exact absurd hk List.not_mem_nil
    | newline => exact .inl (List.mem_singleton.mp hk)
  · intro text htext
    obtain ⟨p, hp, rfl⟩ := List.mem_map.mp htext
    exact Piece.returnsAtEnd_bytes fun s hs =>
      hleaves s (htexts ▸ Piece.mem_texts.mpr ⟨p, hp, hs⟩)

/-! ## Comments of a source -/

/-- A trimmed comment does not end in a carriage return. -/
theorem Comment.returnsAtEnd_trim (text : Bytes) : returnsAtEnd 0 (trim text) = 0 := by
  rcases List.eq_nil_or_concat (trim text) with hnil | ⟨init, b, hconcat⟩
  · rw [hnil]
    rfl
  · rw [List.concat_eq_append] at hconcat
    have hne : trim text ≠ [] := by simp [hconcat]
    have hlast := List.rdropWhile_last_not _ text hne
    have hb : (trim text).getLast hne = b := by simp [hconcat]
    change ¬((fun b => b == space || b == tab || b == cr) ((trim text).getLast hne)) = true at hlast
    rw [hb] at hlast
    simp only [Bool.or_eq_true, beq_iff_eq, not_or] at hlast
    have hblank : Writer.isBlank b = false := by simp [Writer.isBlank, hlast]
    rw [hconcat, returnsAtEnd_append, returnsAtEnd_cons, returnsAfter_other _ hlast.2 hblank]
    rfl

/-- A comment starts anew what stands at the end of a line. -/
theorem Bytes.CommentText.lineReturns_eq {c : Bytes} (h : c.CommentText) (n : Nat) :
    lineReturns n c = lineReturns 0 c := by
  have hmark {b : UInt8} (hb : b = ('-' : UInt8) ∨ b = ('/' : UInt8)) (rest : Bytes) :
      lineReturns n (b :: rest) = lineReturns 0 (b :: rest) := by
    rcases hb with rfl | rfl <;> rfl
  match c, h.isComment with
  | a :: b :: rest, hcomment =>
      simp only [Bytes.isComment, Bool.or_eq_true, Bool.and_eq_true, beq_iff_eq] at hcomment
      exact hmark (hcomment.imp And.left And.left) (b :: rest)

/-- The lines that end inside a comment end so in the source. -/
theorem Bytes.CommentText.lineReturns_subset {text content : Bytes}
    (h : (Comment.trim text).CommentText) (htext : text <:+: content) :
    lineReturns 0 (Comment.trim text) ⊆ lineReturns 0 content := by
  obtain ⟨before, after, rfl⟩ := htext
  intro k hk
  have htrim : Comment.trim text ++ text.rtakeWhile _ = text := List.rdropWhile_append_rtakeWhile
  rw [← h.lineReturns_eq (returnsAtEnd 0 before)] at hk
  rw [← htrim]
  simp only [lineReturns_append, List.mem_append]
  exact .inl (.inr (.inl hk))

namespace SourceFile

variable {f : SourceFile} {bag : Bag}

/-- A line of the formatted text ends in carriage returns only where a line of the source does. -/
theorem of_mem_lineReturns_render (hfaults : f.tokens.2 = []) (hbag : bag.items = [])
    (s : Settings) {k : Nat} (hk : k ∈ lineReturns 0 ((f.parse bag).1.render s "\n")) :
    k = 0 ∨ k ∈ lineReturns 0 f.content := by
  have hshown : ∀ text ∈ ((f.parse bag).1.document s).leaves,
      text.isCode = true ∨ text ∈ (f.parse bag).1.comments := by
    intro text htext
    by_cases hcode : text.isCode = true
    · exact .inl hcode
    · have hremark : text ∈ Doc.remarksOf ((f.parse bag).1.document s).leaves := by
        rw [Doc.remarksOf, Multiset.mem_coe, List.mem_filter]
        exact ⟨htext, by simp [hcode]⟩
      rw [DesignFile.remarks_document (inCode_parse hfaults hbag) s] at hremark
      exact .inr (Multiset.mem_of_mem_filter hremark)
  have horigin : ∀ c ∈ (f.parse bag).1.comments,
      ∃ text, text <:+: f.content ∧ Comment.trim text = c := fun c hc =>
    f.exists_of_mem_tokens c (Multiset.mem_of_le (f.comments_parse_le hbag) hc)
  have hends : ∀ text ∈ ((f.parse bag).1.document s).leaves, returnsAtEnd 0 text = 0 := by
    intro text htext
    rcases hshown text htext with hcode | hcomment
    · exact (isSettled_iff.mp (isCode_iff.mp hcode).2).2
    · obtain ⟨raw, -, rfl⟩ := horigin text hcomment
      exact Comment.returnsAtEnd_trim raw
  rcases Doc.of_mem_lineReturns_page _ rfl hends hk with hzero | ⟨text, htext, hk⟩
  · exact .inl hzero
  · rcases hshown text htext with hcode | hcomment
    · exact .inl ((isSettled_iff.mp (isCode_iff.mp hcode).2).1 k hk)
    · have hcommentText := f.commentText_parse hbag text hcomment
      obtain ⟨raw, hraw, rfl⟩ := horigin text hcomment
      exact .inr (hcommentText.lineReturns_subset hraw hk)

/-- Where formatting changes nothing but line ends, no line ends in a carriage return. -/
theorem settled_of_fixed {content : Bytes} (hcontent : f.content = Source.unifyNewlines
      (Source.body content)) (hfaults : f.tokens.2 = []) (hbag : bag.items = []) (s : Settings)
    (hfixed : (f.parse bag).1.render s "\n" = content) :
    ∀ k ∈ lineReturns 0 content, k = 0 := by
  have htidy : content.isTidy = true := by
    rw [← hfixed]
    exact Doc.isTidy_page _ rfl
  have hreturns : lineReturns 0 f.content = (lineReturns 0 content).map (· - 1) := by
    rw [hcontent, Source.lineReturns_unifyNewlines (Source.isTidy_body htidy) fun _ => rfl,
      Source.lineReturns_body]
  -- a line that ends in carriage returns asks for one that ends in one more
  have hascent {k : Nat} (hk : k ∈ lineReturns 0 content) (hpos : k ≠ 0) :
      k + 1 ∈ lineReturns 0 content := by
    have hsource := (of_mem_lineReturns_render hfaults hbag s (hfixed ▸ hk)).resolve_left hpos
    rw [hreturns, List.mem_map] at hsource
    obtain ⟨m, hm, hpred⟩ := hsource
    obtain rfl : m = k + 1 := by omega
    exact hm
  intro k hk
  by_contra hpos
  have hall (j : Nat) : k + j ∈ lineReturns 0 content := by
    induction j with
    | zero => exact hk
    | succ j ih =>
        have hsum : k + j ≠ 0 := by omega
        exact hascent ih hsum
  have hlong := le_of_mem_lineReturns (hall (content.length + 1))
  omega

end SourceFile

end VhdlStyle
