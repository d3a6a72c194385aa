import VhdlStyle.Proofs.Lexing.Faults
import VhdlStyle.Proofs.LineEnds.Printing

/-! # Verified output is stable

The verification of a run formats the input and its own output, with LF for `auto` line ends, and
compares the two. That the bytes which are written stay when they are formatted again follows from
it, because no line of a text that formatting keeps ends in a carriage return. -/

namespace VhdlStyle

open Bytes Source

/-! ## Diagnostics -/

namespace SourceFile

variable {f : SourceFile}

/-- Less room for diagnostics shows no more errors. -/
theorem hasErrors_of_le {limit limit' : Int} (hle : limit ≤ limit')
    (hclean : (f.parse (Bag.ofLimit limit')).2.hasErrors = false) :
    (f.parse (Bag.ofLimit limit)).2.hasErrors = false := by
  obtain ⟨design, all, hparse⟩ := f.parse_uniform
  rw [hparse _ rfl] at hclean ⊢
  have hlimits : (Bag.ofLimit limit).limit ≤ (Bag.ofLimit limit').limit := by
    simp only [Bag.ofLimit]
    split <;> split <;> omega
  simp only [Bag.hasErrors, List.any_eq_false] at hclean ⊢
  exact fun d hd => hclean d (List.take_subset_take_left all hlimits hd)

/-- The room for diagnostics does not change the design. -/
theorem parse_design (f : SourceFile) {bag bag' : Bag} (hbag : bag.items = [])
    (hbag' : bag'.items = []) : (f.parse bag).1 = (f.parse bag').1 := by
  obtain ⟨design, all, hparse⟩ := f.parse_uniform
  rw [hparse bag hbag, hparse bag' hbag']

end SourceFile

/-! ## Verification -/

namespace RoundTrip

variable {path path' source source' text outline : Bytes} {s : Settings}

/-- A pass sees of a text what reading leaves of it. -/
theorem pass_congr (h : unifyNewlines (body source) = unifyNewlines (body source')) :
    pass path source s = pass path' source' s := by
  have hcontent : (SourceFile.ofBytes path source).content =
      (SourceFile.ofBytes path' source').content := by
    simp only [SourceFile.ofBytes, FileTable.loadVirtual, FileTable.load_eq, h]
  have hparse := SourceFile.parse_congr (f := SourceFile.ofBytes path source)
    (g := SourceFile.ofBytes path' source') rfl hcontent
  rw [pass, pass, SourceFile.parsed_eq, SourceFile.parsed_eq, hparse]

theorem pass_iff : pass path source s = .ok (text, outline) ↔
    ((SourceFile.ofBytes path source).parse (Bag.ofLimit diagnosticLimit)).2.hasErrors = false ∧
      ((SourceFile.ofBytes path source).parse (Bag.ofLimit diagnosticLimit)).1.format s = text ∧
      ((SourceFile.ofBytes path source).parse (Bag.ofLimit diagnosticLimit)).1.outline =
        outline := by
  rw [pass, SourceFile.parsed_eq]
  cases ((SourceFile.ofBytes path source).parse (Bag.ofLimit diagnosticLimit)).2.hasErrors <;>
    simp [Except.map]

/-- A text passes when the second pass gives what the first one did. -/
theorem check_iff : check source s = .ok () ↔ ∃ text outline,
    pass "input.vhd" source s = .ok (text, outline) ∧
      pass "formatted.vhd" text s = .ok (text, outline) := by
  rw [check]
  cases hfirst : pass "input.vhd" source s with
  | error error => simp
  | ok first =>
      obtain ⟨text, outline⟩ := first
      dsimp only
      cases hsecond : pass "formatted.vhd" text s with
      | error error => simp [hsecond]
      | ok second =>
          obtain ⟨text', outline'⟩ := second
          by_cases houtline : outline = outline'
          · by_cases htext : text = text'
            · simp [houtline, htext, htext ▸ hsecond]
            · simp [houtline, htext, Ne.symm htext, hsecond]
          · simp [houtline, Ne.symm houtline, hsecond]

/-- No line of a text that stays ends in a carriage return where `auto` line ends are LF. -/
theorem hasCrlf_of_pass (hpass : pass path text s = .ok (text, outline))
    (hnewline : s.newline false = "\n") : hasCrlf (body text) = false := by
  obtain ⟨hclean, hformat, -⟩ := pass_iff.mp hpass
  rw [DesignFile.format, hnewline] at hformat
  have hcontent : (SourceFile.ofBytes path text).content = unifyNewlines (body text) := by
    rw [SourceFile.ofBytes, FileTable.loadVirtual, FileTable.load_eq]
  have hfaults := SourceFile.tokens_clean_of_parse rfl (by decide) hclean
  have hsettled := SourceFile.settled_of_fixed hcontent hfaults rfl s hformat
  rw [← lineReturns_body] at hsettled
  exact hasCrlf_of_lineReturns hsettled

end RoundTrip

/-! ## Line ends -/

/-- A page is empty or ends its last line. -/
theorem Doc.page_eq_nil_or_mem (d : Doc) {o : LayoutOptions} (ho : IsNewline o.newline) :
    d.page o = [] ∨ lf ∈ d.page o := by
  rw [page]
  split
  · exact .inl rfl
  · exact .inr (List.mem_append_right _ ho.lf_mem)

/-- Line ends as they are written. -/
def Source.withEnds (crlf : Bool) (s : Bytes) : Bytes := if crlf then withCrlf s else s

/-- A text with unified line ends is read as it is, whichever line ends it is given. -/
theorem Source.unify_withEnds {s : Bytes} (h : hasCrlf (body s) = false) (crlf : Bool) :
    unifyNewlines (body (withEnds crlf s)) = unifyNewlines (body s) := by
  cases crlf with
  | false => rfl
  | true =>
      rw [withEnds, if_pos rfl, body_withCrlf, unifyNewlines_withCrlf, unifyNewlines_of_hasCrlf h]

/-- The line ends of a text are recognised. -/
theorem Source.withEnds_hasCrlf {s : Bytes} (hends : s = [] ∨ lf ∈ s)
    (h : hasCrlf (body s) = false) (crlf : Bool) :
    withEnds (hasCrlf (body (withEnds crlf s))) s = withEnds crlf s := by
  cases crlf with
  | false => rw [withEnds, withEnds, if_neg Bool.false_ne_true, h, if_neg Bool.false_ne_true]
  | true =>
      rcases hends with rfl | hlf
      · rfl
      · have hbody : lf ∈ body s := by rwa [mem_body_iff (by decide)]
        rw [withEnds, withEnds, if_pos rfl, body_withCrlf, hasCrlf_withCrlf hbody, if_pos rfl]

theorem DesignFile.render_ends (design : DesignFile) (s : Settings) (crlf : Bool) :
    design.render s (s.newline crlf) =
      withEnds (s.eol == "auto" && crlf) (design.render s (s.newline false)) := by
  cases hauto : s.eol == "auto" && crlf with
  | true =>
      obtain ⟨heol, rfl⟩ := Bool.and_eq_true_iff.mp hauto
      have hends : s.newline true = "\r\n" ∧ s.newline false = "\n" := by
        rw [Settings.newline, Settings.newline, beq_iff_eq.mp heol]
        decide
      rw [hends.1, hends.2]
      exact (design.document s).page_withCrlf (s.layout [])
  | false =>
      have hends : s.newline crlf = s.newline false := by
        rw [Settings.newline, Settings.newline, hauto, Bool.and_false]
      rw [hends]
      rfl

theorem DesignFile.format_eq_nil_or_mem (design : DesignFile) (s : Settings) :
    design.format s = [] ∨ lf ∈ design.format s :=
  (design.document s).page_eq_nil_or_mem (o := s.layout (s.newline false))
    (s.isNewline_newline false)

/-! ## Runs -/

namespace Job

variable {o : RunOptions}

/-- Without a cache a text is formatted when its bag holds no error and its verification passes. -/
theorem formatText_ok_iff (hcache : o.cache = none) (now : Instant) (path data : Bytes) (d : Disk) :
    (formatText o now path data d).1.fault = none ↔
      ((fileOf path data).parse (Bag.ofLimit o.diagnosticLimit)).2.hasErrors = false ∧
        verdict o data = .ok () := by
  rw [formatText_eq o now path data d (by rw [RunOptions.isCached, hcache])]
  dsimp only
  cases ((fileOf path data).parse (Bag.ofLimit o.diagnosticLimit)).2.hasErrors with
  | true => simp [kept]
  | false =>
      rw [if_neg Bool.false_ne_true, verified]
      cases verdict o data <;> simp [kept, formatted]

theorem formatText_of_ok (hcache : o.cache = none) (now : Instant) (path data : Bytes) (d : Disk)
    (hok : (formatText o now path data d).1.fault = none) :
    (formatText o now path data d).1.output = rendered o path data ∧
      (formatText o now path data d).1.changed = (rendered o path data != data) := by
  obtain ⟨herrors, hverdict⟩ := (formatText_ok_iff hcache now path data d).mp hok
  rw [formatText_eq o now path data d (by rw [RunOptions.isCached, hcache])]
  dsimp only
  rw [herrors, if_neg Bool.false_ne_true, verified, hverdict]
  simp only [formatted, and_self]

section

variable {path text outline : Bytes}

/-- Where line ends follow the input, none of a text that stays has a carriage return before it. -/
theorem hasCrlf_of_auto (hpass : RoundTrip.pass path text o.settings = .ok (text, outline))
    (hauto : (o.settings.eol == "auto") = true) : hasCrlf (body text) = false := by
  refine RoundTrip.hasCrlf_of_pass hpass ?_
  rw [Settings.newline, beq_iff_eq.mp hauto]
  rfl

/-- A text that stays is read alike, whichever line ends it is given. -/
theorem unify_of_pass (hpass : RoundTrip.pass path text o.settings = .ok (text, outline))
    (crlf : Bool) : unifyNewlines (body (withEnds (o.settings.eol == "auto" && crlf) text)) =
      unifyNewlines (body text) := by
  cases hauto : o.settings.eol == "auto" with
  | false => rw [Bool.false_and, withEnds, if_neg Bool.false_ne_true]
  | true => exact unify_withEnds (hasCrlf_of_auto hpass hauto) _

theorem parse_of_pass (hpass : RoundTrip.pass path text o.settings = .ok (text, outline))
    (crlf : Bool) (path' : Bytes) (bag : Bag) :
    (fileOf path' (withEnds (o.settings.eol == "auto" && crlf) text)).parse bag =
      (SourceFile.ofBytes path text).parse bag := by
  apply SourceFile.parse_congr
  · simp only [fileOf, SourceFile.ofBytes, FileTable.loadVirtual, FileTable.load_eq]
  · simp only [fileOf, SourceFile.ofBytes, FileTable.loadVirtual, FileTable.load_eq,
      unify_of_pass hpass]

/-- Written with line ends as those of an input, a text that stays is formatted to itself. -/
theorem rendered_of_pass (hpass : RoundTrip.pass path text o.settings = .ok (text, outline))
    (crlf : Bool) (path' : Bytes) :
    rendered o path' (withEnds (o.settings.eol == "auto" && crlf) text) =
      withEnds (o.settings.eol == "auto" && crlf) text := by
  obtain ⟨-, hformat, -⟩ := RoundTrip.pass_iff.mp hpass
  have hflag (content : Bytes) : (fileOf path' content).flags.hadCrlf = hasCrlf (body content) := by
    simp [fileOf, FileTable.load_eq]
  have hdesign : ((SourceFile.ofBytes path text).parse (Bag.ofLimit o.diagnosticLimit)).1 =
      ((SourceFile.ofBytes path text).parse (Bag.ofLimit RoundTrip.diagnosticLimit)).1 :=
    SourceFile.parse_design _ rfl rfl
  have hends : text = [] ∨ lf ∈ text := by
    rw [← hformat]
    exact DesignFile.format_eq_nil_or_mem _ _
  rw [rendered, parse_of_pass hpass, DesignFile.render_ends, hdesign, ← DesignFile.format, hformat,
    hflag]
  cases hauto : o.settings.eol == "auto" with
  | false => simp only [Bool.false_and]
  | true =>
      simp only [Bool.true_and]
      exact withEnds_hasCrlf hends (hasCrlf_of_auto hpass hauto) crlf

theorem verdict_of_pass (hpass : RoundTrip.pass path text o.settings = .ok (text, outline))
    (crlf : Bool) :
    verdict o (withEnds (o.settings.eol == "auto" && crlf) text) = .ok () := by
  rw [verdict]
  split
  · refine RoundTrip.check_iff.mpr ⟨text, outline, ?_, ?_⟩
    · rw [RoundTrip.pass_congr (unify_of_pass hpass crlf), hpass]
    · rw [RoundTrip.pass_congr rfl, hpass]
  · rfl

end

/-- The output of a run is the text of its verification, with the line ends of the input. -/
theorem rendered_of_first {data text outline : Bytes} (path : Bytes)
    (hfirst : RoundTrip.pass "input.vhd" data o.settings = .ok (text, outline)) :
    rendered o path data =
      withEnds (o.settings.eol == "auto" && (fileOf path data).flags.hadCrlf) text := by
  obtain ⟨-, hformat, -⟩ := RoundTrip.pass_iff.mp hfirst
  have hparse := SourceFile.parse_congr (f := fileOf path data)
    (g := SourceFile.ofBytes "input.vhd" data) rfl rfl
  have hdesign : ((fileOf path data).parse (Bag.ofLimit o.diagnosticLimit)).1 =
      ((SourceFile.ofBytes "input.vhd" data).parse (Bag.ofLimit RoundTrip.diagnosticLimit)).1 := by
    rw [hparse]
    exact SourceFile.parse_design _ rfl rfl
  rw [rendered, DesignFile.render_ends, hdesign, ← DesignFile.format, hformat]

end Job

open Job in
/-- A run that verifies its output gives a text that further runs keep: whenever an input is
formatted without a fault, its output is formatted without a fault too and does not change. -/
theorem verified_output_is_stable (o : RunOptions) (hverify : o.verify = true)
    (hcache : o.cache = none) (hlimit : o.diagnosticLimit ≤ 100) (now now' : Instant)
    (path data : Bytes) (d d' : Disk)
    (hok : (formatText o now path data d).1.fault = none) :
    let output := (formatText o now path data d).1.output
    let again := (formatText o now' path output d').1
    again.fault = none ∧ again.changed = false ∧ again.output = output := by
  intro output again
  obtain ⟨herrors, hverdict⟩ := (formatText_ok_iff hcache now path data d).mp hok
  rw [verdict, if_pos hverify] at hverdict
  obtain ⟨text, outline, hfirst, hsecond⟩ := RoundTrip.check_iff.mp hverdict
  have houtput : output =
      withEnds (o.settings.eol == "auto" && (fileOf path data).flags.hadCrlf) text :=
    (formatText_of_ok hcache now path data d hok).1.trans (rendered_of_first path hfirst)
  have hclean :
      ((fileOf path output).parse (Bag.ofLimit o.diagnosticLimit)).2.hasErrors = false := by
    rw [houtput, parse_of_pass hsecond]
    exact SourceFile.hasErrors_of_le hlimit (RoundTrip.pass_iff.mp hsecond).1
  have hpasses := verdict_of_pass hsecond (fileOf path data).flags.hadCrlf
  have hrendered := rendered_of_pass hsecond (fileOf path data).flags.hadCrlf path
  rw [← houtput] at hpasses hrendered
  have hagain := (formatText_ok_iff hcache now' path output d').mpr ⟨hclean, hpasses⟩
  obtain ⟨hsame, hchanged⟩ := formatText_of_ok hcache now' path output d' hagain
  rw [hrendered] at hsame hchanged
  exact ⟨hagain, by rw [hchanged]; simp, hsame⟩

open Job in
/-- A file with CR LF line ends, and in a comment a carriage return on its own. -/
theorem verified_output_is_stable_crlf :
    let o : RunOptions := { verify := true, diagnosticLimit := 1 }
    let data : Bytes := "ENTITY e IS -- c \r\nPORT (a : IN bit); /* a\rb \t\r\n*/\r\nEND;"
    (formatText o default "e.vhd" data {}).1.fault = none ∧
      let output := (formatText o default "e.vhd" data {}).1.output
      let again := (formatText o default "e.vhd" output {}).1
      again.fault = none ∧ again.changed = false ∧ again.output = output := by
  intro o data
  have hok : (formatText o default "e.vhd" data {}).1.fault = none := by decide +kernel
  exact ⟨hok, verified_output_is_stable o rfl rfl (by decide) default default "e.vhd" data {} {}
    hok⟩

end VhdlStyle
