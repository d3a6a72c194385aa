import VhdlStyle.Proofs.Comments.Written
import VhdlStyle.Proofs.Lexing.Faults
import VhdlStyle.Proofs.Parsing.CompleteTrees
import VhdlStyle.Proofs.Spacing.Formatting

/-! # A parse without errors leaves no gaps

The actions for concurrent statements and design units follow those for what they contain. The
tokens of a source without lexical faults are whole, and the parser reads them to the end, so a
source without errors has a complete tree. -/

namespace VhdlStyle

open Parse

set_option synthInstance.maxSize 2000

/-! ## Concurrent statements -/

namespace ConcStmt

theorem gives_parseSensitivity : Gives parseSensitivity fun xs => ∀ x ∈ xs, x.Complete := by
  unfold parseSensitivity
  refine .next fun hasList => .ite (fun _ => .pure (by simp)) fun _ => ?_
  extract_lets +onlyGivenNames next
  have hnext (names : List Expr) :
      Gives (next names) fun xs => (∀ x ∈ names, x.Complete) → ∀ x ∈ xs, x.Complete :=
    .next fun _ => .pure id
  clear_value next
  refine .accept? (by decide) (fun t => (hnext _).mono fun xs hxs ht => ?_) ?_
  · exact hxs (List.forall_mem_singleton.mpr ht)
  · exact (gives_sepBy Expr.gives_parseName).bind fun names =>
      (hnext names).mono fun xs hxs hnames => hxs hnames.2

theorem gives_parseProcess (h : Head) (postponed : Bool) :
    Gives (parseProcess h postponed) Complete := by
  unfold parseProcess
  refine .next fun _ => .bind gives_parseSensitivity fun sensitivity => .next fun hasIs => ?_
  refine .bind Decl.gives_parsePart fun ds => .next fun declTail => .next fun _ => ?_
  refine .bind SeqStmt.gives_parseBlock fun ss => .next fun tail => .next fun _ => .next fun _ => ?_
  refine .next fun _ => .next fun endLabel => .next fun _ => .next fun _ => .next fun text => ?_
  exact .pure fun hss hds hsensitivity => ⟨hsensitivity, hds, hss⟩

/-- An instantiation without a label is an error. -/
theorem gives_parseMaps (h : Head) (inst : Instantiation) :
    Gives (parseMaps h inst) fun s => inst.unit.Complete → s.Complete := by
  unfold parseMaps
  extract_lets -underBinder next
  have hnext (u : PUnit) :
      Gives (next u) fun s => h.label ≠ [] → inst.unit.Complete → s.Complete := by
    refine .next fun hasGenerics => ?_
    extract_lets -underBinder rest
    have hrest (genericMap : Option MapList) : Gives (rest genericMap) fun s =>
        (∀ l ∈ genericMap, l.Complete) → h.label ≠ [] → inst.unit.Complete → s.Complete := by
      refine .next fun hasPorts => ?_
      extract_lets -underBinder last
      have hlast (portMap : Option MapList) : Gives (last portMap) fun s =>
          (∀ l ∈ portMap, l.Complete) → (∀ l ∈ genericMap, l.Complete) → h.label ≠ [] →
            inst.unit.Complete → s.Complete := by
        refine .bind h.gives_finish fun h' => .pure fun heq hports hgenerics hlabel hunit => ?_
        exact ⟨heq ▸ hlabel, hunit, hgenerics, hports⟩
      clear_value last
      exact .orNone MapList.gives_parse hlast
    clear_value rest
    exact .orNone MapList.gives_parse hrest
  have hbuilt (u : PUnit) : Built true (next u) := (hnext u).built
  clear_value next
  refine .ite (fun _ => .fault) fun hlabel => (hnext ⟨⟩).mono fun s hs => hs ?_
  simpa using hlabel

theorem gives_parseInstance (h : Head) : Gives (parseInstance h) Complete := by
  unfold parseInstance
  refine .next fun word => .bind Expr.gives_parseSelectedName fun unit => .next fun hasArch => ?_
  extract_lets -underBinder next
  have hnext (arch : Bytes) : Gives (next arch) fun s => unit.Complete → s.Complete :=
    gives_parseMaps h _
  clear_value next
  exact .ite (fun _ => .next fun arch => .next fun _ => hnext arch) fun _ => hnext []

theorem gives_parseSelectedArm : Gives parseSelectedArm SelectedWaveform.Complete := by
  unfold parseSelectedArm
  refine .bind CondWaveform.gives_parseWaveform fun waveform => .next fun _ => ?_
  refine .bind Expr.gives_parseChoices fun choices => .pure fun hchoices hwaveform => ?_
  exact ⟨hwaveform, hchoices⟩

theorem gives_parseSelected (h : Head) : Gives (parseSelected h) Complete := by
  unfold parseSelected
  refine .next fun _ => .bind Expr.gives_parse fun selector => .next fun _ => ?_
  refine .bind Expr.gives_parseName fun target => .next fun _ => ?_
  refine (gives_sepBy gives_parseSelectedArm).bind fun arms => .next fun _ => ?_
  exact .pure fun harms htarget hselector => ⟨hselector, htarget, harms⟩

theorem gives_parseNamed (h : Head) : Gives (parseNamed h) fun o => ∀ s ∈ o, s.Complete := by
  unfold parseNamed
  refine .next fun isName => .ite (fun _ => .faultGot) fun _ => ?_
  refine .bind Expr.gives_parseName fun target => .next fun hasMaps => .ite (fun _ => ?_) ?_
  · exact .map ((gives_parseMaps h _).mono fun s hs htarget => forall_mem_some (hs htarget))
  · refine fun _ => .next fun isSignal => .ite (fun _ => ?_) fun _ => ?_
    · refine .bind CondWaveform.gives_parseArms fun arms => .next fun _ => ?_
      exact .pure fun harms htarget => forall_mem_some ⟨htarget, harms⟩
    · exact .next fun _ => .pure fun htarget => forall_mem_some htarget

/-- A generate statement without a label is an error. -/
theorem gives_checkGenerateLabel (h : Head) :
    Gives (checkGenerateLabel h) fun _ => h.label ≠ [] := by
  unfold checkGenerateLabel
  refine .ite (fun _ => .fault_last) fun hlabel => .pure ?_
  simpa using hlabel

section

variable {block : Parse (List ConcStmt)} (hblock : Gives block fun ss => ∀ s ∈ ss, s.Complete)

include hblock

theorem gives_parseBody : Gives (parseBody block) GenerateBody.Complete := by
  unfold parseBody
  refine .next fun hasDecls => ?_
  extract_lets -underBinder next
  have hnext (parts : List Decl × Bool) : Gives (next parts) fun b =>
      (parts.1 ≠ [] → parts.2 = true) → (∀ d ∈ parts.1, d.Complete) → b.Complete := by
    refine hblock.bind fun ss => .next fun tail => .pure fun hss hbegin hds => ⟨hbegin, hds, ?_⟩
    exact allComplete_iff.mpr hss
  clear_value next
  refine .ite (fun _ => ?_) fun _ => ?_
  · refine .bind Decl.gives_parsePart fun ds => .next fun _ => (hnext (ds, true)).mono ?_
    exact fun b hb => hb fun _ => rfl
  · refine .next fun hasBegin => (hnext ([], hasBegin)).mono fun b hb => hb ?_ ?_
    · exact fun h => absurd rfl h
    · simp

theorem gives_parseForGenerate (h : Head) : Gives (parseForGenerate block h) Complete := by
  unfold parseForGenerate
  refine (gives_checkGenerateLabel h).bind fun _ => .next fun _ => .bind gives_ident fun param => ?_
  refine .next fun _ => .bind Expr.gives_parseRange fun range => .next fun _ => ?_
  refine (gives_parseBody hblock).bind fun body => .next fun endLabel => .next fun text => ?_
  exact .pure fun hbody hrange hparam hlabel => ⟨hlabel, hparam, hrange, hbody⟩

theorem gives_parseCondBranch :
    Gives (parseCondBranch block) fun b => b.Complete ∧ b.cond.isSome = true := by
  unfold parseCondBranch
  refine .bind Expr.gives_parse fun cond => .next fun _ => ?_
  refine (gives_parseBody hblock).bind fun body => .pure fun hbody hcond => ?_
  exact ⟨⟨forall_mem_some hcond, hbody⟩, rfl⟩

/-- Only the branch behind `else` has no condition. -/
theorem gives_parseIfGenerate (h : Head) : Gives (parseIfGenerate block h) Complete := by
  have hbranch := gives_parseCondBranch hblock
  unfold parseIfGenerate
  refine (gives_checkGenerateLabel h).bind fun _ => .next fun _ => hbranch.bind fun first => ?_
  refine (Gives.sized (gives_afterEachN hbranch)).bind fun others => .next fun hasElse => ?_
  extract_lets -underBinder next
  have hnext (last : List GenerateBranch) (hlast : last.length ≤ 1) : Gives (next last) fun s =>
      (∀ b ∈ last, b.Complete) → (∀ b ∈ others, b.Complete ∧ b.cond.isSome = true) →
        first.Complete ∧ first.cond.isSome = true → h.label ≠ [] → s.Complete := by
    refine .next fun endLabel => .next fun text => .pure fun hcomplete hothers hfirst hlabel => ?_
    obtain ⟨hguarded, hall⟩ := Guarded.arms hfirst hothers hlast hcomplete
    exact ⟨hlabel, hguarded, GenerateBranch.allComplete_iff.mpr hall⟩
  clear_value next
  refine .ite (fun _ => ?_) fun _ => (hnext [] (by simp)).mono fun s hs => hs (by simp)
  refine .next fun _ => (gives_parseBody hblock).bind fun body => ?_
  refine (hnext [.mk none body] (by simp)).mono ?_
  exact fun s hs hbody => hs (List.forall_mem_singleton.mpr ⟨by simp, hbody⟩)

theorem gives_parseWith : Gives (parseWith block) fun o => ∀ s ∈ o, s.Complete := by
  unfold parseWith
  refine .next fun t => .next fun label => ?_
  extract_lets h
  refine .next fun postponed => .next fun k => ?_
  split
  case h_1 => exact .mapSome (gives_parseProcess h postponed)
  case h_2 =>
    refine (Assertion.gives_parse postponed).bind fun assertion => .next fun _ => ?_
    exact .pure fun hassertion => forall_mem_some hassertion
  case h_3 => exact .mapSome (gives_parseSelected h)
  case h_4 => exact .mapSome (gives_parseForGenerate hblock h)
  case h_5 => exact .mapSome (gives_parseIfGenerate hblock h)
  case h_6 | h_7 | h_8 => exact .mapSome (gives_parseInstance h)
  case h_9 => exact .fault
  case h_10 => exact gives_parseNamed h

end

theorem gives_parseBlockN (n : Nat) : Gives (parseBlockN n) fun ss => ∀ s ∈ ss, s.Complete := by
  induction n with
  | zero =>
      unfold parseBlockN
      exact .giveUp
  | succ n ih =>
      unfold parseBlockN
      exact gives_many (gives_parseWith ih)

theorem gives_parseBlock : Gives parseBlock fun ss => ∀ s ∈ ss, s.Complete :=
  .sized gives_parseBlockN

end ConcStmt

/-! ## Design units and files -/

theorem ContextItem.gives_parseLibrary : Gives ContextItem.parseLibrary Complete := by
  unfold ContextItem.parseLibrary
  refine .next fun _ => .next fun _ => .bind gives_identList fun names => ?_
  exact .next fun _ => .next fun _ => .pure id

namespace DesignUnit

section

variable {context : List ContextItem}

theorem gives_close (t : RowTrivia) (name : Bytes) (body : UnitBody) (words : List Kind) :
    Gives (close t context name body words) fun u =>
      body.Complete → name ≠ [] → (∀ i ∈ context, i.Complete) → u.Complete := by
  unfold close
  refine .next fun tail => .next fun endLabel => .next fun _ => .pure fun hbody hname hcontext => ?_
  exact ⟨hcontext, hname, hbody⟩

theorem gives_parseEntity :
    Gives (parseEntity context) fun u => (∀ i ∈ context, i.Complete) → u.Complete := by
  unfold parseEntity
  refine .next fun t => .next fun _ => .bind gives_ident fun name => .next fun _ => ?_
  refine .bind InterfaceList.gives_parseGenerics fun generics => ?_
  refine .bind InterfaceList.gives_parsePorts fun ports => .bind Decl.gives_parsePart fun ds => ?_
  refine .next fun hasBegin => ?_
  extract_lets -underBinder next
  have hnext (ss : List ConcStmt) : Gives (next ss) fun u => (∀ s ∈ ss, s.Complete) →
      (∀ d ∈ ds, d.Complete) → (∀ l ∈ ports, l.Complete) → (∀ l ∈ generics, l.Complete) →
        name ≠ [] → (∀ i ∈ context, i.Complete) → u.Complete := by
    refine (gives_close ..).mono fun u hu hss hds hports hgenerics => ?_
    exact hu ⟨hgenerics, hports, hds, hss⟩
  clear_value next
  refine .ite (fun _ => .bind ConcStmt.gives_parseBlock hnext) fun _ => (hnext []).mono ?_
  exact fun u hu => hu (by simp)

theorem gives_parseArchitecture :
    Gives (parseArchitecture context) fun u => (∀ i ∈ context, i.Complete) → u.Complete := by
  unfold parseArchitecture
  refine .next fun t => .next fun _ => .bind gives_ident fun name => .next fun _ => ?_
  refine .bind gives_ident fun entityName => .next fun _ => .bind Decl.gives_parsePart fun ds => ?_
  refine .next fun declTail => .next fun _ => .bind ConcStmt.gives_parseBlock fun ss => ?_
  refine (gives_close ..).mono fun u hu hss hds hentity => ?_
  exact hu ⟨hentity, hds, hss⟩

theorem gives_parsePackage :
    Gives (parsePackage context) fun u => (∀ i ∈ context, i.Complete) → u.Complete := by
  unfold parsePackage
  refine .next fun t => .next fun _ => .bind gives_ident fun name => .next fun _ => ?_
  refine .bind InterfaceList.gives_parseGenerics fun generics => ?_
  refine .bind Decl.gives_parsePart fun ds => ?_
  exact (gives_close ..).mono fun u hu hds hgenerics => hu ⟨hgenerics, hds⟩

theorem gives_parsePackageBody :
    Gives (parsePackageBody context) fun u => (∀ i ∈ context, i.Complete) → u.Complete := by
  unfold parsePackageBody
  refine .next fun t => .next fun _ => .next fun _ => .bind gives_ident fun name => ?_
  exact .next fun _ => .bind Decl.gives_parsePart fun ds => gives_close ..

end

end DesignUnit

namespace DesignFile

/-- The unit read and the context items that wait are complete. -/
theorem gives_parseStep (context : List ContextItem) : Gives (parseStep context) fun r =>
    (∀ i ∈ context, i.Complete) → (∀ u ∈ r.1, u.Complete) ∧ ∀ i ∈ r.2, i.Complete := by
  have hunit {p : Parse DesignUnit}
      (hp : Gives p fun u => (∀ i ∈ context, i.Complete) → u.Complete) :
      Gives (p >>= fun u => pure (some u, [])) fun r : Option DesignUnit × List ContextItem =>
        (∀ i ∈ context, i.Complete) → (∀ u ∈ r.1, u.Complete) ∧ ∀ i ∈ r.2, i.Complete :=
    hp.bind fun u => .pure fun hu hcontext => ⟨forall_mem_some (hu hcontext), by simp⟩
  unfold parseStep
  refine .next fun k => ?_
  split
  case h_1 =>
    refine .bind ContextItem.gives_parseLibrary fun i => .pure fun hi hcontext => ⟨by simp, ?_⟩
    exact List.forall_mem_append.mpr ⟨hcontext, List.forall_mem_singleton.mpr hi⟩
  case h_2 =>
    refine .bind UseClause.gives_parse fun clause => .pure fun hclause hcontext => ⟨by simp, ?_⟩
    exact List.forall_mem_append.mpr ⟨hcontext, List.forall_mem_singleton.mpr hclause⟩
  case h_3 => exact hunit DesignUnit.gives_parseEntity
  case h_4 => exact hunit DesignUnit.gives_parseArchitecture
  case h_5 =>
    refine .next fun ahead => .ite (fun _ => ?_) fun _ => hunit DesignUnit.gives_parsePackage
    exact hunit DesignUnit.gives_parsePackageBody
  case h_6 => exact .faultGot

theorem gives_parseUnitsN (fuel : Nat) (context : List ContextItem) :
    Gives (parseUnitsN fuel context) fun r =>
      (∀ i ∈ context, i.Complete) → ∀ u ∈ r.1, u.Complete := by
  induction fuel generalizing context with
  | zero =>
      unfold parseUnitsN
      exact .giveUp
  | succ fuel ih =>
      unfold parseUnitsN
      refine .next fun atEnd => .ite (fun _ => .pure (by simp)) fun _ => ?_
      refine .get (fun s t h => by simp only [ParseState.size_eq_of_view h]) fun before => ?_
      refine (gives_parseStep context).bind fun step => ?_
      refine .get (fun s t h => by simp only [ParseState.size_eq_of_view h]) fun after => ?_
      extract_lets -underBinder next
      have hnext (u : PUnit) : Gives (next u) fun r => ((∀ i ∈ context, i.Complete) →
          (∀ u ∈ step.1, u.Complete) ∧ ∀ i ∈ step.2, i.Complete) →
            (∀ i ∈ context, i.Complete) → ∀ u ∈ r.1, u.Complete := by
        refine (ih step.2).bind fun rest => .pure fun hrest hstep hcontext => ?_
        obtain ⟨hunit, hwaiting⟩ := hstep hcontext
        refine List.forall_mem_append.mpr ⟨?_, hrest hwaiting⟩
        exact fun u hu => hunit u (Option.mem_toList.mp hu)
      clear_value next
      exact .ite (fun _ => .next hnext) fun _ => hnext ⟨⟩

theorem gives_parseTokens : Gives parseTokens Complete := by
  have hunits : Gives (fun s => parseUnitsN s.size [] s) fun r => ∀ u ∈ r.1, u.Complete :=
    .sized (f := fun n => parseUnitsN n []) fun n =>
      (gives_parseUnitsN n []).mono fun r hr => hr (by simp)
  unfold parseTokens
  refine hunits.bind fun parts => ?_
  exact .ite (fun _ => .fault) fun _ => .next fun trailing => .pure id

end DesignFile

/-! ## Sources -/

/-- A word has a text, and only faults are invalid. -/
theorem Token.InCode.whole {t : Token} (h : t.InCode) : t.Whole := by
  refine ⟨?_, fun hkind => ?_, h.sound⟩
  · intro hinvalid
    obtain ⟨b, rest, -, -, hscan⟩ := (h.sound (by simp [hinvalid])).exists_cons
    have hreported := Lexeme.scan_reported .invalid b rest
    rw [hscan, Lexeme.Reported] at hreported
    simp [hinvalid] at hreported
  · obtain ⟨b, rest, htext, -⟩ := (h.sound hkind).exists_cons
    exact ne_of_eq_of_ne htext (List.cons_ne_nil b rest)

/-- What a run gives that reports no error holds of the design of a source without errors. -/
theorem SourceFile.Finds.parse_gives {f : SourceFile} {all : List Diagnostic} (hall : f.Finds all)
    (hclean : ∀ d ∈ all, d.isError = false) {good : DesignFile → Prop}
    (h : Parse.Gives DesignFile.parseTokens good) {bag : Bag} (hbag : bag.items = []) :
    good (f.parse bag).1 := by
  obtain ⟨herrors, hparse⟩ := SourceFile.parse_of_clean ⟨all, hall, hclean⟩
  have hwhole : f.opened.Whole := fun t ht =>
    (SourceFile.tokens_inCode (hall.tokens_clean hclean) t ht).whole
  have hlive : f.opened.Live f.opened.size := ⟨f.tokens_ended, Nat.le_refl _, rfl⟩
  have hkept := (DesignFile.finishes_parseTokens.run f.opened hlive).kept
  rw [(hparse bag hbag).1]
  exact h.run f.opened hwhole ⟨herrors, hkept⟩

/-- A source for which neither the lexer nor the parser reports an error has a tree without gaps, at
every depth. -/
theorem parse_leaves_no_gap (f : SourceFile) (all : List Diagnostic) (hall : f.Finds all)
    (hclean : ∀ d ∈ all, d.isError = false) (bag : Bag) (hbag : bag.items = []) :
    (f.parse bag).1.Complete :=
  hall.parse_gives hclean DesignFile.gives_parseTokens hbag

/-- A label that does not fit is only warned about. -/
theorem parse_leaves_no_gap_of_generate :
    let f := SourceFile.ofBytes "a.vhd" "architecture r of e is begin
  g : if a = b generate signal s : bit; begin s <= '0' when a(1) else b after 10 ns;
  else generate u : entity work.e port map (a => b); end generate; end f;"
    let all := (f.parse (Bag.ofLimit 9)).2.items
    f.Finds all ∧ all ≠ [] ∧ (∀ d ∈ all, d.isError = false) ∧
      (f.parse (Bag.ofLimit 1)).1.Complete := by
  intro f all
  have hrun : (f.parse (Bag.ofLimit 9)).2.hasRoom = true ∧ all ≠ [] ∧
      ∀ d ∈ all, d.isError = false := by decide +kernel
  obtain ⟨hroom, hwarned, hclean⟩ := hrun
  have hall : f.Finds all := ⟨Bag.ofLimit 9, rfl, hroom, rfl⟩
  exact ⟨hall, hwarned, hclean, parse_leaves_no_gap f all hall hclean (Bag.ofLimit 1) rfl⟩

/-- With an error there are gaps: an entity without a name. -/
example : ((SourceFile.ofBytes "a.vhd" "entity is end;").parse (Bag.ofLimit 9)).1.units.map
    DesignUnit.name = [[]] := by decide +kernel

end VhdlStyle
