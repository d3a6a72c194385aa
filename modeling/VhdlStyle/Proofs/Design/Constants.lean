import VhdlStyle.Design.Unit.Printer
import VhdlStyle.Proofs.Design.Parts
import VhdlStyle.Proofs.Tokens.Casing

/-! # The constants of a file

A name is cased as a constant if and only if the file declares it as a constant or as a generic, in
whatever region and in whatever letter case. -/

namespace VhdlStyle

namespace DesignFile

/-- The file declares the name as a constant, or as a generic of a unit or a component. -/
inductive DeclaresConstant (f : DesignFile) (name : Bytes) : Prop
  | object {decls : List Decl} {trivia : RowTrivia} {keyword : Bytes} {names : List Bytes}
      {indication : SubtypeIndication} {default : Option Expr} : f.DeclarativePart decls →
      .object trivia .constant keyword names indication default ∈ decls → name ∈ names →
        DeclaresConstant f name
  | component {decls : List Decl} {trivia : RowTrivia} {component endLabel : Bytes}
      {generics : InterfaceList} {ports : Option InterfaceList} {tail : List Comment}
      {item : InterfaceItem} : f.DeclarativePart decls →
      .component trivia component (some generics) ports endLabel tail ∈ decls →
        item ∈ generics.items → name ∈ item.names → DeclaresConstant f name
  | unit {u : DesignUnit} {generics : InterfaceList} {item : InterfaceItem} : u ∈ f.units →
      u.generics = some generics → item ∈ generics.items → name ∈ item.names →
        DeclaresConstant f name

/-! ## What is collected -/

theorem mem_genericNames {clause : Option InterfaceList} {name : Bytes} :
    name ∈ genericNames clause ↔
      ∃ generics, clause = some generics ∧ ∃ item ∈ generics.items, name ∈ item.names := by
  cases clause with
  | none => simp [genericNames]
  | some generics => simp [genericNames]

theorem mem_declsConstants {decls : List Decl} {name : Bytes} :
    name ∈ declsConstants decls ↔ ∃ d ∈ decls, name ∈ declConstants d := by
  induction decls with
  | nil => simp [declsConstants]
  | cons d rest ih => rw [declsConstants, List.mem_append, ih, List.exists_mem_cons_iff]

theorem mem_stmtsConstants {stmts : List ConcStmt} {name : Bytes} :
    name ∈ stmtsConstants stmts ↔ ∃ s ∈ stmts, name ∈ stmtConstants s := by
  induction stmts with
  | nil => simp [stmtsConstants]
  | cons s rest ih => rw [stmtsConstants, List.mem_append, ih, List.exists_mem_cons_iff]

theorem mem_bodyConstants {body : GenerateBody} {name : Bytes} :
    name ∈ bodyConstants body ↔ name ∈ declsConstants body.decls ∨
      name ∈ stmtsConstants body.stmts := by
  cases body
  rw [bodyConstants, List.mem_append, GenerateBody.decls, GenerateBody.stmts]

theorem mem_branchesConstants {branches : List GenerateBranch} {name : Bytes} :
    name ∈ branchesConstants branches ↔
      ∃ body ∈ branches.map GenerateBranch.body, name ∈ bodyConstants body := by
  induction branches with
  | nil => simp [branchesConstants]
  | cons branch rest ih =>
      cases branch
      rw [branchesConstants, List.mem_append, ih, List.map_cons, List.exists_mem_cons_iff,
        GenerateBranch.body]

/-- Of the statements, processes and generate statements have declarations inside. -/
theorem mem_stmtConstants {s : ConcStmt} {name : Bytes} :
    name ∈ stmtConstants s ↔
      (∃ head body, s = .process head body ∧ name ∈ declsConstants body.decls) ∨
        ∃ body ∈ s.generated, name ∈ bodyConstants body := by
  cases s with
  | process head body => simp [stmtConstants, ConcStmt.generated]
  | forGenerate head param range body endLabel => simp [stmtConstants, ConcStmt.generated]
  | ifGenerate head branches endLabel =>
      simp [stmtConstants, ConcStmt.generated, mem_branchesConstants]
  | _ => simp [stmtConstants, ConcStmt.generated]

theorem mem_unitConstants {u : DesignUnit} {name : Bytes} :
    name ∈ unitConstants u ↔ name ∈ genericNames u.generics ∨
      name ∈ declsConstants u.decls ∨ name ∈ stmtsConstants u.stmts := by
  rw [unitConstants, DesignUnit.generics, DesignUnit.decls, DesignUnit.stmts]
  cases u.body <;> simp [genericNames, stmtsConstants]

/-! ## Every region is visited, and nothing else -/

variable {f : DesignFile} {name : Bytes}

theorem StatementPart.mem_constants {stmts : List ConcStmt} (h : f.StatementPart stmts)
    (hname : name ∈ stmtsConstants stmts) : name ∈ f.constants := by
  induction h with
  | unit hu => exact List.mem_flatMap.mpr ⟨_, hu, mem_unitConstants.mpr (.inr (.inr hname))⟩
  | generated _ hs hbody ih =>
      refine ih (mem_stmtsConstants.mpr ⟨_, hs, mem_stmtConstants.mpr (.inr ⟨_, hbody, ?_⟩)⟩)
      exact mem_bodyConstants.mpr (.inr hname)

theorem DeclarativePart.mem_constants {decls : List Decl} (h : f.DeclarativePart decls)
    (hname : name ∈ declsConstants decls) : name ∈ f.constants := by
  induction h with
  | unit hu => exact List.mem_flatMap.mpr ⟨_, hu, mem_unitConstants.mpr (.inr (.inl hname))⟩
  | process hstmts hs =>
      refine hstmts.mem_constants (mem_stmtsConstants.mpr ⟨_, hs, ?_⟩)
      exact mem_stmtConstants.mpr (.inl ⟨_, _, rfl, hname⟩)
  | generated hstmts hs hbody =>
      refine hstmts.mem_constants (mem_stmtsConstants.mpr ⟨_, hs, ?_⟩)
      exact mem_stmtConstants.mpr (.inr ⟨_, hbody, mem_bodyConstants.mpr (.inl hname)⟩)
  | subprogram _ hd ih => exact ih (mem_declsConstants.mpr ⟨_, hd, hname⟩)

theorem DeclaresConstant.mem_constants (h : f.DeclaresConstant name) : name ∈ f.constants := by
  cases h with
  | object hdecls hd hname => exact hdecls.mem_constants (mem_declsConstants.mpr ⟨_, hd, hname⟩)
  | component hdecls hd hitem hname =>
      refine hdecls.mem_constants (mem_declsConstants.mpr ⟨_, hd, ?_⟩)
      exact mem_genericNames.mpr ⟨_, rfl, _, hitem, hname⟩
  | unit hu hgenerics hitem hname =>
      refine List.mem_flatMap.mpr ⟨_, hu, mem_unitConstants.mpr (.inl ?_)⟩
      exact mem_genericNames.mpr ⟨_, hgenerics, _, hitem, hname⟩

mutual

theorem declares_of_mem_decl (d : Decl) {decls : List Decl} (hdecls : f.DeclarativePart decls)
    (hd : d ∈ decls) (hname : name ∈ declConstants d) : f.DeclaresConstant name := by
  cases d with
  | object trivia cls keyword names indication default =>
      rw [declConstants] at hname
      split at hname
      case isFalse => exact absurd hname List.not_mem_nil
      case isTrue hcls =>
        rw [eq_of_beq hcls] at hd
        exact .object hdecls hd hname
  | component trivia component generics ports endLabel tail =>
      obtain ⟨generics, rfl, item, hitem, hname⟩ := mem_genericNames.mp hname
      exact .component hdecls hd hitem hname
  | subprogramBody trivia spec inner declTail stmts endLabel tail =>
      exact declares_of_mem_decls inner (.subprogram hdecls hd) (fun _ hd => hd) hname
  | _ => exact absurd hname List.not_mem_nil

theorem declares_of_mem_decls (ds : List Decl) {decls : List Decl}
    (hdecls : f.DeclarativePart decls) (hds : ds ⊆ decls) (hname : name ∈ declsConstants ds) :
    f.DeclaresConstant name := by
  cases ds with
  | nil => exact absurd hname List.not_mem_nil
  | cons d rest =>
      rw [declsConstants, List.mem_append] at hname
      rw [List.cons_subset] at hds
      rcases hname with hname | hname
      · exact declares_of_mem_decl d hdecls hds.1 hname
      · exact declares_of_mem_decls rest hdecls hds.2 hname

end

theorem DeclarativePart.declares {decls : List Decl} (h : f.DeclarativePart decls)
    (hname : name ∈ declsConstants decls) : f.DeclaresConstant name :=
  declares_of_mem_decls decls h (fun _ hd => hd) hname

mutual

theorem declares_of_mem_stmt (s : ConcStmt) {stmts : List ConcStmt}
    (hstmts : f.StatementPart stmts) (hs : s ∈ stmts) (hname : name ∈ stmtConstants s) :
    f.DeclaresConstant name := by
  cases s with
  | process head body => exact (DeclarativePart.process hstmts hs).declares hname
  | forGenerate head param range body endLabel =>
      exact declares_of_mem_body body hstmts hs List.mem_cons_self hname
  | ifGenerate head branches endLabel =>
      exact declares_of_mem_branches branches hstmts hs (fun _ hbody => hbody) hname
  | _ => exact absurd hname List.not_mem_nil

theorem declares_of_mem_stmts (ss : List ConcStmt) {stmts : List ConcStmt}
    (hstmts : f.StatementPart stmts) (hss : ss ⊆ stmts) (hname : name ∈ stmtsConstants ss) :
    f.DeclaresConstant name := by
  cases ss with
  | nil => exact absurd hname List.not_mem_nil
  | cons s rest =>
      rw [stmtsConstants, List.mem_append] at hname
      rw [List.cons_subset] at hss
      rcases hname with hname | hname
      · exact declares_of_mem_stmt s hstmts hss.1 hname
      · exact declares_of_mem_stmts rest hstmts hss.2 hname

theorem declares_of_mem_body (body : GenerateBody) {stmts : List ConcStmt} {s : ConcStmt}
    (hstmts : f.StatementPart stmts) (hs : s ∈ stmts) (hbody : body ∈ s.generated)
    (hname : name ∈ bodyConstants body) : f.DeclaresConstant name := by
  cases body with
  | mk decls hasBegin inner tail =>
      rw [bodyConstants, List.mem_append] at hname
      rcases hname with hname | hname
      · exact (DeclarativePart.generated hstmts hs hbody).declares hname
      · exact declares_of_mem_stmts inner (.generated hstmts hs hbody) (fun _ hs => hs) hname

theorem declares_of_mem_branches (branches : List GenerateBranch) {stmts : List ConcStmt}
    {s : ConcStmt} (hstmts : f.StatementPart stmts) (hs : s ∈ stmts)
    (hbodies : branches.map GenerateBranch.body ⊆ s.generated)
    (hname : name ∈ branchesConstants branches) : f.DeclaresConstant name := by
  cases branches with
  | nil => exact absurd hname List.not_mem_nil
  | cons branch rest =>
      cases branch with
      | mk cond body =>
          rw [branchesConstants, List.mem_append] at hname
          rw [List.map_cons, List.cons_subset] at hbodies
          rcases hname with hname | hname
          · exact declares_of_mem_body body hstmts hs hbodies.1 hname
          · exact declares_of_mem_branches rest hstmts hs hbodies.2 hname

end

/-- The names collected from a file are those it declares as constants or generics. -/
theorem mem_constants : name ∈ f.constants ↔ f.DeclaresConstant name := by
  refine ⟨fun hname => ?_, DeclaresConstant.mem_constants⟩
  obtain ⟨u, hu, hname⟩ := List.mem_flatMap.mp hname
  rcases mem_unitConstants.mp hname with hname | hname | hname
  · obtain ⟨generics, hgenerics, item, hitem, hname⟩ := mem_genericNames.mp hname
    exact .unit hu hgenerics hitem hname
  · exact (DeclarativePart.unit hu).declares hname
  · exact declares_of_mem_stmts u.stmts (.unit hu) (fun _ hs => hs) hname

end DesignFile

/-! ## Casing of constants -/

namespace Casing

theorem isConstant_iff {c : Casing} {n : Bytes} :
    c.isConstant n = true ↔ CaseMap.toLower n ∈ c.constantNames := List.contains_iff_mem

theorem isConstant_addConstant (c : Casing) (name n : Bytes) :
    (c.addConstant name).isConstant n = true ↔
      c.isConstant n = true ∨ CaseMap.toLower name = CaseMap.toLower n := by
  rw [isConstant_iff, isConstant_iff, addConstant]
  split
  case isTrue hknown =>
    have hknown : CaseMap.toLower name ∈ c.constantNames := List.contains_iff_mem.mp hknown
    exact ⟨.inl, fun h => h.elim id fun heq => heq ▸ hknown⟩
  case isFalse => rw [List.mem_cons, or_comm, eq_comm]

theorem isConstant_foldl (names : List Bytes) (c : Casing) (n : Bytes) :
    (names.foldl addConstant c).isConstant n = true ↔
      c.isConstant n = true ∨ ∃ name ∈ names, CaseMap.toLower name = CaseMap.toLower n := by
  induction names generalizing c with
  | nil => simp
  | cons name rest ih =>
      rw [List.foldl_cons, ih, isConstant_addConstant, List.exists_mem_cons_iff, or_assoc]

end Casing

/-- A basic or an extended identifier. -/
def Bytes.IsIdentifier (w : Bytes) : Prop := w.IsWord ∨ w.head? = some ('\\' : Char).toUInt8

instance Bytes.decidableIsIdentifier (w : Bytes) : Decidable w.IsIdentifier :=
  inferInstanceAs (Decidable (w.IsWord ∨ _))

namespace CaseMap

/-- Of a text that begins with an ASCII character, its lower case begins the lower case. -/
theorem toLower_cons {b : UInt8} (hb : b < 0x80) (rest : Bytes) :
    ∃ tail, toLower (b :: rest) = Bytes.lowerByte b :: tail := by
  obtain ⟨hlower, -, hsmall, -⟩ := ascii_rune b hb
  have hencode : Utf8.encode (Bytes.lowerByte b).toNat = [Bytes.lowerByte b] :=
    (ascii_character _ hsmall).1
  rw [toLower, Utf8.runes, Utf8.glyphs_cons hb, List.map_cons, List.map_cons, Utf8.encodeAll,
    List.flatMap_cons, Utf8.Glyph.ofByte, hlower, hencode]
  exact ⟨_, rfl⟩

/-- Texts that are the same but for letter case begin with the same character. -/
theorem equalFold_cons {b c : UInt8} (hb : b < 0x80) (hc : c < 0x80) {s t : Bytes}
    (h : equalFold (b :: s) (c :: t) = true) : Bytes.lowerByte b = Bytes.lowerByte c := by
  rw [equalFold, beq_iff_eq, Utf8.runes, Utf8.runes, Utf8.glyphs_cons hb, Utf8.glyphs_cons hc,
    List.map_cons, List.map_cons, List.map_cons, List.map_cons] at h
  have hrune := (List.cons.inj h).1
  rw [Utf8.Glyph.ofByte, Utf8.Glyph.ofByte, (ascii_rune b hb).2.1, (ascii_rune c hc).2.1] at hrune
  exact UInt8.toNat_inj.mp hrune

/-- To a basic identifier, looking a name up is comparing it without letter case. -/
theorem toLower_eq_iff_equalFold {name n : Bytes} (hname : name.IsIdentifier) (hn : n.IsWord) :
    toLower name = toLower n ↔ equalFold name n = true := by
  rcases hname with hname | hname
  · rw [toLower_ascii hname.ascii, toLower_ascii hn.ascii, equalFold_ascii hname.ascii hn.ascii]
  · obtain ⟨rest, rfl⟩ : ∃ rest, name = ('\\' : Char).toUInt8 :: rest := by
      cases name with
      | nil => exact absurd hname (by simp)
      | cons b rest => exact ⟨rest, by rw [Option.some.inj hname]⟩
    cases n with
    | nil => exact hn.elim
    | cons c tail =>
        have hc : c < 0x80 := hn.ascii c List.mem_cons_self
        -- a basic identifier starts with a letter, an extended one never does
        have hne : Bytes.lowerByte ('\\' : Char).toUInt8 ≠ Bytes.lowerByte c := by
          intro heq
          have hletter := hn.lower.1
          rw [← heq] at hletter
          exact absurd hletter (by decide)
        obtain ⟨s, hs⟩ := toLower_cons (b := ('\\' : Char).toUInt8) (by decide) rest
        obtain ⟨t, ht⟩ := toLower_cons hc tail
        rw [hs, ht]
        exact ⟨fun heq => absurd (List.cons.inj heq).1 hne,
          fun heq => absurd (equalFold_cons (by decide) hc heq) hne⟩

end CaseMap

/-- In print, a name has the class of constants if and only if the file declares the name, in some
region and some letter case, as a constant or a generic. Letter case is that of looking words up;
between identifiers it is letter case in general. -/
theorem constant_class_is_declared (f : DesignFile) (s : Settings) :
    (∀ n, (f.printer s).casing.isConstant n = true ↔
      ∃ name, f.DeclaresConstant name ∧ CaseMap.toLower name = CaseMap.toLower n) ∧
    ((∀ name, f.DeclaresConstant name → name.IsIdentifier) → ∀ n : Bytes, n.IsWord →
      ((f.printer s).casing.isConstant n = true ↔
        ∃ name, f.DeclaresConstant name ∧ CaseMap.equalFold name n = true)) := by
  have hall (n : Bytes) : (f.printer s).casing.isConstant n = true ↔
      ∃ name, f.DeclaresConstant name ∧ CaseMap.toLower name = CaseMap.toLower n := by
    have hnone : s.casing.isConstant n = false := rfl
    simp [DesignFile.printer, Casing.isConstant_foldl, hnone, DesignFile.mem_constants]
  refine ⟨hall, fun hnames n hn => ?_⟩
  rw [hall]
  refine exists_congr fun name => and_congr_right fun hname => ?_
  exact CaseMap.toLower_eq_iff_equalFold (hnames name hname) hn

/-- A constant in a process inside an arm of a generate statement, used in capitals. -/
theorem constant_class_is_declared_in_process :
    let depth : Decl := .object {} .constant "constant" ["Depth"] default none
    let branch : GenerateBranch := .mk none (.mk [] true [.process {} { decls := [depth] }] [])
    let body : UnitBody := .architecture "e" [] [] [.ifGenerate {} [branch] []]
    let f : DesignFile := { units := [{ name := "a", body := body }] }
    f.DeclaresConstant "Depth" ∧ (∀ name, f.DeclaresConstant name → name.IsIdentifier) ∧
      (f.printer default).casing.isConstant "DEPTH" = true ∧
      (f.printer default).casing.isConstant "clock" = false := by
  intro depth branch body f
  have hconstants : f.constants = ["Depth"] := rfl
  have hdeclares : f.DeclaresConstant "Depth" := DesignFile.mem_constants.mp (by simp [hconstants])
  have hnames : ∀ name, f.DeclaresConstant name → name.IsIdentifier := by
    simp only [← DesignFile.mem_constants, hconstants]
    decide +kernel
  obtain ⟨hall, hwords⟩ := constant_class_is_declared f default
  refine ⟨hdeclares, hnames, ?_, ?_⟩
  · exact (hwords hnames "DEPTH" (by decide +kernel)).mpr ⟨"Depth", hdeclares, by decide⟩
  · rw [← Bool.not_eq_true, hall]
    simp only [← DesignFile.mem_constants, hconstants]
    decide

end VhdlStyle
