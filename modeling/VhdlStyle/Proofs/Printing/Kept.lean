import VhdlStyle.Proofs.Printing.Placed
import VhdlStyle.Proofs.Printing.Units

/-! # Rows of a design in print

The layout of a file comes to each of its rows, at the start of a line or inside a group that is on
one line: one lemma for each construct that has rows inside, from the statements up to the file. -/

namespace VhdlStyle

/-- The layout of the document comes to the rows; it starts a line for them first. -/
def Doc.KeepsRows (o : LayoutOptions) (level : Int) (trail : Nat) (xs : List PlacedRow)
    (d : Doc) : Prop :=
  ∀ x ∈ xs, d.KeepsAnywhere o level trail x

/-- The layouts of the lines of the block come to the rows. -/
def Block.KeepsRows (o : LayoutOptions) (level : Int) (xs : List PlacedRow) (b : Block) : Prop :=
  ∀ x ∈ xs, b.Keeps o level x

namespace Doc

variable {o : LayoutOptions} {level : Int} {trail : Nat} {xs ys : List PlacedRow} {d : Doc}
  {ds es : List Doc}

namespace KeepsRows

theorem nil : d.KeepsRows o level trail [] := fun _ hx => absurd hx List.not_mem_nil

theorem append (hxs : d.KeepsRows o level trail xs) (hys : d.KeepsRows o level trail ys) :
    d.KeepsRows o level trail (xs ++ ys) :=
  fun x hx => (List.mem_append.mp hx).elim (hxs x) (hys x)

theorem head (h : d.KeepsRows o level (trailAfter ds trail) xs) :
    (concat (d :: ds)).KeepsRows o level trail xs := fun x hx => (h x hx).head

theorem cons (h : (concat ds).KeepsRows o level trail xs) (d : Doc) :
    (concat (d :: ds)).KeepsRows o level trail xs := fun x hx => (h x hx).cons d

theorem drop (n : Nat) (h : (concat (ds.drop n)).KeepsRows o level trail xs) :
    (concat ds).KeepsRows o level trail xs := fun x hx => .drop n (h x hx)

theorem append_left (h : (concat ds).KeepsRows o level (trailAfter es trail) xs) :
    (concat (ds ++ es)).KeepsRows o level trail xs :=
  fun x hx => (h x hx).append_left

theorem append_right (h : (concat es).KeepsRows o level trail xs) (ds : List Doc) :
    (concat (ds ++ es)).KeepsRows o level trail xs :=
  fun x hx => (h x hx).append_right ds

/-- Rows inside a statement are inside the labelled one. -/
theorem labeled (h : d.KeepsRows o level 0 xs) (p : Printer) (label : Bytes) :
    (p.labeled label d).KeepsRows o level 0 xs := by
  rw [Printer.labeled]
  split
  · exact h
  · exact .cons (.cons (.head h) _) _

end KeepsRows

end Doc

namespace Block

variable {o : LayoutOptions} {level : Int} {x : PlacedRow} {xs ys : List PlacedRow} {b : Block} {d : Doc}

namespace KeepsRows

theorem nil : b.KeepsRows o level [] := fun _ hx => absurd hx List.not_mem_nil

theorem append (hxs : b.KeepsRows o level xs) (hys : b.KeepsRows o level ys) :
    b.KeepsRows o level (xs ++ ys) :=
  fun x hx => (List.mem_append.mp hx).elim (hxs x) (hys x)

theorem comments (h : b.KeepsRows o level xs) (cs : List Comment) :
    (b.comments cs).KeepsRows o level xs := fun x hx => (h x hx).comments cs

theorem add (h : b.KeepsRows o level xs) (d : Doc) : (b.add d).KeepsRows o level xs :=
  fun x hx => (h x hx).add d

end KeepsRows

/-- Nothing that follows on the line stands at the beginning of an indented block. -/
theorem trailAfter_nest (comment : Bytes) (b : Block) :
    Doc.trailAfter [Doc.inline comment, b.nest] 0 = 0 := by
  rw [Doc.inline, Block.nest]
  split
  · split <;> rfl
  · rfl

/-- The layout of a block comes to each row of it, and to the rows inside. -/
theorem keepsRows_row (h : d.KeepsRows o level 0 xs) (t : RowTrivia) :
    (b.row t d).KeepsRows o level (⟨level, .line d⟩ :: xs) := by
  intro x hx
  rcases List.mem_cons.mp hx with rfl | hx
  · exact keeps_row (Doc.keeps_self o level d) t
  · exact keeps_row (h x hx).keeps t

end Block

/-- The rows of a block are inside the indented block. -/
theorem Doc.KeepsRows.nest {o : LayoutOptions} {level : Int} {xs : List PlacedRow} {b : Block}
    (h : b.KeepsRows o (level + 1) xs) : b.nest.KeepsRows o level 0 xs :=
  fun x hx => (h x hx).nest

namespace Printer

variable (p : Printer) {o : LayoutOptions} {level : Int} {trail : Nat} {x : PlacedRow} {b : Block}

/-! ### Sequential statements -/

theorem Block.Keeps.seqBlock (h : b.Keeps o level x) (stmts : List SeqStmt) :
    (p.seqBlock b stmts).Keeps o level x := by
  induction stmts generalizing b with
  | nil => exact h
  | cons s rest ih => exact ih (h.row _ _)

theorem Block.Keeps.caseAlts (h : b.Keeps o level x) (alts : List CaseAlt) :
    (p.caseAlts b alts).Keeps o level x := by
  induction alts generalizing b with
  | nil => exact h
  | cons alt rest ih =>
      cases alt with
      | mk t choices stmts => exact ih ((h.leading t).add _)

/-- What follows an arm of an if statement starts a line. -/
theorem trailAfter_ifBranches (branches : List IfBranch) :
    Doc.trailAfter (p.ifBranches false branches) 0 = 0 := by
  cases branches with
  | nil => rfl
  | cons branch rest =>
      cases branch
      rfl

mutual

theorem keepsRows_seqStmt (o : LayoutOptions) (level : Int) (s : SeqStmt) :
    (p.seqStmt s).KeepsRows o level 0 (p.innerSeqRows level s) := by
  cases s with
  | ifStmt h branches endLabel =>
      exact .labeled (.append_left (keepsRows_ifBranches o level true branches)) p _
  | caseStmt h matching selector alts endLabel tail =>
      refine .labeled (.cons (.append_right ?_ _) _) p _
      refine .drop 4 (.head ?_)
      exact .nest ((keepsRows_caseAlts o (level + 1) {} alts).comments tail)
  | loop h scheme stmts endLabel tail =>
      refine .labeled (.append_right (.cons (.head ?_) _) _) p _
      exact .nest ((keepsRows_seqBlock o (level + 1) {} stmts).comments tail)
  | signalAssign | varAssign | loopControl | returnStmt | nullStmt | waitStmt | reportStmt
  | assertStmt | call => exact .nil

theorem keepsRows_seqBlock (o : LayoutOptions) (level : Int) (b : Block) (stmts : List SeqStmt) :
    (p.seqBlock b stmts).KeepsRows o level (p.seqRows level stmts) := by
  cases stmts with
  | nil => exact .nil
  | cons s rest =>
      refine .append (fun x hx => ?_) (keepsRows_seqBlock o level _ rest)
      have hrow := Block.keepsRows_row (b := b) (keepsRows_seqStmt o level s) s.head.trivia
      exact Block.Keeps.seqBlock p (hrow x hx) rest

theorem keepsRows_ifBranches (o : LayoutOptions) (level : Int) (first : Bool)
    (branches : List IfBranch) :
    (Doc.concat (p.ifBranches first branches)).KeepsRows o level 0
      (p.branchRows level branches) := by
  cases branches with
  | nil => exact .nil
  | cons branch rest =>
      cases branch with
      | mk cond stmts tail =>
          refine .append (.append_left (.append_right (.head ?_) _))
            (.append_right (keepsRows_ifBranches o level false rest) _)
          rw [p.trailAfter_ifBranches rest]
          exact .nest ((keepsRows_seqBlock o (level + 1) {} stmts).comments tail)

theorem keepsRows_caseAlts (o : LayoutOptions) (level : Int) (b : Block) (alts : List CaseAlt) :
    (p.caseAlts b alts).KeepsRows o level (p.altRows level alts) := by
  cases alts with
  | nil => exact .nil
  | cons alt rest =>
      cases alt with
      | mk t choices stmts =>
          refine .append (fun x hx => ?_) (keepsRows_caseAlts o level _ rest)
          refine Block.Keeps.caseAlts p (Block.keeps_add ?_) rest
          rcases List.mem_cons.mp hx with rfl | hx
          · have hheader := Doc.keeps_self o level (p.choiceHeader choices)
            rw [← Block.trailAfter_nest t.inline (p.seqBlock {} stmts)] at hheader
            exact hheader.append
          · have hinner : (p.seqBlock {} stmts).nest.KeepsRows o level 0
                (p.seqRows (level + 1) stmts) :=
              .nest (keepsRows_seqBlock o (level + 1) {} stmts)
            refine Doc.KeepsAnywhere.keeps ?_
            exact .drop 5 (.head (hinner x hx))

end

/-! ### Tables -/

section

variable {rows : List TableRow} {widths : List Int} {sep : Doc} {x : PlacedRow}

/-- The rows of a table in brackets, where comments may stand below them. -/
theorem keeps_withTail {enabled : Bool} {pad : List Bool} (hsep : sep = .line ∨ sep = .hardLine)
    (tail : List Comment) (hx : x ∈ tableRows level (Columns.table rows sep enabled pad)) :
    (withTail (Columns.table rows sep enabled pad) tail).Includes o level x ∧
      (withTail (Columns.table rows sep enabled pad) tail).Keeps o level 0 x := by
  obtain ⟨widths, htable⟩ := exists_table rows sep enabled pad
  rw [htable] at hx ⊢
  obtain ⟨row, hrow, rfl⟩ := mem_tableRows hx
  have hincludes : (Doc.table rows widths sep).Includes o level ⟨level, .cells widths row⟩ :=
    .table hrow
  have hkeeps (trail : Nat) :
      (Doc.table rows widths sep).Keeps o level trail ⟨level, .cells widths row⟩ :=
    .table hsep hrow
  rw [withTail]
  split
  · exact ⟨hincludes.concat List.mem_cons_self, .head (hkeeps _)⟩
  · exact ⟨hincludes.concat List.mem_cons_self, .head (hkeeps _)⟩

end

theorem keepsRows_interfaceClause (word : Bytes) (l : InterfaceList) :
    (p.interfaceClause word l).KeepsRows o level trail (p.clauseRows (level + 1) (some l)) := by
  intro x hx
  have hx : x ∈ tableRows (level + 1) (p.interfaceTable l.items) := hx
  obtain ⟨hincludes, hkeeps⟩ := keeps_withTail (.inl rfl) l.tail hx
  exact .bracket _ _ hincludes hkeeps

theorem keepsRows_interfaceBlock (generics ports : Option InterfaceList) :
    (p.interfaceBlock generics ports).KeepsRows o level
      (p.clauseRows (level + 1) generics ++ p.clauseRows (level + 1) ports) := by
  have hclause (b : Block) (word : Bytes) (l : InterfaceList) :
      (b.add (p.interfaceClause word l)).KeepsRows o level (p.clauseRows (level + 1) (some l)) :=
    fun x hx => Block.keeps_add (p.keepsRows_interfaceClause word l x hx).keeps
  cases generics with
  | none =>
      cases ports with
      | none => exact .append .nil .nil
      | some ports => exact .append .nil (hclause _ _ ports)
  | some generics =>
      cases ports with
      | none => exact .append (hclause _ _ generics) .nil
      | some ports => exact .append ((hclause _ _ generics).add _) (hclause _ _ ports)

theorem keeps_mapClause (words : Bytes) (m : Option MapList)
    (hx : x ∈ p.mapRows (level + 1) m) :
    (Doc.concat (p.mapClause words m)).Includes o level x ∧
      ∀ trail, (Doc.concat (p.mapClause words m)).KeepsAnywhere o level trail x := by
  cases m with
  | none => cases hx
  | some l =>
      have hx : x ∈ tableRows (level + 1) (p.mapTable l.items) := hx
      obtain ⟨hincludes, hkeeps⟩ := keeps_withTail (.inl rfl) l.tail hx
      have hlist : (p.mapList words l).Includes o level x := hincludes.wrap _ _
      exact ⟨hlist.concat (by simp [mapClause]),
        fun trail => .cons (.head (.wrap _ _ hincludes hkeeps)) _⟩

/-! ### Runs of declarations -/

theorem Block.Keeps.addRun (h : b.Keeps o level x) (run : List DeclRow) :
    (p.addRun b run).Keeps o level x := by
  cases run with
  | nil => exact h
  | cons row rest =>
      cases row with
      | single t body => exact h.row t body
      | object t cells => exact (h.leading t).add _

theorem keepsRows_addRun (b : Block) (run : List DeclRow) :
    (p.addRun b run).KeepsRows o level (p.runRows level run) := by
  cases run with
  | nil => exact .nil
  | cons row rest =>
      cases row with
      | single t body => exact Block.keepsRows_row .nil t
      | object t cells =>
          intro x hx
          obtain ⟨widths, htable⟩ := exists_table
            (objectRow true (.object t cells) :: rest.map (objectRow false)) .hardLine true
            p.objectPad
          rw [runRows, htable] at hx
          obtain ⟨row, hrow, rfl⟩ := mem_tableRows hx
          rw [addRun, htable]
          exact Block.keeps_add (.table (.inr rfl) hrow)

theorem Block.Keeps.addRuns (h : b.Keeps o level x) (runs : List (List DeclRow)) :
    (runs.foldl p.addRun b).Keeps o level x := by
  induction runs generalizing b with
  | nil => exact h
  | cons run runs ih => exact ih (Block.Keeps.addRun p h run)

theorem keeps_addRuns {runs : List (List DeclRow)} {run : List DeclRow} (hrun : run ∈ runs)
    (h : ∀ b, (p.addRun b run).Keeps o level x) (b : Block) :
    (runs.foldl p.addRun b).Keeps o level x := by
  induction runs generalizing b with
  | nil => cases hrun
  | cons first runs ih =>
      rcases List.mem_cons.mp hrun with rfl | hrun
      · exact Block.Keeps.addRuns p (h b) runs
      · exact ih hrun _

theorem Block.Keeps.declBlock (h : b.Keeps o level x) (decls : List Decl) :
    (p.declBlock b decls).Keeps o level x := Block.Keeps.addRuns p h _

theorem keepsRows_ownRows (b : Block) (decls : List Decl) :
    (p.declBlock b decls).KeepsRows o level (p.ownRows level decls) := by
  intro x hx
  obtain ⟨run, hrun, hx⟩ := List.mem_flatMap.mp hx
  exact p.keeps_addRuns hrun (fun b => p.keepsRows_addRun b run x hx) b

/-- Only the first declaration of a run is not an object. -/
theorem exists_run_of_single {t : RowTrivia} {body : Doc} {rows : List DeclRow}
    (h : .single t body ∈ rows) :
    ∃ rest, (.single t body :: rest) ∈ Columns.runs DeclRow.starts rows := by
  rw [← Columns.flatten_runs DeclRow.starts rows] at h
  obtain ⟨run, hrun, h⟩ := List.mem_flatten.mp h
  cases run with
  | nil => cases h
  | cons first rest =>
      rcases List.mem_cons.mp h with rfl | h
      · exact ⟨rest, hrun⟩
      · obtain ⟨t, cells, hobject⟩ := DeclRow.exists_object hrun h
        cases hobject

theorem keeps_declBlock {t : RowTrivia} {body : Doc} {decls : List Decl}
    (h : .single t body ∈ p.declRows decls) (hkeeps : body.Keeps o level 0 x) (b : Block) :
    (p.declBlock b decls).Keeps o level x := by
  obtain ⟨rest, hrun⟩ := exists_run_of_single h
  exact p.keeps_addRuns hrun (fun b => Block.keeps_row hkeeps t) b

/-! ### Declarations -/

theorem keepsRows_subprogramSpec (spec : SubprogramSpec) :
    (p.subprogramSpec spec).KeepsRows o level trail (p.paramRows (level + 1) spec) := by
  intro x hx
  have hx : x ∈ tableRows (level + 1) (p.interfaceTable spec.params) := hx
  rw [subprogramSpec]
  split
  · next hnone =>
      have hparams : spec.params = [] := by
        rw [Bool.and_eq_true, List.isEmpty_iff] at hnone
        exact hnone.1
      rw [hparams] at hx
      cases hx
  · obtain ⟨hincludes, hkeeps⟩ := keeps_withTail (.inl rfl) spec.tail hx
    exact .append_left (.cons (.head (.wrap _ _ hincludes hkeeps)) _)

theorem keepsRows_recordType (name : Bytes) (fields : List RecordField) (endLabel : Bytes)
    (tail : List Comment) :
    (p.recordType name fields endLabel tail).KeepsRows o level 0
      (tableRows (level + 1) (p.recordTable fields)) := by
  intro x hx
  rw [recordType]
  refine .cons (.head (Block.Keeps.nest (Block.Keeps.comments ?_ tail))) _
  split
  · next hempty =>
      rw [List.isEmpty_iff.mp hempty] at hx
      cases hx
  · obtain ⟨widths, htable⟩ := exists_table (recordType.rows
      (fun f => [p.names f.names, .text ":", p.subtype f.indication]) true fields) .hardLine true
      [p.settings.alignColons, true, false]
    rw [recordTable, htable] at hx
    obtain ⟨row, hrow, rfl⟩ := mem_tableRows hx
    rw [htable]
    exact Block.keeps_add (.table (.inr rfl) hrow)

mutual

/-- Only declarations that are rows of their own have rows inside. -/
theorem keepsRows_declRow (o : LayoutOptions) (level : Int) (d : Decl) :
    match p.declRow d with
    | .object .. => p.innerDeclRows level d = []
    | .single _ body => body.KeepsRows o level 0 (p.innerDeclRows level d) := by
  cases d with
  | object t cls word ns s x => rfl
  | type t name definition =>
      cases definition with
      | none => exact .nil
      | some definition =>
          cases definition with
          | record fields endLabel tail =>
              exact .append_right (.head (p.keepsRows_recordType name fields endLabel tail)) _
          | enum | range | array | access => exact .nil
  | component t name generics ports endLabel tail =>
      refine .drop 5 (.head (.nest ?_))
      exact (p.keepsRows_interfaceBlock generics ports).comments tail
  | subprogram t spec => exact .head (p.keepsRows_subprogramSpec spec)
  | subprogramBody t spec decls declTail stmts endLabel tail =>
      refine .append (.append (.head (p.keepsRows_subprogramSpec spec)) ?_) ?_
      · refine .drop 3 (.head (.nest (Block.KeepsRows.comments ?_ declTail)))
        exact .append (p.keepsRows_ownRows {} decls) fun x hx => by
          obtain ⟨t, body, hbody, hkeeps⟩ := keepsRows_declRows o (level + 1) decls x hx
          exact p.keeps_declBlock hbody hkeeps.keeps {}
      · refine .drop 6 (.head (.nest ?_))
        exact (p.keepsRows_seqBlock o (level + 1) {} stmts).comments tail
  | _ => exact .nil

theorem keepsRows_declRows (o : LayoutOptions) (level : Int) (decls : List Decl) :
    ∀ x ∈ p.innerDeclsRows level decls, 
      ∃ t body, .single t body ∈ p.declRows decls ∧ body.KeepsAnywhere o level 0 x := by
  intro x hx
  cases decls with
  | nil => cases hx
  | cons d rest =>
      rcases List.mem_append.mp hx with hx | hx
      · have hrow := keepsRows_declRow o level d
        split at hrow
        · rw [hrow] at hx
          cases hx
        · next t body hdecl =>
            exact ⟨t, body, hdecl ▸ List.mem_cons_self, hrow x hx⟩
      · obtain ⟨t, body, hbody, hkeeps⟩ := keepsRows_declRows o level rest x hx
        exact ⟨t, body, List.mem_cons_of_mem _ hbody, hkeeps⟩

end

theorem keepsRows_declBlock (b : Block) (decls : List Decl) :
    (p.declBlock b decls).KeepsRows o level (p.declPartRows level decls) := by
  refine .append (p.keepsRows_ownRows b decls) fun x hx => ?_
  obtain ⟨t, body, hbody, hkeeps⟩ := p.keepsRows_declRows o level decls x hx
  exact p.keeps_declBlock hbody hkeeps.keeps b

/-! ### Concurrent statements -/

theorem Block.Keeps.concBlock (h : b.Keeps o level x) (stmts : List ConcStmt) :
    (p.concBlock b stmts).Keeps o level x := by
  induction stmts generalizing b with
  | nil => exact h
  | cons s rest ih => exact ih (h.row _ _)

theorem keepsRows_process (label : Bytes) (b : ProcessBody) :
    (p.process label b).KeepsRows o level 0
      (p.declPartRows (level + 1) b.decls ++ p.seqRows (level + 1) b.stmts) := by
  rw [process]
  refine .append_right (.append ?_ ?_) _
  · exact .head (.nest ((p.keepsRows_declBlock {} b.decls).comments b.declTail))
  · refine .drop 3 (.head (.nest ?_))
    exact (p.keepsRows_seqBlock o (level + 1) {} b.stmts).comments b.tail

theorem keepsRows_instantiation (i : Instantiation) :
    (p.instantiation i).KeepsRows o level 0
      (p.mapRows (level + 1 + 1) i.genericMap ++ p.mapRows (level + 1 + 1) i.portMap) := by
  have hmaps : ∀ x ∈ p.mapRows (level + 1 + 1) i.genericMap ++
      p.mapRows (level + 1 + 1) i.portMap, 
      (Doc.concat (p.mapClause "generic map" i.genericMap ++
        p.mapClause "port map" i.portMap)).Includes o (level + 1) x ∧
      ∀ trail, (Doc.concat (p.mapClause "generic map" i.genericMap ++
        p.mapClause "port map" i.portMap)).KeepsAnywhere o (level + 1) trail x := by
    intro x hx
    rcases List.mem_append.mp hx with hx | hx
    · obtain ⟨hincludes, hkeeps⟩ := p.keeps_mapClause "generic map" i.genericMap hx
      exact ⟨hincludes.append_left _, fun trail => (hkeeps _).append_left⟩
    · obtain ⟨hincludes, hkeeps⟩ := p.keeps_mapClause "port map" i.portMap hx
      exact ⟨hincludes.append_right _, fun trail => (hkeeps _).append_right _⟩
  intro x hx
  obtain ⟨hincludes, hkeeps⟩ := hmaps x hx
  refine .head (.group ?_ (.cons (.head (.indent (hkeeps _))) _))
  exact hincludes.indent.concat (List.mem_cons_of_mem _ List.mem_cons_self)

mutual

theorem keepsRows_concStmt (o : LayoutOptions) (level : Int) (s : ConcStmt) :
    (p.concStmt s).KeepsRows o level 0 (p.innerConcRows level s) := by
  cases s with
  | process h body => exact .labeled (p.keepsRows_process _ _) p _
  | instantiation h inst => exact .labeled (p.keepsRows_instantiation inst) p _
  | forGenerate h param range body endLabel =>
      exact .labeled (.drop 9 (.head (keepsRows_generateBody o level body))) p _
  | ifGenerate h branches endLabel =>
      exact .labeled (.append_left (keepsRows_generateBranches o level true branches)) p _
  | assign | selectedAssign | assertStmt | call => exact .nil

theorem keepsRows_concBlock (o : LayoutOptions) (level : Int) (b : Block) (stmts : List ConcStmt) :
    (p.concBlock b stmts).KeepsRows o level (p.concRows level stmts) := by
  cases stmts with
  | nil => exact .nil
  | cons s rest =>
      refine .append (fun x hx => ?_) (keepsRows_concBlock o level _ rest)
      have hrow := Block.keepsRows_row (b := b) (keepsRows_concStmt o level s) s.head.trivia
      exact Block.Keeps.concBlock p (hrow x hx) rest

theorem keepsRows_generateBody (o : LayoutOptions) (level : Int) (body : GenerateBody) :
    (p.generateBody body).KeepsRows o level 0 (p.bodyRows level body) := by
  cases body with
  | mk decls hasBegin stmts tail =>
      refine .append ?_ (.append_right (.head (.nest ?_)) _)
      · cases hasBegin with
        | false => exact .nil
        | true => exact .append_left (.head (.nest (p.keepsRows_declBlock {} decls)))
      · exact (keepsRows_concBlock o (level + 1) {} stmts).comments tail

theorem keepsRows_generateBranches (o : LayoutOptions) (level : Int) (first : Bool)
    (branches : List GenerateBranch) :
    (Doc.concat (p.generateBranches first branches)).KeepsRows o level 0
      (p.generateRows level branches) := by
  cases branches with
  | nil => exact .nil
  | cons branch rest =>
      cases branch with
      | mk cond body =>
          refine .append (.append_left (.append_right (.cons (.head ?_) _) _))
            (.append_right (keepsRows_generateBranches o level false rest) _)
          have htrail : Doc.trailAfter (p.generateBranches false rest) 0 = 0 := by
            cases rest with
            | nil => rfl
            | cons branch rest => cases branch; rfl
          rw [htrail]
          exact keepsRows_generateBody o level body

end

/-! ### Units and files -/

theorem keepsRows_unitBody (u : DesignUnit) :
    (p.unitBody u).KeepsRows o level 0 (p.bodyOfUnitRows level u) := by
  rw [unitBody, bodyOfUnitRows]
  have hdeclared (b : Block) (xs : List PlacedRow) (decls : List Decl)
      (hb : b.KeepsRows o (level + 1) xs) :
      (p.declBlock b decls).KeepsRows o (level + 1) (xs ++ p.declPartRows (level + 1) decls) :=
    .append (fun x hx => Block.Keeps.declBlock p (hb x hx) decls)
      (p.keepsRows_declBlock b decls)
  cases u.body with
  | entity generics ports decls hasBegin stmts =>
      have hdecls := hdeclared _ _ decls (p.keepsRows_interfaceBlock generics ports)
      refine .append_left (.append_right ?_ _)
      cases hasBegin with
      | false => exact .append (.head (.nest (hdecls.comments u.tail))) .nil
      | true =>
          refine .append (.head (.nest hdecls)) (.drop 3 (.head (.nest ?_)))
          exact (p.keepsRows_concBlock o (level + 1) {} stmts).comments u.tail
  | architecture entityName decls declTail stmts =>
      refine .append (.drop 9 (.head (.nest ?_))) (.drop 12 (.head (.nest ?_)))
      · exact (p.keepsRows_declBlock {} decls).comments declTail
      · exact (p.keepsRows_concBlock o (level + 1) {} stmts).comments u.tail
  | package generics decls =>
      have hgenerics : (p.interfaceBlock generics none).KeepsRows o (level + 1)
          (p.clauseRows (level + 1 + 1) generics) := by
        simpa only [clauseRows, List.append_nil] using p.keepsRows_interfaceBlock generics none
      exact .drop 5 (.head (.nest ((hdeclared _ _ decls hgenerics).comments u.tail)))
  | packageBody decls =>
      exact .drop 5 (.head (.nest ((p.keepsRows_declBlock {} decls).comments u.tail)))

theorem Block.Keeps.contextItems (h : b.Keeps o level x) (items : List ContextItem) :
    (items.foldl (fun b item => b.row item.trivia (p.contextItem item)) b).Keeps o level x := by
  induction items generalizing b with
  | nil => exact h
  | cons item rest ih => exact ih (h.row _ _)

theorem keepsRows_contextItems (b : Block) (items : List ContextItem) :
    (items.foldl (fun b item => b.row item.trivia (p.contextItem item)) b).KeepsRows o level
      (items.map fun item => ⟨level, .line (p.contextItem item)⟩) := by
  induction items generalizing b with
  | nil => exact .nil
  | cons item rest ih =>
      have hrow : (b.row item.trivia (p.contextItem item)).KeepsRows o level
          [⟨level, .line (p.contextItem item)⟩] := Block.keepsRows_row .nil item.trivia
      intro x hx
      rcases List.mem_cons.mp hx with rfl | hx
      · exact Block.Keeps.contextItems p (hrow _ List.mem_cons_self) rest
      · exact ih _ x hx

/-- The rows of a unit are kept where the unit starts a line. -/
theorem keeps_designUnit (u : DesignUnit) {x : PlacedRow} (hx : x ∈ p.unitRows level u) :
    (p.designUnit u).Keeps o level 0 x := by
  rw [designUnit]
  refine Block.Keeps.doc ?_
  rcases List.mem_append.mp hx with hx | hx
  · exact (p.keepsRows_contextItems {} u.context x hx).row _ _
  · exact Block.keeps_row (p.keepsRows_unitBody u x hx).keeps u.trivia

theorem Block.Keeps.units (h : b.Keeps o level x) (us : List DesignUnit) :
    (us.foldl (fun b u => b.blank.add (p.designUnit u)) b).Keeps o level x := by
  induction us generalizing b with
  | nil => exact h
  | cons u rest ih => exact ih (h.blank.add _)

theorem keeps_units {us : List DesignUnit} {u : DesignUnit} (hu : u ∈ us)
    (h : (p.designUnit u).Keeps o level 0 x) (b : Block) :
    (us.foldl (fun b u => b.blank.add (p.designUnit u)) b).Keeps o level x := by
  induction us generalizing b with
  | nil => cases hu
  | cons first rest ih =>
      rcases List.mem_cons.mp hu with rfl | hu
      · exact Block.Keeps.units p (Block.keeps_add h) rest
      · exact ih hu _

end Printer

namespace DesignFile

theorem keeps_document (f : DesignFile) (s : Settings) {o : LayoutOptions} {x : PlacedRow}
    (hx : x ∈ f.rows s) : (f.document s).Keeps o 0 0 x := by
  obtain ⟨u, hu, hx⟩ := List.mem_flatMap.mp hx
  rw [document, Printer.designFile]
  exact (((f.printer s).keeps_units hu ((f.printer s).keeps_designUnit u hx) {}).comments
    f.trailing).doc

/-- The layout of the printed file comes to the row at a place, for the row itself. -/
structure LaysOut (f : DesignFile) (s : Settings) (newline : Bytes) (x : PlacedRow)
    (v : Place) : Prop where
  reaches : (f.document s).Reaches (s.layout newline).normalize ⟨0, false, 0, {}⟩ x.row v
  startsAt : x.StartsAt (s.layout newline).normalize v

/-- Every row of a file has a place. -/
theorem exists_place (f : DesignFile) (s : Settings) (newline : Bytes) {x : PlacedRow}
    (hx : x ∈ f.rows s) : ∃ v, f.LaysOut s newline x v := by
  obtain ⟨v, hreach, hstarts⟩ := f.keeps_document s hx {} (Writer.startsLine_start _)
  exact ⟨v, hreach, hstarts⟩

/-- What is written for a row stays in what is written for the file. -/
theorem LaysOut.staysIn {f : DesignFile} {s : Settings} {newline : Bytes} {x : PlacedRow}
    {v : Place} (h : f.LaysOut s newline x v) :
    (x.row.behind (s.layout newline).normalize v).StaysIn
      ((f.document s).write (s.layout newline).normalize 0 false 0 {}) := h.reaches.staysIn

theorem result_isPrefix (f : DesignFile) (s : Settings) (newline : Bytes) :
    ((f.document s).write (s.layout newline).normalize 0 false 0 {}).result <+:
      f.render s newline := by
  rw [render, Doc.page]
  change (f.document s).render (s.layout newline) <+: _
  split
  · next hempty =>
      have hnil := List.isEmpty_iff.mp hempty
      exact ⟨[], (List.append_nil _).trans hnil⟩
  · exact List.prefix_append _ _

end DesignFile

end VhdlStyle
