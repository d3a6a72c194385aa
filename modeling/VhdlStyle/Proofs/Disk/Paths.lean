import VhdlStyle.Proofs.Disk.Files
import VhdlStyle.Proofs.Text.Splitting

/-! # Paths as texts

The last name of a path is the last name of its place, whatever stands before it. Cleaning keeps
the elements that matter, in a form that further elements are put behind as if it had not been
cleaned. -/

namespace VhdlStyle

/-! ## Names at the end of a path -/

namespace Path

/-- The name of a file or folder: one element that a path neither skips nor takes back. -/
structure Ordinary (name : Bytes) : Prop where
  nonempty : name ≠ []
  here : name ≠ Bytes.ofString "."
  above : name ≠ Bytes.ofString ".."
  one : ('/' : UInt8) ∉ name

instance decidableOrdinary (name : Bytes) : Decidable (Ordinary name) :=
  decidable_of_iff (name ≠ [] ∧ name ≠ Bytes.ofString "." ∧ name ≠ Bytes.ofString ".." ∧
      ('/' : UInt8) ∉ name)
    ⟨fun h => ⟨h.1, h.2.1, h.2.2.1, h.2.2.2⟩, fun h => ⟨h.nonempty, h.here, h.above, h.one⟩⟩

/-- The last element of a path is this name. -/
def EndsIn (path name : Bytes) : Prop := ∃ front, elements path = front ++ [name]

variable {name path : Bytes}

theorem endsIn_join (hname : Ordinary name) (parts : List Bytes) :
    EndsIn (Bytes.join "/" (parts ++ [name])) name := Bytes.split_join_last hname.one parts

theorem EndsIn.absolute (h : EndsIn path name) : EndsIn ('/' :: path) name := by
  obtain ⟨front, hfront⟩ := h
  refine ⟨[] :: front, ?_⟩
  rw [elements] at hfront
  rw [elements, Bytes.split, if_pos (beq_self_eq_true _), hfront, List.cons_append]

theorem EndsIn.append (h : EndsIn path name) (front : Bytes) :
    EndsIn (front ++ ('/' : UInt8) :: path) name := by
  obtain ⟨before, hbefore⟩ := h
  refine ⟨elements front ++ before, ?_⟩
  rw [elements] at hbefore
  rw [elements, Bytes.split_concat, hbefore, elements, List.append_assoc]

/-- A path is its last element, or that stands behind its last slash. -/
theorem EndsIn.exists_front (h : EndsIn path name) :
    path = name ∨ ∃ front, path = front ++ ('/' : UInt8) :: name := by
  obtain ⟨before, hbefore⟩ := h
  cases before with
  | nil => exact .inl (by simpa using Bytes.eq_of_split hbefore)
  | cons first others =>
      have hpath := Bytes.eq_of_split hbefore
      exact .inr ⟨first ++ others.flatMap (('/' : UInt8) :: ·), by simpa using hpath⟩

theorem EndsIn.ne_nil (h : EndsIn path name) (hname : Ordinary name) : path ≠ [] := by
  rintro rfl
  obtain ⟨front, hfront⟩ := h
  have hlast := congrArg List.getLast? hfront
  rw [List.getLast?_concat] at hlast
  exact hname.nonempty (Option.some.inj hlast).symm

theorem pushElement_ordinary (hname : Ordinary name) (absolute : Bool) (kept : List Bytes) :
    pushElement absolute kept name = name :: kept := by
  simp [pushElement, hname.nonempty, hname.here, hname.above]

theorem EndsIn.clean (h : EndsIn path name) (hname : Ordinary name) : EndsIn (clean path) name := by
  obtain ⟨front, hfront⟩ := h
  have hbody (kept : List Bytes) : EndsIn (Bytes.join "/" (name :: kept).reverse) name := by
    rw [List.reverse_cons]
    exact endsIn_join hname kept.reverse
  rw [Path.clean, hfront, List.foldl_append, List.foldl_cons, List.foldl_nil,
    pushElement_ordinary hname]
  split
  · exact (hbody _).absolute
  · rw [Bytes.orElse, if_neg (by simpa using (hbody _).ne_nil hname)]
    exact hbody _

theorem endsIn_pathJoin (hname : Ordinary name) (parts : List Bytes) :
    EndsIn (join (parts ++ [name])) name := by
  have hfilter : (parts ++ [name]).filter (!·.isEmpty) = parts.filter (!·.isEmpty) ++ [name] := by
    simp [hname.nonempty]
  rw [join, hfilter, if_neg (by simp)]
  exact (endsIn_join hname _).clean hname

end Path

/-- The place of a path that ends in a name has that name. -/
theorem Disk.aim_of_endsIn (d : Disk) {path name : Bytes} (h : Path.EndsIn path name)
    (hname : Path.Ordinary name) : ∃ folder, d.aim path = folder ++ [name] := by
  obtain ⟨front, hfront⟩ := h
  refine ⟨front.foldl walk (if Path.isAbsolute path then [] else d.workFolder), ?_⟩
  rw [aim, hfront, List.foldl_append, List.foldl_cons, List.foldl_nil, walk]
  simp [hname.nonempty, hname.here, hname.above]

/-! ## Joined elements -/

theorem Bytes.join_cons_cons (part next : Bytes) (rest : List Bytes) :
    join "/" (part :: next :: rest) = part ++ ('/' : UInt8) :: join "/" (next :: rest) := by
  rw [join, List.intercalate_cons_cons, List.append_assoc]
  rfl

namespace Path

/-! ## Cleaning -/

/-- The elements that cleaning keeps, the last first. -/
def kept (path : Bytes) : List Bytes :=
  (elements path).foldl (pushElement (isAbsolute path)) []

/-- The step to the folder above. -/
def up : Bytes := ".."

/-- What cleaning can keep: names behind steps up, and no steps up from the root. -/
inductive Kept (absolute : Bool) : List Bytes → Prop
  | ups (n : Nat) (h : absolute = true → n = 0) : Kept absolute (List.replicate n up)
  | name {name : Bytes} {steps : List Bytes} (hname : Ordinary name)
      (h : Kept absolute steps) : Kept absolute (name :: steps)

variable {absolute : Bool} {steps : List Bytes}

theorem Kept.pushElement (h : Kept absolute steps) {element : Bytes}
    (hone : ('/' : UInt8) ∉ element) : Kept absolute (pushElement absolute steps element) := by
  unfold Path.pushElement
  by_cases hskip : (element.isEmpty || element == Bytes.ofString ".") = true
  · rw [if_pos hskip]
    exact h
  · rw [if_neg hskip]
    by_cases hup : element = up
    · subst hup
      rw [if_neg (by decide)]
      cases h with
      | ups n habsolute =>
          cases n with
          | zero =>
              cases absolute with
              | true => exact .ups 0 fun _ => rfl
              | false => exact .ups 1 fun hfalse => by cases hfalse
          | succ n => exact .ups (n + 2) fun htrue => by cases habsolute htrue
      | name hname hrest =>
          dsimp only
          rw [if_neg (by simpa using hname.above)]
          exact hrest
    · have hother : (element != Bytes.ofString "..") = true := bne_iff_ne.mpr hup
      rw [if_pos hother]
      simp only [Bool.or_eq_true, List.isEmpty_iff, beq_iff_eq, not_or] at hskip
      exact .name ⟨hskip.1, hskip.2, hup, hone⟩ h

theorem foldl_ups (m n : Nat) : (List.replicate n up).foldl (Path.pushElement false)
    (List.replicate m up) = List.replicate (m + n) up := by
  induction n generalizing m with
  | zero => rfl
  | succ n ih =>
      have hstep : Path.pushElement false (List.replicate m up) up = List.replicate (m + 1) up := by
        cases m <;> rfl
      rw [List.replicate_succ, List.foldl_cons, hstep, ih, Nat.add_right_comm, Nat.add_assoc]

/-- Kept elements are kept again. -/
theorem Kept.foldl_reverse (h : Kept absolute steps) :
    steps.reverse.foldl (Path.pushElement absolute) [] = steps := by
  induction h with
  | ups n habsolute =>
      rw [List.reverse_replicate]
      cases absolute with
      | true =>
          rw [habsolute rfl]
          rfl
      | false => simpa using foldl_ups 0 n
  | name hname hrest ih =>
      rw [List.reverse_cons, List.foldl_append, ih]
      exact pushElement_ordinary hname absolute _

theorem Kept.mem (h : Kept absolute steps) {element : Bytes} (hmem : element ∈ steps) :
    element ≠ [] ∧ ('/' : UInt8) ∉ element := by
  induction h with
  | ups n _ =>
      rw [List.eq_of_mem_replicate hmem]
      decide
  | name hname _ ih =>
      rcases List.mem_cons.mp hmem with rfl | hmem
      · exact ⟨hname.nonempty, hname.one⟩
      · exact ih hmem

theorem kept_kept (path : Bytes) : Kept (isAbsolute path) (kept path) := by
  have hpieces : ∀ element ∈ Bytes.split ('/' : UInt8) path, ('/' : UInt8) ∉ element :=
    Bytes.not_mem_of_split path
  have hrun (rest steps : List Bytes) (hrest : ∀ element ∈ rest, ('/' : UInt8) ∉ element)
      (h : Kept (isAbsolute path) steps) :
      Kept (isAbsolute path) (rest.foldl (Path.pushElement (isAbsolute path)) steps) := by
    induction rest generalizing steps with
    | nil => exact h
    | cons element rest ih =>
        rw [List.forall_mem_cons] at hrest
        exact ih _ hrest.2 (h.pushElement hrest.1)
  exact hrun _ [] hpieces (.ups 0 fun _ => rfl)

/-- The text of a path without its root, from its kept elements. -/
def bodyOf (path : Bytes) : Bytes := Bytes.join "/" (kept path).reverse

theorem clean_eq (path : Bytes) : clean path =
    if isAbsolute path then ('/' : UInt8) :: bodyOf path else (bodyOf path).orElse "." := rfl

theorem elements_bodyOf {path : Bytes} (hne : kept path ≠ []) :
    elements (bodyOf path) = (kept path).reverse :=
  Bytes.split_join (by simpa using hne) fun element hmem =>
    ((kept_kept path).mem (List.mem_reverse.mp hmem)).2

theorem bodyOf_of_kept_nil {path : Bytes} (h : kept path = []) : bodyOf path = [] := by
  rw [bodyOf, h]
  rfl

/-- The text of kept elements starts with a name or a step up. -/
theorem bodyOf_ne {path : Bytes} (hne : kept path ≠ []) :
    bodyOf path ≠ [] ∧ isAbsolute (bodyOf path) = false := by
  have helements := elements_bodyOf hne
  have hempty : [] ∉ elements (bodyOf path) := by
    rw [helements, List.mem_reverse]
    exact fun hmem => ((kept_kept path).mem hmem).1 rfl
  constructor
  · intro hnil
    rw [hnil] at hempty
    exact hempty List.mem_cons_self
  · rw [← Bool.not_eq_true, isAbsolute, beq_iff_eq]
    intro hroot
    obtain ⟨rest, hrest⟩ := List.head?_eq_some_iff.mp hroot
    rw [hrest, elements, Bytes.split, if_pos (beq_self_eq_true _)] at hempty
    exact hempty List.mem_cons_self

theorem isAbsolute_clean (path : Bytes) : isAbsolute (clean path) = isAbsolute path := by
  rw [clean_eq]
  cases habsolute : isAbsolute path with
  | true => rfl
  | false =>
      by_cases hne : kept path = []
      · rw [bodyOf_of_kept_nil hne]
        rfl
      · have hbody := bodyOf_ne hne
        simpa [Bytes.orElse, hbody.1] using hbody.2

theorem clean_ne_nil (path : Bytes) : clean path ≠ [] := by
  rw [clean_eq]
  cases isAbsolute path with
  | true => exact List.cons_ne_nil _ _
  | false =>
      rw [if_neg Bool.false_ne_true]
      cases bodyOf path with
      | nil => decide
      | cons b rest => exact List.cons_ne_nil _ _

/-- A clean path has the elements that cleaning kept. -/
theorem kept_clean (path : Bytes) : kept (clean path) = kept path := by
  have hagain := (kept_kept path).foldl_reverse
  rw [kept, isAbsolute_clean, clean_eq]
  cases habsolute : isAbsolute path with
  | true =>
      rw [habsolute] at hagain
      rw [if_pos rfl, elements, Bytes.split, if_pos (beq_self_eq_true _), List.foldl_cons]
      by_cases hne : kept path = []
      · rw [bodyOf_of_kept_nil hne, hne]
        rfl
      · rw [← elements, elements_bodyOf hne]
        exact hagain
  | false =>
      rw [habsolute] at hagain
      rw [if_neg Bool.false_ne_true]
      by_cases hne : kept path = []
      · rw [bodyOf_of_kept_nil hne, hne]
        rfl
      · rw [Bytes.orElse, if_neg (by simpa using (bodyOf_ne hne).1), elements_bodyOf hne]
        exact hagain

theorem clean_congr {path path' : Bytes} (habsolute : isAbsolute path = isAbsolute path')
    (hkept : kept path = kept path') : clean path = clean path' := by
  rw [clean_eq, clean_eq, bodyOf, bodyOf, habsolute, hkept]

theorem clean_clean (path : Bytes) : clean (clean path) = clean path :=
  clean_congr (isAbsolute_clean path) (kept_clean path)

theorem isAbsolute_append {path : Bytes} (hne : path ≠ []) (rest : Bytes) :
    isAbsolute (path ++ rest) = isAbsolute path := by
  cases path with
  | nil => exact absurd rfl hne
  | cons b path => rfl

theorem kept_append {path : Bytes} (hne : path ≠ []) (rest : Bytes) :
    kept (path ++ ('/' : UInt8) :: rest) =
      (elements rest).foldl (Path.pushElement (isAbsolute path)) (kept path) := by
  rw [kept, isAbsolute_append hne, elements, Bytes.split_concat, List.foldl_append]
  rfl

/-- What stands in front of further elements may be cleaned before. -/
theorem clean_clean_append {path : Bytes} (hne : path ≠ []) (rest : Bytes) :
    clean (clean path ++ ('/' : UInt8) :: rest) = clean (path ++ ('/' : UInt8) :: rest) := by
  refine clean_congr ?_ ?_
  · rw [isAbsolute_append (clean_ne_nil path), isAbsolute_append hne, isAbsolute_clean]
  · rw [kept_append (clean_ne_nil path), kept_append hne, isAbsolute_clean, kept_clean]

theorem join_pair {path name : Bytes} (hpath : path ≠ []) (hname : name ≠ []) :
    join [path, name] = clean (path ++ ('/' : UInt8) :: name) := by
  have hlast : Bytes.join "/" [name] = name := List.intercalate_singleton
  simp [join, hpath, hname, Bytes.join_cons_cons, hlast]

end Path

end VhdlStyle
