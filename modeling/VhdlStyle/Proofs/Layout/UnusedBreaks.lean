import VhdlStyle.Proofs.Layout.Sheets

/-! # Lines with breaks that were not taken

A group stays on its line if it fits there with what follows it up to the next place where a line
may break, and that place may stand in a later group that then stays on the line as well. Still no
line with a break that was not taken is wider than lines may be: what has been decided always
leaves room for the beginning of what is to come. The measure of texts plays no part in this, as
long as a space takes one cell. -/

namespace VhdlStyle

/-! ## Room for what follows -/

/-- The lines above that have a break not taken fit, and the current one does with `room` more
cells on it. -/
structure Sheet.Fits (measure : Bytes → Nat) (o : LayoutOptions) (room : Nat) (s : Sheet) :
    Prop where
  above : ∀ l ∈ s.above, l.hasUnused = true → l.width measure o ≤ o.width
  current : s.current.hasUnused = true → s.current.width measure o + room ≤ o.width

namespace Sheet.Fits

variable {measure : Bytes → Nat} {o : LayoutOptions} {room : Nat} {s : Sheet}

theorem mono (h : Fits measure o room s) {less : Nat} (hle : less ≤ room) :
    Fits measure o less s := by
  refine ⟨h.above, ?_⟩
  intro hunused
  have hcurrent := h.current hunused
  omega

theorem mem_lines (h : Fits measure o 0 s) {l : Line} (hl : l ∈ s.lines)
    (hunused : l.hasUnused = true) : l.width measure o ≤ o.width := by
  rcases List.mem_cons.mp hl with rfl | hl
  · simpa using h.current hunused
  · exact h.above l hl hunused

/-- Nothing has been left unused on a new line. -/
theorem newline (h : Fits measure o 0 s) (indent : Int) (room : Nat) :
    Fits measure o room (s.newline indent) := by
  refine ⟨?_, nofun⟩
  intro l hl hunused
  exact h.mem_lines hl hunused

/-- A text takes its width from the room. -/
theorem add_text {t : Bytes} (h : Fits measure o (measure t + room) s) :
    Fits measure o room (s.add (.text t)) := by
  refine ⟨h.above, ?_⟩
  intro hunused
  have hbefore : s.current.hasUnused = true := by simpa [Sheet.add, Mark.isUnused] using hunused
  have hcurrent := h.current hbefore
  simp only [Sheet.add, Line.width_add, Mark.width]
  omega

/-- After the first line of a text, nothing on the line has been left unused. -/
theorem textLines (h : Fits measure o 0 s) (line : Bytes) (lines : List Bytes) (room : Nat) :
    Fits measure o room (s.textLines (line :: lines)) := by
  induction lines generalizing s line with
  | nil => exact (h.newline 0 _).add_text
  | cons next lines ih => exact ih (h.newline 0 _).add_text next

end Sheet.Fits

theorem Sheet.text_of_not_mem (s : Sheet) {t : Bytes} (h : Bytes.lf ∉ t) :
    s.text t = if t.isEmpty then s else s.add (.text t) := by
  rw [Sheet.text, Bytes.split_of_not_mem h]
  rfl

/-! ### In a group that fits -/

/-- What has been added to the sheet stands on its last line and takes at most the cells. -/
structure Sheet.Extends (measure : Bytes → Nat) (o : LayoutOptions) (s t : Sheet) (cells : Nat) :
    Prop where
  above : t.above = s.above
  width : t.current.width measure o ≤ s.current.width measure o + cells

namespace Sheet.Extends

variable {measure : Bytes → Nat} {o : LayoutOptions} {s t u : Sheet} {m n : Nat}

theorem refl (s : Sheet) : Extends measure o s s n := ⟨rfl, by omega⟩

theorem add (s : Sheet) (mark : Mark) :
    Extends measure o s (s.add mark) (mark.width measure) :=
  ⟨rfl, Int.le_of_eq (Line.width_add measure o s.current mark)⟩

theorem trans (h : Extends measure o s t m) (hnext : Extends measure o t u n) :
    Extends measure o s u (m + n) := by
  refine ⟨hnext.above.trans h.above, ?_⟩
  have hfirst := h.width
  have hsecond := hnext.width
  omega

/-- Where the whole of it has room, so has what follows. -/
theorem fits (h : Extends measure o s t n) {room less : Nat} (hs : Fits measure o less s)
    (hroom : s.current.width measure o + n + room ≤ o.width) : Fits measure o room t := by
  constructor
  · rw [h.above]
    exact hs.above
  · intro _
    have hwidth := h.width
    omega

mutual

theorem lay (hspace : measure [Bytes.space] = 1) (indent : Int) (trail : Nat) {p : Prose}
    (h : (p.flat measure).forced = false) (s : Sheet) :
    Extends measure o s (p.lay measure o indent true trail s) (p.flat measure).width := by
  cases p with
  | text t =>
      rw [Prose.flat] at h ⊢
      by_cases hlf : Bytes.lf ∈ t
      · rw [if_pos (List.contains_iff_mem.mpr hlf)] at h
        cases h
      · rw [if_neg (by simpa using hlf), Prose.lay, s.text_of_not_mem hlf]
        split
        · exact refl s
        · exact add s (.text t)
  | line =>
      have hadd : Extends measure o s (s.add (.unused true)) (measure [Bytes.space]) :=
        add s (.unused true)
      rw [hspace] at hadd
      exact hadd
  | softLine => exact add s (.unused false)
  | hardLine => cases h
  | indent levels body => exact lay hspace (indent + levels) trail (p := body) h s
  | group body => exact lay hspace indent trail (p := body) h s
  | concat parts => exact layAll hspace indent trail h s

theorem layAll (hspace : measure [Bytes.space] = 1) (indent : Int) (trail : Nat)
    {ps : List Prose} (h : (Prose.flatAll measure ps).forced = false) (s : Sheet) :
    Extends measure o s (Prose.layAll measure o indent true trail ps s)
      (Prose.flatAll measure ps).width := by
  cases ps with
  | nil => exact refl s
  | cons p rest =>
      rw [Prose.flatAll, Doc.Flat.forced_append, Bool.or_eq_false_iff] at h
      exact (lay hspace indent _ h.1 s).trans (layAll hspace indent trail h.2 _)

end

end Sheet.Extends

/-! ### In a broken group -/

theorem Doc.firstLine_of_split {t first : Bytes} {rest : List Bytes}
    (h : Bytes.split Bytes.lf t = first :: rest) : firstLine t = first := by
  have hfirst : Bytes.lf ∉ first := by
    refine Bytes.not_mem_of_split t first ?_
    rw [h]
    exact List.mem_cons_self
  rw [firstLine, Bytes.eq_of_split h]
  cases rest with
  | nil => simpa using Bytes.takeWhile_bne hfirst
  | cons line lines => exact Bytes.takeWhile_bne_append hfirst _

namespace Sheet.Fits

variable {measure : Bytes → Nat} {o : LayoutOptions} {s : Sheet}

theorem first_line {first : Bytes} {room : Nat} (h : Fits measure o (measure first + room) s) :
    Fits measure o room (if first.isEmpty then s else s.add (.text first)) := by
  split
  · exact h.mono (Nat.le_add_left _ _)
  · exact h.add_text

theorem text {t : Bytes} {trail : Nat}
    (h : Fits measure o (Prose.reach ((Prose.text t).lead measure) trail) s) :
    Fits measure o trail (s.text t) := by
  obtain ⟨first, rest, hsplit⟩ := List.exists_cons_of_ne_nil (Bytes.split_ne_nil Bytes.lf t)
  rw [Prose.lead, Doc.firstLine_of_split hsplit] at h
  rw [Sheet.text, hsplit]
  cases rest with
  | nil =>
      have hlf : Bytes.lf ∉ t := by
        refine Bytes.not_mem_of_split t t ?_
        rw [hsplit, Bytes.eq_of_split hsplit]
        simp
      have hno : t.contains Bytes.lf = false := by simpa using hlf
      rw [hno] at h
      exact h.first_line
  | cons line lines =>
      have hyes : t.contains Bytes.lf = true := by
        rw [Bytes.eq_of_split hsplit]
        simp
      rw [hyes] at h
      have hfirst : Fits measure o (measure first + 0) s := h
      exact hfirst.first_line.textLines line lines trail

mutual

theorem lay (hspace : measure [Bytes.space] = 1) (indent : Int) (trail : Nat) (p : Prose)
    {s : Sheet} (h : Fits measure o (Prose.reach (p.lead measure) trail) s) :
    Fits measure o trail (p.lay measure o indent false trail s) := by
  cases p with
  | text t => exact h.text
  | line => exact h.newline indent trail
  | softLine => exact h.newline indent trail
  | hardLine => exact h.newline indent trail
  | indent levels body => exact lay hspace (indent + levels) trail body h
  | group body =>
      rw [Prose.lay, Bool.false_or]
      by_cases hfits : (body.flat measure).forced = false ∧
          s.current.width measure o + (body.flat measure).width + trail ≤ o.width
      · rw [hfits.1, decide_eq_true hfits.2]
        exact (Extends.lay hspace indent trail hfits.1 s).fits h hfits.2
      · have hbroken : (!(body.flat measure).forced && decide
            (s.current.width measure o + (body.flat measure).width + trail ≤ o.width)) = false := by
          simpa using hfits
        rw [hbroken]
        exact lay hspace indent trail body h
  | concat parts => exact layAll hspace indent trail parts h

theorem layAll (hspace : measure [Bytes.space] = 1) (indent : Int) (trail : Nat)
    (ps : List Prose) {s : Sheet}
    (h : Fits measure o (Prose.reach (Prose.leadAll measure ps) trail) s) :
    Fits measure o trail (Prose.layAll measure o indent false trail ps s) := by
  cases ps with
  | nil =>
      rw [Prose.leadAll, Prose.reach, Nat.zero_add] at h
      exact h
  | cons p rest =>
      rw [Prose.reach_leadAll_cons] at h
      exact layAll hspace indent trail rest (lay hspace indent _ p h)

end

end Sheet.Fits

/-- A break that was not taken, a space or nothing in a group that stays on its line, stands on a
line that is no wider than lines may be; so a line that is wider has none of them. The width of a
line counts its indentation and its texts in any measure in which a space takes one cell. In the
cells of a terminal the lines are those of the rendered text. -/
theorem unused_breaks_fit {d : Doc} (hd : d.isProse = true) (o : LayoutOptions) :
    ∃ p : Prose, p.doc = d ∧
      (p.sheet Cells.width o).output o.normalize = d.render o ∧
      ∀ measure : Bytes → Nat, measure [Bytes.space] = 1 →
        ∀ l ∈ (p.sheet measure o).lines, l.hasUnused = true →
          l.width measure o.normalize ≤ o.normalize.width := by
  obtain ⟨p, rfl⟩ := Prose.exists_doc hd
  refine ⟨p, rfl, (p.render_doc o).symm, ?_⟩
  intro measure hspace l hl hunused
  have hstart : ∀ room, Sheet.Fits measure o.normalize room { current := ⟨0, []⟩ } :=
    fun room => ⟨nofun, nofun⟩
  exact ((hstart _).lay hspace 0 0 p).mem_lines hl hunused

/-- Two words, and a mark that follows them, on a line of just their width. -/
theorem unused_breaks_fit_of_words :
    ∃ p : Prose, p.doc = .concat [.group (.concat [.text "ab", .line, .text "cd"]), .text ";"] ∧
      (p.sheet Cells.width { width := 6 }).output { width := 6 } = "ab cd;" ∧
      ∀ measure : Bytes → Nat, measure [Bytes.space] = 1 →
        ∀ l ∈ (p.sheet measure { width := 6 }).lines, l.hasUnused = true →
          l.width measure { width := 6 } ≤ 6 := by
  obtain ⟨p, hdoc, hrender, hfits⟩ := unused_breaks_fit
    (d := .concat [.group (.concat [.text "ab", .line, .text "cd"]), .text ";"]) rfl { width := 6 }
  exact ⟨p, hdoc, hrender.trans (by decide), hfits⟩

end VhdlStyle
