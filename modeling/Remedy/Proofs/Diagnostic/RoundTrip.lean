import Remedy.Analysis
import Remedy.Proofs.Actions
import Remedy.Proofs.Diagnostic.Grammar
import Remedy.Proofs.Text.Ascii

/-!
# Diagnostics that are written and read again

A diagnostic is `WellFormed` if its line can be read at all: its texts are lines without white space
at the ends, and no heading stands in its file behind the first character. The line of a well-formed
diagnostic with numbers that are not too long is read as that diagnostic (`ofLine_format`), and what
the reader finds is well-formed (`wellFormed_of_ofLine`), so that rendering what was read and
reading it again changes nothing but the line that is kept with each diagnostic (`reread`).
-/

set_option autoImplicit false

namespace Remedy.Diagnostic

open Remedy.Text

/-- A text that can stand in a line of its own and is left as it is by stripping. -/
structure IsLine (s : String) : Prop where
  nonempty : s ≠ ""
  strip : strip s.toList = s.toList
  isBreak : ∀ c ∈ s.toList, isBreak c = false

/-- A diagnostic whose line can be read. The last clause says that no heading stands in the file
behind its first character. -/
structure WellFormed (d : Diagnostic) : Prop where
  file : IsLine d.file
  message : IsLine d.message
  code : IsRun isCodeChar d.code.toList
  line : 1 ≤ d.line
  column : 1 ≤ d.column
  inner : ∀ (q : List Char) (h : Heading) (r : List Char), h.Proper →
    d.file.toList = q ++ (h.text ++ r) → q = []

/-- The line and the column have no more digits than a number may be read from. -/
def Short (d : Diagnostic) : Prop :=
  d.line < 10 ^ Json.digitLimit ∧ d.column < 10 ^ Json.digitLimit

/-- The diagnostic that is read from the line of a diagnostic. -/
def reread (d : Diagnostic) : Diagnostic := { d with raw := d.format }

/-- The text of diagnostics, one in a line. -/
def rendered (ds : List Diagnostic) : String := String.intercalate "\n" (ds.map format)

/-! ### The line of a diagnostic -/

section Format

variable {d : Diagnostic}

/-- How the line of a diagnostic is laid out. -/
def layout (d : Diagnostic) : Layout where
  path := d.file.toList
  heading :=
    { line := Nat.toDigits 10 d.line
      column := Nat.toDigits 10 d.column
      gap := [' ']
      space := [' ']
      code := d.code.toList }
  message := ' ' :: d.message.toList

theorem toList_format (d : Diagnostic) : d.format.toList = d.layout.text := by
  simp [format, location, layout, Layout.text, Heading.text, toString, Nat.toList_repr]

theorem isRun_toDigits (n : Nat) : IsRun isDigit (Nat.toDigits 10 n) :=
  ⟨Nat.toDigits_ne_nil, fun _ hc ↦ isDigit_of_mem_toDigits hc⟩

theorem layout_of (hfile : IsLine d.file) (hcode : IsRun isCodeChar d.code.toList) :
    d.layout.Of d.format.toList where
  eq := toList_format d
  path := by simpa [layout] using hfile.nonempty
  heading := ⟨isRun_toDigits _, isRun_toDigits _, by simpa [layout] using by decide,
    ⟨by simp [layout], by simpa [layout] using by decide⟩, hcode⟩
  message := by simp [layout]

theorem WellFormed.layout_of (h : d.WellFormed) : d.layout.Of d.format.toList :=
  Diagnostic.layout_of h.file h.code

theorem WellFormed.layout_placed (h : d.WellFormed) : d.layout.Placed where
  line := by simpa [layout, numeral_toDigits] using h.line
  column := by simpa [layout, numeral_toDigits] using h.column
  path := by simpa [layout, h.file.strip] using h.file.nonempty

/-- Behind its first character a heading has no opening parenthesis. -/
theorem Heading.Proper.not_mem_tail {h : Heading} (hproper : h.Proper) : '(' ∉ h.text.tail := by
  have hfree : ∀ {p : Char → Bool} {cs : List Char}, p '(' = false → (∀ c ∈ cs, p c = true) →
      '(' ∉ cs := fun hp hall hmem ↦ by simp [hall _ hmem] at hp
  simp [Heading.text, hfree (by decide) hproper.line.2, hfree (by decide) hproper.column.2,
    hfree (by decide) hproper.gap, hfree (by decide) hproper.space.2,
    hfree (by decide) hproper.code.2]

/-- Where no parenthesis opens behind the first character, no heading stands there. -/
theorem eq_nil_of_heading {cs q r : List Char} {h : Heading} (hfree : '(' ∉ cs.tail)
    (heq : cs = q ++ (h.text ++ r)) : q = [] := by
  cases q with
  | nil => rfl
  | cons c q =>
    rw [heq] at hfree
    simp [Heading.text] at hfree

/-- The file of a well-formed diagnostic is the shortest path of its line: a heading that begins in
the file does not end there, and the parenthesis behind the file is none that a heading can go on
with. -/
theorem WellFormed.layout_first (h : d.WellFormed) : d.layout.First d.format.toList where
  toOf := h.layout_of
  least := by
    intro g hof
    by_contra hshorter
    have heq : g.path ++ (g.heading.text ++ g.message) =
        d.file.toList ++ (d.layout.heading.text ++ d.layout.message) :=
      hof.eq.symm.trans h.layout_of.eq
    obtain ⟨rest, hfile, hrest⟩ | ⟨rest, hpath, -⟩ := List.append_eq_append_iff.mp heq
    · obtain ⟨rest', hinside, -⟩ | ⟨rest', hover, hbehind⟩ := List.append_eq_append_iff.mp hrest
      · rw [hinside] at hfile
        exact hof.path (h.inner _ _ _ hof.heading hfile)
      · cases rest' with
        | nil =>
          rw [List.append_nil] at hover
          exact hof.path (h.inner _ _ [] hof.heading (by rw [hover, List.append_nil, hfile]))
        | cons c rest' =>
          obtain rfl : '(' = c := (List.cons.inj hbehind).1
          cases rest with
          | nil => exact hshorter (by rw [layout, hfile, List.append_nil])
          | cons c rest =>
            refine hof.heading.not_mem_tail ?_
            rw [hover]
            simp
    · exact hshorter (by rw [layout, hpath]; simp)

/-- The line of a well-formed diagnostic is read as that diagnostic. -/
theorem ofLine_format (h : d.WellFormed) (hshort : d.Short) :
    ofLine d.format.toList = .ok (some d.reread) := by
  have hdigits : d.layout.Short :=
    ⟨(Nat.length_toDigits_le_iff (by decide) (by decide)).mpr hshort.1,
      (Nat.length_toDigits_le_iff (by decide) (by decide)).mpr hshort.2⟩
  rw [ofLine_of_placed h.layout_first hdigits h.layout_placed]
  have hmessage : strip (' ' :: d.message.toList) = d.message.toList := by
    rw [strip, List.dropWhile_cons_of_pos (by decide)]
    exact h.message.strip
  simp [reread, Layout.diagnostic, layout, numeral_toDigits, h.file.strip, hmessage]

end Format

/-! ### What the reader finds -/

section Found

variable {line : List Char} {d : Diagnostic}

theorem isBreak_strip {cs : List Char} (h : ∀ c ∈ cs, isBreak c = false) :
    ∀ c ∈ strip cs, isBreak c = false :=
  fun c hc ↦ h c ((strip_isInfix cs).subset hc)

/-- In the stripped path of the first layout no heading stands behind the first character, since the
line would have a layout with a shorter path. -/
theorem Layout.First.inner {g : Layout} (hfirst : g.First line) {q r : List Char} {h : Heading}
    (hproper : h.Proper) (heq : strip g.path = q ++ (h.text ++ r)) : q = [] := by
  by_contra hne
  obtain ⟨before, behind, hpath⟩ := strip_isInfix g.path
  let g' : Layout := ⟨before ++ q, h, r ++ (behind ++ (g.heading.text ++ g.message))⟩
  have hof : g'.Of line :=
    { eq := by
        have hline : line = before ++ strip g.path ++ behind ++ (g.heading.text ++ g.message) := by
          rw [hpath]
          exact hfirst.eq
        simp only [hline, heq, g', Layout.text, List.append_assoc]
      path := by simp [g', hne]
      heading := hproper
      message := List.append_ne_nil_of_right_ne_nil _ (List.append_ne_nil_of_right_ne_nil _
        (List.append_ne_nil_of_right_ne_nil _ hfirst.message)) }
  have hle := hfirst.least g' hof
  rw [← hpath, heq] at hle
  have hpos : 0 < h.text.length := by simp [Heading.text]
  simp only [g', List.length_append] at hle
  omega

/-- What is found in a stripped line without a break can be written and read again. -/
theorem wellFormed_of_ofLine (h : ofLine line = .ok (some d)) (hstrip : strip line = line)
    (hbreak : ∀ c ∈ line, isBreak c = false) : d.WellFormed ∧ d.Short := by
  obtain ⟨g, hfirst, hshort, hplaced, rfl⟩ := exists_layout_of_ofLine h
  have hpath : ∀ c ∈ g.path, isBreak c = false := fun c hc ↦
    hbreak c (by simp [hfirst.eq, Layout.text, hc])
  have hmessage : ∀ c ∈ g.message, isBreak c = false := fun c hc ↦
    hbreak c (by simp [hfirst.eq, Layout.text, hc])
  have hlt : ∀ digits : List Char, digits.length ≤ Json.digitLimit →
      numeral digits < 10 ^ Json.digitLimit := fun digits hle ↦
    (numeral_lt digits).trans_le (Nat.pow_le_pow_right (by decide) hle)
  have hfile : IsLine (g.diagnostic line).file :=
    ⟨by simpa [Layout.diagnostic] using hplaced.path, by simp [Layout.diagnostic, strip_strip],
      by simpa [Layout.diagnostic] using isBreak_strip hpath⟩
  have hmessage : IsLine (g.diagnostic line).message :=
    ⟨by simpa [Layout.diagnostic] using hfirst.toOf.strip_message_ne_nil hstrip,
      by simp [Layout.diagnostic, strip_strip],
      by simpa [Layout.diagnostic] using isBreak_strip hmessage⟩
  have hcode : IsRun isCodeChar (g.diagnostic line).code.toList := by
    simpa [Layout.diagnostic] using hfirst.heading.code
  refine ⟨⟨hfile, hmessage, hcode, hplaced.line, hplaced.column, fun q h r hproper heq ↦ ?_⟩,
    hlt _ hshort.1, hlt _ hshort.2⟩
  exact hfirst.inner hproper (by simpa [Layout.diagnostic] using heq)

end Found

/-! ### Texts of several lines -/

section Texts

variable {d : Diagnostic} {ds : List Diagnostic}

theorem isBreak_eq_false_of_isBlank {c : Char} (h : isBlank c = false) : isBreak c = false := by
  cases hc : isBreak c with
  | false => rfl
  | true => rw [isBlank_of_isBreak hc] at h; cases h

theorem isBlank_of_isDigit {c : Char} (h : c.isDigit = true) : isBlank c = false := by
  refine isBlank_of_isCodeChar ?_
  simp only [Char.isDigit, Bool.and_eq_true, decide_eq_true_eq] at h
  simp only [isCodeChar, Bool.or_eq_true, Bool.and_eq_true, decide_eq_true_eq]
  exact .inl (.inl h)

/-- The line of a diagnostic that consists of lines is one that the reader takes as it is. -/
theorem isLine_format (hfile : IsLine d.file) (hmessage : IsLine d.message)
    (hcode : IsRun isCodeChar d.code.toList) : IsLine d.format where
  nonempty := by
    intro hnil
    have := congrArg String.toList hnil
    simp [toList_format, Layout.text, Heading.text] at this
  strip := by
    have hfront := (strip_eq_self_iff.mp hfile.strip).1
    have hend := (strip_eq_self_iff.mp hmessage.strip).2
    have htext : d.format.toList =
        d.file.toList ++ (d.layout.heading.text ++ [' '] ++ d.message.toList) := by
      simp [toList_format, layout, Layout.text]
    have hhead : d.format.toList.head? = d.file.toList.head? := by
      rw [htext, List.head?_append_of_ne_nil _ (by simpa using hfile.nonempty)]
    have hlast : d.format.toList.getLast? = d.message.toList.getLast? := by
      rw [htext, ← List.append_assoc,
        List.getLast?_append_of_ne_nil _ (by simpa using hmessage.nonempty)]
    rw [strip_eq_self_iff, hhead, hlast]
    exact ⟨hfront, hend⟩
  isBreak := by
    have hdigits : ∀ n, ∀ c ∈ Nat.toDigits 10 n, isBreak c = false := fun n c hc ↦
      isBreak_eq_false_of_isBlank (isBlank_of_isDigit
        (Nat.isDigit_of_mem_toDigits (by decide) (by decide) hc))
    have hletters : ∀ c ∈ d.code.toList, isBreak c = false := fun c hc ↦
      isBreak_eq_false_of_isBlank (isBlank_of_isCodeChar (hcode.2 c hc))
    rw [toList_format]
    simp only [layout, Layout.text, Heading.text, List.forall_mem_append, List.forall_mem_cons]
    have hmark : ∀ {cs : List Char}, cs.all (fun c ↦ decide (isBreak c = false)) = true →
        ∀ c ∈ cs, isBreak c = false := forall_mem_of_all
    exact ⟨hfile.isBreak, ⟨hmark (by decide), hdigits _, hmark (by decide), hdigits _,
      hmark (by decide), ⟨by decide, List.forall_mem_nil _⟩, hmark (by decide),
      ⟨by decide, List.forall_mem_nil _⟩, hletters, hmark (by decide)⟩, by decide, hmessage.isBreak⟩

theorem WellFormed.isLine_format (h : d.WellFormed) : IsLine d.format :=
  Diagnostic.isLine_format h.file h.message h.code

/-- A line is all that there is to read of it. -/
theorem content_of_isLine {s : String} (h : IsLine s) : content s.toList = [s.toList] := by
  have hlines : splitLines s.toList = [s.toList] := by
    simpa [List.intercalate] using
      @splitLines_intercalate [s.toList] (by simpa using ⟨h.nonempty, h.isBreak⟩)
  simp [content, hlines, h.strip, h.nonempty]

/-- Lines of well-formed diagnostics are all read. -/
theorem ofLines_format (h : ∀ d ∈ ds, d.WellFormed ∧ d.Short) :
    ofLines (ds.map fun d ↦ d.format.toList) = { found := ds.map reread } := by
  induction ds with
  | nil => rfl
  | cons d ds ih =>
    have hd := h d List.mem_cons_self
    rw [List.map_cons, ofLines, ofLine_format hd.1 hd.2]
    simp [ih fun d hd ↦ h d (List.mem_cons_of_mem _ hd)]

theorem content_rendered (h : ∀ d ∈ ds, d.WellFormed) :
    content (rendered ds).toList = ds.map fun d ↦ d.format.toList := by
  have hlines : splitLines (rendered ds).toList = ds.map fun d ↦ d.format.toList := by
    rw [rendered, String.toList_intercalate, List.map_map]
    refine splitLines_intercalate fun l hl ↦ ?_
    obtain ⟨d, hd, rfl⟩ := List.mem_map.mp hl
    have hline := (h d hd).isLine_format
    exact ⟨by simpa using hline.nonempty, hline.isBreak⟩
  rw [content, hlines, List.map_map, List.filter_eq_self.mpr]
  · refine List.map_congr_left fun d hd ↦ ?_
    rw [Function.comp_apply, (h d hd).isLine_format.strip]
  · intro l hl
    obtain ⟨d, hd, rfl⟩ := List.mem_map.mp hl
    have hline := (h d hd).isLine_format
    simpa [hline.strip] using hline.nonempty

theorem ofText_rendered (h : ∀ d ∈ ds, d.WellFormed ∧ d.Short) :
    ofText (rendered ds) = { found := ds.map reread } := by
  rw [ofText, content_rendered fun d hd ↦ (h d hd).1, ofLines_format h]

/-- Whatever is found in a text can be written and read again. -/
theorem wellFormed_of_mem_ofText {text : String} (h : d ∈ (ofText text).found) :
    d.WellFormed ∧ d.Short := by
  have hfound : ∀ lines : List (List Char), d ∈ (ofLines lines).found →
      ∃ line ∈ lines, ofLine line = .ok (some d) := by
    intro lines h
    fun_induction ofLines lines with
    | case1 => cases h
    | case2 line rest refused hline => cases h
    | case3 line rest hline r ih =>
      obtain ⟨line', hmem, hread⟩ := ih h
      exact ⟨line', List.mem_cons_of_mem _ hmem, hread⟩
    | case4 line rest d' hline r ih =>
      rcases List.mem_cons.mp h with rfl | h
      · exact ⟨line, List.mem_cons_self, hline⟩
      · obtain ⟨line', hmem, hread⟩ := ih h
        exact ⟨line', List.mem_cons_of_mem _ hmem, hread⟩
  obtain ⟨line, hline, hread⟩ := hfound _ h
  obtain ⟨hline, -⟩ := List.mem_filter.mp hline
  obtain ⟨whole, hwhole, rfl⟩ := List.mem_map.mp hline
  exact wellFormed_of_ofLine hread (strip_strip whole)
    (isBreak_strip (isBreak_of_mem_splitLines hwhole))

end Texts

/-! ### Reading -/

section Reading

variable {w : World} {ds : List Diagnostic}

/-- A number of things that any counter can be raised by. -/
def Countable (n : Nat) : Prop :=
  ∀ tally labels w, (Act.count tally (.int n) labels w).1 = .ok ()

theorem count_fst (tally : Meter.Tally) (amount : Number) (labels : Labels) (w : World) :
    (Act.count tally amount labels w).1 =
      match ((w.meter.counter tally).inc amount labels).2 with
      | some fault => .error fault
      | none => .ok () := by
  let raised := (w.meter.counter tally).inc amount labels
  have happly : Act.count tally amount labels w =
      (match raised.2 with
        | some fault => throw fault
        | none => pure () : Act Unit) { w with meter := w.meter.setCounter tally raised.1 } := rfl
  rw [happly]
  cases raised.2 <;> rfl

/-- Whether an amount is refused does not depend on what the counter holds. -/
theorem inc_snd (c c' : Counter) (amount : Number) (labels labels' : Labels) :
    (c.inc amount labels).2 = (c'.inc amount labels').2 := by
  unfold Counter.inc
  split
  · rfl
  · cases amount.toDouble? <;> rfl

theorem countable_of_inc {n : Nat} (h : (({} : Counter).inc (.int n) []).2 = none) :
    Countable n := by
  intro tally labels w
  rw [count_fst, inc_snd _ {} _ _ [], h]

theorem countable_of_count {tally : Meter.Tally} {n : Nat} {labels : Labels}
    (h : (Act.count tally (.int n) labels w).1 = .ok ()) : Countable n := by
  intro tally' labels' w'
  rw [count_fst] at h ⊢
  rwa [inc_snd _ (w.meter.counter tally) _ _ labels]

theorem ends_count (tally : Meter.Tally) (n : Nat) (labels : Labels) (w : World) :
    Ends (Act.count tally (.int n) labels) w (fun _ _ ↦ Countable n) fun _ _ ↦ True := by
  unfold Ends
  split
  · rename_i hcount
    exact countable_of_count (congrArg Prod.fst hcount)
  · trivial

/-- What a reading hands back can be written and read again. -/
theorem ends_read (source : Source) (w : World) :
    Ends (read source) w
      (fun ds _ ↦ (∀ d ∈ ds, d.WellFormed ∧ d.Short) ∧ Countable ds.length)
      fun _ _ ↦ True := by
  unfold read
  refine Ends.bind_any fun text w ↦ ?_
  split
  · exact ends_pure.mpr ⟨by simp, countable_of_inc rfl⟩
  · have hfound : ∀ d ∈ (ofText text).found, d.WellFormed ∧ d.Short := fun d hd ↦
      wellFormed_of_mem_ofText hd
    refine Ends.bind_any fun _ w ↦ ?_
    split
    · trivial
    · refine (ends_count _ _ _ w).bind fun _ w hcount ↦ ?_
      split
      · exact ends_pure.mpr ⟨hfound, hcount⟩
      · exact Ends.bind_any fun _ _ ↦ ends_pure.mpr ⟨hfound, hcount⟩

/-- A text of which every line is a diagnostic is read whatever the state, if the diagnostics are
not too many to be counted. -/
theorem read_text_fst {text : String} (hfound : (ofText text).found = ds)
    (hskipped : (ofText text).skipped = []) (hrefused : (ofText text).refused = none)
    (hcount : Countable ds.length) (w : World) : (read (.text text) w).1 = .ok ds := by
  simp only [read, sourceText, pure_bind, hfound, hskipped, hrefused, logSkipped,
    List.isEmpty_nil, if_true]
  split
  · rename_i hempty
    rw [show text = "" by simpa using hempty] at hfound
    rw [← hfound]
    rfl
  · have hraised := hcount .diagnosticsParsed [] w
    rw [bind_apply]
    rcases hact : Act.count .diagnosticsParsed (.int ds.length) [] w with ⟨_ | _, w'⟩
    · rw [hact] at hraised
      cases hraised
    · rfl

theorem read_rendered_fst (hds : ∀ d ∈ ds, d.WellFormed ∧ d.Short) (hcount : Countable ds.length)
    (w : World) : (read (.text (rendered ds)) w).1 = .ok (ds.map reread) :=
  read_text_fst (by rw [ofText_rendered hds]) (by rw [ofText_rendered hds])
    (by rw [ofText_rendered hds]) (by simpa using hcount) w

end Reading

end Remedy.Diagnostic
