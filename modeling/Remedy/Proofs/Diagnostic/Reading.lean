import Remedy.Proofs.Diagnostic.RoundTrip
import Remedy.Proofs.Number.Whole

/-!
# What is read of a source

A source stands for a text (`Source.decoded`), of which only the lines that are not blank count
(`Source.lines`). A line without runs of digits that are too long can always be read, whether or not
it is a diagnostic (`Source.Readable`), and if all lines are such, what is read of the source is
what is on its lines, line by line (`Source.diagnostics`, `read_fst`). If they are not, nothing else
is read (`ends_read_found`).
-/

set_option autoImplicit false

namespace Remedy.Diagnostic

open Remedy.Text

/-- The text that a source stands for. -/
def Source.decoded : Source → String
  | .absent => ""
  | .text s => s
  | .bytes b => decode b
  | .other _ => ""

/-- The lines of a source that are not blank, without the white space at their ends. -/
def Source.lines (source : Source) : List (List Char) := content source.decoded.toList

/-- No run of digits is too long to be read as a number. -/
def Source.Readable (source : Source) : Prop :=
  ∀ line ∈ source.lines, ∀ run, run <:+: line → (∀ c ∈ run, isDigit c = true) →
    run.length ≤ Json.digitLimit

/-- The diagnostic on a line, if there is one. -/
def onLine (line : List Char) : Option Diagnostic := (ofLine line).toOption.join

/-- The diagnostics of a source, line by line. -/
def Source.diagnostics (source : Source) : List Diagnostic := source.lines.filterMap onLine

theorem Source.diagnostics_of_isEmpty {source : Source} (h : source.decoded.isEmpty = true) :
    source.diagnostics = [] := by
  rw [diagnostics, lines, show source.decoded = "" by simpa using h]
  rfl

theorem strip_of_mem_lines {source : Source} {line : List Char} (h : line ∈ source.lines) :
    strip line = line := by
  obtain ⟨whole, -, rfl⟩ := List.mem_map.mp (List.mem_filter.mp h).1
  exact strip_strip whole

theorem Source.Readable.ofLine_eq {source : Source} (h : source.Readable) {line : List Char}
    (hline : line ∈ source.lines) : ofLine line = .ok (onLine line) := by
  obtain ⟨⟨answer, hanswer⟩, -⟩ :=
    ofLine_eq_some_iff_layout line (strip_of_mem_lines hline) (h line hline)
  simp [onLine, hanswer, Except.toOption]

theorem Source.Readable.of_perm {a b : Source} (h : a.Readable) (hlines : a.lines.Perm b.lines) :
    b.Readable :=
  fun line hline ↦ h line (hlines.mem_iff.mpr hline)

/-- Lines that can all be read are read one by one. -/
theorem ofLines_eq {lines : List (List Char)}
    (h : ∀ line ∈ lines, ofLine line = .ok (onLine line)) :
    ofLines lines =
      { found := lines.filterMap onLine, skipped := lines.filter (onLine · |>.isNone) } := by
  induction lines with
  | nil => rfl
  | cons line rest ih =>
    obtain ⟨hline, hrest⟩ := List.forall_mem_cons.mp h
    rw [ofLines, hline, ih hrest]
    cases hon : onLine line <;> simp [hon]

/-! ### Counting -/

/-- Counters can be raised by any number of things that a computer could hold. -/
theorem countable_of_lt {n : ℕ} (h : n < 2 ^ 53) : Countable n := by
  refine countable_of_inc ?_
  unfold Counter.inc
  simp [Number.natCast_lt_zero, Number.toDouble?_natCast h]

/-! ### Reading -/

theorem ends_logSkipped (count : ℕ) (skipped : List (List Char)) (w : World) :
    Ends (logSkipped count skipped) w (fun _ _ ↦ True) fun _ _ ↦ False := by
  induction skipped generalizing count w with
  | nil => trivial
  | cons line rest ih => exact ends_bind.mpr (ih (count + 1) _)

theorem ends_sourceText (source : Source) (w : World) :
    Ends (sourceText source) w (fun text _ ↦ text = source.decoded) fun _ _ ↦ False := by
  cases source with
  | absent => exact ends_pure.mpr rfl
  | text s => exact ends_pure.mpr rfl
  | bytes b => exact ends_pure.mpr rfl
  | other kind =>
    show Ends (Act.log _ _ _ >>= fun _ ↦ pure "") w _ _
    exact ends_bind.mpr rfl

theorem Countable.ends_count {n : ℕ} (h : Countable n) (tally : Meter.Tally) (labels : Labels)
    (w : World) :
    Ends (Act.count tally (.int n) labels) w (fun _ _ ↦ True) fun _ _ ↦ False := by
  have hfst := h tally labels w
  unfold Ends
  rcases hact : Act.count tally (.int n) labels w with ⟨_ | _, w'⟩
  · simp [hact] at hfst
  · trivial

/-- What is on the lines of a source, if there is none that is refused. -/
theorem ends_read_of_ofLine {source : Source}
    (hlines : ∀ line ∈ source.lines, ofLine line = .ok (onLine line))
    (hcount : ∀ n ≤ source.lines.length, Countable n) (w : World) :
    Ends (read source) w (fun ds _ ↦ ds = source.diagnostics) fun _ _ ↦ False := by
  have htext : ofText source.decoded =
      { found := source.diagnostics
        skipped := source.lines.filter (onLine · |>.isNone) } :=
    ofLines_eq hlines
  unfold read
  refine (ends_sourceText source w).bind ?_
  rintro _ w rfl
  split
  · rename_i hempty
    exact ends_pure.mpr (Source.diagnostics_of_isEmpty hempty).symm
  rw [htext]
  refine (ends_logSkipped 0 _ w).bind fun _ w _ ↦ ?_
  refine ((hcount _ (List.length_filterMap_le _ _)).ends_count _ _ w).bind fun _ w _ ↦ ?_
  split
  · exact ends_pure.mpr rfl
  · refine ((hcount _ (List.length_filter_le _ _)).ends_count _ _ w).bind fun _ w _ ↦ ?_
    exact ends_pure.mpr rfl

/-- What is on the lines of a source that can be read. -/
theorem ends_read_of_readable {source : Source} (hreadable : source.Readable)
    (hcount : ∀ n ≤ source.lines.length, Countable n) (w : World) :
    Ends (read source) w (fun ds _ ↦ ds = source.diagnostics) fun _ _ ↦ False :=
  ends_read_of_ofLine (fun _ hline ↦ hreadable.ofLine_eq hline) hcount w

theorem read_fst {source : Source} (hreadable : source.Readable)
    (hcount : ∀ n ≤ source.lines.length, Countable n) (w : World) :
    (read source w).1 = .ok (source.lines.filterMap onLine) := by
  obtain ⟨ds, w', hact, rfl⟩ := (ends_read_of_readable hreadable hcount w).exists_ok
  rw [hact]
  rfl

/-- Lines that can all be read have been read line by line. -/
theorem found_of_refused_none {lines : List (List Char)} (h : (ofLines lines).refused = none) :
    (ofLines lines).found = lines.filterMap onLine := by
  induction lines with
  | nil => rfl
  | cons line rest ih =>
    unfold ofLines at h ⊢
    cases hline : ofLine line with
    | error cause =>
      rw [hline] at h
      cases h
    | ok answer =>
      rw [hline] at h
      have hon : onLine line = answer := by simp [onLine, hline, Except.toOption]
      cases answer with
      | none => simpa [hon] using ih h
      | some d => simpa [hon] using ih h

/-- Whatever is read of a source is what is on its lines. -/
theorem ends_read_found (source : Source) (w : World) :
    Ends (read source) w (fun ds _ ↦ ds = source.diagnostics) fun _ _ ↦ True := by
  unfold read
  refine ((ends_sourceText source w).mono (fun _ _ h ↦ h) fun _ _ _ ↦ trivial).bind ?_
  rintro _ w rfl
  split
  · rename_i hempty
    exact ends_pure.mpr (Source.diagnostics_of_isEmpty hempty).symm
  refine Ends.bind_any fun _ w ↦ ?_
  split
  · trivial
  · rename_i hrefused
    have hfound : (ofText source.decoded).found = source.diagnostics :=
      found_of_refused_none hrefused
    refine Ends.bind_any fun _ w ↦ ?_
    split
    · exact ends_pure.mpr hfound
    · exact Ends.bind_any fun _ _ ↦ ends_pure.mpr hfound

theorem short_of_layout {d : Diagnostic} (hshort : d.layout.Short) : d.Short := by
  have hline : (Nat.toDigits 10 d.line).length ≤ Json.digitLimit := hshort.1
  have hcolumn : (Nat.toDigits 10 d.column).length ≤ Json.digitLimit := hshort.2
  rw [Nat.length_toDigits_le_iff (by decide) (by decide)] at hline hcolumn
  exact ⟨hline, hcolumn⟩

/-- A diagnostic that is written with too many digits cannot be read. -/
theorem refused_of_long {d : Diagnostic} (h : d.WellFormed) (hlong : ¬ d.Short) :
    (ofText d.format).refused ≠ none := by
  rw [ofText, content_of_isLine h.isLine_format, ofLines]
  cases hline : ofLine d.format.toList with
  | error cause => exact Option.some_ne_none cause
  | ok answer =>
    exact (hlong (short_of_layout (h.layout_first.short_of_ofLine hline))).elim

/-- If one line is refused, nothing is read. -/
theorem ends_read_refused {source : Source} (hrefused : (ofText source.decoded).refused ≠ none)
    (w : World) :
    Ends (read source) w (fun _ _ ↦ False) fun e _ ↦ ∃ cause, e = .invalid cause := by
  unfold read
  refine ((ends_sourceText source w).mono (fun _ _ h ↦ h) fun _ _ h ↦ h.elim).bind ?_
  rintro text w rfl
  split
  · rename_i hempty
    rw [show source.decoded = "" by simpa using hempty] at hrefused
    exact (hrefused rfl).elim
  refine ((ends_logSkipped 0 _ w).mono (fun _ _ h ↦ h) fun _ _ ↦ False.elim).bind fun _ w _ ↦ ?_
  split
  · exact ends_throw.mpr ⟨_, rfl⟩
  · rename_i hread
    exact (hrefused hread).elim

theorem ends_read_of_refused {text : String} (hrefused : (ofText text).refused ≠ none) (w : World) :
    Ends (read (.text text)) w (fun _ _ ↦ False) fun _ _ ↦ True :=
  (@ends_read_refused (.text text) hrefused w).mono (fun _ _ h ↦ h) fun _ _ _ ↦ trivial

/-- There is a line that is refused. -/
def Source.Garbled (source : Source) : Prop :=
  ∃ line ∈ source.lines, ∃ cause, ofLine line = .error cause

theorem refused_of_error {lines : List (List Char)}
    (h : ∃ line ∈ lines, ∃ cause, ofLine line = .error cause) : (ofLines lines).refused ≠ none := by
  obtain ⟨line, hline, cause, hcause⟩ := h
  induction lines with
  | nil => cases hline
  | cons first rest ih =>
    unfold ofLines
    cases hfirst : ofLine first with
    | error cause => exact Option.some_ne_none cause
    | ok answer =>
      rcases List.mem_cons.mp hline with rfl | hrest
      · rw [hcause] at hfirst
        cases hfirst
      · cases answer with
        | none => exact ih hrest
        | some d => exact ih hrest

theorem Source.Garbled.ends_read {source : Source} (h : source.Garbled) (w : World) :
    Ends (read source) w (fun _ _ ↦ False) fun e _ ↦ ∃ cause, e = .invalid cause :=
  ends_read_refused (refused_of_error h) w

/-- Nothing is found in input of which a line is refused. -/
theorem Source.Garbled.ends_analyze {source : Source} (h : source.Garbled) (extra : ExtraCodes)
    (w : World) :
    Ends (analyze extra source) w (fun _ _ ↦ False) fun e _ ↦ ∃ cause, e = .invalid cause := by
  unfold analyze
  exact ends_bind.mpr ((h.ends_read w).mono (fun _ _ ↦ False.elim) fun _ _ h ↦ h)

theorem Source.ofLine_eq_of_not_garbled {source : Source} (h : ¬ source.Garbled) :
    ∀ line ∈ source.lines, ofLine line = .ok (onLine line) := by
  intro line hline
  cases hof : ofLine line with
  | error cause => exact absurd ⟨line, hline, cause, hof⟩ h
  | ok answer => simp [onLine, hof, Except.toOption]

end Remedy.Diagnostic
