import Remedy.Command
import Remedy.Proofs.Diagnostic.Tally
import Remedy.Proofs.Text.Joining

/-!
# Reading sources that are put together

What is read of lines in a row is what is read of the first of them and then of the others, up to
the first one that is refused (`ofLines_append`). So if the lines of a source are those of one and
then those of another (`Source.Joins`), reading it is reading these two, in what is found as in what
is counted and in how it fails (`Source.Joins.concatenates`).

A text with a line feed in it is such a source (`joins_text`), and so are bytes, wherever they are
cut at a line feed: no sequence goes on behind one, be it well-formed or not (`joins_bytes`). What a
command prints is what it prints to the one stream and then to the other, also if nothing is printed
to one of them (`joins_output`).
-/

set_option autoImplicit false

namespace Remedy.Diagnostic

open Remedy.Text

/-! ### Lines in a row -/

/-- What is made of a reading: its diagnostics, unless a line has been refused. -/
def Reading.verdict (r : Reading) : Except Fault (List Diagnostic) :=
  match r.refused with
  | some cause => .error (.invalid cause)
  | none => .ok r.found

theorem ofLines_append (xs ys : List (List Char)) :
    ofLines (xs ++ ys) =
      match (ofLines xs).refused with
      | some _ => ofLines xs
      | none =>
        { found := (ofLines xs).found ++ (ofLines ys).found
          skipped := (ofLines xs).skipped ++ (ofLines ys).skipped
          refused := (ofLines ys).refused } := by
  induction xs with
  | nil => rfl
  | cons line rest ih =>
    rw [List.cons_append, ofLines, ofLines, ih]
    rcases ofLine line with cause | _ | d
    · rfl
    · cases hrefused : (ofLines rest).refused <;> simp [hrefused]
    · cases hrefused : (ofLines rest).refused <;> simp [hrefused]

theorem verdict_append (xs ys : List (List Char)) :
    (ofLines (xs ++ ys)).verdict =
      do return (← (ofLines xs).verdict) ++ (← (ofLines ys).verdict) := by
  rw [ofLines_append]
  cases hrefused : (ofLines xs).refused with
  | some cause =>
    simp only [Reading.verdict, hrefused]
    rfl
  | none =>
    simp only [Reading.verdict, hrefused]
    cases (ofLines ys).refused <;> rfl

/-! ### Sources -/

/-- Each reading of the source that returns counts so many diagnostics and so many lines that are
none, and one that fails counts nothing. -/
def Source.Tallies (source : Source) (parsed skipped : ℕ) : Prop :=
  ∀ w, Ends (read source) w (fun _ w' ↦ w.meter.Counts parsed skipped w'.meter)
    fun _ w' ↦ w'.meter = w.meter

/-- Reading the source is reading the one and then the other: what is found, how it fails, and what
is counted. -/
structure Source.Concatenates (source first second : Source) : Prop where
  value : ∀ w w₁ w₂, (read source w).1 =
    do return (← (read first w₁).1) ++ (← (read second w₂).1)
  tallies_first : first.Tallies first.diagnostics.length first.skipped.length
  tallies_second : second.Tallies second.diagnostics.length second.skipped.length
  tallies : source.Tallies (first.diagnostics.length + second.diagnostics.length)
    (first.skipped.length + second.skipped.length)

variable {source first second : Source}

theorem read_fst_eq_verdict (hsize : source.lines.length < 2 ^ 64) (w : World) :
    (read source w).1 = source.reading.verdict := by
  have hends := ends_read_reading hsize w
  unfold Ends at hends
  rcases hread : read source w with ⟨e | ds, w'⟩
  · rw [hread] at hends
    obtain ⟨⟨cause, hrefused, rfl⟩, -⟩ := hends
    simp [Reading.verdict, hrefused]
  · rw [hread] at hends
    obtain ⟨hrefused, rfl, -⟩ := hends
    simp [Reading.verdict, hrefused]

theorem tallies_diagnostics (hsize : source.lines.length < 2 ^ 64) :
    source.Tallies source.diagnostics.length source.skipped.length := by
  intro w
  refine (ends_read_reading hsize w).mono (fun _ w' h ↦ ?_) fun _ _ h ↦ h.2
  have hreading := (Source.short_iff_refused.mpr h.1).reading_eq
  rw [hreading] at h
  exact h.2.2

/-- The lines of the source are those of the one and then those of the other. -/
def Source.Joins (source first second : Source) : Prop := source.lines = first.lines ++ second.lines

theorem Source.Joins.length_eq (h : source.Joins first second) :
    source.lines.length = first.lines.length + second.lines.length := by
  rw [h, List.length_append]

theorem Source.Joins.concatenates (h : source.Joins first second)
    (hsize : source.lines.length < 2 ^ 64) : source.Concatenates first second := by
  have hlength := h.length_eq
  have hfirst : first.lines.length < 2 ^ 64 := by omega
  have hsecond : second.lines.length < 2 ^ 64 := by omega
  have hdiagnostics : source.diagnostics.length =
      first.diagnostics.length + second.diagnostics.length := by
    simp only [Source.diagnostics, show source.lines = _ from h, List.filterMap_append,
      List.length_append]
  have hskipped : source.skipped.length = first.skipped.length + second.skipped.length := by
    simp only [Source.skipped, show source.lines = _ from h, List.filter_append, List.length_append]
  refine ⟨fun w w₁ w₂ ↦ ?_, tallies_diagnostics hfirst, tallies_diagnostics hsecond, ?_⟩
  · rw [read_fst_eq_verdict hsize, read_fst_eq_verdict hfirst, read_fst_eq_verdict hsecond,
      Source.reading, h]
    exact verdict_append _ _
  · rw [← hdiagnostics, ← hskipped]
    exact tallies_diagnostics hsize

/-! ### Cuts -/

theorem joins_text (a b : String) :
    (Source.text (a ++ "\n" ++ b)).Joins (.text a) (.text b) := by
  have hcut : (a ++ "\n" ++ b).toList = a.toList ++ '\n' :: b.toList := by simp
  show solid (splitLines (a ++ "\n" ++ b).toList) = _
  rw [hcut]
  exact solid_append_break _ _ (by decide)

theorem joins_bytes (x y : Bytes) : (Source.bytes (x ++ 0x0A :: y)).Joins (.bytes x) (.bytes y) := by
  show solid (splitLines (decode (x ++ 0x0A :: y)).toList) = _
  rw [decode_append_ascii (by decide)]
  exact solid_append_break _ _ (by decide)

/-- A stream to which nothing is printed has no lines. -/
theorem joins_output (r : CommandResult) :
    (Source.text r.output).Joins (.text r.stdout) (.text r.stderr) := by
  unfold CommandResult.output
  split
  · rename_i hout
    rw [show r.stdout = "" by simpa using hout]
    rfl
  split
  · rename_i herr
    rw [show r.stderr = "" by simpa using herr]
    exact (List.append_nil _).symm
  · exact joins_text r.stdout r.stderr

theorem lines_endLines (rows : List (List Char × Ending)) (last : List Char) :
    (Source.text (String.ofList (endLines rows ++ last))).lines =
      ((rows.map Prod.fst).flatMap fun line ↦ solid (splitLines line)) ++ solid (splitLines last) := by
  show solid (splitLines (String.ofList (endLines rows ++ last)).toList) = _
  rw [String.toList_ofList, solid_endLines, List.flatMap_map]

/-! ### Reading -/

/-- Reading a text is reading what is in front of a line feed and then what is behind it, and reading
bytes is. Reading what a command has printed is reading what it has printed to the one stream and
then what to the other. It makes no difference how lines end. -/
theorem read_concatenated :
    (∀ a b : String, (a ++ "\n" ++ b).length < 2 ^ 64 →
      (Source.text (a ++ "\n" ++ b)).Concatenates (.text a) (.text b)) ∧
    (∀ x y : Bytes, (x ++ 0x0A :: y).length < 2 ^ 64 →
      (Source.bytes (x ++ 0x0A :: y)).Concatenates (.bytes x) (.bytes y)) ∧
    (∀ r : CommandResult, r.output.length < 2 ^ 64 →
      (Source.text r.output).Concatenates (.text r.stdout) (.text r.stderr)) ∧
    ∀ (rows rows' : List (List Char × Ending)) (last : List Char),
      rows.map Prod.fst = rows'.map Prod.fst → (endLines rows ++ last).length < 2 ^ 64 →
      ∀ w w', (read (.text (String.ofList (endLines rows ++ last))) w).1 =
        (read (.text (String.ofList (endLines rows' ++ last))) w').1 := by
  refine ⟨fun a b hsize ↦ ?_, fun x y hsize ↦ ?_, fun r hsize ↦ ?_, ?_⟩
  · exact (joins_text a b).concatenates ((Source.length_lines_le _).trans_lt hsize)
  · have hdecoded : (decode (x ++ 0x0A :: y)).length ≤ (x ++ 0x0A :: y).length := by
      rw [← String.length_toList, decode, String.toList_ofList]
      exact length_decodeFrom_le 0 _
    exact (joins_bytes x y).concatenates
      ((Source.length_lines_le _).trans_lt (hdecoded.trans_lt hsize))
  · exact (joins_output r).concatenates ((Source.length_lines_le _).trans_lt hsize)
  · intro rows rows' last hrows hsize w w'
    have hlines : (Source.text (String.ofList (endLines rows ++ last))).lines =
        (Source.text (String.ofList (endLines rows' ++ last))).lines := by
      rw [lines_endLines, lines_endLines, hrows]
    have hlength : (Source.text (String.ofList (endLines rows ++ last))).lines.length < 2 ^ 64 :=
      (Source.length_lines_le _).trans_lt (by simpa [Source.decoded] using hsize)
    rw [read_fst_eq_verdict hlength, read_fst_eq_verdict (hlines ▸ hlength), Source.reading,
      Source.reading, hlines]

/-- A line feed that ends a line together with the carriage return in front of it; a sequence that
is broken off by a line feed; nothing printed to the first stream; and two ways to end a line. -/
theorem read_concatenated_sample :
    let a := "a(1,2): error TS1: m\r"
    let b := "b(3,4): error TS2: n"
    let x : Bytes := [0x61, 0xE2, 0x82]
    let y : Bytes := [0xAC, 0x62]
    let r : CommandResult := ⟨"", b, 2, ["tsc"]⟩
    (Source.text (a ++ "\n" ++ b)).Concatenates (.text a) (.text b) ∧
      (Source.bytes (x ++ 0x0A :: y)).Concatenates (.bytes x) (.bytes y) ∧
      (Source.text r.output).Concatenates (.text r.stdout) (.text r.stderr) ∧
      (read (.text (String.ofList (endLines [(b.toList, .both)] ++ []))) default).1 =
        (read (.text (String.ofList (endLines [(b.toList, .carriageReturn)] ++ []))) default).1 := by
  intro a b x y r
  obtain ⟨htext, hbytes, houtput, hendings⟩ := read_concatenated
  exact ⟨htext a b (by decide), hbytes x y (by decide), houtput r (by decide),
    hendings [(b.toList, .both)] [(b.toList, .carriageReturn)] [] rfl (by decide) default default⟩

end Remedy.Diagnostic
