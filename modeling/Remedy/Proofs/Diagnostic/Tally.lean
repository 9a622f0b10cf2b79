import Remedy.Proofs.Charging
import Remedy.Proofs.Diagnostic.Reading
import Remedy.Proofs.Touching

/-!
# How lines are counted

Each line that is not blank is a diagnostic or is skipped, and is counted as the one or as the other
(`Source.length_lines`, `Meter.Counts`). Reading a source says so of it, unless it is refused, and
then nothing has been counted (`Diagnostic.ends_read_reading`).

What is refused is a line whose heading has more digits for the line or the column than a number may
be read from (`Source.short_iff`). This is no matter of being a diagnostic: a line that reports
column zero would be skipped, and is refused all the same if there are too many digits in front of
the zero (`Diagnostic.garbled_format`).
-/

set_option autoImplicit false

namespace Remedy

open Meter (due items)

/-! ### Counting -/

/-- What a meter has been charged with is a number of diagnostics and a number of lines that are
none. -/
def Meter.Counts (parsed skipped : ℕ) (m m' : Meter) : Prop :=
  ∃ cs : List Charge, m' = m.charge cs ∧ (∀ c ∈ cs, ∃ tally n, c = .add tally [] n) ∧
    ∀ tally, due tally cs =
      match tally with
      | .diagnosticsParsed => parsed
      | .diagnosticsSkipped => skipped
      | _ => 0

namespace Meter.Counts

variable {parsed skipped : ℕ} {m m' : Meter}

theorem refl (m : Meter) : m.Counts 0 0 m :=
  ⟨[], rfl, by simp, fun tally ↦ by cases tally <;> rfl⟩

theorem of_parsed (m : Meter) (n : ℕ) : m.Counts n 0 (m.charge [.add .diagnosticsParsed [] n]) :=
  ⟨_, rfl, by simp, fun tally ↦ by cases tally <;> simp [due, items, Charge.item?]⟩

theorem of_skipped (m : Meter) (n : ℕ) : m.Counts 0 n (m.charge [.add .diagnosticsSkipped [] n]) :=
  ⟨_, rfl, by simp, fun tally ↦ by cases tally <;> simp [due, items, Charge.item?]⟩

theorem trans {parsed' skipped' : ℕ} {m'' : Meter} (h : m.Counts parsed skipped m')
    (h' : m'.Counts parsed' skipped' m'') :
    m.Counts (parsed + parsed') (skipped + skipped') m'' := by
  obtain ⟨cs, rfl, hlabels, hdue⟩ := h
  obtain ⟨cs', rfl, hlabels', hdue'⟩ := h'
  refine ⟨cs ++ cs', Meter.charge_append.symm, ?_, fun tally ↦ ?_⟩
  · exact fun c hc ↦ (List.mem_append.mp hc).elim (hlabels c) (hlabels' c)
  · rw [Meter.due_append, hdue, hdue']
    cases tally <;> rfl

/-- What is added under no labels is all that is added. -/
theorem dueUnder_nil {cs : List Charge} (h : ∀ c ∈ cs, ∃ tally n, c = .add tally [] n)
    (tally : Tally) : Counter.dueUnder [] (items tally cs) = due tally cs := by
  have hall : ∀ item ∈ items tally cs, item.1 = [] := by
    intro item hitem
    obtain ⟨c, hc, hsome⟩ := List.mem_filterMap.mp hitem
    obtain ⟨t, n, rfl⟩ := h c hc
    simp only [Charge.item?] at hsome
    split at hsome
    · cases hsome
      rfl
    · cases hsome
  unfold Counter.dueUnder due
  exact congrArg List.sum (List.map_congr_left fun item hitem ↦ if_pos (hall item hitem))

/-- Counters that hold whole numbers have grown by these numbers, as far as fractions can count. -/
theorem held_natCast (h : m.Counts parsed skipped m') {k j : ℕ}
    (hk : (m.counter .diagnosticsParsed).held [] = Double.ofNat k) (hparsed : k + parsed ≤ 2 ^ 53)
    (hj : (m.counter .diagnosticsSkipped).held [] = Double.ofNat j)
    (hskipped : j + skipped ≤ 2 ^ 53) :
    (m'.counter .diagnosticsParsed).held [] = Double.ofNat (k + parsed) ∧
      (m'.counter .diagnosticsSkipped).held [] = Double.ofNat (j + skipped) := by
  obtain ⟨cs, rfl, hlabels, hdue⟩ := h
  have hgrown : ∀ {tally : Tally} {n : ℕ}, (m.counter tally).held [] = Double.ofNat n →
      n + due tally cs ≤ 2 ^ 53 →
      ((m.charge cs).counter tally).held [] = Double.ofNat (n + due tally cs) := by
    intro tally n hn hle
    rw [← dueUnder_nil hlabels] at hle ⊢
    rw [Meter.counter_charge]
    exact Counter.held_addAll hn hle
  have hparsed' := hgrown hk (by rwa [hdue])
  have hskipped' := hgrown hj (by rwa [hdue])
  rw [hdue] at hparsed' hskipped'
  exact ⟨hparsed', hskipped'⟩

end Meter.Counts

theorem Act.isPassing_meter : Act.IsPassing fun w w' ↦ w'.meter = w.meter where
  refl _ := rfl
  trans _ _ _ h h' := h'.trans h
  record _ := keeps_modify fun _ ↦ rfl
  aside _ _ _ _ _ _ := rfl

/-- Counting as many things as there may be charges their number and goes on. -/
theorem Act.ends_count_charges {α : Type} {n : ℕ} (hn : n < 2 ^ 64) (tally : Meter.Tally) (w : World)
    {f : PUnit → Act α} {ok : α → World → Prop} {bad : Fault → World → Prop}
    (h : ∀ w', w'.meter = w.meter.charge [.add tally [] n] → Ends (f ⟨⟩) w' ok bad) :
    Ends (Act.count tally (.int n) [] >>= f) w ok bad := by
  obtain ⟨x, hx⟩ := Option.isSome_iff_exists.mp (Number.isSome_toDouble?_natCast hn)
  have hinc : (w.meter.counter tally).inc (.int n) [] =
      (((w.meter.counter tally).inc (.int n) []).1, none) := by
    simp only [Counter.inc, Number.natCast_lt_zero, hx, Bool.false_eq_true, if_false]
  unfold Act.count
  refine ends_bind.mpr (ends_bind.mpr (ends_get.mpr ?_))
  rw [hinc]
  exact ends_bind.mpr (ends_set.mpr (ends_pure.mpr (h _ rfl)))

namespace Diagnostic

/-! ### Lines -/

/-- The lines of a source that are no diagnostics. -/
def Source.skipped (source : Source) : List (List Char) :=
  source.lines.filter (onLine · |>.isNone)

/-- Each line is a diagnostic, or it is skipped. -/
theorem Source.length_lines (source : Source) :
    source.diagnostics.length + source.skipped.length = source.lines.length := by
  unfold diagnostics skipped
  induction source.lines with
  | nil => rfl
  | cons line rest ih => cases hon : onLine line <;> simp [hon] <;> omega

theorem length_splitLinesFrom_le (line cs : List Char) :
    (Text.splitLinesFrom line cs).length ≤ line.length + cs.length := by
  fun_induction Text.splitLinesFrom line cs with
  | case1 line hempty => simp
  | case2 line hne => simpa [Nat.one_le_iff_ne_zero] using hne
  | case3 line rest ih => simp at *; omega
  | case4 line c rest hcrlf hbreak ih => simp at *; omega
  | case5 line c rest hcrlf hbreak ih => simp at *; omega

/-- There are no more lines than characters. -/
theorem Source.length_lines_le (source : Source) : source.lines.length ≤ source.decoded.length := by
  have hlines := length_splitLinesFrom_le [] source.decoded.toList
  have hkept := List.length_filter_le (fun line ↦ !line.isEmpty)
    ((Text.splitLines source.decoded.toList).map Text.strip)
  rw [List.length_map] at hkept
  rw [← String.length_toList]
  exact hkept.trans (hlines.trans (by simp))

/-- No line has a heading with more digits in it than a number may be read from. -/
def Source.Short (source : Source) : Prop :=
  ∀ line ∈ source.lines, ∀ g : Layout, g.First line → g.Short

/-- A line is refused if its first layout has too many digits, and in no other case. -/
theorem ofLine_eq_error_iff {line : List Char} :
    (∃ cause, ofLine line = .error cause) ↔ ∃ g : Layout, g.First line ∧ ¬ g.Short := by
  constructor
  · rintro ⟨cause, hcause⟩
    by_contra hnone
    have hshort : ∀ g : Layout, g.First line → g.Short := fun g hg ↦
      by_contra fun hlong ↦ hnone ⟨g, hg, hlong⟩
    by_cases hlayout : ∃ g : Layout, g.Of line
    · obtain ⟨g', hof⟩ := hlayout
      obtain ⟨g, hfirst⟩ := hof.exists_first
      by_cases hplaced : g.Placed
      · rw [ofLine_of_placed hfirst (hshort g hfirst) hplaced] at hcause
        cases hcause
      · rw [ofLine_of_not_placed hfirst (hshort g hfirst) hplaced] at hcause
        cases hcause
    · rw [ofLine_of_no_layout (not_exists.mp hlayout)] at hcause
      cases hcause
  · rintro ⟨g, hfirst, hlong⟩
    cases hline : ofLine line with
    | error cause => exact ⟨cause, rfl⟩
    | ok answer => exact absurd (hfirst.short_of_ofLine hline) hlong

theorem Source.short_iff {source : Source} : source.Short ↔ ¬ source.Garbled := by
  have hline : ∀ line, (∀ g : Layout, g.First line → g.Short) ↔
      ¬ ∃ cause, ofLine line = .error cause := by
    intro line
    rw [ofLine_eq_error_iff]
    push Not
    rfl
  unfold Short Garbled
  simp only [hline]
  push Not
  rfl

/-! ### Reading -/

/-- What is read of the lines of a source. -/
def Source.reading (source : Source) : Reading := ofLines source.lines

theorem length_ofLines_le (lines : List (List Char)) :
    (ofLines lines).found.length + (ofLines lines).skipped.length ≤ lines.length := by
  fun_induction ofLines lines with
  | case1 => simp
  | case2 line rest refused hline => simp
  | case3 line rest hline r ih => simp only [List.length_cons, r]; omega
  | case4 line rest d hline r ih => simp only [List.length_cons, r]; omega

/-- Reading returns what is on the lines and has counted each of them, or a line has been refused,
and nothing has been counted. -/
theorem ends_read_reading {source : Source} (hsize : source.lines.length < 2 ^ 64) (w : World) :
    Ends (read source) w
      (fun ds w' ↦ source.reading.refused = none ∧ ds = source.reading.found ∧
        w.meter.Counts source.reading.found.length source.reading.skipped.length w'.meter)
      fun e w' ↦ (∃ cause, source.reading.refused = some cause ∧ e = .invalid cause) ∧
        w'.meter = w.meter := by
  have hlength : source.reading.found.length + source.reading.skipped.length ≤ source.lines.length :=
    length_ofLines_le _
  have hparsed : source.reading.found.length < 2 ^ 64 := by omega
  have hskipped : source.reading.skipped.length < 2 ^ 64 := by omega
  unfold read
  refine ends_bind.mpr (((Act.isPassing_meter.keeps_sourceText source w).and
    (ends_sourceText source w)).mono ?_ fun _ _ h ↦ h.2.elim)
  rintro _ w₁ ⟨hw₁, rfl⟩
  split
  · rename_i hempty
    have hreading : source.reading = {} := by
      rw [Source.reading, Source.lines, show source.decoded = "" by simpa using hempty]
      rfl
    rw [hreading]
    exact ends_pure.mpr ⟨rfl, rfl, by simpa [hw₁] using Meter.Counts.refl w.meter⟩
  rw [show ofText source.decoded = source.reading from rfl]
  refine ends_bind.mpr (((Act.isPassing_meter.keeps_logSkipped 0 source.reading.skipped w₁).and
    (ends_logSkipped 0 source.reading.skipped w₁)).mono ?_ fun _ _ h ↦ h.2.elim)
  rintro _ w₂ ⟨hw₂, -⟩
  split
  · rename_i cause hrefused
    exact ends_throw.mpr ⟨⟨cause, hrefused, rfl⟩, hw₂.trans hw₁⟩
  · rename_i hrefused
    refine Act.ends_count_charges hparsed .diagnosticsParsed w₂ fun w₃ hw₃ ↦ ?_
    have hfirst : w.meter.Counts source.reading.found.length 0 w₃.meter := by
      rw [hw₃, hw₂, hw₁]
      exact .of_parsed _ _
    split
    · rename_i hnone
      have hzero : source.reading.skipped = [] := by simpa using hnone
      exact ends_pure.mpr ⟨hrefused, rfl, by simpa [hzero] using hfirst⟩
    · refine Act.ends_count_charges hskipped .diagnosticsSkipped w₃ fun w₄ hw₄ ↦ ?_
      refine ends_pure.mpr ⟨hrefused, rfl, ?_⟩
      rw [hw₄]
      simpa using hfirst.trans (.of_skipped _ _)

theorem Source.Short.reading_eq {source : Source} (h : source.Short) :
    source.reading = { found := source.diagnostics, skipped := source.skipped } :=
  ofLines_eq (Source.ofLine_eq_of_not_garbled (Source.short_iff.mp h))

theorem Source.short_iff_refused {source : Source} :
    source.Short ↔ source.reading.refused = none := by
  constructor
  · intro h
    rw [h.reading_eq]
  · intro h
    exact Source.short_iff.mpr fun hgarbled ↦ refused_of_error hgarbled h

/-- A file of one character is the shortest path that there can be, so that the digits behind it are
those of the first layout, whatever number they are in front of. -/
theorem garbled_format {d : Diagnostic} (hone : d.file.toList.length = 1) (hfile : IsLine d.file)
    (hmessage : IsLine d.message) (hcode : IsRun isCodeChar d.code.toList)
    (hlong : 10 ^ Json.digitLimit ≤ d.line) : (Source.text d.format).Garbled := by
  have hfirst : d.layout.First d.format.toList :=
    ⟨layout_of hfile hcode, fun g hof ↦ hone.le.trans (List.length_pos_iff.mpr hof.path)⟩
  refine ⟨d.format.toList, ?_, ofLine_eq_error_iff.mpr ⟨d.layout, hfirst, fun hshort ↦ ?_⟩⟩
  · rw [Source.lines, Source.decoded, content_of_isLine (isLine_format hfile hmessage hcode)]
    exact List.mem_singleton_self _
  · have hline : (Nat.toDigits 10 d.line).length ≤ Json.digitLimit := hshort.1
    rw [Nat.length_toDigits_le_iff (by decide) (by decide)] at hline
    exact absurd hline (not_lt.mpr hlong)

end Diagnostic

open Diagnostic

/-- A source is read, and analysed, exactly if no line has too many digits in its heading. Then each
line that is not blank is a diagnostic or is skipped, and has been counted as the one or the other. -/
theorem counts_of_read {source : Source} (hsize : source.decoded.length < 2 ^ 64)
    (extra : ExtraCodes) (w : World) :
    source.diagnostics.length + source.skipped.length = source.lines.length ∧
      Ends (read source) w
        (fun ds w' ↦ source.Short ∧ ds = source.diagnostics ∧
          w.meter.Counts ds.length source.skipped.length w'.meter)
        (fun e w' ↦ ¬ source.Short ∧ (∃ cause, e = .invalid cause) ∧ w'.meter = w.meter) ∧
      Ends (analyze extra source) w
        (fun found w' ↦ source.Short ∧ found = findings extra source.diagnostics ∧
          w.meter.Counts found.length source.skipped.length w'.meter)
        fun e w' ↦ ¬ source.Short ∧ (∃ cause, e = .invalid cause) ∧ w'.meter = w.meter := by
  have hends : Ends (read source) w
      (fun ds w' ↦ source.Short ∧ ds = source.diagnostics ∧
        w.meter.Counts ds.length source.skipped.length w'.meter)
      fun e w' ↦ ¬ source.Short ∧ (∃ cause, e = .invalid cause) ∧ w'.meter = w.meter := by
    refine (ends_read_reading (source.length_lines_le.trans_lt hsize) w).mono ?_ ?_
    · rintro _ w' ⟨hrefused, rfl, hcounts⟩
      have hshort := Source.short_iff_refused.mpr hrefused
      rw [hshort.reading_eq] at hcounts ⊢
      exact ⟨hshort, rfl, hcounts⟩
    · rintro e w' ⟨⟨cause, hrefused, rfl⟩, hmeter⟩
      refine ⟨fun hshort ↦ ?_, ⟨cause, rfl⟩, hmeter⟩
      rw [Source.short_iff_refused.mp hshort] at hrefused
      cases hrefused
  refine ⟨source.length_lines, hends, ?_⟩
  unfold analyze
  refine hends.bind ?_
  rintro _ w₁ ⟨hshort, rfl, hcounts⟩
  refine ends_bind.mpr (Act.isPassing_meter.ends_log fun w₂ hw₂ ↦ ?_)
  refine ends_pure.mpr ⟨hshort, rfl, ?_⟩
  rw [hw₂]
  simpa [findings] using hcounts

/-- A diagnostic, a line that is none, and a line that reports column zero. -/
theorem counts_of_read_sample :
    let source : Source := .text "b(3,4): error TS1: x\nnoise\r\n\nb(3,0): error TS1: x"
    let d : Diagnostic := ⟨"b", 3, 4, "TS1", "x", "b(3,4): error TS1: x"⟩
    source.decoded.length < 2 ^ 64 ∧
      ∃ w', read source default = (.ok [d], w') ∧
        (w'.meter.counter .diagnosticsParsed).held [] = Double.ofNat 1 ∧
        (w'.meter.counter .diagnosticsSkipped).held [] = Double.ofNat 2 := by
  intro source d
  have hlength : source.decoded.length = 49 := by decide
  have hsize : source.decoded.length < 2 ^ 64 := by omega
  have hshort : source.Short := Source.short_iff.mpr fun ⟨line, hline, cause, hcause⟩ ↦ by
    have hall : ∀ line ∈ source.lines, (ofLine line).toOption.isSome := by decide
    simpa [hcause, Except.toOption] using hall line hline
  have hdiagnostics : source.diagnostics = [d] := by decide
  have hskipped : source.skipped.length = 2 := by decide
  -- Said of any text, so that nothing is evaluated that need not be.
  have hread : ∀ source : Source, source.decoded.length < 2 ^ 64 → source.Short → ∃ w',
      read source default = (.ok source.diagnostics, w') ∧
        (default : World).meter.Counts source.diagnostics.length source.skipped.length
          w'.meter := by
    intro source hsize hshort
    obtain ⟨-, hread, -⟩ := counts_of_read hsize [] default
    obtain ⟨_, w', hact, -, rfl, hcounts⟩ :=
      (hread.mono (fun _ _ h ↦ h) fun _ _ h ↦ h.1 hshort).exists_ok
    exact ⟨w', hact, hcounts⟩
  obtain ⟨w', hact, hcounts⟩ := hread source hsize hshort
  rw [hdiagnostics] at hact hcounts
  rw [hskipped] at hcounts
  have hzero : Double.zero = Double.ofNat 0 := by decide +kernel
  have hheld := hcounts.held_natCast (k := 0) (j := 0) hzero (by decide) hzero (by decide)
  rw [List.length_singleton, Nat.zero_add, Nat.zero_add] at hheld
  exact ⟨hsize, w', hact, hheld⟩

theorem Diagnostic.Source.Garbled.refused {source : Source} (h : source.Garbled)
    (extra : ExtraCodes) (w : World) :
    (∃ cause, (read source w).1 = .error (.invalid cause)) ∧
      ∃ cause, (analyze extra source w).1 = .error (.invalid cause) := by
  obtain ⟨_, ⟨cause, rfl⟩, hread⟩ := (h.ends_read w).exists_error
  obtain ⟨_, ⟨cause', rfl⟩, hanalyze⟩ := (h.ends_analyze extra w).exists_error
  exact ⟨⟨cause, hread⟩, cause', hanalyze⟩

theorem refused_of_long_line {n : ℕ} (hlong : 10 ^ Json.digitLimit ≤ n) :
    let d : Diagnostic := ⟨"a", n, 0, "TS1", "m", ""⟩
    ∀ extra w, (∃ cause, (read (.text d.format) w).1 = .error (.invalid cause)) ∧
      ∃ cause, (analyze extra (.text d.format) w).1 = .error (.invalid cause) := by
  intro d extra w
  have hfile : IsLine "a" := ⟨by decide, by decide, Text.forall_mem_of_all (by decide)⟩
  have hmessage : IsLine "m" := ⟨by decide, by decide, Text.forall_mem_of_all (by decide)⟩
  have hcode : IsRun isCodeChar "TS1".toList := ⟨by decide, Text.forall_mem_of_all (by decide)⟩
  have hone : "a".toList.length = 1 := by decide
  have hgarbled : (Source.text d.format).Garbled := garbled_format hone hfile hmessage hcode hlong
  exact hgarbled.refused extra w

/-- A line that reports column zero is refused all the same if the digits in front are too many. -/
theorem refused_at_column_zero :
    let d : Diagnostic := ⟨"a", 10 ^ Json.digitLimit, 0, "TS1", "m", ""⟩
    ∀ extra w, (∃ cause, (read (.text d.format) w).1 = .error (.invalid cause)) ∧
      ∃ cause, (analyze extra (.text d.format) w).1 = .error (.invalid cause) :=
  refused_of_long_line le_rfl

end Remedy
