import Remedy.Probe
import Remedy.Proofs.Diagnostic.Joining
import Remedy.Proofs.Gate
import Remedy.Proofs.Planning

/-!
# What the output of a compiler says

A compiler has passed if it has returned zero and no line of either of its streams is a diagnostic,
as the form of such lines has it (`Diagnostic.Reports`). Otherwise the lines that are diagnostics are
counted, the first three of them are shown, and the codes on them are listed that occur most often
(`CommandResult.MostFrequent`). `CommandResult.exists_compileReport` states this of any output that
can be read. What is counted is added up as a floating number, so a text must not be longer than any
that there is room for.

That codes which occur equally often stay in order is a fact about stable sorting
(`StablySorted.pairwise`).
-/

set_option autoImplicit false

namespace Remedy

/-- What was in order before it was sorted still is where ranks are equal. -/
theorem StablySorted.pairwise {α β : Type} [LinearOrder β] {rank : α → β} {xs ys : List α}
    (h : StablySorted rank xs ys) {P : α → α → Prop} (hP : xs.Pairwise P) :
    ys.Pairwise fun a b ↦ rank a < rank b ∨ rank a = rank b ∧ P a b := by
  rw [List.pairwise_iff_forall_sublist]
  intro a b hab
  rcases (List.pairwise_iff_forall_sublist.mp h.ordered hab).lt_or_eq with hlt | heq
  · exact .inl hlt
  · -- The two are among the elements of one rank, which sorting has left as they were.
    refine .inr ⟨heq, List.pairwise_iff_forall_sublist.mp hP ?_⟩
    have hsub : [a, b].Sublist (ys.filter (rank · = rank b)) := by
      simpa [heq] using hab.filter (rank · = rank b)
    rw [h.stable] at hsub
    exact hsub.trans List.filter_sublist

namespace Diagnostic

open Remedy.Text

/-- The line is a diagnostic: its first layout has a place in it and describes it. -/
def Reports (line : List Char) (d : Diagnostic) : Prop :=
  ∃ g : Layout, g.First line ∧ g.Placed ∧ d = g.diagnostic line

variable {line : List Char} {d : Diagnostic}

theorem onLine_eq_some_iff_ofLine : onLine line = some d ↔ ofLine line = .ok (some d) := by
  cases hline : ofLine line <;> simp [onLine, hline, Except.toOption]

theorem reports_of_onLine (h : onLine line = some d) : Reports line d := by
  obtain ⟨g, hfirst, -, hplaced, heq⟩ := exists_layout_of_ofLine (onLine_eq_some_iff_ofLine.mp h)
  exact ⟨g, hfirst, hplaced, heq⟩

theorem onLine_eq_some_iff (hshort : ∀ g : Layout, g.First line → g.Short) :
    onLine line = some d ↔ Reports line d := by
  refine ⟨reports_of_onLine, ?_⟩
  rintro ⟨g, hfirst, hplaced, rfl⟩
  exact onLine_eq_some_iff_ofLine.mpr (ofLine_of_placed hfirst (hshort g hfirst) hplaced)

end Diagnostic

namespace CommandResult

open Diagnostic

/-! ### Frequent codes -/

/-- Of two codes with their counts the first is the more frequent one, or occurs earlier. -/
def Leads (codes : List String) (a b : String × ℕ) : Prop :=
  b.2 < a.2 ∨ a.2 = b.2 ∧ codes.idxOf a.1 < codes.idxOf b.1

/-- Five codes with how often they occur, or as many as there are, in front of all others. -/
structure MostFrequent (codes : List String) (top : List (String × ℕ)) : Prop where
  length : top.length = min 5 codes.toFinset.card
  counts : ∀ c ∈ top, c.1 ∈ codes ∧ c.2 = codes.count c.1
  ordered : top.Pairwise (Leads codes)
  leads : ∀ code ∈ codes, code ∉ top.map Prod.fst →
    ∀ c ∈ top, Leads codes c (code, codes.count code)

/-- The codes with their counts, in the order of first occurrence. -/
def counted (codes : List String) : List (String × ℕ) :=
  (distinct codes).map fun code ↦ (code, codes.count code)

theorem mem_counted {codes : List String} {c : String × ℕ} :
    c ∈ counted codes ↔ c.1 ∈ codes ∧ c.2 = codes.count c.1 := by
  simp only [counted, List.mem_map, mem_distinct]
  constructor
  · rintro ⟨code, hcode, rfl⟩
    exact ⟨hcode, rfl⟩
  · rintro ⟨hcode, hcount⟩
    exact ⟨c.1, hcode, Prod.ext rfl hcount.symm⟩

theorem length_counted (codes : List String) : (counted codes).length = codes.toFinset.card := by
  have hsame : (distinct codes).toFinset = codes.toFinset := by
    ext code
    rw [List.mem_toFinset, List.mem_toFinset, mem_distinct]
  rw [counted, List.length_map, ← hsame, List.toFinset_card_of_nodup (nodup_distinct codes)]

/-- The codes with their counts, in the order in which they lead. -/
theorem exists_ranking (codes : List String) :
    ∃ ranking : List (String × ℕ), topCodes codes = ranking.take 5 ∧
      ranking.Perm (counted codes) ∧ ranking.Pairwise (Leads codes) := by
  let rank : String × ℕ → ℕᵒᵈ := fun c ↦ OrderDual.toDual c.2
  have hsorted : StablySorted rank (counted codes)
      ((counted codes).mergeSort fun a b ↦ decide (b.2 ≤ a.2)) := by
    refine stablySorted_mergeSort (fun a b ↦ ?_) _
    rw [decide_eq_true_eq, OrderDual.toDual_le_toDual]
  have hearlier : (counted codes).Pairwise fun a b ↦ codes.idxOf a.1 < codes.idxOf b.1 :=
    List.pairwise_map.mpr (pairwise_idxOf_distinct codes)
  refine ⟨_, rfl, hsorted.perm, (hsorted.pairwise hearlier).imp ?_⟩
  rintro a b (hlt | ⟨heq, hidx⟩)
  · exact .inl hlt
  · exact .inr ⟨heq, hidx⟩

theorem mostFrequent_topCodes (codes : List String) : MostFrequent codes (topCodes codes) := by
  obtain ⟨ranking, htop, hperm, hordered⟩ := exists_ranking codes
  rw [htop]
  constructor
  case length => rw [List.length_take, hperm.length_eq, length_counted]
  case counts =>
    intro c hc
    exact mem_counted.mp (hperm.mem_iff.mp (List.mem_of_mem_take hc))
  case ordered => exact hordered.sublist (List.take_sublist 5 ranking)
  case leads =>
    intro code hcode hleft c hc
    have hmem : (code, codes.count code) ∈ ranking.take 5 ++ ranking.drop 5 := by
      rw [List.take_append_drop]
      exact hperm.mem_iff.mpr (mem_counted.mpr ⟨hcode, rfl⟩)
    rw [← List.take_append_drop 5 ranking] at hordered
    rcases List.mem_append.mp hmem with htaken | hdropped
    · exact absurd (List.mem_map_of_mem htaken) hleft
    · exact (List.pairwise_append.mp hordered).2.2 c hc _ hdropped

/-! ### Reports -/

variable {r : CommandResult}

/-- The lines of the one stream and then those of the other. -/
def printed (r : CommandResult) : List (List Char) :=
  (Source.text r.stdout).lines ++ (Source.text r.stderr).lines

/-- The lines that are diagnostics. -/
def reporting (r : CommandResult) : List (List Char) := r.printed.filter (onLine · |>.isSome)

/-- The diagnostics on them. -/
def reported (r : CommandResult) : List Diagnostic := r.printed.filterMap onLine

theorem map_raw_reported (r : CommandResult) :
    r.reported.map (·.raw) = r.reporting.map String.ofList := by
  unfold reported reporting
  induction r.printed with
  | nil => rfl
  | cons line rest ih =>
    cases hon : onLine line with
    | none => simpa [hon] using ih
    | some d =>
      -- A diagnostic keeps the line that it is on.
      obtain ⟨g, -, -, rfl⟩ := reports_of_onLine hon
      simpa [hon, Layout.diagnostic] using ih

theorem length_reported (r : CommandResult) : r.reported.length = r.reporting.length := by
  simpa using congrArg List.length r.map_raw_reported

theorem reporting_eq_nil_iff : r.reporting = [] ↔ r.reported = [] := by
  rw [← List.length_eq_zero_iff, ← length_reported, List.length_eq_zero_iff]

/-- What a report says of lines: how many are diagnostics and, if there are any, what is on them. -/
structure Summarises (r : CommandResult) (report : ProbeReport) : Prop where
  success : report.success = true ↔
    r.returnCode = 0 ∧ ∀ line ∈ r.printed, ∀ d, ¬ Reports line d
  count : ∃ others, report.details = .obj (("error_count", r.reporting.length) :: others)
  details : r.reporting ≠ [] → ∃ top, MostFrequent (r.reported.map (·.code)) top ∧
    report.details = .obj [
      ("error_count", r.reporting.length),
      ("top_error_codes", .arr (top.map fun c ↦ .arr [c.1, c.2])),
      ("sample_errors", .strs ((r.reporting.take 3).map String.ofList))]

theorem diagnostics_output (r : CommandResult) : (Source.text r.output).diagnostics = r.reported := by
  rw [Source.diagnostics, show (Source.text r.output).lines = r.printed from joins_output r]
  rfl

theorem short_output (hout : (Source.text r.stdout).Short) (herr : (Source.text r.stderr).Short) :
    (Source.text r.output).Short := by
  unfold Source.Short
  rw [show (Source.text r.output).lines = r.printed from joins_output r, printed]
  exact List.forall_mem_append.mpr ⟨hout, herr⟩

/-- Reading what has been printed finds what is on the lines. -/
theorem exists_read_output (hsize : r.output.length < 2 ^ 64)
    (hout : (Source.text r.stdout).Short) (herr : (Source.text r.stderr).Short) (w : World) :
    ∃ w', read (.text r.output) w = (.ok r.reported, w') := by
  have hshort := short_output hout herr
  have hlines : (Source.text r.output).lines.length < 2 ^ 64 :=
    (Source.length_lines_le _).trans_lt hsize
  have hverdict := read_fst_eq_verdict hlines w
  rw [hshort.reading_eq, diagnostics_output] at hverdict
  exact ⟨(read (.text r.output) w).2, Prod.ext hverdict rfl⟩

/-- A report is made of any output in which no heading has too many digits. It is positive exactly if
the return code is zero and no line is a diagnostic, and otherwise it tells which lines are. -/
theorem exists_compileReport (r : CommandResult) (name : String) (w : World)
    (hsize : r.output.length < 2 ^ 64)
    (hout : (Source.text r.stdout).Short) (herr : (Source.text r.stderr).Short) :
    (∀ line ∈ r.printed, ∀ d, onLine line = some d ↔ Reports line d) ∧
      ∃ report w', r.compileReport name w = (.ok report, w') ∧ r.Summarises report := by
  have hreports : ∀ line ∈ r.printed, ∀ d, onLine line = some d ↔ Reports line d :=
    fun line hline d ↦ onLine_eq_some_iff (List.forall_mem_append.mpr ⟨hout, herr⟩ line hline)
  have hnone : r.reported = [] ↔ ∀ line ∈ r.printed, ∀ d, ¬ Reports line d := by
    rw [reported, List.filterMap_eq_nil_iff]
    refine forall₂_congr fun line hline ↦ ?_
    rw [Option.eq_none_iff_forall_ne_some]
    exact forall_congr' fun d ↦ not_congr (hreports line hline d)
  refine ⟨hreports, ?_⟩
  obtain ⟨w', hread⟩ := exists_read_output hsize hout herr w
  unfold compileReport
  rw [bind_apply, hread]
  by_cases hempty : r.reported = []
  · have hzero : r.reporting.length = 0 := by rw [← length_reported, hempty, List.length_nil]
    have hnil := reporting_eq_nil_iff.mpr hempty
    by_cases hcode : r.returnCode = 0
    · refine ⟨_, w', by simp only [hempty, success, hcode]; rfl, ?_, ?_, fun hne ↦ absurd hnil hne⟩
      · exact iff_of_true rfl ⟨hcode, hnone.mp hempty⟩
      · exact ⟨[], by rw [hzero]; rfl⟩
    · refine ⟨_, w', by simp only [hempty, success, hcode]; rfl, ?_, ?_, fun hne ↦ absurd hnil hne⟩
      · exact iff_of_false Bool.false_ne_true fun h ↦ hcode h.1
      · exact ⟨_, by rw [hzero]; rfl⟩
  · have hfalse : r.reported.isEmpty = false := by simpa using hempty
    have hsamples : (r.reported.take 3).map (·.raw) = (r.reporting.take 3).map String.ofList := by
      rw [List.map_take, List.map_take, map_raw_reported]
    refine ⟨_, w', by simp only [hfalse]; rfl, ?_, ?_, fun _ ↦ ⟨_, mostFrequent_topCodes _, ?_⟩⟩
    · exact iff_of_false Bool.false_ne_true fun h ↦ hempty (hnone.mpr h.2)
    · exact ⟨_, by rw [← length_reported]⟩
    · rw [← length_reported, ← hsamples]

/-- A return code of zero, with diagnostics on lines of both streams. -/
theorem exists_compileReport_sample :
    let r : CommandResult :=
      ⟨"b(3,4): error TS1: x\nnoise\na(1,2): error TS2: y", "c(1,1): error TS2: z", 0, ["tsc"]⟩
    (r.output.length < 2 ^ 64 ∧ (Source.text r.stdout).Short ∧ (Source.text r.stderr).Short) ∧
      ∃ report w', r.compileReport "tsc" default = (.ok report, w') ∧ report.success = false ∧
        ∃ others, report.details = .obj (("error_count", (3 : ℕ)) :: others) := by
  intro r
  have hsize : r.output.length < 2 ^ 64 := by
    have hlength : r.output.length = 68 := by decide
    omega
  have hshort : ∀ source : Source,
      (∀ line ∈ source.lines, (ofLine line).toOption.isSome) → source.Short := by
    intro source hall
    refine Source.short_iff.mpr fun ⟨line, hline, cause, hcause⟩ ↦ ?_
    simpa [hcause, Except.toOption] using hall line hline
  have hout : (Source.text r.stdout).Short := hshort _ (by decide)
  have herr : (Source.text r.stderr).Short := hshort _ (by decide)
  obtain ⟨hreports, report, w', hact, hsum⟩ :=
    exists_compileReport r "tsc" default hsize hout herr
  have hlength : r.reporting.length = 3 := by decide
  refine ⟨⟨hsize, hout, herr⟩, report, w', hact, ?_, hlength ▸ hsum.count⟩
  obtain ⟨line, hmem⟩ := List.exists_mem_of_length_pos (by omega : 0 < r.reporting.length)
  obtain ⟨hline, hon⟩ := List.mem_filter.mp hmem
  obtain ⟨d, hd⟩ := Option.isSome_iff_exists.mp hon
  exact Bool.eq_false_iff.mpr fun h ↦
    (hsum.success.mp h).2 line hline d ((hreports line hline d).mp hd)

end CommandResult

end Remedy
