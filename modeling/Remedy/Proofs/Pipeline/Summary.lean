import Remedy.Proofs.Pipeline.Entering
import Remedy.Proofs.Run.Ledger

/-!
# What the summary of a run says

A run of the pipeline whose phases have been carried out returns a summary, and its numbers are true
(`Pipeline.summary_of_run`): the findings at the start are those of its source, what was fixed is what
the phases that succeeded say, and what is left has been counted again, or else it is the difference,
which is never below zero. Fixers may say what they like, as long as it is a whole number.

What the source is heard to say has to be readable. If a number in it has too many digits, there is no
summary, though the source has not failed (`Pipeline.unread_of_run`).
-/

set_option autoImplicit false

namespace Remedy

open Diagnostic (Source Countable)

/-! ### Numbers -/

theorem Number.max_zero (n : ℤ) : (int n).max 0 = int (n ⊔ 0) := by
  have hlt : (int n).lt 0 = decide (n < 0) := by
    show (some (compare n 0) == some .lt) = decide (n < 0)
    rcases lt_or_ge n 0 with h | h
    · simp [compare_lt_iff_lt.mpr h, h]
    · have hne : compare n 0 ≠ .lt := fun hlt ↦ absurd (compare_lt_iff_lt.mp hlt) (not_lt.mpr h)
      rw [decide_eq_false (not_lt.mpr h)]
      cases hcompare : compare n 0 with
      | lt => exact absurd hcompare hne
      | _ => rfl
  unfold max
  rw [hlt]
  rcases lt_or_ge n 0 with h | h
  · rw [if_pos (by simpa using h), sup_of_le_right h.le]
    rfl
  · rw [if_neg (by simpa using h), sup_of_le_left h]

/-- Phases without a count make no difference to the sum. -/
theorem PhaseResult.exists_counts_filter {rs : List PhaseResult} {counts : List ℕ}
    (h : List.Forall₂ Number.Is (rs.map (·.fixedCount)) counts)
    (hnone : ∀ r ∈ rs, r.success = false → r.fixedCount = 0) :
    ∃ counts', List.Forall₂ Number.Is ((rs.filter (·.success)).map (·.fixedCount)) counts' ∧
      counts'.sum = counts.sum := by
  induction rs generalizing counts with
  | nil =>
    cases h
    exact ⟨[], .nil, rfl⟩
  | cons r rest ih =>
    obtain ⟨hr, hrest⟩ := List.forall_mem_cons.mp hnone
    cases h with
    | @cons _ n _ ns hn hns =>
      obtain ⟨counts', hcounts, hsum⟩ := ih hns hrest
      cases hsuccess : r.success with
      | true =>
        refine ⟨n :: counts', ?_, by rw [List.sum_cons, List.sum_cons, hsum]⟩
        rw [List.filter_cons_of_pos (by simpa using hsuccess)]
        exact .cons hn hcounts
      | false =>
        have hzero : n = 0 := by
          have hcount : r.fixedCount.Is n := hn
          rw [hr hsuccess] at hcount
          exact (Int.natCast_inj.mp (Option.some.inj hcount)).symm
        refine ⟨counts', ?_, by rw [hzero, List.sum_cons, hsum, Nat.zero_add]⟩
        rw [List.filter_cons_of_neg (by simp [hsuccess])]
        exact hcounts

theorem RunState.exitCode_eq_zero_iff {state : RunState} (h : state.isTerminal = true) :
    state.exitCode = 0 ↔ state = .completed := by
  cases state <;> revert h <;> decide

theorem RunState.eq_of_exitCode {state state' : RunState} (h : state.isTerminal = true)
    (h' : state'.isTerminal = true) (hsame : state.exitCode = state'.exitCode) : state = state' := by
  cases state <;> cases state' <;> revert h h' hsame <;> decide

/-! ### Counting again -/

/-- What a run says if diagnostics cannot be collected. -/
def Pipeline.complaint (e : Fault) : String :=
  s!"Could not re-collect diagnostics; final count is estimated: {e.message}"

/-- What is heard of the source when the phases have been carried out, if it is asked. -/
def Pipeline.heard (p : Pipeline) (phases : List Phase) (w : World) :
    Option (Except Fault Source) :=
  if phases.isEmpty || p.config.run.dryRun then none
  else p.source.map fun source ↦ (Act.finish source w).1

/-- If the source is asked, it answers with something that can be read, or with a fault of its own. -/
def Pipeline.Answers (p : Pipeline) (phases : List Phase) (w : World) : Prop :=
  ∀ outcome, p.heard phases w = some outcome →
    match outcome with
    | .ok answer => answer.Readable ∧ ∀ n ≤ answer.lines.length, Countable n
    | .error e => e.isA .resolver = true

/-- The context and the count, after the source has been heard. -/
def RunContext.recounted (c : RunContext) : Option (Except Fault Source) → RunContext × Option ℕ
  | none => (c, none)
  | some (.ok answer) => (c, some answer.diagnostics.length)
  | some (.error e) => (c.warn (Pipeline.complaint e), none)

theorem RunContext.mem_warn (c : RunContext) (text : String) : text ∈ (c.warn text).warnings := by
  unfold warn
  by_cases h : text ∈ c.warnings <;> simp [h]

/-- What a summary says is true: of the source that was read, of the bench on which the phases were
carried out, and of what was heard afterwards. -/
structure RunSummary.Tells (raw : Source) (b : Bench) (heard : Option (Except Fault Source))
    (x : RunSummary) : Prop where
  runId : x.runId = b.context.runId
  state : x.state = b.context.state
  history : x.history = b.context.history
  validation : x.validation = b.context.validation
  initial : x.initialErrorCount = .int raw.diagnostics.length
  /-- What was fixed is what the phases that succeeded say. -/
  fixed : ∃ n : ℕ, x.fixedCount = .int n ∧
    Number.sum ((x.history.filter (·.success)).map (·.fixedCount)) = .ok (.int n)
  unfixed : ∀ r ∈ x.history, r.success = false ∨ r.rolledBack = true → r.fixedCount = 0
  measured : ∀ answer, heard = some (.ok answer) →
    x.measured = true ∧ x.finalErrorCount = .int answer.diagnostics.length
  estimated : (∀ answer, heard ≠ some (.ok answer)) → x.measured = false ∧
    ∀ n : ℕ, x.fixedCount = .int n →
      x.finalErrorCount = .int (max ((raw.diagnostics.length : ℤ) - n) 0)
  bounded : x.measured = false →
    ∃ left : ℕ, x.finalErrorCount = .int left ∧ left ≤ raw.diagnostics.length
  /-- A source that could not be asked is worth a warning, and that is all there is to it. -/
  warnings : x.warnings = match heard with
    | some (.error e) => (b.context.warn (Pipeline.complaint e)).warnings
    | _ => b.context.warnings
  exitCode : x.exitCode = 0 ↔ x.state = .completed
  /-- Runs that end differently are told apart. -/
  distinct : ∀ state : RunState, state.isTerminal = true → state.exitCode = x.exitCode →
    state = x.state

namespace RunSummary

variable {raw : Source} {b : Bench} {heard : Option (Except Fault Source)}

theorem ofContext_eq {c : RunContext} {n m : ℕ} (h : c.fixedCount = .ok (.int n))
    (final : Option ℕ) :
    ofContext c (.int m) (final.map fun count ↦ .int count) = .ok {
      runId := c.runId
      initialErrorCount := .int m
      finalErrorCount := .int (final.elim (max ((m : ℤ) - n) 0) fun count ↦ count)
      fixedCount := .int n
      history := c.history
      validation := c.validation
      state := c.state
      warnings := c.warnings
      backupEnabled := c.config.backupEnabled
      dryRun := c.config.dryRun
      measured := final.isSome } := by
  have hestimate : estimate (.int m) (.int n) = .ok (.int (max ((m : ℤ) - n) 0)) :=
    congrArg Except.ok (Number.max_zero _)
  unfold ofContext
  rw [h]
  cases final with
  | none => simp [bind, Except.bind, hestimate, pure, Except.pure]
  | some count => rfl

/-- There is a summary if what fixers say are whole numbers, and it is true. -/
theorem exists_tells {counts : List ℕ}
    (hcounts : List.Forall₂ Number.Is (b.context.history.map (·.fixedCount)) counts)
    (hunfixed : ∀ r ∈ b.context.history, r.success = false ∨ r.rolledBack = true →
      r.fixedCount = 0)
    (hterminal : b.context.state.isTerminal = true) :
    ∃ x, ofContext (b.context.recounted heard).1 (.int raw.diagnostics.length)
        ((b.context.recounted heard).2.map fun count ↦ .int count) = .ok x ∧
      x.Tells raw b heard := by
  obtain ⟨counts', hsuccessful, hsum⟩ := PhaseResult.exists_counts_filter hcounts
    fun r hr hfailed ↦ hunfixed r hr (.inl hfailed)
  have hfixed : (b.context.recounted heard).1.fixedCount = .ok (.int counts.sum) := by
    rcases heard with _ | _ | _ <;> exact Number.sum_eq hcounts
  refine ⟨_, ofContext_eq hfixed _, ?_⟩
  have hbound : max ((raw.diagnostics.length : ℤ) - counts.sum) 0 =
      (raw.diagnostics.length - counts.sum : ℕ) := by omega
  constructor
  case fixed =>
    refine ⟨counts.sum, rfl, ?_⟩
    rw [← hsum, ← Number.sum_eq hsuccessful]
    rcases heard with _ | _ | _ <;> rfl
  case unfixed => rcases heard with _ | _ | _ <;> exact hunfixed
  case measured =>
    rintro answer rfl
    exact ⟨rfl, rfl⟩
  case estimated =>
    intro hunheard
    rcases heard with _ | _ | answer
    case some.ok => exact absurd rfl (hunheard answer)
    all_goals
      refine ⟨rfl, fun n hn ↦ ?_⟩
      obtain rfl : counts.sum = n := Int.natCast_inj.mp (Number.int.inj hn)
      rfl
  case bounded =>
    intro hunmeasured
    rcases heard with _ | _ | answer
    case some.ok => cases hunmeasured
    all_goals exact ⟨_, congrArg Number.int hbound, Nat.sub_le _ _⟩
  case exitCode =>
    rcases heard with _ | _ | _ <;> exact RunState.exitCode_eq_zero_iff hterminal
  case distinct =>
    intro state hstate hsame
    rcases heard with _ | _ | _ <;> exact RunState.eq_of_exitCode hstate hterminal hsame
  all_goals rcases heard with _ | _ | _ <;> rfl

end RunSummary

namespace Pipeline

variable {p : Pipeline} {raw : Source} {given : Option String} {runId : String} {s t : Workshop}
  {w₁ w₂ : World} {found : List Finding} {phases : List Phase} {b : Bench}

theorem length_foundIn (p : Pipeline) (raw : Source) :
    (p.foundIn raw).length = raw.diagnostics.length := by
  simp [foundIn, findings]

/-- What is heard of a source that answers as it should is counted, or warned of. -/
theorem ends_remeasure {source : Work Source} {w : World} (c : RunContext)
    (h : match (Act.finish source w).1 with
      | .ok answer => answer.Readable ∧ ∀ n ≤ answer.lines.length, Countable n
      | .error e => e.isA .resolver = true) :
    Ends (remeasure source c) w
      (fun counted _ ↦ counted = c.recounted (some (Act.finish source w).1)) fun _ _ ↦ False := by
  unfold remeasure
  rcases hheard : Act.finish source w with ⟨e | answer, w'⟩
  · rw [hheard] at h
    refine ends_bind.mpr (ends_attempt.mpr ((ends_of_error hheard).mpr ?_))
    dsimp only at h ⊢
    rw [h]
    exact ends_bind.mpr (Act.ends_log fun _ _ ↦ ends_pure.mpr rfl)
  · rw [hheard] at h
    refine ends_bind.mpr (ends_attempt.mpr ((ends_of_eq hheard).mpr ?_))
    refine ends_bind.mpr ((Diagnostic.ends_read_of_readable h.1 h.2 w').mono ?_ fun _ _ h ↦ h)
    rintro _ _ rfl
    exact ends_pure.mpr rfl

theorem ends_recount (c : RunContext) (h : p.Answers phases t.world) :
    Ends (match p.source with
      | some source =>
        if phases.isEmpty || p.config.run.dryRun then return (c, none)
        else lift (remeasure source c)
      | none => return (c, none) : PipelineAct (RunContext × Option ℕ)) t
      (fun counted _ ↦ counted = c.recounted (p.heard phases t.world)) fun _ _ ↦ False := by
  unfold Answers heard at *
  cases hsource : p.source with
  | none => simp [ends_pure, RunContext.recounted]
  | some source =>
    rw [hsource] at h
    dsimp only
    split
    · exact ends_pure.mpr rfl
    · rename_i hasked
      rw [if_neg hasked] at h
      exact ends_lift.mpr (ends_remeasure c (h _ rfl))

theorem ends_runLocked_tells (hcrew : p.crew.Whole)
    (hprepared : p.prepare raw t.world = (.ok (found, phases), w₂))
    (hrun : RunAct.run p.crew phases (.fresh w₂ t.store runId p.project p.config.run) = (.ok (), b))
    (hanswers : p.Answers phases b.world) :
    Ends (p.runLocked raw runId) t (fun x _ ↦ x.Tells raw b (p.heard phases b.world))
      fun _ _ ↦ False := by
  obtain ⟨entries, cs, -, hhistory, hbalance, -⟩ := (ends_of_eq hrun).mp
    (RunAct.ends_run_ledger hcrew phases w₂ t.store runId p.project p.config.run)
  have houtcome := (ends_of_eq hrun).mp
    (RunAct.ends_run p.crew phases w₂ t.store runId p.project p.config.run)
  obtain ⟨counts, hcounts, -⟩ := hbalance.fixed
  have hunfixed : ∀ r ∈ b.context.history, r.success = false ∨ r.rolledBack = true →
      r.fixedCount = 0 := by
    rw [hhistory]
    exact List.forall_mem_map.mpr hbalance.unfixed
  obtain ⟨x, hx, htells⟩ := @RunSummary.exists_tells raw b (p.heard phases b.world) _
    (by simpa [hhistory] using hcounts) hunfixed houtcome.terminal
  have hfound : found.length = raw.diagnostics.length := by
    rw [show found = p.foundIn raw from (ends_of_eq hprepared).mp (p.ends_prepare_found raw _),
      length_foundIn]
  unfold runLocked
  refine ends_bind.mpr (ends_lift.mpr ((ends_of_eq hprepared).mpr ?_))
  refine Ends.bind (Q := fun counted _ ↦ counted = b.context.recounted (p.heard phases b.world))
    (Ends.andThenAlways (ends_bind.mpr (ends_execute_iff.mpr ((ends_of_eq hrun).mpr
      ((ends_recount _ (t := ⟨b.world, b.store⟩) hanswers).mono ?_ fun _ _ h ↦ h.elim))))) ?_
  · rintro _ _ rfl
    exact ends_modify.mpr rfl
  · rintro _ t' rfl
    dsimp only
    rw [hfound, hx]
    exact htells

/-- What is to be carried out by a run, and the bench on which it has been, if it has. -/
def settled (p : Pipeline) (raw : Source) (given : Option String) (s : Workshop) :
    Option (List Phase × Bench) :=
  match p.enter given s.world with
  | (.error _, _) => none
  | (.ok runId, w₁) =>
    match p.prepare raw w₁ with
    | (.error _, _) => none
    | (.ok (_, phases), w₂) =>
      match RunAct.run p.crew phases (.fresh w₂ s.store runId p.project p.config.run) with
      | (.error _, _) => none
      | (.ok _, b) => some (phases, b)

/-- What is carried out does not depend on the source that is asked afterwards. -/
theorem settled_with_source (p : Pipeline) (source : Option (Work Source)) :
    settled { p with source := source } raw given s = p.settled raw given s := by
  rfl

theorem exists_of_settled (h : p.settled raw given s = some (phases, b)) :
    ∃ runId w₁ found w₂, p.enter given s.world = (.ok runId, w₁) ∧
      p.prepare raw w₁ = (.ok (found, phases), w₂) ∧
      RunAct.run p.crew phases (.fresh w₂ s.store runId p.project p.config.run) = (.ok (), b) := by
  unfold settled at h
  rcases hentered : p.enter given s.world with ⟨_ | runId, w₁⟩
  · simp only [hentered] at h
    cases h
  simp only [hentered] at h
  rcases hprepared : p.prepare raw w₁ with ⟨_ | ⟨found, phases'⟩, w₂⟩
  · simp only [hprepared] at h
    cases h
  simp only [hprepared] at h
  rcases hrun : RunAct.run p.crew phases' (.fresh w₂ s.store runId p.project p.config.run)
    with ⟨_ | ⟨⟩, b'⟩
  · simp only [hrun] at h
    cases h
  · simp only [hrun] at h
    cases h
    exact ⟨runId, w₁, found, w₂, rfl, hprepared, hrun⟩

/-- A run fails if it cannot read what it hears of its source. -/
theorem ends_run_of_unread (hsettled : p.settled raw given s = some (phases, b)) {answer : Source}
    (hheard : p.heard phases b.world = some (.ok answer))
    (hunread : ∀ w, Ends (Diagnostic.read answer) w (fun _ _ ↦ False) fun _ _ ↦ True) :
    Ends (p.run raw given) s (fun _ _ ↦ False) fun _ _ ↦ True := by
  obtain ⟨runId, w₁, found, w₂, hentered, hprepared, hrun⟩ := exists_of_settled hsettled
  unfold heard at hheard
  split at hheard
  · cases hheard
  rename_i hasked
  obtain ⟨source, hsource, hanswer⟩ := Option.map_eq_some_iff.mp hheard
  have hcounted : ∀ c, Ends (remeasure source c) b.world (fun _ _ ↦ False) fun _ _ ↦ True := by
    intro c
    unfold remeasure
    rcases hfinished : Act.finish source b.world with ⟨_ | answer', w⟩
    · rw [hfinished] at hanswer
      cases hanswer
    · rw [hfinished] at hanswer
      obtain rfl : answer' = answer := Except.ok.inj hanswer
      refine ends_bind.mpr (ends_attempt.mpr ((ends_of_eq hfinished).mpr ?_))
      exact ends_bind.mpr ((hunread w).mono (fun _ _ h ↦ h.elim) fun _ _ h ↦ h)
  have hlocked : Ends (p.runLocked raw runId) { s with world := w₁ } (fun _ _ ↦ False)
      fun _ _ ↦ True := by
    unfold runLocked
    refine ends_bind.mpr (ends_lift.mpr ((ends_of_eq hprepared).mpr ?_))
    refine Ends.bind (Q := fun _ _ ↦ False) (Ends.andThenAlways (ends_bind.mpr
      (ends_execute_iff.mpr ((ends_of_eq hrun).mpr ?_)))) fun _ _ h ↦ h.elim
    rw [hsource]
    dsimp only
    rw [if_neg hasked]
    exact ends_lift.mpr ((hcounted _).mono (fun _ _ h ↦ h.elim) fun _ _ _ ↦ ends_modify.mpr trivial)
  refine ends_run_of_entered hentered (Ends.andThenAlways (hlocked.mono (fun _ _ h ↦ h.elim) ?_))
  exact fun _ t _ ↦ ends_lift.mpr ((RunLock.ends_release_ok _ t.world).mono (fun _ _ _ ↦ trivial)
    fun _ _ h ↦ h.elim)

/-- A run whose phases have been carried out, by fixers that say whole numbers, returns a summary, and
the summary is true. -/
theorem summary_of_run (p : Pipeline) (raw : Source) (given : Option String) (hcrew : p.crew.Whole)
    (hsettled : p.settled raw given s = some (phases, b)) (hanswers : p.Answers phases b.world) :
    ∃ x s', p.run raw given s = (.ok x, s') ∧ x.Tells raw b (p.heard phases b.world) := by
  obtain ⟨runId, w₁, found, w₂, hentered, hprepared, hrun⟩ := exists_of_settled hsettled
  have hlocked := ends_runLocked_tells (t := { s with world := w₁ }) hcrew hprepared hrun hanswers
  refine (ends_run_of_entered hentered (Ends.andThenAlways
    (hlocked.mono (fun x t htells ↦ ?_) fun _ _ h ↦ h.elim))).exists_ok
  exact ends_lift.mpr ((RunLock.ends_release_ok _ t.world).mono (fun _ _ _ _ _ ↦ htells)
    fun _ _ h ↦ h)

/-! ### Runs with a source -/

/-- The pipeline for one file with a fixer that says that it fixed three findings, and a source that
answers at once. -/
def oneFileWith (outcome : Except Fault Source) : Pipeline :=
  { oneFile with
    crew := .counting 3
    source := some (Work.ofCourse { outcome := outcome }) }

theorem exists_settled_oneFile : ∃ phases b, ∀ outcome,
    (oneFileWith outcome).settled oneError (some "run-1")
      ⟨Scenario.oneFile.world, oneFile.store⟩ = some (phases, b) ∧
    (oneFileWith outcome).heard phases b.world = some outcome := by
  let p : Pipeline := { oneFile with crew := .counting 3 }
  have hsome : (p.settled oneError (some "run-1") ⟨Scenario.oneFile.world, oneFile.store⟩).any
      (fun y ↦ !y.1.isEmpty) = true := by
    decide +kernel
  obtain ⟨⟨phases, b⟩, hsettled, hphases⟩ := (Option.any_eq_true _ _).mp hsome
  refine ⟨phases, b, fun outcome ↦ ⟨(p.settled_with_source _).trans hsettled, ?_⟩⟩
  have hasked : phases.isEmpty = false := by simpa using hphases
  rw [heard, hasked]
  cases outcome <;> rfl

/-- The fixer says too much, and what is left is counted again; if that is not possible, nothing is
left of one finding. -/
theorem summary_of_oneFile :
    let s : Workshop := ⟨Scenario.oneFile.world, oneFile.store⟩
    let answer : Source := .text "a.ts(1,1): error TS1005: x\n?"
    let e : Fault := .raised .resolver "no"
    ∃ b,
      (∃ x s', (oneFileWith (.ok answer)).run oneError (some "run-1") s = (.ok x, s') ∧
        x.Tells oneError b (some (.ok answer)) ∧ x.finalErrorCount = .int 1) ∧
      ∃ x s', (oneFileWith (.error e)).run oneError (some "run-1") s = (.ok x, s') ∧
        x.Tells oneError b (some (.error e)) ∧ complaint e ∈ x.warnings := by
  intro s answer e
  obtain ⟨phases, b, h⟩ := exists_settled_oneFile
  have hlines : answer.lines = ["a.ts(1,1): error TS1005: x".toList, ['?']] := by decide +kernel
  have hreadable : answer.Readable := by
    have hshort : ∀ line ∈ answer.lines, line.length ≤ Json.digitLimit := by
      rw [hlines]
      decide +kernel
    exact fun line hline run hrun _ ↦ hrun.length_le.trans (hshort line hline)
  have hcount : ∀ n ≤ answer.lines.length, Countable n := fun n hn ↦
    Diagnostic.countable_of_lt (hn.trans_lt (by rw [hlines]; decide))
  refine ⟨b, ?_, ?_⟩
  · obtain ⟨hsettled, hheard⟩ := h (.ok answer)
    obtain ⟨x, s', hrun, htells⟩ := summary_of_run _ oneError (some "run-1")
      (Crew.whole_counting 3) hsettled fun outcome houtcome ↦ by
        rw [hheard] at houtcome
        cases houtcome
        exact ⟨hreadable, hcount⟩
    rw [hheard] at htells
    refine ⟨x, s', hrun, htells, ?_⟩
    rw [(htells.measured answer rfl).2]
    decide +kernel
  · obtain ⟨hsettled, hheard⟩ := h (.error e)
    obtain ⟨x, s', hrun, htells⟩ := summary_of_run _ oneError (some "run-1")
      (Crew.whole_counting 3) hsettled fun outcome houtcome ↦ by
        rw [hheard] at houtcome
        cases houtcome
        decide
    rw [hheard] at htells
    refine ⟨x, s', hrun, htells, ?_⟩
    rw [htells.warnings]
    exact RunContext.mem_warn b.context _

theorem exists_long : ∃ d : Diagnostic, d.WellFormed ∧ ¬ d.Short := by
  have hlong : ∀ n, 10 ^ Json.digitLimit ≤ n → ∃ d : Diagnostic, d.WellFormed ∧ ¬ d.Short :=
    fun n hn ↦ ⟨_, (wellFormed_and_read_ne hn).1, fun hshort ↦ absurd hshort.1 (not_lt.mpr hn)⟩
  exact hlong _ le_rfl

/-- A source may say something that cannot be read, though it does not fail; then the run does. -/
theorem unread_of_run :
    ¬ ∀ (p : Pipeline) (raw : Source) (given : Option String) (s : Workshop) (phases : List Phase)
      (b : Bench), p.crew.Whole → p.settled raw given s = some (phases, b) →
        (∀ e, p.heard phases b.world = some (.error e) → e.isA .resolver = true) →
        ∃ x s', p.run raw given s = (.ok x, s') := by
  intro hclaim
  obtain ⟨d, hd, hlong⟩ := exists_long
  obtain ⟨phases, b, h⟩ := exists_settled_oneFile
  obtain ⟨hsettled, hheard⟩ := h (.ok (.text d.format))
  obtain ⟨x, s', hrun⟩ := hclaim _ oneError (some "run-1") ⟨Scenario.oneFile.world, oneFile.store⟩
    phases b (Crew.whole_counting 3) hsettled fun e he ↦ by
      rw [hheard] at he
      cases he
  exact (ends_of_eq hrun).mp (ends_run_of_unread hsettled hheard
    (Diagnostic.ends_read_of_refused (Diagnostic.refused_of_long hd hlong)))

end Pipeline

end Remedy
