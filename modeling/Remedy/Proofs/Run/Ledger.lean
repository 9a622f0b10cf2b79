import Remedy.Proofs.Run.Booking
import Remedy.Proofs.Run.Outcome
import Remedy.Proofs.Run.Snapshots

/-!
# Meter and history

Runs measure themselves as they go, and keep a history of results. The two agree: after any series of
runs that return, what the meter has counted of them is what their histories say
(`reconciled_of_series`), as long as it is not more than a fraction can count; beyond that counters
are rounded (`miscounted_of_series`).

The ledger of a run is that its results have been charged (`Bench.Ledger`). Each phase adds its entry
(`Bench.Ledger.books`), so that all phases together do (`RunAct.ends_run_ledger`), and a series of runs
is charged for the entries of all of them (`Series.exists_balance`).
-/

set_option autoImplicit false

namespace Remedy

open Meter (Tally)

/-! ### Runs -/

/-- Those of the results of a run that say what has been done, if so many sets of files could not be
recorded: none of them if it was a dry run, and otherwise all but that of a phase whose files could
not be recorded, which is the last one. -/
def RunConfig.carriedOf (config : RunConfig) (refusals : ℕ) (entries : List Entry) : List Entry :=
  if config.dryRun then [] else entries.take (entries.length - refusals)

/-- Since the meter was `m`, these phases have got results, and have been charged for them. -/
structure Bench.Ledger (m : Meter) (config : RunConfig) (entries : List Entry) (b : Bench) :
    Prop where
  history : b.context.history = entries.map (·.2)
  settings : b.context.config = config
  charges : ∃ cs, Balance entries (config.carriedOf b.refusals entries) [] cs ∧
    (m.charge cs).Agrees b.world.meter ∧ (config.dryRun = true → cs = [])

namespace Bench.Ledger

variable {m : Meter} {config : RunConfig} {entries : List Entry} {b b' : Bench} {phase : Phase}

theorem aside (h : b.Ledger m config entries) (h' : b.Aside b') : b'.Ledger m config entries := by
  obtain ⟨cs, hbalance, hbills, hdry⟩ := h.charges
  refine ⟨h'.history.trans h.history, h'.config.trans h.settings, cs, ?_, hbills.trans h'.bills, hdry⟩
  rw [h'.refusals]
  exact hbalance

/-- The step of the ledger: one more phase gets its result. -/
theorem books (h : b.Ledger m config entries) (hnone : b.refusals = 0) (h' : b.Books phase b') :
    ∃ r, b'.Ledger m config (entries ++ [(phase, r)]) ∧
      (b'.context.isFinished = false → b'.refusals = 0) := by
  obtain ⟨cs, hbalance, hbills, hdry⟩ := h.charges
  rw [hnone] at hbalance
  have hhistory : ∀ {r : PhaseResult} {b₀ : Bench} {cs' : List Charge}, b₀.Enters r cs' b' →
      b₀.context.history = b.context.history →
      b'.context.history = (entries ++ [(phase, r)]).map (·.2) := by
    intro r b₀ cs' henters hsame
    rw [henters.history, hsame, h.history, List.map_append]
    rfl
  cases h' with
  | carried hwet hcarried =>
    obtain ⟨r, cs', henters, hbalance'⟩ := hcarried
    rw [h.settings] at hwet
    refine ⟨r, ⟨hhistory henters rfl, henters.config.trans h.settings, cs ++ cs', ?_, ?_, ?_⟩,
      fun _ ↦ henters.refusals.trans hnone⟩
    · have htake : (entries ++ [(phase, r)]).take (entries.length + 1) = entries ++ [(phase, r)] :=
        List.take_of_length_le (by simp)
      rw [henters.refusals, hnone]
      simpa [RunConfig.carriedOf, hwet, htake] using hbalance.append hbalance'
    · rw [Meter.charge_append]
      exact (hbills.charge cs').trans henters.bills
    · rw [hwet]
      exact nofun
  | @rehearsed r hrehearsed henters hbalance' =>
    rw [h.settings] at hrehearsed
    refine ⟨r, ⟨hhistory henters rfl, henters.config.trans h.settings, cs, ?_,
      hbills.trans henters.bills, hdry⟩, fun _ ↦ henters.refusals.trans hnone⟩
    simpa [RunConfig.carriedOf, hrehearsed] using hbalance.append hbalance'
  | @refused r hwet henters hbalance' hfinished =>
    rw [h.settings] at hwet
    have hrefusals : b'.refusals = 1 := by
      rw [henters.refusals, refusals_note, hnone]
      rfl
    refine ⟨r, ⟨hhistory henters rfl, henters.config.trans h.settings, cs, ?_,
      hbills.trans henters.bills, hdry⟩, fun hgoing ↦ ?_⟩
    · rw [hrefusals]
      simpa [RunConfig.carriedOf, hwet] using hbalance.append hbalance'
    · rw [hfinished] at hgoing
      cases hgoing

end Bench.Ledger

namespace RunAct

variable {crew : Crew} {m : Meter} {config : RunConfig} {entries : List Entry} {b : Bench}

theorem aside_runValidation : Keeps Bench.Aside (runValidation crew) := by
  have hvalidate : Keeps World.Unbilled (validate crew.checks) :=
    Act.isChecking_unbilled.keeps_validate fun _ _ w ↦ Act.isOffsite_unbilled.site w _
  unfold runValidation
  refine aside_bind aside_get fun b ↦ ?_
  dsimp only
  split
  · split
    · exact aside_update (fun _ ↦ rfl) fun _ ↦ rfl
    · refine aside_bind (aside_moveTo _ _ _) fun _ ↦ aside_bind (aside_lift hvalidate) fun _ ↦ ?_
      exact aside_update (fun _ ↦ rfl) fun _ ↦ rfl
  · exact aside_pure _

theorem aside_conclude : Keeps Bench.Aside conclude := by
  unfold conclude
  refine aside_bind aside_get fun b ↦ ?_
  dsimp only
  split
  · exact aside_moveTo _ _ _
  · split
    · exact aside_bind (aside_update (fun _ ↦ rfl) fun _ ↦ rfl) fun _ ↦ aside_moveTo _ _ _
    · exact aside_bind (aside_update (fun _ ↦ rfl) fun _ ↦ rfl) fun _ ↦ aside_moveTo _ _ _

theorem aside_bindField (name : String) (value : Json) :
    Keeps Bench.Aside (lift (Act.bindField name value)) :=
  aside_lift (keeps_modify fun w ↦ .refl w.meter)

/-- The phases that are left over are entered one after the other, until the run has ended. -/
theorem ends_runPhases_ledger (hcrew : crew.Whole) (whole : Option Snapshot) (rest : List Phase)
    (h : b.Ledger m config entries) (hnone : b.refusals = 0) :
    Ends (runPhases crew whole rest) b
      (fun _ b' ↦ ∃ more, more.map (·.1) <+: rest ∧ b'.Ledger m config (entries ++ more))
      fun _ _ ↦ True := by
  refine ends_runPhases_of (P := fun part b ↦ ∃ more, more.map (·.1) ++ part = rest ∧
    b.Ledger m config (entries ++ more) ∧ b.refusals = 0)
    ?_ ?_ ⟨[], rfl, (List.append_nil entries).symm ▸ h, hnone⟩
  · rintro b ⟨more, hmore, h, -⟩
    have hends : Keeps Bench.Aside (runPhases crew whole []) :=
      aside_bind aside_runValidation fun _ ↦ aside_conclude
    refine (hends b).mono (fun _ b' haside ↦ ?_) fun _ _ _ ↦ trivial
    exact ⟨more, hmore ▸ List.prefix_append _ _, h.aside haside⟩
  · rintro phase rest b ⟨more, hmore, h, hnone⟩
    refine (aside_moveTo _ _ _ b).mono (fun _ b₁ hmoved ↦ ?_) fun _ _ _ ↦ trivial
    have hentered : b₁.Aside (b₁.entered phase) :=
      aside_bind (aside_note (o := .start phase) rfl) (fun _ ↦ aside_bindField "phase" phase.name) b₁
    have haside := hmoved.aside hentered
    refine (ends_runPhase_books hcrew whole (b₁.entered phase)).mono (fun _ b₂ hbooks ↦ ?_)
      fun _ _ _ ↦ trivial
    obtain ⟨r, hledger, hgoing⟩ := (h.aside haside).books (haside.refusals.trans hnone) hbooks
    have hunbound : (b₂.unbound "phase").Ledger m config (entries ++ (more ++ [(phase, r)])) := by
      rw [← List.append_assoc]
      exact hledger.aside (Bench.aside_of_unbilled (.refl _))
    exact ⟨fun _ ↦ ⟨more ++ [(phase, r)], by simp [← hmore], hunbound⟩, fun hunfinished ↦
      ⟨more ++ [(phase, r)], by simp [← hmore], hunbound, hgoing hunfinished⟩⟩

/-- The files of all phases are recorded, or need not be, or the run is over. -/
theorem ends_recordAll_aside (phases : List Phase) (b : Bench) :
    Ends (recordAll phases) b
      (fun _ b' ↦ b.Aside b' ∨
        (b.note (.refusal none)).Aside b' ∧ b'.context.isFinished = true)
      fun _ _ ↦ True := by
  refine ends_recordAll_of ?_
  constructor
  case idle => exact fun _ ↦ .inl (.refl b)
  case unbacked =>
    refine fun _ ↦ (aside_log _ _ _ b.unbacked).mono (fun _ b' h ↦ .inl ?_) fun _ _ _ ↦ trivial
    exact Bench.Charged.aside (Bench.aside_change rfl rfl) h
  case recorded =>
    intro _ _ _
    have hfiles : Keeps Bench.Aside (phases.mapM filesOf) :=
      keeps_mapM .refl Bench.aside_trans aside_filesOf phases
    refine (hfiles b).mono (fun files b₁ h₁ ↦ ?_) fun _ _ _ ↦ trivial
    refine (aside_takeSnapshot _ _ b₁).mono (fun _ b₂ h₂ ↦ .inl (h₁.aside h₂)) fun e b₂ h₂ ↦ ?_
    refine ⟨fun _ ↦ (ends_moveAside _ _ _ _).mono ?_ fun _ _ _ ↦ trivial, fun _ ↦ trivial⟩
    rintro _ b' ⟨haside, hstate⟩
    have h₂ := h₁.aside h₂
    have hnoted : (b.note (.refusal none)).Aside (b₂.note (.refusal none)) :=
      ⟨h₂.history, h₂.config, h₂.attempt, by
        rw [Bench.refusals_note, Bench.refusals_note, h₂.refusals], h₂.bills⟩
    refine .inr ⟨(hnoted.aside (Bench.aside_change rfl rfl)).aside haside, ?_⟩
    rw [RunContext.isFinished, hstate]
    rfl

theorem ends_execute_ledger (hcrew : crew.Whole) (phases : List Phase) (h : b.Ledger m config [])
    (hnone : b.refusals = 0) :
    Ends (execute crew phases) b
      (fun _ b' ↦ ∃ entries, entries.map (·.1) <+: phases ∧ b'.Ledger m config entries)
      fun _ _ ↦ True := by
  refine ends_execute_of ((aside_moveTo _ _ _ b).mono (fun _ b₁ h₁ ↦ ?_) fun _ _ _ ↦ trivial)
  refine (ends_recordAll_aside phases b₁).mono (fun whole b₂ h₂ ↦ ?_) fun _ _ h ↦ h
  rcases h₂ with h₂ | ⟨h₂, hfinished⟩
  · have haside := h₁.aside h₂
    refine ⟨fun _ ↦ ⟨[], List.nil_prefix, h.aside haside⟩, fun _ ↦ ?_⟩
    simpa using ends_runPhases_ledger hcrew whole phases (h.aside haside)
      (haside.refusals.trans hnone)
  · obtain ⟨cs, hbalance, hbills, hdry⟩ := h.charges
    refine .of_ended hfinished ⟨[], List.nil_prefix, ?_, ?_, cs, ?_, ?_, hdry⟩
    · rw [h₂.history]
      exact h₁.history.trans h.history
    · rw [h₂.config]
      exact h₁.config.trans h.settings
    · simpa [RunConfig.carriedOf] using hbalance
    · exact (hbills.trans h₁.bills).trans h₂.bills

/-- The phases of a run that returns get results in order, as many as there are, and the run is
charged for these and for the state that it has ended in. -/
theorem ends_run_ledger (hcrew : crew.Whole) (phases : List Phase) (world : World) (store : Store)
    (runId : String) (project : Route) (config : RunConfig) :
    Ends (run crew phases) (.fresh world store runId project config)
      (fun _ b ↦ ∃ entries cs,
        entries.map (·.1) <+: phases.mergeSort (fun p q ↦ p.priority ≤ q.priority) ∧
        b.context.history = entries.map (·.2) ∧
        Balance entries (config.carriedOf b.refusals entries) [b.context.state] cs ∧
        (world.meter.charge cs).Agrees b.world.meter ∧
        (config.dryRun = true → cs = [.add .runsFinished [("state", b.context.state.name)] 1]))
      fun _ _ ↦ True := by
  have hfresh : (Bench.fresh world store runId project config).Ledger world.meter config [] :=
    ⟨rfl, rfl, [], by simpa [RunConfig.carriedOf] using Balance.none, .refl _, fun _ ↦ rfl⟩
  refine ends_run_of fun fields ↦ (aside_log _ _ _ _).mono (fun _ b₂ hlogged ↦ ?_) fun _ _ _ ↦ trivial
  have haside := (aside_bindField "run_id" runId (.fresh world store runId project config)).aside
    hlogged
  refine (ends_execute_ledger hcrew _ (hfresh.aside haside) haside.refusals).mono ?_
    fun _ _ _ ↦ trivial
  rintro _ b₃ ⟨entries, hentries, hledger⟩
  have hleft : b₃.left.Ledger world.meter config entries :=
    hledger.aside (Bench.aside_of_unbilled (.refl _))
  obtain ⟨cs, hbalance, hbills, hdry⟩ := hleft.charges
  refine ends_lift.mpr ((Act.ends_count_one _ _ _).mono (fun _ w₄ hcounted ↦ ?_) fun _ _ _ ↦ trivial)
  refine ⟨fun _ _ ↦ trivial, fun fixed _ fields ↦ ?_⟩
  refine ends_lift.mpr (Act.isOffsite_unbilled.ends_log fun w hw ↦ ?_)
  refine ⟨entries, cs ++ [.add .runsFinished [("state", b₃.context.state.name)] 1], hentries,
    hledger.history, ?_, ?_, fun h ↦ by rw [hdry h]; rfl⟩
  · have hfinished := hbalance.append (.finish b₃.context.state)
    rw [List.append_nil, List.append_nil] at hfinished
    exact hfinished
  · rw [Meter.charge_append]
    exact ((hbills.charge _).trans hcounted).trans hw

end RunAct

/-! ### Series of runs -/

/-- A run that has returned, with fixers whose counts are whole. -/
structure ReturnedRun where
  crew : Crew
  phases : List Phase
  world : World
  store : Store
  runId : String
  project : Route
  config : RunConfig
  whole : crew.Whole
  /-- What it has left behind. -/
  bench : Bench
  returned : RunAct.run crew phases (.fresh world store runId project config) = (.ok (), bench)

namespace ReturnedRun

/-- The phases that have a result, each with its result. -/
def entries (x : ReturnedRun) : List Entry :=
  (x.phases.mergeSort fun p q ↦ p.priority ≤ q.priority).zip x.bench.context.history

/-- Those of them that were carried out. -/
def carried (x : ReturnedRun) : List Entry := x.config.carriedOf x.bench.refusals x.entries

def state (x : ReturnedRun) : RunState := x.bench.context.state

theorem exists_balance (x : ReturnedRun) :
    x.entries.map (·.2) = x.bench.context.history ∧ ∃ cs, Balance x.entries x.carried [x.state] cs ∧
      (x.world.meter.charge cs).Agrees x.bench.world.meter ∧
      (x.config.dryRun = true → cs = [.add .runsFinished [("state", x.state.name)] 1]) := by
  have hledger := RunAct.ends_run_ledger x.whole x.phases x.world x.store x.runId x.project x.config
  rw [ends_of_eq x.returned] at hledger
  obtain ⟨entries, cs, hprefix, hhistory, hrest⟩ := hledger
  have hentries : x.entries = entries := by
    obtain ⟨rest, hrest⟩ := hprefix
    rw [ReturnedRun.entries, hhistory, ← hrest, ← List.append_nil (entries.map (·.2)),
      List.zip_append (by simp), List.zip_nil_right, List.append_nil, List.zip_map']
    exact List.map_id entries
  refine ⟨?_, cs, ?_⟩
  · rw [hentries, hhistory]
  · rw [carried, hentries]
    exact hrest

end ReturnedRun

/-- Runs one after the other, the first one with a fresh meter. Between two of them anything may
happen that does not add to the meter what runs add. -/
inductive Series : List ReturnedRun → Meter → Prop
  | none : Series [] {}
  | next {runs : List ReturnedRun} {m : Meter} (h : Series runs m) (x : ReturnedRun)
      (hm : m.Agrees x.world.meter) : Series (runs ++ [x]) x.bench.world.meter

theorem Series.exists_balance {runs : List ReturnedRun} {m : Meter} (h : Series runs m) :
    ∃ cs, Balance (runs.flatMap (·.entries)) (runs.flatMap (·.carried)) (runs.map (·.state)) cs ∧
      (({} : Meter).charge cs).Agrees m := by
  induction h with
  | none => exact ⟨[], .none, .refl _⟩
  | @next runs m _ x hm ih =>
    obtain ⟨cs, hbalance, hbills⟩ := ih
    obtain ⟨-, cs', hbalance', hbills', -⟩ := x.exists_balance
    refine ⟨cs ++ cs', ?_, ?_⟩
    · simpa using hbalance.append hbalance'
    · rw [Meter.charge_append]
      exact ((hbills.trans hm).charge cs').trans hbills'

/-- The number is exactly this many, unless that is more than a fraction can count. -/
def Number.Counts (x : Number) (n : ℕ) : Prop := n ≤ 2 ^ 53 → x.toRat? = some (n : ℚ)

/-- The meter says of the runs what their histories say. -/
structure Reconciled (runs : List ReturnedRun) (m : Meter) : Prop where
  /-- Each result is one of the phases in its turn. -/
  entries : ∀ x ∈ runs, x.entries.map (·.2) = x.bench.context.history
  attempts : m.fixerAttempts.total.Counts ((runs.flatMap (·.entries)).map (·.2.attempts)).sum
  attemptsOf : ∀ cause : RootCause, (m.fixerAttempts.get cause.labels).Counts
    (((runs.flatMap (·.entries)).filter (·.1.cause = cause)).map (·.2.attempts)).sum
  executed : m.phasesExecuted.total.Counts (runs.flatMap (·.carried)).length
  failed : m.phasesFailed.total.Counts ((runs.flatMap (·.carried)).countP (!·.2.success))
  rolledBack : m.phasesRolledBack.total.Counts ((runs.flatMap (·.entries)).countP (·.2.rolledBack))
  fixed : ∃ n : ℕ, Number.sum ((runs.flatMap (·.entries)).map (·.2.fixedCount)) = .ok (.int n) ∧
    m.errorsFixed.total.Counts n
  timeouts : ∃ n ≤ ((runs.flatMap (·.entries)).map (·.2.attempts)).sum,
    m.fixerTimeouts.total.Counts n
  durations : (m.phaseDuration.values none).length =
    (runs.flatMap (·.carried)).countP (0 < ·.2.attempts)
  finished : ∀ state : RunState, (m.runsFinished.get [("state", state.name)]).Counts
    ((runs.map (·.state)).count state)
  terminal : ∀ x ∈ runs, x.state.isTerminal = true
  /-- Dry runs only count themselves. -/
  dry : ∀ x ∈ runs, x.config.dryRun = true →
    x.bench.world.meter.phaseDuration = x.world.meter.phaseDuration ∧
    ∀ tally : Tally, tally.isOfRuns = true → tally ≠ .runsFinished →
      x.bench.world.meter.counter tally = x.world.meter.counter tally
  runs : m.runsFinished.total.Counts runs.length

/-- Whatever runs return one after the other, the meter agrees with their histories. -/
theorem reconciled_of_series {runs : List ReturnedRun} {m : Meter} (h : Series runs m) :
    Reconciled runs m := by
  obtain ⟨cs, hbalance, hbills⟩ := h.exists_balance
  have htotal : ∀ {tally : Tally} {n : ℕ}, tally.isOfRuns = true → Meter.due tally cs = n →
      (m.counter tally).total.Counts n := by
    rintro tally n htally rfl hle
    rw [hbills.counter tally htally]
    exact Meter.toRat?_total_charge hle
  have hunder : ∀ {tally : Tally} {labels : Labels} {n : ℕ}, tally.isOfRuns = true →
      Counter.dueUnder labels (Meter.items tally cs) = n →
      ((m.counter tally).get labels).Counts n := by
    rintro tally labels n htally rfl hle
    rw [hbills.counter tally htally]
    exact Meter.toRat?_get_charge hle
  constructor
  case entries => exact fun x _ ↦ x.exists_balance.1
  case attempts => exact htotal rfl hbalance.attempts
  case attemptsOf => exact fun cause ↦ hunder rfl (hbalance.attemptsOf cause)
  case executed => exact htotal rfl hbalance.executed
  case failed => exact htotal rfl hbalance.failed
  case rolledBack => exact htotal rfl hbalance.rolledBack
  case fixed =>
    obtain ⟨counts, hcounts, hdue⟩ := hbalance.fixed
    exact ⟨counts.sum, Number.sum_eq hcounts, htotal rfl hdue⟩
  case timeouts =>
    have htimeouts : m.fixerTimeouts.total.Counts (Meter.due .fixerTimeouts cs) := htotal rfl rfl
    exact ⟨_, hbalance.attempts ▸ hbalance.timeouts, htimeouts⟩
  case durations =>
    rw [hbills.durations, Meter.length_values_charge, ← hbalance.observations]
    exact Nat.zero_add _
  case finished => exact fun state ↦ hunder rfl (hbalance.finished state)
  case runs => exact htotal rfl (by rw [hbalance.runs, List.length_map])
  case terminal =>
    intro x _
    have houtcome := RunAct.ends_run x.crew x.phases x.world x.store x.runId x.project x.config
    rw [ends_of_eq x.returned] at houtcome
    exact houtcome.terminal
  case dry =>
    intro x _ hdry
    obtain ⟨-, cs', -, hbills', hcs'⟩ := x.exists_balance
    rw [hcs' hdry] at hbills'
    refine ⟨hbills'.durations, fun tally htally hother ↦ (hbills'.counter tally htally).trans ?_⟩
    exact Meter.counter_setCounter_of_ne _ _ (Ne.symm hother)

/-! ### Fixers that count -/

/-- A fixer that leaves everything as it is and says how many findings it fixed. -/
def Fixer.counting (count : ℤ) : Fixer where
  kind := "Fixer"
  fix _ := Work.ofCourse (.done (.count count))

def Crew.counting (count : ℤ) : Crew := ⟨[(.syntactic, .counting count)], []⟩

theorem Crew.whole_counting (count : ℤ) : (Crew.counting count).Whole := by
  intro name fixer hfixer request site reply hreply
  obtain ⟨cause, hmem⟩ := Registry.mem_of_get hfixer
  obtain ⟨-, rfl⟩ := Prod.mk.inj (List.mem_singleton.mp hmem)
  cases hreply
  trivial

/-- A run over one finding with that fixer. -/
def RunAct.countingRun (count : ℤ) (dryRun : Bool) (world : World) : Except Fault Unit × Bench :=
  run (.counting count) [.sample .syntactic ["a.ts"]]
    (.fresh world (.ofProject ["p"] defaultBackupDirectory) "run-1" ["p"]
      { dryRun := dryRun, backupEnabled := false, validationEnabled := false })

/-- It returns if it can be seen to. -/
def ReturnedRun.counting (count : ℤ) (dryRun : Bool) (world : World)
    (h : (RunAct.countingRun count dryRun world).1.toOption = some ()) : ReturnedRun where
  crew := .counting count
  phases := [.sample .syntactic ["a.ts"]]
  world := world
  store := .ofProject ["p"] defaultBackupDirectory
  runId := "run-1"
  project := ["p"]
  config := { dryRun := dryRun, backupEnabled := false, validationEnabled := false }
  whole := Crew.whole_counting count
  bench := (RunAct.countingRun count dryRun world).2
  returned := by
    refine Prod.ext ?_ rfl
    show (RunAct.countingRun count dryRun world).1 = _
    cases hrun : (RunAct.countingRun count dryRun world).1 with
    | error e =>
      rw [hrun] at h
      cases h
    | ok _ => rfl

namespace ReturnedRun

def real₀ : ReturnedRun := counting 3 false Scenario.oneFile.world (by decide +kernel)

def dry₀ : ReturnedRun := counting 3 true real₀.bench.world (by decide +kernel)

end ReturnedRun

theorem reconciled_of_real_and_dry :
    let runs : List ReturnedRun := [.real₀, .dry₀]
    let m := ReturnedRun.dry₀.bench.world.meter
    Series runs m ∧ (runs.flatMap (·.entries)).length = 2 ∧ (runs.flatMap (·.carried)).length = 1 ∧
      Reconciled runs m := by
  intro runs m
  have hreal : Series ([] ++ [.real₀]) ReturnedRun.real₀.bench.world.meter :=
    .next .none .real₀ (.refl _)
  have hseries : Series runs m := .next hreal .dry₀ (.refl _)
  exact ⟨hseries, by decide +kernel, by decide +kernel, reconciled_of_series hseries⟩

/-- What is more than a fraction can count is rounded: a fixer says that it fixed `2 ^ 53 + 1`
findings, and the meter says that there were `2 ^ 53`. -/
theorem miscounted_of_series :
    ∃ x : ReturnedRun, Series [x] x.bench.world.meter ∧
      (Number.sum (x.entries.map (·.2.fixedCount))).toOption = some (.int (2 ^ 53 + 1)) ∧
      x.bench.world.meter.errorsFixed.total.toRat? = some (2 ^ 53) := by
  refine ⟨.counting (2 ^ 53 + 1) false Scenario.oneFile.world (by decide +kernel), ?_, ?_, ?_⟩
  · exact .next .none _ (.refl _)
  · decide +kernel
  · decide +kernel

end Remedy
