import Remedy.Proofs.Pipeline.Release
import Remedy.Proofs.Pipeline.Summary
import Remedy.Proofs.Run.Begun
import Remedy.Proofs.Run.Rehearsal

/-!
# What a dry run of the pipeline foretells

A dry run that gets the lock is completed, says of each phase of the plan what would be done, and
leaves everything as it was but the file of the lock and the log. Whom it could call makes no
difference to it. In earnest the phases are begun in the order that it has told, from the first one;
and they are all begun if they are carried out and neither one that is required fails nor a backup
(`Pipeline.foretold_of_dryRun`). What is asked for is that the diagnostics can be analyzed and planned,
which settings that are sound always allow (`PlannerConfig.Sound.exists_phasesFor`), and that the paths
of the findings can be resolved.

In earnest a fixer may say something that no result can be made of. Then the run fails, whether or not
the phase is required, and the phases that are left over are not begun (`Pipeline.not_begun_of_dryRun`).
-/

set_option autoImplicit false

namespace Remedy

/-- What a dry run says: that it has been completed, and what would be done in each phase. -/
structure RunSummary.Foretells (found : List Finding) (phases : List Phase) (project : Route)
    (t : FileTree) (x : RunSummary) : Prop where
  dryRun : x.dryRun = true
  state : x.state = .completed
  warnings : x.warnings = []
  validation : x.validation = none
  history : List.Forall₂ (fun phase r ↦ phase.Foretold project t r) phases x.history
  initial : x.initialErrorCount = .int found.length
  fixedCount : x.fixedCount = .int 0
  final : x.finalErrorCount = .int found.length
  measured : x.measured = false

namespace Pipeline

variable {p : Pipeline} {raw : Diagnostic.Source} {given : Option String} {runId : String}
  {s t : Workshop} {w w₁ w₂ : World} {found : List Finding} {phases : List Phase}

/-! ### Other pipelines for the same project -/

/-- The pipeline with another crew and another source. -/
def staffed (p : Pipeline) (crew : Crew) (source : Option (Work Diagnostic.Source)) : Pipeline :=
  { p with crew := crew, source := source }

/-- The pipeline, with runs that are not dry. -/
def inEarnest (p : Pipeline) : Pipeline :=
  { p with config := { p.config with run := { p.config.run with dryRun := false } } }

/-- What is to be carried out by a run, and the bench on which it has been, however that ended. -/
def carried (p : Pipeline) (raw : Diagnostic.Source) (given : Option String) (s : Workshop) :
    Option (List Phase × Bench) :=
  match p.enter given s.world with
  | (.error _, _) => none
  | (.ok runId, w₁) =>
    match p.prepare raw w₁ with
    | (.error _, _) => none
    | (.ok (_, phases), w₂) =>
      some (phases, (RunAct.run p.crew phases
        (.fresh w₂ s.store runId p.project p.config.run)).2)

theorem carried_eq (hentered : p.enter given s.world = (.ok runId, w₁))
    (hprepared : p.prepare raw w₁ = (.ok (found, phases), w₂)) :
    p.carried raw given s = some (phases,
      (RunAct.run p.crew phases (.fresh w₂ s.store runId p.project p.config.run)).2) := by
  unfold carried
  rw [hentered]
  dsimp only
  rw [hprepared]

theorem settled_eq {u : Unit} {b : Bench} (hentered : p.enter given s.world = (.ok runId, w₁))
    (hprepared : p.prepare raw w₁ = (.ok (found, phases), w₂))
    (hrun : RunAct.run p.crew phases (.fresh w₂ s.store runId p.project p.config.run) = (.ok u, b)) :
    p.settled raw given s = some (phases, b) := by
  unfold settled
  rw [hentered]
  dsimp only
  rw [hprepared]
  dsimp only
  rw [hrun]

/-! ### Planning -/

/-- What has been analyzed and can be planned is prepared, when the log has been told of the plan. -/
theorem prepare_eq (hanalyzed : analyze (.ofPairs p.config.codes) raw w₁ = (.ok found, w₂))
    (hplanned : p.config.planner.phasesFor found = .ok phases) :
    p.prepare raw w₁ = (.ok (found, phases), (Act.log .info "plan_created"
      [("phases", .strs (phases.map (·.name))),
        ("errors", (phases.foldl (fun (n : ℕ) p ↦ n + p.errorCount) 0 : ℕ))] w₂).2) := by
  unfold prepare plan
  rw [bind_apply, hanalyzed]
  dsimp only
  rw [hplanned]
  rfl

theorem mergeSort_of_phasesFor {c : PlannerConfig} (h : c.phasesFor found = .ok phases) :
    phases.mergeSort (fun p q ↦ p.priority ≤ q.priority) = phases :=
  List.mergeSort_of_pairwise ((PlannerConfig.ordered_of_phasesFor h).imp fun hle ↦ by simpa using hle)

/-! ### Dry runs -/

/-- No source is asked after a dry run. -/
theorem unasked_of_dryRun (hdry : p.config.run.dryRun = true)
    (source : Option (Work Diagnostic.Source)) (phases : List Phase) (c : RunContext) :
    (match source with
      | some source =>
        if phases.isEmpty || p.config.run.dryRun then return (c, none)
        else lift (remeasure source c)
      | none => return (c, none) : PipelineAct (RunContext × Option ℕ)) = pure (c, none) := by
  cases source with
  | none => rfl
  | some source => simp [hdry]

/-- Whoever could be called, a dry run goes the same way. -/
theorem runLocked_of_staffed (hdry : p.config.run.dryRun = true) (crew : Crew)
    (source : Option (Work Diagnostic.Source)) (raw : Diagnostic.Source) (runId : String) :
    (p.staffed crew source).runLocked raw runId = p.runLocked raw runId := by
  have hexecute : ∀ phases t, (p.staffed crew source).execute phases runId t =
      p.execute phases runId t := by
    intro phases t
    unfold execute staffed
    dsimp only
    rw [RunAct.run_of_dryRun crew p.crew phases hdry]
  funext t
  unfold runLocked
  refine bind_congr_of_ends rfl (ends_of_forall (fun made t₁ ↦ ?_) fun _ _ ↦ trivial)
  refine bind_congr_of_ends (andThenAlways_congr (bind_congr_of_ends (hexecute made.2 t₁)
    (ends_of_forall (fun c t₂ ↦ ?_) fun _ _ ↦ trivial)) _)
    (ends_of_forall (fun _ _ ↦ rfl) fun _ _ ↦ trivial)
  exact congrFun ((unasked_of_dryRun hdry source made.2 c).trans
    (unasked_of_dryRun hdry p.source made.2 c).symm) t₂

theorem run_of_staffed (hdry : p.config.run.dryRun = true) (crew : Crew)
    (source : Option (Work Diagnostic.Source)) (raw : Diagnostic.Source) (given : Option String) :
    (p.staffed crew source).run raw given = p.run raw given := by
  unfold run
  simp only [runLocked_of_staffed hdry]
  rfl

/-- A dry run that has the lock returns what it foretells, and has done nothing. -/
theorem ends_runLocked_foretells (hdry : p.config.run.dryRun = true) (ht : t.world.files.Sound)
    (hprepared : p.prepare raw t.world = (.ok (found, phases), w₂))
    (hplanned : p.config.planner.phasesFor found = .ok phases)
    (hresolves : ∀ f ∈ found, ∃ r, t.world.files.resolve (p.pathOf f) = .ok r) :
    Ends (p.runLocked raw runId) t
      (fun x t' ↦ x.Foretells found phases p.project t.world.files ∧
        t.world.Still t'.world ∧ t'.store = t.store.discard runId)
      fun _ _ ↦ False := by
  have hstill : t.world.Still w₂ := (ends_of_eq hprepared).mp (still_prepare p raw t.world)
  have hphases : ∀ phase ∈ phases, phase.Resolves p.project t.world.files := by
    intro phase hphase q hq
    obtain ⟨f, hf, rfl⟩ := phaseFiles_of_prepare hprepared phase hphase q hq
    exact hresolves f hf
  let b₀ : Bench := .fresh t.world t.store runId p.project p.config.run
  have hrun := RunAct.ends_run_rehearsed (show b₀.context.config.dryRun = true from hdry) ht p.crew
    ((Bench.Rehearsed.refl b₀).inWorld hstill) rfl hphases rfl rfl
  rw [mergeSort_of_phasesFor hplanned] at hrun
  unfold runLocked
  refine ends_bind.mpr (ends_lift.mpr ((ends_of_eq hprepared).mpr ?_))
  refine Ends.bind (Q := fun counted t' ↦ counted.2 = none ∧ ∃ b : Bench, counted.1 = b.context ∧
    b₀.Rehearsed phases b ∧ b.context.state = .completed ∧ t.world.Still t'.world ∧
      t'.store = t.store.discard runId)
    (Ends.andThenAlways (ends_bind.mpr (ends_execute_iff.mpr (hrun.mono ?_ fun _ _ h ↦ h.elim)))) ?_
  · rintro _ b ⟨hrehearsed, hcompleted⟩
    refine (congrArg (Ends · _ _ _) (unasked_of_dryRun hdry p.source phases b.context)).mpr ?_
    exact ends_pure.mpr (ends_modify.mpr ⟨rfl, b, rfl, hrehearsed, hcompleted, hrehearsed.world,
      congrArg (Store.discard · runId) hrehearsed.store⟩)
  · rintro ⟨c, _⟩ t' ⟨rfl, b, rfl, hrehearsed, hcompleted, hworld, hstore⟩
    obtain ⟨rs, hrs, hforetold⟩ := hrehearsed.history
    refine ends_lift.mpr ?_
    dsimp only
    rw [RunSummary.ofContext_eq (n := 0) (hrehearsed.fixedCount rfl) none]
    refine (ends_of_eq rfl).mpr ⟨⟨?_, hcompleted, hrehearsed.warnings, hrehearsed.validation, ?_,
      rfl, rfl, ?_, rfl⟩, hworld, hstore⟩
    · exact (congrArg RunConfig.dryRun hrehearsed.config).trans hdry
    · rw [hrs]
      exact hforetold
    · simp

/-- What a dry run does to the workshop: it takes the lock and gives it up, and what the store held of
snapshots of the same name is forgotten. -/
structure Spares (p : Pipeline) (runId : String) (s s' : Workshop) : Prop where
  locks : s'.world.locks = s.world.locks
  store : s'.store = s.store.discard runId
  /-- But for the file of the lock and the log, files are as they were. -/
  files : ∃ file, s.world.files.traced p.lockPath = .done file ∧ s.world.Changes (· = file) s'.world

theorem ends_run_foretells (hdry : p.config.run.dryRun = true) (hs : s.world.files.Sound)
    (hown : RunLock.heldFile 0 s.world.locks = none)
    (hentered : p.enter given s.world = (.ok runId, w₁))
    (hprepared : p.prepare raw w₁ = (.ok (found, phases), w₂))
    (hplanned : p.config.planner.phasesFor found = .ok phases)
    (hresolves : ∀ f ∈ found, ∃ r, w₁.files.resolve (p.pathOf f) = .ok r) :
    Ends (p.run raw given) s
      (fun x s' ↦ x.Foretells found phases p.project w₁.files ∧ p.Spares runId s s')
      fun _ _ ↦ False := by
  obtain ⟨file, hgranted⟩ := granted_of_enter hs hown hentered
  have hw₁ := (hgranted.changes.files hs).sound
  refine ends_run_of_entered hentered (Ends.andThenAlways ((ends_runLocked_foretells
    (t := { s with world := w₁ }) hdry hw₁ hprepared hplanned hresolves).mono ?_
    fun _ _ h ↦ h.elim))
  rintro x t ⟨hforetells, hstill, hstore⟩
  have hlocks : t.world.locks = (file, (p.lock runId).owner) :: s.world.locks :=
    hstill.undisturbed.locks.trans hgranted.locks
  have hheld : RunLock.heldFile (p.lock runId).owner t.world.locks = some file := by
    simp [hlocks, RunLock.heldFile]
  refine ends_lift.mpr ((RunLock.ends_release_held _ hheld).mono ?_ fun _ _ h ↦ h)
  rintro _ w ⟨hdropped, hreleased, -⟩ w' hw'
  refine ⟨hforetells, ?_, hstore, file, hgranted.traced, ?_⟩
  · rw [hw'.undisturbed.locks, hdropped, hlocks]
    exact RunLock.filter_owner_cons (l := p.lock runId) hown
  · have hquiet : ∀ {w w' : World}, w.Still w' → w.Changes (· = file) w' :=
      fun h ↦ (h.undisturbed.mono fun _ ↦ False.elim).changes
    exact ((hgranted.changes.trans (hquiet hstill)).trans hreleased).trans (hquiet hw')

/-! ### Runs in earnest -/

/-- The phases that are begun are the first ones of the plan. -/
theorem exists_carried (hentered : p.enter given s.world = (.ok runId, w₁))
    (hprepared : p.prepare raw w₁ = (.ok (found, phases), w₂))
    (hplanned : p.config.planner.phasesFor found = .ok phases) :
    ∃ b, p.carried raw given s = some (phases, b) ∧ b.begun <+: phases := by
  have hbegun := (RunAct.ends_run_begun p.crew phases w₂ s.store runId p.project
    p.config.run).state
  rw [mergeSort_of_phasesFor hplanned] at hbegun
  exact ⟨_, carried_eq hentered hprepared, hbegun⟩

/-- A required phase of those that are carried out has failed, or files could not be recorded. -/
def Fails (phases : List Phase) (b : Bench) : Prop :=
  (∃ (i : ℕ) (phase : Phase) (r : PhaseResult), phases[i]? = some phase ∧
    b.context.history[i]? = some r ∧ phase.required = true ∧ r.success = false) ∨
  ∃ phase, .refusal phase ∈ b.progress.happened

/-- All phases of the plan are begun in a run that carries them out without a failure. -/
theorem begun_of_settled {b : Bench} (hsettled : p.settled raw given s = some (phases, b))
    (hunfailed : ¬ Fails phases b) : b.begun = phases := by
  obtain ⟨runId, w₁, found, w₂, -, hprepared, hrun⟩ := exists_of_settled hsettled
  have hplanned := (ends_of_eq hprepared).mp (p.ends_prepare raw w₁)
  have houtcome := (ends_of_eq hrun).mp
    (RunAct.ends_run p.crew phases w₂ s.store runId p.project p.config.run)
  rw [mergeSort_of_phasesFor hplanned] at houtcome
  refine houtcome.begun_eq (fun i phase r hphase hr hrequired ↦ ?_) fun phase hphase ↦ ?_
  · by_contra hfailed
    exact hunfailed (.inl ⟨i, phase, r, hphase, hr, hrequired, by simpa using hfailed⟩)
  · exact hunfailed (.inr ⟨phase, hphase⟩)

/-- A dry run says which phases there are, whoever could be called, and nobody is. The phases that are
begun in earnest are the first ones of these, and if they are carried out without a failure, all. -/
theorem foretold_of_dryRun (p : Pipeline) (raw : Diagnostic.Source) (given : Option String)
    (hdry : p.config.run.dryRun = true) (hs : s.world.files.Sound)
    (hown : RunLock.heldFile 0 s.world.locks = none)
    (hentered : p.enter given s.world = (.ok runId, w₁))
    (hanalyzed : analyze (.ofPairs p.config.codes) raw w₁ = (.ok found, w₂))
    (hplanned : p.config.planner.phasesFor found = .ok phases)
    (hresolves : ∀ f ∈ found, ∃ r, w₁.files.resolve (p.pathOf f) = .ok r) :
    (∃ x s', (∀ crew source, (p.staffed crew source).run raw given s = (.ok x, s')) ∧
      x.Foretells found phases p.project w₁.files ∧ p.Spares runId s s') ∧
    ∃ b, p.inEarnest.carried raw given s = some (phases, b) ∧ b.begun <+: phases ∧
      (p.inEarnest.settled raw given s = some (phases, b) → ¬ Fails phases b →
        b.begun = phases) := by
  have hprepared := prepare_eq hanalyzed hplanned
  obtain ⟨x, s', hrun, hforetells, hspares⟩ :=
    (ends_run_foretells hdry hs hown hentered hprepared hplanned hresolves).exists_ok
  obtain ⟨b, hcarried, hbegun⟩ := exists_carried (p := p.inEarnest) hentered hprepared hplanned
  refine ⟨⟨x, s', fun crew source ↦ ?_, hforetells, hspares⟩, b, hcarried, hbegun, ?_⟩
  · rw [run_of_staffed hdry]
    exact hrun
  · exact begun_of_settled

/-! ### An optional phase in front -/

theorem not_fails_of_all {b : Bench} (hsuccess : b.context.history.all (·.success) = true)
    (hrecorded : b.progress.happened.all (!·.isRefusal) = true) : ¬ Fails phases b := by
  rintro (⟨i, phase, r, -, hr, -, hfailed⟩ | ⟨phase, hphase⟩)
  · rw [List.all_eq_true.mp hsuccess r (List.mem_of_getElem? hr)] at hfailed
    cases hfailed
  · exact absurd (List.all_eq_true.mp hrecorded _ hphase) (by simp [Occurrence.isRefusal])

/-- The first phase need not succeed, and none is tried again. -/
def optionalPlanner : PlannerConfig where
  phases := [("syntax", { required := some false })]
  retriesCeiling := some 0

/-- A dry run for one file. What the fixer of the first phase says of its work is given. -/
def oneOptional (reply : FixReply) : Pipeline :=
  { oneFile with
    config := {
      run := { backupEnabled := false, validationEnabled := false, dryRun := true }
      planner := optionalPlanner
      backupDirectory := "b" }
    crew := ⟨[(.syntactic, { kind := "Fixer", fix := fun _ ↦ Work.ofCourse (.done reply) }),
      (.imports, .counting 1)], []⟩ }

/-- Diagnostics of that file, for two phases. -/
def twoErrors : Diagnostic.Source := .text "a.ts(1,1): error TS1005: x\na.ts(2,1): error TS2307: y"

def twoFindings : List Finding := twoErrors.diagnostics.map (Finding.ofDiagnostic (.ofPairs []))

def twoPhases : List Phase :=
  ((PlannerConfig.groups twoFindings).mapM fun g ↦
    optionalPlanner.phase g.1 g.2).toOption.getD []

theorem planned_twoPhases : optionalPlanner.phasesFor twoFindings = .ok twoPhases := by
  let made := (PlannerConfig.groups twoFindings).mapM fun g ↦ optionalPlanner.phase g.1 g.2
  have hmade : made = .ok twoPhases := by
    have hsome : made.toOption.isSome = true := by decide +kernel
    obtain ⟨ps, hps⟩ := Option.isSome_iff_exists.mp hsome
    refine Store.eq_ok_of_toOption (hps.trans ?_)
    rw [show twoPhases = made.toOption.getD [] from rfl, hps, Option.getD_some]
  have hsorted : twoPhases.mergeSort PlannerConfig.phaseLe = twoPhases :=
    List.mergeSort_of_pairwise (by decide +kernel)
  show (made >>= fun ps ↦ pure (ps.mergeSort PlannerConfig.phaseLe)) = .ok twoPhases
  rw [hmade]
  exact congrArg Except.ok hsorted

/-- The world when a run has the lock. -/
def lockedWorld : World := (oneFile.enter (some "run-1") Scenario.oneFile.world).2

/-- The world when the diagnostics have been analyzed. -/
def analyzedWorld : World := (analyze (.ofPairs []) twoErrors lockedWorld).2

section Outset

variable (reply : FixReply)

theorem enter_oneOptional : (oneOptional reply).enter (some "run-1") Scenario.oneFile.world =
    (.ok "run-1", lockedWorld) := by
  have hok : (oneFile.enter (some "run-1") Scenario.oneFile.world).1.toOption = some "run-1" := by
    decide +kernel
  exact Prod.ext (Store.eq_ok_of_toOption hok) rfl

theorem analyze_twoErrors : analyze (.ofPairs []) twoErrors lockedWorld =
    (.ok twoFindings, analyzedWorld) := by
  have hok : (analyze (.ofPairs []) twoErrors lockedWorld).1.toOption.isSome = true := by
    decide +kernel
  have hsorted : findings (.ofPairs []) twoErrors.diagnostics = twoFindings :=
    List.mergeSort_of_pairwise (by decide +kernel)
  have hfound := ends_analyze_found (.ofPairs []) twoErrors lockedWorld
  unfold analyzedWorld
  rcases hanalyzed : analyze (.ofPairs []) twoErrors lockedWorld with ⟨_ | found, w⟩
  · rw [hanalyzed] at hok
    cases hok
  · rw [← hsorted, ← (ends_of_eq hanalyzed).mp hfound]

theorem resolves_twoFindings : ∀ f ∈ twoFindings,
    ∃ r, lockedWorld.files.resolve ((oneOptional reply).pathOf f) = .ok r := by
  have hall : (twoFindings.all fun f ↦
      (lockedWorld.files.resolve (oneFile.pathOf f)).toOption.isSome) = true := by
    decide +kernel
  intro f hf
  obtain ⟨r, hr⟩ := Option.isSome_iff_exists.mp (List.all_eq_true.mp hall f hf)
  exact ⟨r, Store.eq_ok_of_toOption hr⟩

/-- How the phases are carried out in earnest. -/
def carriedOut : Except Fault Unit × Bench :=
  RunAct.run (oneOptional reply).crew twoPhases (.fresh (Act.log .info "plan_created"
    [("phases", .strs (twoPhases.map (·.name))),
      ("errors", (twoPhases.foldl (fun (n : ℕ) p ↦ n + p.errorCount) 0 : ℕ))] analyzedWorld).2
    oneFile.store "run-1" ["p"] (oneOptional reply).inEarnest.config.run)

theorem carried_oneOptional : (oneOptional reply).inEarnest.carried twoErrors (some "run-1")
    ⟨Scenario.oneFile.world, oneFile.store⟩ = some (twoPhases, (carriedOut reply).2) :=
  carried_eq (enter_oneOptional reply)
    (prepare_eq (p := (oneOptional reply).inEarnest) analyze_twoErrors planned_twoPhases)

theorem settled_oneOptional (h : (carriedOut reply).1.toOption = some ()) :
    (oneOptional reply).inEarnest.settled twoErrors (some "run-1")
      ⟨Scenario.oneFile.world, oneFile.store⟩ = some (twoPhases, (carriedOut reply).2) :=
  settled_eq (enter_oneOptional reply)
    (prepare_eq (p := (oneOptional reply).inEarnest) analyze_twoErrors planned_twoPhases)
    (Prod.ext (Store.eq_ok_of_toOption h) rfl)

end Outset

/-- Both phases succeed in earnest, as a dry run has foretold. -/
theorem foretold_of_oneOptional :
    let p := oneOptional (.count 1)
    let s : Workshop := ⟨Scenario.oneFile.world, oneFile.store⟩
    ∃ x s' b, (∀ crew source,
        (p.staffed crew source).run twoErrors (some "run-1") s = (.ok x, s')) ∧
      x.Foretells twoFindings twoPhases ["p"] lockedWorld.files ∧ p.Spares "run-1" s s' ∧
      p.inEarnest.settled twoErrors (some "run-1") s = some (twoPhases, b) ∧
      b.begun = twoPhases := by
  intro p s
  have hordered : (twoPhases.mergeSort fun p q ↦ p.priority ≤ q.priority) = twoPhases :=
    mergeSort_of_phasesFor planned_twoPhases
  obtain ⟨hok, hsuccess, hrecorded⟩ : (carriedOut (.count 1)).1.toOption = some () ∧
      (carriedOut (.count 1)).2.context.history.all (·.success) = true ∧
      (carriedOut (.count 1)).2.progress.happened.all (!·.isRefusal) = true := by
    unfold carriedOut RunAct.run
    rw [hordered]
    decide +kernel
  obtain ⟨⟨x, s', hrun, hforetells, hspares⟩, b, hcarried, -, hall⟩ :=
    foretold_of_dryRun p twoErrors (some "run-1") (s := s) rfl Scenario.proper_oneFile.sound rfl
      (enter_oneOptional _) analyze_twoErrors planned_twoPhases (resolves_twoFindings _)
  rw [carried_oneOptional] at hcarried
  cases hcarried
  have hsettled := settled_oneOptional _ hok
  exact ⟨x, s', _, hrun, hforetells, hspares, hsettled,
    hall hsettled (not_fails_of_all hsuccess hrecorded)⟩

/-- A fixer may say something that no result can be made of. Then the run fails, and a phase is left
over although neither has a required one failed nor a backup. -/
theorem not_begun_of_dryRun :
    ¬ ∀ (p : Pipeline) (raw : Diagnostic.Source) (given : Option String) (s : Workshop)
      (runId : String) (w₁ w₂ : World) (found : List Finding) (phases : List Phase) (b : Bench),
      p.config.run.dryRun = true → s.world.files.Sound →
        RunLock.heldFile 0 s.world.locks = none → p.enter given s.world = (.ok runId, w₁) →
        analyze (.ofPairs p.config.codes) raw w₁ = (.ok found, w₂) →
        p.config.planner.phasesFor found = .ok phases →
        (∀ f ∈ found, ∃ r, w₁.files.resolve (p.pathOf f) = .ok r) →
        p.inEarnest.carried raw given s = some (phases, b) → ¬ Fails phases b →
        b.begun = phases := by
  intro hclaim
  let reply : FixReply := .report { fixedCount := 1, details := 5 }
  have hordered : (twoPhases.mergeSort fun p q ↦ p.priority ≤ q.priority) = twoPhases :=
    mergeSort_of_phasesFor planned_twoPhases
  obtain ⟨hsuccess, hrecorded, hbegun⟩ :
      (carriedOut reply).2.context.history.all (·.success) = true ∧
      (carriedOut reply).2.progress.happened.all (!·.isRefusal) = true ∧
      (carriedOut reply).2.begun.length ≠ twoPhases.length := by
    unfold carriedOut RunAct.run
    rw [hordered]
    decide +kernel
  exact hbegun (congrArg List.length (hclaim (oneOptional reply) twoErrors (some "run-1")
    ⟨Scenario.oneFile.world, oneFile.store⟩ "run-1" lockedWorld analyzedWorld twoFindings twoPhases _
    rfl Scenario.proper_oneFile.sound rfl (enter_oneOptional _) analyze_twoErrors
    planned_twoPhases (resolves_twoFindings _) (carried_oneOptional _)
    (not_fails_of_all hsuccess hrecorded)))

end Pipeline

end Remedy
