import Remedy.Proofs.Billing
import Remedy.Proofs.Planning
import Remedy.Proofs.Run.Calm
import Remedy.Proofs.Run.Endings

/-!
# Dry runs of phases

A dry run goes from phase to phase and says of each what would be done (`Phase.Foretold`). It is
always completed if the paths of the files can be resolved, and leaves everything as it was but the
log (`RunAct.ends_run_rehearsed`). Nobody is called in it: whoever the crew is, what happens is the
same (`RunAct.run_of_dryRun`).

That the paths resolve is asked of the files as they are before the run. `Bench.Rehearsed` says what
has come of the phases so far, and is kept from phase to phase.
-/

set_option autoImplicit false

namespace Remedy

/-! ### What is said of a phase -/

namespace Phase

/-- Where a path of the phase leads. -/
def route (project : Route) (t : FileTree) (p : Path) : Except Fault Route :=
  t.resolve ((Route.path project).join p)

/-- The files of the phase, each once. -/
def routes (phase : Phase) (project : Route) (t : FileTree) : List Route :=
  distinct (phase.files.filterMap fun p ↦ (route project t p).toOption)

/-- The paths of the files of the phase can be resolved. -/
def Resolves (phase : Phase) (project : Route) (t : FileTree) : Prop :=
  ∀ p ∈ phase.files, ∃ r, route project t p = .ok r

/-- The result says what would be done in the phase, and that nothing has been. -/
structure Foretold (phase : Phase) (project : Route) (t : FileTree) (r : PhaseResult) : Prop where
  name : r.phase = phase.name
  success : r.success = true
  message : r.message =
    s!"Dry run: would fix {phase.errorCount} errors in {(phase.routes project t).length} files"
  fixedCount : r.fixedCount = 0
  attempts : r.attempts = 0
  rolledBack : r.rolledBack = false
  /-- The files are named once each, in order. -/
  details : ∃ shown : List String, shown.Perm (phase.files.map Path.text) ∧
    shown.Pairwise (· ≤ ·) ∧
    r.details = [("dry_run", (true : Json)), ("would_fix", (phase.errorCount : Json)),
      ("files", .strs shown)]

end Phase

/-- The phases have been rehearsed on a bench that was like this, and nothing has been done. -/
structure Bench.Rehearsed (b₀ : Bench) (phases : List Phase) (b : Bench) : Prop where
  world : b₀.world.Still b.world
  store : b.store = b₀.store
  runId : b.context.runId = b₀.context.runId
  project : b.context.project = b₀.context.project
  config : b.context.config = b₀.context.config
  warnings : b.context.warnings = b₀.context.warnings
  validation : b.context.validation = b₀.context.validation
  history : ∃ rs, b.context.history = b₀.context.history ++ rs ∧ List.Forall₂
    (fun phase r ↦ phase.Foretold b₀.context.project b₀.world.files r) phases rs

namespace Bench.Rehearsed

variable {b₀ b : Bench} {phases : List Phase} {phase : Phase}

theorem refl (b : Bench) : Rehearsed b [] b :=
  ⟨.refl _, rfl, rfl, rfl, rfl, rfl, rfl, [], (List.append_nil _).symm, .nil⟩

theorem inWorld (h : Rehearsed b₀ phases b) {w : World} (hw : b.world.Still w) :
    Rehearsed b₀ phases { b with world := w } :=
  { h with world := h.world.trans hw }

theorem note (h : Rehearsed b₀ phases b) (o : Occurrence) : Rehearsed b₀ phases (b.note o) :=
  { h with }

theorem moved (h : Rehearsed b₀ phases b) (target : RunState) (name : Option String)
    (reason : String) : Rehearsed b₀ phases (b.moved target name reason) :=
  { h with }

theorem record (h : Rehearsed b₀ phases b) {r : PhaseResult}
    (hr : phase.Foretold b₀.context.project b₀.world.files r) :
    Rehearsed b₀ (phases ++ [phase]) (b.change (·.record r)) := by
  obtain ⟨rs, hrs, hforetold⟩ := h.history
  refine { h with history := ⟨rs ++ [r], ?_, List.rel_append hforetold (.cons hr .nil)⟩ }
  show b.context.history ++ [r] = _
  rw [hrs, List.append_assoc]

/-- Paths that could be resolved before the run still can. -/
theorem route_eq (h : Rehearsed b₀ phases b) (hsound : b₀.world.files.Sound) {p : Path} {r : Route}
    (hr : Phase.route b₀.context.project b₀.world.files p = .ok r) :
    Phase.route b.context.project b.world.files p = .ok r := by
  unfold Phase.route at hr ⊢
  rw [h.project]
  exact FileTree.resolve_of_flat (h.world.undisturbed.files hsound).alters.links h.world.flat
    (Path.isAbsolute_join _ _) hr

/-- What is said to have been fixed is nothing. -/
theorem fixedCount (h : Rehearsed b₀ phases b) (hfresh : b₀.context.history = []) :
    b.context.fixedCount = .ok (.int 0) := by
  obtain ⟨rs, hrs, hforetold⟩ := h.history
  have hcounts : List.Forall₂ Number.Is (rs.map (·.fixedCount)) (phases.map fun _ ↦ 0) := by
    refine List.forall₂_map_left_iff.mpr (List.forall₂_map_right_iff.mpr (hforetold.flip.imp ?_))
    intro r phase hr
    rw [hr.fixedCount]
    exact rfl
  unfold RunContext.fixedCount
  rw [hrs, hfresh, List.nil_append, Number.sum_eq hcounts]
  simp

end Bench.Rehearsed

namespace RunAct

variable {b₀ b : Bench} {front phases : List Phase} {phase : Phase} {crew : Crew}

/-! ### What comes of a dry run -/

theorem ends_filesOf_of_resolves (h : phase.Resolves b.context.project b.world.files) :
    Ends (filesOf phase) b
      (fun files b' ↦ b' = b ∧
        files.length = (phase.routes b.context.project b.world.files).length)
      fun _ _ ↦ False := by
  have hresolve : ∀ p ∈ phase.files, Ends (resolve p) b
      (fun r b' ↦ b' = b ∧ Phase.route b.context.project b.world.files p = .ok r)
      fun _ _ ↦ False := by
    intro p hp
    obtain ⟨r, hr⟩ := h p hp
    refine ends_ask.mono (fun _ _ h ↦ h) ?_
    rintro e b' ⟨-, he⟩
    rw [Phase.route] at hr
    rw [hr] at he
    cases he
  unfold filesOf
  refine (ends_mapM_of_mem hresolve).bind ?_
  rintro routes b' ⟨rfl, hroutes⟩
  refine ends_pure.mpr ⟨rfl, ?_⟩
  rw [List.length_mergeSort, eq_filterMap_of_answers hroutes]
  rfl

theorem ends_log_rehearsed (h : b₀.Rehearsed front b) (level : LogLevel) (name : String)
    (fields : List (String × Json)) :
    Ends (log level name fields) b
      (fun _ b' ↦ b₀.Rehearsed front b' ∧ b'.context.state = b.context.state) fun _ _ ↦ False :=
  ends_lift.mpr (Act.ends_log fun _ hw ↦ ⟨h.inWorld hw, rfl⟩)

theorem ends_moveTo_rehearsed (h : b₀.Rehearsed front b) {target : RunState}
    (hnext : b.context.state = target ∨ target ∈ b.context.state.next) (name : Option String)
    (reason : String) :
    Ends (moveTo target name reason) b
      (fun _ b' ↦ b₀.Rehearsed front b' ∧ b'.context.state = target) fun _ _ ↦ False := by
  refine ends_moveTo (fun hsame ↦ ⟨h, hsame⟩) (fun _ w hw ↦ ⟨?_, rfl⟩) fun hne hnot ↦ ?_
  · exact (h.moved target name reason).inWorld hw
  · exact hnext.elim hne hnot

variable (hdry : b₀.context.config.dryRun = true) (hsound : b₀.world.files.Sound)

theorem ends_rehearse_rehearsed {files : List Route} (h : b₀.Rehearsed front b)
    (hfiles : files.length = (phase.routes b₀.context.project b₀.world.files).length) :
    Ends (rehearse phase files) b
      (fun _ b' ↦ b₀.Rehearsed (front ++ [phase]) b' ∧ b'.context.state = b.context.state)
      fun _ _ ↦ False := by
  have hsorted : StablySorted id (phase.files.map Path.text)
      ((phase.files.map Path.text).mergeSort fun a b ↦ !decide (b < a)) := by
    refine stablySorted_mergeSort (fun a b ↦ ?_) _
    rw [Bool.not_eq_true', decide_eq_false_iff_not, not_lt]
    rfl
  unfold rehearse
  refine ends_bind.mpr (ends_update.mpr (ends_log_rehearsed (h.record ⟨rfl, rfl, ?_, rfl, rfl, rfl,
    _, hsorted.perm, hsorted.ordered, rfl⟩) _ _ _))
  rw [hfiles]

include hdry hsound in
theorem ends_runPhase_rehearsed (h : b₀.Rehearsed front b)
    (hphase : phase.Resolves b₀.context.project b₀.world.files) (whole : Option Snapshot) :
    Ends (runPhase crew whole phase) b
      (fun _ b' ↦ b₀.Rehearsed (front ++ [phase]) b' ∧ b'.context.state = b.context.state)
      fun _ _ ↦ False := by
  have hsame : ∀ p ∈ phase.files, Phase.route b.context.project b.world.files p =
      Phase.route b₀.context.project b₀.world.files p := by
    intro p hp
    obtain ⟨r, hr⟩ := hphase p hp
    rw [hr, h.route_eq hsound hr]
  have hresolves : phase.Resolves b.context.project b.world.files := by
    intro p hp
    rw [hsame p hp]
    exact hphase p hp
  have hroutes : phase.routes b.context.project b.world.files =
      phase.routes b₀.context.project b₀.world.files := by
    unfold Phase.routes
    exact congrArg distinct (List.filterMap_congr fun p hp ↦ by rw [hsame p hp])
  refine ends_runPhase_of ((ends_filesOf_of_resolves hresolves).mono ?_ fun _ _ h ↦ h)
  rintro files b' ⟨rfl, hfiles⟩ fields
  refine (ends_log_rehearsed h _ _ _).mono (fun _ b₁ ⟨h₁, hstate⟩ ↦ ?_) fun _ _ h ↦ h
  have hdry₁ : b₁.context.config.dryRun = true := h₁.config ▸ hdry
  constructor
  case rehearsed =>
    intro _
    rw [← hstate]
    exact ends_rehearse_rehearsed h₁ (hfiles.trans (congrArg List.length hroutes))
  case recorded => exact fun h ↦ nomatch hdry₁.symm.trans h
  case unrecorded => exact fun h ↦ nomatch hdry₁.symm.trans h

include hdry in
theorem ends_settle_rehearsed (h : b₀.Rehearsed front b) (hvalidation : b₀.context.validation = none)
    (hstate : b.context.state = .backingUp ∨ b.context.state = .executing) :
    Ends (do runValidation crew; conclude) b
      (fun _ b' ↦ b₀.Rehearsed front b' ∧ b'.context.state = .completed) fun _ _ ↦ False := by
  have hcompleted : RunState.completed ∈ b.context.state.next := by
    rcases hstate with hstate | hstate <;> rw [hstate] <;> decide
  unfold runValidation conclude
  refine ends_bind.mpr (ends_bind.mpr (ends_get.mpr ?_))
  dsimp only
  rw [h.config, hdry, if_neg (by simp)]
  refine ends_pure.mpr (ends_bind.mpr (ends_get.mpr ?_))
  rw [h.validation, hvalidation, Option.all_none, if_pos rfl]
  exact ends_moveTo_rehearsed h (.inr hcompleted) _ _

include hdry hsound in
theorem ends_runPhases_rehearsed (h : b₀.Rehearsed front b)
    (hphases : ∀ phase ∈ phases, phase.Resolves b₀.context.project b₀.world.files)
    (hvalidation : b₀.context.validation = none)
    (hstate : b.context.state = .backingUp ∨ b.context.state = .executing)
    (whole : Option Snapshot) :
    Ends (runPhases crew whole phases) b
      (fun _ b' ↦ b₀.Rehearsed (front ++ phases) b' ∧ b'.context.state = .completed)
      fun _ _ ↦ False := by
  refine ends_runPhases_of (P := fun part b ↦ ∃ done, done ++ part = front ++ phases ∧
    b₀.Rehearsed done b ∧ (∀ phase ∈ part, phase.Resolves b₀.context.project b₀.world.files) ∧
      (b.context.state = .backingUp ∨ b.context.state = .executing))
    ?_ ?_ ⟨front, rfl, h, hphases, hstate⟩
  · rintro b ⟨done, hdone, h, -, hstate⟩
    rw [List.append_nil] at hdone
    exact hdone ▸ ends_settle_rehearsed hdry h hvalidation hstate
  · rintro phase rest b ⟨done, hdone, h, hphases, hstate⟩
    obtain ⟨hphase, hrest⟩ := List.forall_mem_cons.mp hphases
    have hnext : b.context.state = .executing ∨ RunState.executing ∈ b.context.state.next := by
      rcases hstate with hstate | hstate
      · rw [hstate]
        exact .inr (by decide)
      · exact .inl hstate
    refine (ends_moveTo_rehearsed h hnext _ _).mono (fun _ b₁ hmoved ↦ ?_) fun _ _ ↦ False.elim
    obtain ⟨h₁, hstate₁⟩ := hmoved
    have h₂ := (h₁.note (.start phase)).inWorld (Act.still_bindField "phase" phase.name b₁.world)
    refine (ends_runPhase_rehearsed hdry hsound h₂ hphase whole).mono ?_ fun _ _ ↦ False.elim
    rintro _ b₃ ⟨h₃, hstate₃⟩
    have hgoing : b₃.context.isFinished = false := by
      rw [RunContext.isFinished, hstate₃.trans hstate₁]
      rfl
    refine .of_onward hgoing
      ⟨done ++ [phase], by simpa using hdone, ?_, hrest, .inr (hstate₃.trans hstate₁)⟩
    exact h₃.inWorld (Act.still_unbindField "phase" b₃.world)

include hdry hsound in
theorem ends_execute_rehearsed (h : b₀.Rehearsed [] b) (hstate : b.context.state = .idle)
    (hphases : ∀ phase ∈ phases, phase.Resolves b₀.context.project b₀.world.files)
    (hvalidation : b₀.context.validation = none) :
    Ends (execute crew phases) b
      (fun _ b' ↦ b₀.Rehearsed phases b' ∧ b'.context.state = .completed) fun _ _ ↦ False := by
  have hnext : RunState.backingUp ∈ b.context.state.next := by
    rw [hstate]
    decide
  refine ends_execute_of ((ends_moveTo_rehearsed h (.inr hnext) _ _).mono ?_ fun _ _ h ↦ h)
  rintro _ b₁ ⟨h₁, hstate₁⟩
  have hgoing : b₁.context.isFinished = false := by
    rw [RunContext.isFinished, hstate₁]
    rfl
  unfold recordAll
  refine ends_bind.mpr (ends_get.mpr ?_)
  dsimp only
  rw [h₁.config, hdry, if_pos (by simp)]
  refine ends_pure.mpr (.of_onward hgoing ?_)
  exact ends_runPhases_rehearsed hdry hsound h₁ hphases hvalidation (.inl hstate₁) none

include hdry hsound in
/-- A dry run is completed, and all that has come of it is what it says of each phase. -/
theorem ends_run_rehearsed (crew : Crew) (h : b₀.Rehearsed [] b) (hidle : b.context.state = .idle)
    (hphases : ∀ phase ∈ phases, phase.Resolves b₀.context.project b₀.world.files)
    (hhistory : b₀.context.history = []) (hvalidation : b₀.context.validation = none) :
    Ends (run crew phases) b
      (fun _ b' ↦ b₀.Rehearsed (phases.mergeSort fun p q ↦ p.priority ≤ q.priority) b' ∧
        b'.context.state = .completed)
      fun _ _ ↦ False := by
  let ordered := phases.mergeSort fun p q ↦ p.priority ≤ q.priority
  have hordered : ∀ phase ∈ ordered, phase.Resolves b₀.context.project b₀.world.files :=
    fun phase hphase ↦ hphases phase (List.mem_mergeSort.mp hphase)
  have hbegun := h.inWorld (Act.still_bindField "run_id" b.context.runId b.world)
  refine ends_run_of fun fields ↦ (ends_log_rehearsed hbegun _ _ _).mono ?_ fun _ _ h ↦ h
  rintro _ b₁ ⟨h₁, hstate₁⟩
  refine (ends_execute_rehearsed hdry hsound h₁ (hstate₁.trans hidle) hordered hvalidation).mono ?_
    fun _ _ h ↦ h
  rintro _ b₂ ⟨h₂, hstate₂⟩
  have hleft : b₀.Rehearsed ordered b₂.left :=
    (h₂.inWorld (Act.still_unbindField "run_id" _)).inWorld (Act.still_unbindField "phase" _)
  have hcounted := (Act.still_count .runsFinished 1
    [("state", b₂.context.state.name)] b₂.left.world).and (Act.ends_count_one _ _ _)
  refine ends_lift.mpr (hcounted.mono (fun _ w hw ↦ ?_) fun _ _ h ↦ h.2)
  refine ⟨fun e he ↦ (by cases (h₂.fixedCount hhistory).symm.trans he), fun fixed _ fields ↦ ?_⟩
  exact (ends_log_rehearsed (hleft.inWorld hw.1) _ _ _).mono
    (fun _ _ h ↦ ⟨h.1, h.2.trans hstate₂⟩) fun _ _ h ↦ h

/-! ### Whom a dry run calls -/

theorem runPhase_of_dryRun (crew crew' : Crew) (whole : Option Snapshot) (phase : Phase)
    (hdry : b.context.config.dryRun = true) :
    runPhase crew whole phase b = runPhase crew' whole phase b := by
  unfold runPhase
  refine bind_congr_of_ends rfl ((ends_filesOf phase b).mono ?_ fun _ _ _ ↦ trivial)
  rintro files b' rfl
  refine bind_congr_of_ends rfl (ends_lift.mpr (Act.ends_log fun w _ ↦ ?_))
  refine bind_congr_of_ends rfl (ends_get.mpr ?_)
  dsimp only
  rw [hdry]
  rfl

/-- In a phase of a dry run the settings stay what they are. -/
theorem ends_runPhase_config (crew : Crew) (whole : Option Snapshot) (phase : Phase)
    (hdry : b.context.config.dryRun = true) :
    Ends (runPhase crew whole phase) b (fun _ b' ↦ b'.context.config = b.context.config)
      fun _ b' ↦ b'.context.config = b.context.config := by
  refine ends_runPhase_of ((ends_filesOf phase b).mono ?_ fun _ _ h ↦ by rw [h.1])
  rintro files b' rfl fields
  refine ends_lift.mpr (Act.ends_log fun w _ ↦ ?_)
  constructor
  case rehearsed =>
    exact fun _ ↦ (calmly_rehearse phase files _).mono (fun _ _ h ↦ h.context.config)
      fun _ _ h ↦ h.context.config
  case recorded => exact fun h ↦ nomatch hdry.symm.trans h
  case unrecorded => exact fun h ↦ nomatch hdry.symm.trans h

theorem runPhases_of_dryRun (crew crew' : Crew) (whole : Option Snapshot) (phases : List Phase)
    (hdry : b.context.config.dryRun = true) :
    runPhases crew whole phases b = runPhases crew' whole phases b := by
  induction phases generalizing b with
  | nil =>
    unfold runPhases runValidation
    refine bind_congr_of_ends (bind_congr_of_ends rfl (ends_get.mpr ?_))
      (ends_of_forall (fun _ _ ↦ rfl) fun _ _ ↦ trivial)
    rw [hdry, if_neg (by simp), if_neg (by simp)]
  | cons phase rest ih =>
    unfold runPhases
    refine bind_congr_of_ends rfl ((ends_moveCalmly _ _ _ b).mono ?_ fun _ _ _ ↦ trivial)
    rintro _ b₁ ⟨hcalm, -⟩
    have hdry₁ : b₁.context.config.dryRun = true := hcalm.context.config ▸ hdry
    refine bind_congr_of_ends rfl (ends_note.mpr ?_)
    refine bind_congr_of_ends rfl (ends_lift.mpr (ends_modify.mpr ?_))
    refine bind_congr_of_ends
      (andThenAlways_congr (runPhase_of_dryRun crew crew' whole phase ?_) _)
      (Ends.andThenAlways ((ends_runPhase_config crew' whole phase ?_).mono ?_ ?_))
    · exact hdry₁
    · exact hdry₁
    · intro _ b₂ hconfig
      refine ends_lift.mpr (ends_modify.mpr (bind_congr_of_ends rfl (ends_get.mpr ?_)))
      split
      · rfl
      · exact ih (hconfig ▸ hdry₁)
    · exact fun _ _ _ ↦ ends_lift.mpr (ends_modify.mpr trivial)

/-- A dry run goes the same way whoever the crew is. -/
theorem run_of_dryRun (crew crew' : Crew) (phases : List Phase)
    (hdry : b.context.config.dryRun = true) : run crew phases b = run crew' phases b := by
  have hexecute : ∀ {b : Bench}, b.context.config.dryRun = true → ∀ phases,
      execute crew phases b = execute crew' phases b := by
    intro b hdry phases
    unfold execute
    refine bind_congr_of_ends rfl ((ends_moveCalmly _ _ _ b).mono ?_ fun _ _ _ ↦ trivial)
    rintro _ b₁ ⟨hcalm, -⟩
    have hdry₁ : b₁.context.config.dryRun = true := hcalm.context.config ▸ hdry
    unfold recordAll
    refine bind_congr_of_ends rfl (ends_bind.mpr (ends_get.mpr ?_))
    dsimp only
    rw [hdry₁, if_pos (by simp)]
    refine ends_pure.mpr (bind_congr_of_ends rfl (ends_get.mpr ?_))
    split
    · rfl
    · exact runPhases_of_dryRun crew crew' _ _ hdry₁
  unfold run
  refine bind_congr_of_ends rfl (ends_get.mpr ?_)
  refine bind_congr_of_ends rfl (ends_lift.mpr (ends_modify.mpr ?_))
  refine bind_congr_of_ends rfl (ends_lift.mpr (Act.ends_log fun w _ ↦ ?_))
  refine bind_congr_of_ends (andThenAlways_congr (hexecute ?_ _) _)
    (ends_of_forall (fun _ _ ↦ rfl) fun _ _ ↦ trivial)
  exact hdry

end RunAct

end Remedy
