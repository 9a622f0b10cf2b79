import Remedy.Proofs.Diagnostic.Reading
import Remedy.Proofs.Lock.Keeping
import Remedy.Proofs.Pipeline.Undo
import Remedy.Proofs.Run.Holding

/-!
# How a run of the pipeline begins and ends

A run enters when it has a name and the lock (`Pipeline.enter`). If it does not get in, that is all
there is to it (`Pipeline.run_of_refused`), and if somebody else has the lock, it has only waited
(`Pipeline.ends_enter_of_engaged`). Once it is in, it does its work and gives the lock up, however
that ends (`Pipeline.ends_run_of_entered`). What it finds is what is on the lines of its source
(`Pipeline.ends_prepare_found`), and what it carries out, it carries out on a fresh bench
(`Pipeline.ends_execute_iff`).
-/

set_option autoImplicit false

namespace Remedy.Pipeline

open FileTree

variable {p : Pipeline} {raw : Diagnostic.Source} {given : Option String} {runId : String}
  {s : Workshop} {w w' : World} {phases : List Phase}

/-- The name of a run: the one that is given, or a new one. -/
def runName (given : Option String) : Act String :=
  match given.filter fun name ↦ !name.isEmpty with
  | some name => pure name
  | none => Act.newRunId

/-- What a run does until it has the lock: all that it returns is its name. -/
def enter (p : Pipeline) (given : Option String) : Act String := do
  let runId ← runName given
  (p.lock runId).acquire none
  return runId

/-- The path of the lock, which is the same for all runs. -/
def lockPath (p : Pipeline) : Path :=
  (RunLock.ofProject (Route.path p.project) p.config.backupDirectory).path

/-- What is found, as the source has it. -/
def foundIn (p : Pipeline) (raw : Diagnostic.Source) : List Finding :=
  findings (.ofPairs p.config.codes) raw.diagnostics

theorem ends_analyze_found (extra : ExtraCodes) (raw : Diagnostic.Source) (w : World) :
    Ends (analyze extra raw) w (fun found _ ↦ found = findings extra raw.diagnostics)
      fun _ _ ↦ True := by
  unfold analyze
  refine ends_bind.mpr ((Diagnostic.ends_read_found raw w).mono ?_ fun _ _ h ↦ h)
  rintro _ w' rfl
  exact Ends.bind_any fun _ _ ↦ ends_pure.mpr rfl

theorem ends_prepare_found (p : Pipeline) (raw : Diagnostic.Source) (w : World) :
    Ends (p.prepare raw) w (fun made _ ↦ made.1 = p.foundIn raw) fun _ _ ↦ True := by
  unfold prepare
  refine ends_bind.mpr ((ends_analyze_found _ raw w).mono ?_ fun _ _ h ↦ h)
  rintro _ w' rfl
  exact Ends.bind_any fun _ _ ↦ ends_pure.mpr rfl

/-! ### Entering -/

/-- All that is changed for a name is that there is one drawn more. -/
theorem ends_runName (given : Option String) (w : World) :
    Ends (runName given) w (fun _ w' ↦ ∃ draws, w' = { w with draws := draws })
      fun _ _ ↦ False := by
  unfold runName
  split
  · exact ends_pure.mpr ⟨w.draws, rfl⟩
  · unfold Act.newRunId
    exact ends_bind.mpr (ends_get.mpr (ends_bind.mpr (ends_set.mpr (ends_pure.mpr ⟨_, rfl⟩))))

theorem ends_run_of_enter {ok : RunSummary → Workshop → Prop} {bad : Fault → Workshop → Prop}
    (h : Ends (p.enter given) s.world
      (fun runId w ↦ Ends (andThenAlways (p.runLocked raw runId) (lift (p.lock runId).release))
        { s with world := w }
        (fun summary t ↦ ∀ w', t.world.Still w' → ok summary { t with world := w' }) bad)
      fun e w ↦ bad e { s with world := w }) :
    Ends (p.run raw given) s ok bad := by
  -- What follows is the same whether the name was given or drawn.
  have hnamed : ∀ {runId w}, Ends ((p.lock runId).acquire none) w
      (fun _ w ↦ Ends (andThenAlways (p.runLocked raw runId) (lift (p.lock runId).release))
        { s with world := w }
        (fun summary t ↦ ∀ w', t.world.Still w' → ok summary { t with world := w' }) bad)
      (fun e w ↦ bad e { s with world := w }) →
      Ends (do
        lift ((p.lock runId).acquire none)
        let summary ← andThenAlways (p.runLocked raw runId) (lift (p.lock runId).release)
        lift (Act.log .info "run_summary"
          [("run_id", runId), ("state", summary.state.name),
            ("initial_errors", summary.initialErrorCount),
            ("final_errors", summary.finalErrorCount), ("fixed", summary.fixedCount)])
        return summary) { s with world := w } ok bad := by
    intro runId w hacquired
    refine ends_bind.mpr (ends_lift.mpr (hacquired.mono (fun _ w' hlocked ↦ ?_) fun _ _ h ↦ h))
    refine ends_bind.mpr (hlocked.mono (fun summary t hok ↦ ?_) fun _ _ h ↦ h)
    exact ends_bind.mpr (ends_lift.mpr (Act.ends_log fun w' hstill ↦ ends_pure.mpr (hok w' hstill)))
  unfold enter runName at h
  unfold run
  cases hgiven : given.filter fun name ↦ !name.isEmpty with
  | some name =>
    rw [hgiven] at h
    dsimp only at h
    rw [pure_bind] at h
    have hacquired := ends_bind.mp h
    exact ends_bind.mpr (ends_pure.mpr (hnamed (hacquired.mono (fun _ _ h ↦ h) fun _ _ h ↦ h)))
  | none =>
    rw [hgiven] at h
    refine ends_bind.mpr (ends_lift.mpr ((ends_bind.mp h).mono (fun runId w hacquired ↦ ?_)
      fun _ _ h ↦ h))
    exact hnamed ((ends_bind.mp hacquired).mono (fun _ _ h ↦ h) fun _ _ h ↦ h)

theorem ends_run_of_entered {ok : RunSummary → Workshop → Prop} {bad : Fault → Workshop → Prop}
    (h : p.enter given s.world = (.ok runId, w))
    (hlocked : Ends (andThenAlways (p.runLocked raw runId) (lift (p.lock runId).release))
      { s with world := w }
      (fun summary t ↦ ∀ w', t.world.Still w' → ok summary { t with world := w' }) bad) :
    Ends (p.run raw given) s ok bad :=
  ends_run_of_enter ((ends_of_eq h).mpr hlocked)

/-- A run that has got in has the lock. -/
theorem granted_of_enter (hw : w.files.Sound) (hown : RunLock.heldFile 0 w.locks = none)
    (h : p.enter given w = (.ok runId, w')) : ∃ file, (p.lock runId).Granted file w w' := by
  refine (ends_of_eq h).mp (?_ : Ends (p.enter given) w
    (fun runId w' ↦ ∃ file, (p.lock runId).Granted file w w') fun _ _ ↦ True)
  unfold enter
  refine ends_bind.mpr ((ends_runName given w).mono ?_ fun _ _ h ↦ h.elim)
  rintro runId _ ⟨draws, rfl⟩
  refine ends_bind.mpr ((RunLock.ends_acquire_granted (p.lock runId) none
    (w := { w with draws := draws }) hw (p.isAbsolute_lock runId) hown).mono ?_ fun _ _ h ↦ h)
  rintro _ w₂ ⟨file, hgranted⟩
  exact ends_pure.mpr ⟨file, hgranted.traced, hgranted.free, hgranted.locks,
    ⟨hgranted.changes.log, rfl, hgranted.changes.files⟩, hgranted.leads⟩

theorem ends_execute_iff {t : Workshop} {ok : RunContext → Workshop → Prop}
    {bad : Fault → Workshop → Prop} :
    Ends (p.execute phases runId) t ok bad ↔
      Ends (RunAct.run p.crew phases) (.fresh t.world t.store runId p.project p.config.run)
        (fun _ b ↦ ok b.context ⟨b.world, b.store⟩) fun e b ↦ bad e ⟨b.world, b.store⟩ := by
  unfold Ends execute
  dsimp only [Bench.fresh]
  rcases RunAct.run p.crew phases _ with ⟨_ | _, b⟩ <;> rfl

end Remedy.Pipeline
