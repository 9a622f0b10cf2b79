import Remedy.Proofs.Run.Calm
import Remedy.Proofs.Touching

/-!
# What a run upholds

A law about the world and the store of a run is upheld throughout the run, however the run ends, if
each of the few things in it that are not calm upholds it: what the fixers and the probes of the
crew do, taking snapshots, holding parts of them, and putting files back (`Upkeep`,
`Upkeep.lawful_run`).

Snapshots are taken of files to which the paths of phases lead, and files are put back from
snapshots that have been taken. So the law may depend on which files these are: `named` are routes
to which, as long as the law holds, the paths of phases lead, and `sound` is said of the snapshots
that are taken.
-/

set_option autoImplicit false

namespace Remedy

variable {σ α β : Type}

/-! ### Laws -/

/-- If the law holds in the first state, it holds in the second. -/
def Upholds (law : σ → Prop) (s t : σ) : Prop := law s → law t

section Upholds

variable {law : σ → Prop} {act : ExceptT Fault (StateM σ) α}

theorem upholds_refl (s : σ) : Upholds law s s :=
  id

theorem upholds_trans (s t u : σ) (h : Upholds law s t) (h' : Upholds law t u) :
    Upholds law s u :=
  h' ∘ h

theorem keeps_upholds :
    Keeps (Upholds law) act ↔ ∀ s, law s → Ends act s (fun _ t ↦ law t) fun _ t ↦ law t := by
  refine ⟨fun h s hs ↦ (h s).mono (fun _ _ ht ↦ ht hs) fun _ _ ht ↦ ht hs, fun h s ↦ ?_⟩
  by_cases hs : law s
  · exact (h s hs).mono (fun _ _ ht _ ↦ ht) fun _ _ ht _ ↦ ht
  · exact ends_of_forall (fun _ _ hs' ↦ absurd hs' hs) fun _ _ hs' ↦ absurd hs' hs

theorem Upholds.bind {f : α → ExceptT Fault (StateM σ) β} (h : Keeps (Upholds law) act)
    (hnext : ∀ a, Keeps (Upholds law) (f a)) : Keeps (Upholds law) (act >>= f) :=
  h.bind upholds_trans hnext

end Upholds

/-- A law that what is quiet does not break is upheld by what a check does but run its probe. -/
theorem Act.isChecking_upholds {law : World → Prop}
    (hquiet : ∀ {w w' : World}, law w → w.Undisturbed w' → law w') :
    Act.IsChecking (Upholds law) := by
  have hkeeps : ∀ {α : Type} {act : Act α}, act.Still → Keeps (Upholds law) act := fun hact ↦
    keeps_upholds.mpr fun w hw ↦ (hact w).mono (fun _ _ h ↦ hquiet hw h.undisturbed)
      fun _ _ h ↦ hquiet hw h.undisturbed
  constructor
  case toIsReading =>
    constructor
    case toIsPassing =>
      exact ⟨upholds_refl, upholds_trans, fun event ↦ hkeeps (still_record event),
        fun _ _ _ _ _ _ hw ↦ hquiet hw (.of_eq rfl rfl rfl)⟩
    case parsed => exact fun amount labels ↦ hkeeps (still_count _ amount labels)
    case skipped => exact fun amount labels ↦ hkeeps (still_count _ amount labels)
  case checked => exact fun amount labels ↦ hkeeps (still_count _ amount labels)
  case measured => exact fun _ _ hw ↦ hquiet hw (.of_eq rfl rfl rfl)

/-- What has to be known of a law about the world and the store for a run to uphold it. -/
structure Upkeep (crew : Crew) (phases : List Phase) (project : Route) (runId : String)
    (law : World → Store → Prop) (named : Route → Prop) (sound : Snapshot → Prop) : Prop where
  quiet : ∀ {w w' s}, law w s → w.Undisturbed w' → law w' s
  fixes : ∀ {name fixer}, crew.registry.get name = .ok fixer → ∀ (request : FixRequest) (files : List Route),
    request.files = files.map Route.path → (∀ r ∈ files, named r) → ∀ w s, law w s →
    law { w with toSite := (fixer.fix request w.toSite).2 } s
  probes : ∀ check ∈ crew.checks, ∀ w s, law w s →
    law { w with toSite := (check.probe w.toSite).2 } s
  leads : ∀ {w s}, law w s → ∀ phase ∈ phases, ∀ p ∈ phase.files, ∀ r,
    w.files.resolve ((Route.path project).join p) = .ok r → named r
  takes : ∀ {w s}, law w s → ∀ key (files : List Route), (∀ r ∈ files, named r) →
    Ends (s.snapshot runId key (files.map Route.path)) w
      (fun taken w' ↦ law w' taken.2 ∧ sound taken.1) fun _ w' ↦ law w' s
  parts : ∀ {w s}, law w s → ∀ {whole part : Snapshot} {files key}, sound whole →
    whole.restrict files key = .ok part → law w (s.hold part) ∧ sound part
  restores : ∀ {w s}, law w s → ∀ snapshot, sound snapshot →
    Ends (Store.restore snapshot) w (fun _ w' ↦ law w' s) fun _ w' ↦ law w' s

/-- The bench is that of the run, and the law holds of its world and its store. -/
structure Bench.Lawful (project : Route) (runId : String) (law : World → Store → Prop)
    (b : Bench) : Prop where
  runId : b.context.runId = runId
  project : b.context.project = project
  law : law b.world b.store

namespace RunAct

variable {project : Route} {runId : String} {law : World → Store → Prop}

/-- The action upholds the law, however it ends. -/
def Lawful (project : Route) (runId : String) (law : World → Store → Prop) (act : RunAct α) :
    Prop :=
  Keeps (Upholds (Bench.Lawful project runId law)) act

theorem Lawful.bind {act : RunAct α} {f : α → RunAct β} (h : Lawful project runId law act)
    (hnext : ∀ a, Lawful project runId law (f a)) : Lawful project runId law (act >>= f) :=
  Keeps.bind upholds_trans h hnext

theorem Lawful.attempt {act : RunAct α} (h : Lawful project runId law act) :
    Lawful project runId law (Remedy.attempt act) :=
  Keeps.attempt h

theorem Lawful.ends {act : RunAct α} (h : Lawful project runId law act) {b : Bench}
    (hb : b.Lawful project runId law) :
    Ends act b (fun _ b' ↦ b'.Lawful project runId law)
      fun _ b' ↦ b'.Lawful project runId law :=
  keeps_upholds.mp h b hb

theorem lawful_pure (a : α) : Lawful project runId law (pure a) :=
  keeps_pure upholds_refl a

theorem lawful_throw (e : Fault) : Lawful project runId law (throw e : RunAct α) :=
  keeps_throw upholds_refl e

theorem lawful_get : Lawful project runId law get :=
  keeps_get upholds_refl

theorem lawful_note (o : Occurrence) : Lawful project runId law (note o) :=
  keeps_modify fun _ h ↦ ⟨h.runId, h.project, h.law⟩

end RunAct

namespace Upkeep

variable {crew : Crew} {phases : List Phase} {project : Route} {runId : String}
  {law : World → Store → Prop} {named : Route → Prop} {sound : Snapshot → Prop}

section Steps

variable (hlaw : Upkeep crew phases project runId law named sound)

include hlaw

theorem calm {b b' : Bench} (h : b.Lawful project runId law) (hcalm : b.Calm b') :
    b'.Lawful project runId law := by
  refine ⟨hcalm.context.runId.trans h.runId, hcalm.context.project.trans h.project, ?_⟩
  rw [hcalm.store]
  exact hlaw.quiet h.law hcalm.world

theorem lawful_calmly {act : RunAct α} (hact : RunAct.Calmly act) :
    RunAct.Lawful project runId law act :=
  fun b ↦ (hact b).mono (fun _ _ hrests h ↦ hlaw.calm h hrests.toCalm)
    fun _ _ hrests h ↦ hlaw.calm h hrests.toCalm

theorem lawful_lift {act : Act α} (hact : act.Still) :
    RunAct.Lawful project runId law (RunAct.lift act) :=
  hlaw.lawful_calmly (RunAct.calmly_lift hact)

theorem lawful_update {f : RunContext → RunContext} (hf : ∀ c : RunContext, c.Stays (f c)) :
    RunAct.Lawful project runId law (RunAct.update f) :=
  keeps_modify fun b h ↦ hlaw.calm h (.change b (hf _))

theorem lawful_moveTo (target : RunState) (phase : Option String) (reason : String) :
    RunAct.Lawful project runId law (RunAct.moveTo target phase reason) :=
  fun b ↦ (RunAct.ends_moveCalmly target phase reason b).mono
    (fun _ _ hmoved h ↦ hlaw.calm h hmoved.1) fun _ _ hsame h ↦ hsame ▸ h

/-! ### Snapshots -/

variable {b : Bench} {phase : Phase}

theorem ends_filesOf (hphase : phase ∈ phases) (h : b.Lawful project runId law) :
    Ends (RunAct.filesOf phase) b (fun files b' ↦ b' = b ∧ ∀ r ∈ files, named r)
      fun _ b' ↦ b' = b := by
  refine (RunAct.ends_filesOf_asked phase b).mono ?_ fun _ _ h ↦ h.1
  rintro files b' ⟨rfl, hfiles, -⟩
  refine ⟨rfl, fun r hr ↦ ?_⟩
  obtain ⟨p, hp, hresolved⟩ := (hfiles r).mp hr
  rw [h.project] at hresolved
  exact hlaw.leads h.law phase hphase p hp r hresolved

theorem ends_takeSnapshot (key : String) {files : List Route} (hfiles : ∀ r ∈ files, named r)
    (h : b.Lawful project runId law) :
    Ends (RunAct.takeSnapshot key files) b
      (fun s b' ↦ b'.Lawful project runId law ∧ sound s)
      fun _ b' ↦ b'.Lawful project runId law := by
  refine RunAct.ends_takeSnapshot_of ((Act.still_giveWay b.world).mono (fun _ w hstill ↦ ?_)
    fun _ w hstill ↦ hlaw.calm h (.inWorld b hstill))
  rw [h.runId]
  exact (hlaw.takes (hlaw.quiet h.law hstill.undisturbed) key files hfiles).mono
    (fun _ _ htaken ↦ ⟨⟨h.runId, h.project, htaken.1⟩, htaken.2⟩)
    fun _ w' hw' ↦ ⟨h.runId, h.project, hw'⟩

theorem ends_phaseSnapshot {whole : Option Snapshot} (hwhole : ∀ s, whole = some s → sound s)
    {files : List Route} (hfiles : ∀ r ∈ files, named r) (h : b.Lawful project runId law) :
    Ends (RunAct.phaseSnapshot phase files whole) b
      (fun s b' ↦ b'.Lawful project runId law ∧ sound s)
      fun _ b' ↦ b'.Lawful project runId law := by
  refine RunAct.ends_phaseSnapshot_of (fun _ _ _ _ _ ↦ h) (fun all part hall _ hpart ↦ ?_)
    fun _ ↦ hlaw.ends_takeSnapshot _ hfiles h
  obtain ⟨hheld, hsound⟩ := hlaw.parts h.law (hwhole all hall) hpart
  refine (Store.ends_record _ part b.world).mono ?_ fun _ w hw ↦ hw ▸ h
  rintro _ w ⟨rfl, -, hstill⟩
  exact ⟨⟨h.runId, h.project, hlaw.quiet hheld hstill.undisturbed⟩, hsound⟩

/-! ### Attempts -/

theorem lawful_callFixer {fixer : Fixer} {name : String}
    (hfixer : crew.registry.get name = .ok fixer) {files : List Route}
    (hfiles : ∀ r ∈ files, named r) (number : Nat) :
    RunAct.Lawful project runId law
      (RunAct.callFixer fixer phase files number) := by
  unfold RunAct.callFixer
  refine .bind (hlaw.lawful_calmly (RunAct.calmly_count _ _ _)) fun _ ↦ ?_
  refine .bind (hlaw.lawful_calmly (RunAct.calmly_log _ _ _)) fun _ ↦ ?_
  refine .bind (hlaw.lawful_update fun _ ↦ ⟨rfl, rfl, rfl, rfl, nofun⟩) fun _ ↦ ?_
  split
  · exact RunAct.lawful_throw _
  refine .bind RunAct.lawful_get fun b ↦ .bind (RunAct.lawful_note _) fun _ ↦ ?_
  refine .bind (keeps_upholds.mpr fun b h ↦ RunAct.ends_lift.mpr ?_) fun settled ↦
    hlaw.lawful_calmly (RunAct.calmly_judge _ _ settled)
  have hfixed : ∀ deadline, law { b.world with toSite :=
      (fixer.fix ⟨files.map Route.path, phase.findings, deadline⟩ b.world.toSite).2 } b.store :=
    fun _ ↦ hlaw.fixes hfixer _ files rfl hfiles _ _ h.law
  refine (Act.ends_race _ _ _).mono (fun _ w hstill ↦ ?_) fun _ w hstill ↦ ?_
  · exact ⟨h.runId, h.project, hlaw.quiet (hfixed _) hstill.undisturbed⟩
  · exact ⟨h.runId, h.project, hlaw.quiet (hfixed _) hstill.undisturbed⟩

theorem lawful_attemptPhase {fixer : Fixer} {name : String}
    (hfixer : crew.registry.get name = .ok fixer) {files : List Route}
    (hfiles : ∀ r ∈ files, named r) (number : Nat) :
    RunAct.Lawful project runId law
      (RunAct.attemptPhase fixer phase files number) := by
  unfold RunAct.attemptPhase
  refine .bind (keeps_modify fun b h ↦ ⟨h.runId, h.project, h.law⟩) fun _ ↦ ?_
  dsimp only
  split
  · exact .bind (hlaw.lawful_moveTo _ _ _) fun _ ↦ hlaw.lawful_callFixer hfixer hfiles number
  · exact hlaw.lawful_callFixer hfixer hfiles number

/-! ### Settling -/

theorem lawful_recordAndMove {text message reason : String} (attempts : Nat) (elapsed : Number)
    (rolledBack : Bool) (details : List (String × Json)) (target : RunState) :
    RunAct.Lawful project runId law (do
      RunAct.update fun c ↦ { c with error := some text }
      RunAct.recordFailure phase message attempts elapsed rolledBack details
      RunAct.moveTo target (some phase.name) reason) :=
  fun b ↦ (RunAct.ends_recordAndMove phase text message reason attempts elapsed rolledBack details
    target b).mono (fun _ _ hended h ↦ hlaw.calm h hended.1) fun _ _ hended h ↦
      hlaw.calm h hended.1

theorem lawful_rollBack {snapshot : Snapshot} (hsnapshot : sound snapshot) (message : String)
    (attempts : Nat) (elapsed : Number) :
    RunAct.Lawful project runId law
      (RunAct.rollBack phase snapshot message attempts elapsed) := by
  have hrestore : RunAct.Lawful project runId law
      (RunAct.lift (Store.restore snapshot)) :=
    keeps_upholds.mpr fun b h ↦ RunAct.ends_lift.mpr ((hlaw.restores h.law snapshot hsnapshot).mono
      (fun _ _ hw ↦ ⟨h.runId, h.project, hw⟩) fun _ _ hw ↦ ⟨h.runId, h.project, hw⟩)
  unfold RunAct.rollBack
  refine .bind (hlaw.lawful_moveTo _ _ _) fun _ ↦ ?_
  refine .bind (hlaw.lawful_lift Act.still_giveWay) fun _ ↦ ?_
  refine .bind hrestore.attempt fun outcome ↦ ?_
  split
  · exact hlaw.lawful_recordAndMove _ _ _ _ _
  · exact RunAct.lawful_throw _
  · exact .bind (hlaw.lawful_calmly (RunAct.calmly_count _ _ _)) fun _ ↦
      hlaw.lawful_recordAndMove _ _ _ _ _

theorem lawful_settleFailure {snapshot : Option Snapshot}
    (hsnapshot : ∀ s, snapshot = some s → sound s) (message : String) (attempts : Nat)
    (elapsed : Number) :
    RunAct.Lawful project runId law
      (RunAct.settleFailure phase snapshot message attempts elapsed) := by
  unfold RunAct.settleFailure
  refine .bind (hlaw.lawful_calmly (RunAct.calmly_count _ _ _)) fun _ ↦ ?_
  refine .bind (hlaw.lawful_calmly (RunAct.calmly_count _ _ _)) fun _ ↦ ?_
  refine .bind (hlaw.lawful_calmly (RunAct.calmly_log _ _ _)) fun _ ↦ ?_
  refine .bind RunAct.lawful_get fun b ↦ ?_
  dsimp only
  split
  · exact hlaw.lawful_rollBack (hsnapshot _ rfl) message attempts elapsed
  · refine .bind (hlaw.lawful_calmly (RunAct.calmly_recordFailure _ _ _ _ _ _)) fun _ ↦ ?_
    split
    · refine .bind (hlaw.lawful_update fun _ ↦ ⟨?_, ?_, ?_, ?_, id⟩) fun _ ↦
        hlaw.lawful_moveTo _ _ _
      · rfl
      · rfl
      · rfl
      · rfl
    · exact RunAct.lawful_pure _

theorem lawful_attempts {fixer : Fixer} {name : String}
    (hfixer : crew.registry.get name = .ok fixer) {files : List Route}
    (hfiles : ∀ r ∈ files, named r) (policy : RetryPolicy) (left number : Nat) :
    RunAct.Lawful project runId law
      (retryFrom policy (RunAct.attemptPhase fixer phase files)
        (fun number fault wait ↦ RunAct.lift (Act.rest number fault wait)) left number) :=
  keeps_retryFrom upholds_trans upholds_refl
    (fun number ↦ hlaw.lawful_attemptPhase hfixer hfiles number)
    (fun _ _ _ ↦ hlaw.lawful_lift (Act.still_rest _ _ _)) _ _

theorem lawful_carryOut {fixer : Fixer} {name : String}
    (hfixer : crew.registry.get name = .ok fixer) {snapshot : Option Snapshot}
    (hsnapshot : ∀ s, snapshot = some s → sound s) {files : List Route}
    (hfiles : ∀ r ∈ files, named r) :
    RunAct.Lawful project runId law
      (RunAct.carryOut phase files snapshot fixer) := by
  unfold RunAct.carryOut
  refine .bind RunAct.lawful_get fun b ↦ .bind RunAct.lawful_get fun b' ↦ ?_
  refine .bind (hlaw.lawful_attempts hfixer hfiles _ _ _).attempt fun outcome ↦ ?_
  refine .bind (hlaw.lawful_lift (Act.still_since _)) fun elapsed ↦ ?_
  refine .bind RunAct.lawful_get fun b'' ↦ ?_
  dsimp only
  split
  · exact hlaw.lawful_calmly (RunAct.calmly_settleSuccess _ _ _ _)
  · split
    · exact .bind (hlaw.lawful_calmly (RunAct.calmly_observeDuration _ _)) fun _ ↦
        hlaw.lawful_settleFailure hsnapshot _ _ _
    · exact RunAct.lawful_throw _

theorem lawful_remedy {snapshot : Option Snapshot} (hsnapshot : ∀ s, snapshot = some s → sound s)
    {files : List Route} (hfiles : ∀ r ∈ files, named r) :
    RunAct.Lawful project runId law
      (RunAct.remedy crew phase files snapshot) := by
  unfold RunAct.remedy
  split
  · exact .bind (hlaw.lawful_calmly (RunAct.calmly_log _ _ _)) fun _ ↦
      hlaw.lawful_settleFailure hsnapshot _ _ _
  · exact hlaw.lawful_carryOut ‹_› hsnapshot hfiles

theorem lawful_settleUnrecorded (fault : Fault) :
    RunAct.Lawful project runId law (RunAct.settleUnrecorded phase fault) := by
  unfold RunAct.settleUnrecorded
  refine .bind (RunAct.lawful_note _) fun _ ↦ ?_
  refine .bind (hlaw.lawful_calmly (RunAct.calmly_recordFailure _ _ _ _ _ _)) fun _ ↦ ?_
  refine .bind (hlaw.lawful_calmly (RunAct.calmly_fail _)) fun _ ↦ ?_
  exact .bind RunAct.lawful_get fun b ↦ hlaw.lawful_moveTo _ _ _

/-! ### Runs -/

theorem lawful_runPhase {whole : Option Snapshot} (hwhole : ∀ s, whole = some s → sound s)
    (hphase : phase ∈ phases) :
    RunAct.Lawful project runId law (RunAct.runPhase crew whole phase) := by
  refine keeps_upholds.mpr fun b h ↦ ?_
  refine RunAct.ends_runPhase_of ((hlaw.ends_filesOf hphase h).mono ?_ fun _ _ hb ↦ hb ▸ h)
  rintro files b ⟨rfl, hfiles⟩ fields
  refine (RunAct.calmly_log _ _ _ b).mono ?_ fun _ _ hrests ↦ hlaw.calm h hrests.toCalm
  intro _ b₁ hrests
  have h₁ := hlaw.calm h hrests.toCalm
  constructor
  case rehearsed => exact fun _ ↦ (hlaw.lawful_calmly (RunAct.calmly_rehearse _ _)).ends h₁
  case recorded =>
    refine fun _ _ ↦ (hlaw.ends_phaseSnapshot hwhole hfiles h₁).mono ?_ fun e b₂ h₂ ↦
      ⟨fun _ ↦ (hlaw.lawful_settleUnrecorded e).ends h₂, fun _ ↦ h₂⟩
    rintro s b₂ ⟨h₂, hs⟩
    refine (hlaw.lawful_remedy (fun s' hs' ↦ ?_) hfiles).ends h₂
    exact Option.some.inj hs' ▸ hs
  case unrecorded => exact fun _ _ ↦ (hlaw.lawful_remedy (fun s hs ↦ by cases hs) hfiles).ends h₁

theorem lawful_runValidation :
    RunAct.Lawful project runId law (RunAct.runValidation crew) := by
  have hvalidate : RunAct.Lawful project runId law
      (RunAct.lift (validate crew.checks)) := by
    refine keeps_upholds.mpr fun b h ↦ RunAct.ends_lift.mpr ?_
    have hkept : Keeps (Upholds (law · b.store)) (validate crew.checks) :=
      (Act.isChecking_upholds hlaw.quiet).keeps_validate fun check hcheck w ↦
        hlaw.probes check hcheck w b.store
    exact (keeps_upholds.mp hkept b.world h.law).mono (fun _ _ hw ↦ ⟨h.runId, h.project, hw⟩)
      fun _ _ hw ↦ ⟨h.runId, h.project, hw⟩
  unfold RunAct.runValidation
  refine .bind RunAct.lawful_get fun b ↦ ?_
  dsimp only
  split
  · split
    · exact hlaw.lawful_update fun _ ↦ ⟨rfl, rfl, rfl, rfl, id⟩
    · refine .bind (hlaw.lawful_moveTo _ _ _) fun _ ↦ .bind hvalidate fun summary ↦ ?_
      exact hlaw.lawful_update fun _ ↦ ⟨rfl, rfl, rfl, rfl, id⟩
  · exact RunAct.lawful_pure _

theorem lawful_conclude : RunAct.Lawful project runId law RunAct.conclude := by
  unfold RunAct.conclude
  refine .bind RunAct.lawful_get fun b ↦ ?_
  dsimp only
  split
  · exact hlaw.lawful_moveTo _ _ _
  · split
    · exact .bind (hlaw.lawful_update fun _ ↦ ⟨rfl, rfl, rfl, rfl, id⟩) fun _ ↦
        hlaw.lawful_moveTo _ _ _
    · exact .bind (hlaw.lawful_update fun _ ↦ ⟨rfl, rfl, rfl, rfl, id⟩) fun _ ↦
        hlaw.lawful_moveTo _ _ _

theorem ends_filesOfAll {part : List Phase} (hsub : ∀ phase ∈ part, phase ∈ phases)
    (h : b.Lawful project runId law) :
    Ends (part.mapM RunAct.filesOf) b (fun files b' ↦ b' = b ∧ ∀ r ∈ files.flatten, named r)
      fun _ b' ↦ b' = b := by
  induction part with
  | nil => exact ends_pure.mpr ⟨rfl, by simp⟩
  | cons phase rest ih =>
    obtain ⟨hphase, hrest⟩ := List.forall_mem_cons.mp hsub
    rw [List.mapM_cons]
    refine ((hlaw.ends_filesOf hphase h).mono (fun _ _ h ↦ h) fun _ _ h ↦ h).bind ?_
    rintro files b' ⟨rfl, hfiles⟩
    refine ((ih hrest).mono (fun _ _ h ↦ h) fun _ _ h ↦ h).bind ?_
    rintro others b' ⟨rfl, hothers⟩
    refine ends_pure.mpr ⟨rfl, fun r hr ↦ ?_⟩
    rw [List.flatten_cons, List.mem_append] at hr
    exact hr.elim (hfiles r) (hothers r)

theorem ends_recordAll {part : List Phase} (hsub : ∀ phase ∈ part, phase ∈ phases)
    (h : b.Lawful project runId law) :
    Ends (RunAct.recordAll part) b
      (fun whole b' ↦ b'.Lawful project runId law ∧ ∀ s, whole = some s → sound s)
      fun _ b' ↦ b'.Lawful project runId law := by
  have hnone : ∀ {act : RunAct Unit} {b : Bench}, RunAct.Lawful project runId law act →
      b.Lawful project runId law → Ends act b
        (fun _ b' ↦ b'.Lawful project runId law ∧ ∀ s, none = some s → sound s)
        fun _ b' ↦ b'.Lawful project runId law := fun hact hb ↦
    (hact.ends hb).mono (fun _ b' hb' ↦ ⟨hb', fun s hs ↦ by cases hs⟩) fun _ _ h ↦ h
  refine RunAct.ends_recordAll_of ?_
  constructor
  case idle => exact fun _ ↦ ⟨h, fun s hs ↦ by cases hs⟩
  case unbacked =>
    refine fun _ ↦ hnone (hlaw.lawful_calmly (RunAct.calmly_log _ _ _)) ?_
    exact hlaw.calm h (.change b ⟨rfl, rfl, rfl, rfl, id⟩)
  case recorded =>
    intro _ _ _
    refine (hlaw.ends_filesOfAll hsub h).mono ?_ fun _ b' hsame ↦ hsame ▸ h
    rintro files b ⟨rfl, hfiles⟩
    refine (hlaw.ends_takeSnapshot _ hfiles h).mono ?_ fun e b₁ h₁ ↦ ⟨fun _ ↦ ?_, fun _ ↦ h₁⟩
    · rintro s b₁ ⟨h₁, hs⟩
      exact ⟨h₁, fun s' hs' ↦ Option.some.inj hs' ▸ hs⟩
    · have hrefuses : RunAct.Lawful project runId law (do
          RunAct.note (.refusal none)
          RunAct.update fun c ↦ { c with error := some s!"Backup failed: {e.message}" }) :=
        (RunAct.lawful_note _).bind fun _ ↦ hlaw.lawful_calmly (RunAct.calmly_fail _)
      have hnoted := RunAct.ends_note.mp (ends_bind.mp (hrefuses.ends h₁))
      have hrefused := RunAct.ends_update.mp hnoted
      exact hnone (b := b₁.refused e) (hlaw.lawful_moveTo _ _ _) hrefused

theorem lawful_runPhases {whole : Option Snapshot} (hwhole : ∀ s, whole = some s → sound s)
    (part : List Phase) (hsub : ∀ phase ∈ part, phase ∈ phases) :
    RunAct.Lawful project runId law (RunAct.runPhases crew whole part) := by
  induction part with
  | nil => exact hlaw.lawful_runValidation.bind fun _ ↦ hlaw.lawful_conclude
  | cons phase rest ih =>
    obtain ⟨hphase, hrest⟩ := List.forall_mem_cons.mp hsub
    unfold RunAct.runPhases
    refine (hlaw.lawful_moveTo _ _ _).bind fun _ ↦ (RunAct.lawful_note _).bind fun _ ↦ ?_
    refine (hlaw.lawful_lift (Act.still_bindField _ _)).bind fun _ ↦ ?_
    refine .bind ?_ fun _ ↦ RunAct.lawful_get.bind fun b ↦ ?_
    · exact Keeps.andThenAlways upholds_trans (hlaw.lawful_runPhase hwhole hphase)
        (hlaw.lawful_lift (Act.still_unbindField _))
    · split
      · exact RunAct.lawful_pure _
      · exact ih hrest

theorem lawful_execute (part : List Phase) (hsub : ∀ phase ∈ part, phase ∈ phases) :
    RunAct.Lawful project runId law (RunAct.execute crew part) := by
  refine keeps_upholds.mpr fun b h ↦ ?_
  unfold RunAct.execute
  refine ((hlaw.lawful_moveTo _ _ _).ends h).bind fun _ b₁ h₁ ↦ ?_
  refine (hlaw.ends_recordAll hsub h₁).bind ?_
  rintro whole b₂ ⟨h₂, hwhole⟩
  refine ends_bind.mpr (ends_get.mpr ?_)
  split
  · exact ends_pure.mpr h₂
  · exact (hlaw.lawful_runPhases hwhole part hsub).ends h₂

/-- A run upholds the law, however it ends. -/
theorem lawful_run : RunAct.Lawful project runId law (RunAct.run crew phases) := by
  have hunbind : RunAct.Lawful project runId law (do
      RunAct.lift (Act.unbindField "run_id")
      RunAct.lift (Act.unbindField "phase")) :=
    (hlaw.lawful_lift (Act.still_unbindField _)).bind fun _ ↦
      hlaw.lawful_lift (Act.still_unbindField _)
  unfold RunAct.run
  refine RunAct.lawful_get.bind fun b ↦ ?_
  refine (hlaw.lawful_lift (Act.still_bindField _ _)).bind fun _ ↦ ?_
  refine (hlaw.lawful_calmly (RunAct.calmly_log _ _ _)).bind fun _ ↦ ?_
  refine .bind ?_ fun _ ↦ RunAct.lawful_get.bind fun b' ↦ ?_
  · exact Keeps.andThenAlways upholds_trans
      (hlaw.lawful_execute _ fun _ ↦ List.mem_mergeSort.mp) hunbind
  · refine (hlaw.lawful_lift (Act.still_count _ _ _)).bind fun _ ↦ ?_
    refine (hlaw.lawful_lift (Act.still_ofExcept _)).bind fun _ ↦ ?_
    exact hlaw.lawful_calmly (RunAct.calmly_log _ _ _)

end Steps

end Upkeep

end Remedy
