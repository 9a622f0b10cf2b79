import Mathlib.Logic.Relation
import Remedy.Proofs.Quiet
import Remedy.Run.Execution

/-!
# The steps of a run

Whatever a run does, it does in steps of few kinds: the program touches its log, a fixer of the crew
does its work, files are recorded, the run is put back or checked when it is about to end, an attempt
is numbered, something other than a change is noted in the account, the context is amended in what
has nothing to do with its state, or the run moves to a state that is next to the present one
(`Bench.Step`). That every run consists of such steps, however it ends, is `RunAct.stepwise_run`; so
what each step preserves holds throughout every run.

Most of a run neither records files nor notes that they could not be recorded, nor does it begin
phases. Which of these things the steps of a part may do is said by its scope (`Bench.Scope`).

How a part of a run ends follows from how its own parts end, by a rule for each: for a snapshot
(`RunAct.ends_takeSnapshot_of`), a phase (`RunAct.ends_runPhase_of`), the files of all phases
(`RunAct.ends_recordAll_of`), the phases one after the other (`RunAct.ends_runPhases_of`) and a run as
a whole (`RunAct.ends_run_of`).
-/

set_option autoImplicit false

namespace Remedy

def Occurrence.isChange : Occurrence → Bool
  | .change => true
  | _ => false

def Occurrence.isRefusal : Occurrence → Bool
  | .refusal _ => true
  | _ => false

def Occurrence.isStart : Occurrence → Bool
  | .start _ => true
  | _ => false

/-- The context belongs to the same run, which has not moved. -/
structure RunContext.Amends (c c₀ : RunContext) : Prop where
  runId : c.runId = c₀.runId
  state : c.state = c₀.state
  transitions : c.transitions = c₀.transitions

/-- The bench of a run that has not begun. -/
def Bench.fresh (world : World) (store : Store) (runId : String) (project : Route)
    (config : RunConfig) : Bench :=
  ⟨world, store, { runId := runId, project := project, config := config }, 0⟩

/-- The move to a state. -/
def Bench.moved (b : Bench) (target : RunState) (phase : Option String) (reason : String) : Bench :=
  b.change fun c ↦ { c with
    state := target
    transitions := c.transitions ++ [⟨c.state, target, phase, reason⟩] }

/-- What there is once the result is entered of a phase whose files could not be recorded. -/
def Bench.unrecorded (b : Bench) (phase : Phase) (fault : Fault) : Bench :=
  let message := s!"Backup failed for {phase.name}: {fault.message}"
  ((b.note (.refusal (some phase))).change fun c ↦ c.record
    { phase := phase.name, success := false, message := message, executionTime := seconds 0,
      attempts := 0, rolledBack := false, details := [] }).change
    fun c ↦ { c with error := some message }

/-- What there is once it is said that nothing can be put back. -/
def Bench.unbacked (b : Bench) : Bench :=
  b.change (·.warn "Backups are disabled: failures cannot be rolled back")

/-- What there is once the files of all phases could not be recorded. -/
def Bench.refused (b : Bench) (fault : Fault) : Bench :=
  (b.note (.refusal none)).change
    fun c ↦ { c with error := some s!"Backup failed: {fault.message}" }

/-- What there is once a snapshot is kept. -/
def Bench.keeping (b : Bench) (w : World) (store : Store) (snapshot : Snapshot) : Bench :=
  ({ b with world := w, store := store } : Bench).change (·.keep snapshot)

/-- What there is once what is logged is marked with a field. -/
def Bench.bound (b : Bench) (name : String) (value : Json) : Bench :=
  { b with world := { b.world with journal := b.world.journal.bind name value } }

/-- What there is once what is logged is not marked with a field any more. -/
def Bench.unbound (b : Bench) (name : String) : Bench :=
  { b with world := { b.world with journal := b.world.journal.unbind name } }

/-- What there is once a phase has begun. -/
def Bench.entered (b : Bench) (phase : Phase) : Bench :=
  (b.note (.start phase)).bound "phase" phase.name

/-- What there is once all phases are carried out. -/
def Bench.left (b : Bench) : Bench := (b.unbound "run_id").unbound "phase"

/-- One thing holds if the run is over, and another if it goes on. -/
structure Bench.Forks (b : Bench) (ended onward : Prop) : Prop where
  ended : b.context.isFinished = true → ended
  onward : b.context.isFinished = false → onward

theorem Bench.Forks.of_ended {b : Bench} {ended onward : Prop}
    (hfinished : b.context.isFinished = true) (h : ended) : b.Forks ended onward :=
  ⟨fun _ ↦ h, fun hgoing ↦ absurd (hgoing.symm.trans hfinished) Bool.false_ne_true⟩

theorem Bench.Forks.of_onward {b : Bench} {ended onward : Prop}
    (hgoing : b.context.isFinished = false) (h : onward) : b.Forks ended onward :=
  ⟨fun hfinished ↦ absurd (hgoing.symm.trans hfinished) Bool.false_ne_true, fun _ ↦ h⟩

/-- A run that is executing can be ended then. -/
theorem Bench.next_of_unrecorded {b : Bench} (hstate : b.context.state = .executing) (phase : Phase)
    (fault : Fault) : (if b.context.mutated then RunState.failed else .aborted) ∈
      (b.unrecorded phase fault).context.state.next := by
  show _ ∈ b.context.state.next
  rw [hstate]
  split <;> decide

/-- Files are put back or checked, so that the run is about to end. -/
def RunState.IsSettling (s : RunState) : Prop := s = .rollingBack ∨ s = .validating

/-- What a part of a run may do: record files or note that they could not be recorded, and begin
phases. -/
structure Bench.Scope where
  records : Prop
  begins : Prop

/-- Most parts of a run do neither. -/
def Bench.Scope.modest : Scope := ⟨False, False⟩

/-- One step of a run with a crew, in a part of that scope. -/
inductive Bench.Step (crew : Crew) (scope : Bench.Scope) : Bench → Bench → Prop
  | still (b : Bench) {w : World} (hstill : b.world.Still w) :
      Step crew scope b { b with world := w }
  | work (b : Bench) {name : String} {fixer : Fixer} (request : FixRequest)
      (hfixer : crew.registry.get name = .ok fixer) :
      Step crew scope b
        { b with world := { b.world with toSite := (fixer.fix request b.world.toSite).2 } }
  | settle (b : Bench) (w : World) (hstate : b.context.state.IsSettling) :
      Step crew scope b { b with world := w }
  | record (b : Bench) (w : World) (s : Store) (hrecords : scope.records) :
      Step crew scope b { b with world := w, store := s }
  | number (b : Bench) (n : Nat) :
      Step crew scope b { b with progress := { b.progress with attempt := n } }
  | note (b : Bench) {o : Occurrence} (hchange : o.isChange = false)
      (hrefusal : o.isRefusal = true → scope.records) (hstart : o.isStart = true → scope.begins) :
      Step crew scope b (b.note o)
  | amend (b : Bench) {f : RunContext → RunContext} (hamends : (f b.context).Amends b.context) :
      Step crew scope b (b.change f)
  | move (b : Bench) (target : RunState) (phase : Option String) (reason : String)
      (hnext : target ∈ b.context.state.next) :
      Step crew scope b (b.moved target phase reason)

theorem Registry.mem_of_find? {registry : Registry} {cause : RootCause} {fixer : Fixer}
    (h : registry.find? cause = some fixer) : (cause, fixer) ∈ registry := by
  induction registry with
  | nil => cases h
  | cons entry rest ih =>
    unfold find? at h
    split at h
    · rename_i hcause
      cases h
      rw [← hcause]
      exact List.mem_cons_self
    · exact List.mem_cons_of_mem _ (ih h)

theorem Registry.mem_of_get {registry : Registry} {ref : String} {fixer : Fixer}
    (h : registry.get ref = .ok fixer) : ∃ cause, (cause, fixer) ∈ registry := by
  unfold get at h
  split at h
  · cases h
  · split at h
    · rename_i hfound
      cases h
      exact ⟨_, mem_of_find? hfound⟩
    · cases h

theorem RunState.not_mem_next_self (s : RunState) : s ∉ s.next := by
  cases s <;> decide

namespace RunAct

open Relation

/-- Wherever the action is begun, it gets by steps to where it ends. -/
def Stepwise (crew : Crew) (scope : Bench.Scope) {α : Type} (act : RunAct α) : Prop :=
  Keeps (ReflTransGen (Bench.Step crew scope)) act

variable {crew : Crew} {scope : Bench.Scope}

section Parts

variable {α β : Type}

theorem stepwise_pure (a : α) : Stepwise crew scope (pure a) :=
  keeps_pure (fun _ ↦ .refl) a

theorem stepwise_throw (e : Fault) : Stepwise crew scope (throw e : RunAct α) :=
  keeps_throw (fun _ ↦ .refl) e

theorem stepwise_get : Stepwise crew scope get :=
  keeps_get fun _ ↦ .refl

theorem Stepwise.bind {act : RunAct α} {f : α → RunAct β} (h : Stepwise crew scope act)
    (hnext : ∀ a, Stepwise crew scope (f a)) : Stepwise crew scope (act >>= f) :=
  Keeps.bind (fun _ _ _ ↦ .trans) h hnext

theorem Stepwise.attempt {act : RunAct α} (h : Stepwise crew scope act) :
    Stepwise crew scope (Remedy.attempt act) :=
  Keeps.attempt h

theorem Stepwise.andThenAlways {act : RunAct α} {last : RunAct Unit}
    (h : Stepwise crew scope act) (hlast : Stepwise crew scope last) :
    Stepwise crew scope (Remedy.andThenAlways act last) :=
  Keeps.andThenAlways (fun _ _ _ ↦ .trans) h hlast

/-- Where it is begun, the action gets by steps to where it ends. -/
theorem Stepwise.bindFrom {act : RunAct α} {f : α → RunAct β} {b : Bench} {Q : Bench → Prop}
    (h : Ends act b (fun _ b' ↦ ReflTransGen (Bench.Step crew scope) b b' ∧ Q b')
      fun _ b' ↦ ReflTransGen (Bench.Step crew scope) b b')
    (hnext : ∀ a b', Q b' → Ends (f a) b'
      (fun _ b'' ↦ ReflTransGen (Bench.Step crew scope) b' b'')
      fun _ b'' ↦ ReflTransGen (Bench.Step crew scope) b' b'') :
    Ends (act >>= f) b (fun _ b' ↦ ReflTransGen (Bench.Step crew scope) b b')
      fun _ b' ↦ ReflTransGen (Bench.Step crew scope) b b' := by
  refine h.bind fun a b' ⟨hsteps, hb'⟩ ↦ ?_
  exact (hnext a b' hb').mono (fun _ _ h ↦ hsteps.trans h) fun _ _ h ↦ hsteps.trans h

end Parts

section Specs

variable {α : Type} {b : Bench}

theorem ends_lift {act : Act α} {ok : α → Bench → Prop} {bad : Fault → Bench → Prop} :
    Ends (lift act) b ok bad ↔ Ends act b.world (fun a w ↦ ok a { b with world := w })
      fun e w ↦ bad e { b with world := w } := by
  unfold Ends lift
  dsimp only
  rcases act b.world with ⟨_ | _, w⟩ <;> rfl

theorem ends_update {f : RunContext → RunContext} {ok : Unit → Bench → Prop}
    {bad : Fault → Bench → Prop} : Ends (update f) b ok bad ↔ ok () (b.change f) :=
  Iff.rfl

theorem ends_note {o : Occurrence} {ok : Unit → Bench → Prop} {bad : Fault → Bench → Prop} :
    Ends (note o) b ok bad ↔ ok () (b.note o) :=
  Iff.rfl

end Specs

section Parts

variable {α β : Type}

theorem stepwise_lift {act : Act α} (h : act.Still) : Stepwise crew scope (lift act) :=
  fun b ↦ ends_lift.mpr ((h b.world).mono (fun _ _ h ↦ .single (.still b h))
    fun _ _ h ↦ .single (.still b h))

theorem stepwise_note {o : Occurrence} (h : o.isChange = false)
    (hrefusal : o.isRefusal = true → scope.records) (hstart : o.isStart = true → scope.begins) :
    Stepwise crew scope (note o) :=
  keeps_modify fun b ↦ .single (.note b h hrefusal hstart)

theorem stepwise_update {f : RunContext → RunContext} (h : ∀ c, (f c).Amends c) :
    Stepwise crew scope (update f) :=
  keeps_modify fun b ↦ .single (.amend b (h _))

theorem stepwise_record (r : PhaseResult) : Stepwise crew scope (update (·.record r)) :=
  stepwise_update fun _ ↦ ⟨rfl, rfl, rfl⟩

theorem stepwise_warn (text : String) : Stepwise crew scope (update (·.warn text)) :=
  stepwise_update fun _ ↦ ⟨rfl, rfl, rfl⟩

theorem stepwise_fail (message : String) :
    Stepwise crew scope (update fun c ↦ { c with error := some message }) :=
  stepwise_update fun _ ↦ ⟨rfl, rfl, rfl⟩

theorem stepwise_log (level : LogLevel) (name : String) (fields : List (String × Json)) :
    Stepwise crew scope (log level name fields) :=
  stepwise_lift (Act.still_log _ _ _)

theorem stepwise_count (tally : Meter.Tally) (amount : Number) (cause : RootCause) :
    Stepwise crew scope (count tally amount cause) :=
  stepwise_lift (Act.still_count _ _ _)

end Parts

/-- A move that is allowed is logged. -/
theorem ends_moveTo_logged {b : Bench} {target : RunState} {phase : Option String}
    {reason : String} {ok : Unit → Bench → Prop} {bad : Fault → Bench → Prop}
    (hnext : target ∈ b.context.state.next)
    (hlog : ∀ level name fields,
      Ends (log level name fields) (b.moved target phase reason) ok bad) :
    Ends (moveTo target phase reason) b ok bad := by
  have hne : b.context.state ≠ target := by
    intro hsame
    rw [hsame] at hnext
    exact target.not_mem_next_self hnext
  unfold moveTo
  refine ends_bind.mpr (ends_get.mpr ?_)
  dsimp only
  rw [if_neg hne]
  refine ends_bind.mpr (ends_get.mpr ?_)
  simp only [RunContext.move, if_neg hne, List.contains_iff_mem.mpr hnext, if_true]
  exact ends_bind.mpr (ends_update.mpr (hlog _ _ _))

theorem ends_moveTo {b : Bench} {target : RunState} {phase : Option String} {reason : String}
    {ok : Unit → Bench → Prop} {bad : Fault → Bench → Prop}
    (hsame : b.context.state = target → ok () b)
    (hmove : target ∈ b.context.state.next → ∀ w, b.world.Still w → ok ()
      ⟨w, b.store, (b.moved target phase reason).context, (b.moved target phase reason).progress⟩)
    (hbad : b.context.state ≠ target → target ∉ b.context.state.next →
      bad (.transition b.context.state target) b) :
    Ends (moveTo target phase reason) b ok bad := by
  by_cases hnext : target ∈ b.context.state.next
  · exact ends_moveTo_logged hnext fun _ _ _ ↦ ends_lift.mpr (Act.ends_log (hmove hnext))
  unfold moveTo
  refine ends_bind.mpr (ends_get.mpr ?_)
  dsimp only
  split
  · exact hsame ‹_›
  · rename_i hne
    refine ends_bind.mpr (ends_get.mpr ?_)
    simp only [RunContext.move, if_neg hne, List.contains_iff_mem, hnext, if_false]
    exact hbad hne hnext

theorem ends_moveTo_of_next {b : Bench} {target : RunState} {phase : Option String}
    {reason : String} {ok : Unit → Bench → Prop} {bad : Fault → Bench → Prop}
    (hnext : target ∈ b.context.state.next)
    (hmove : ∀ w, b.world.Still w → ok ()
      ⟨w, b.store, (b.moved target phase reason).context, (b.moved target phase reason).progress⟩) :
    Ends (moveTo target phase reason) b ok bad := by
  refine ends_moveTo (fun hsame ↦ ?_) (fun _ ↦ hmove) fun _ hnot ↦ absurd hnext hnot
  rw [hsame] at hnext
  exact absurd hnext target.not_mem_next_self

theorem ends_settleUnrecorded_iff {b : Bench} {phase : Phase} {fault : Fault}
    {ok : Unit → Bench → Prop} {bad : Fault → Bench → Prop} :
    Ends (settleUnrecorded phase fault) b ok bad ↔
      Ends (moveTo (if b.context.mutated then .failed else .aborted) (some phase.name)
        s!"Backup failed for {phase.name}: {fault.message}") (b.unrecorded phase fault) ok bad :=
  Iff.rfl

theorem ends_moveStepwise (target : RunState) (phase : Option String) (reason : String)
    (b : Bench) :
    Ends (moveTo target phase reason) b
      (fun _ b' ↦ ReflTransGen (Bench.Step crew scope) b b' ∧ b'.context.state = target)
      fun _ b' ↦ ReflTransGen (Bench.Step crew scope) b b' := by
  refine ends_moveTo (fun hsame ↦ ⟨.refl, hsame⟩) (fun hnext w hstill ↦ ⟨?_, rfl⟩) fun _ _ ↦ .refl
  exact (ReflTransGen.single (.move b target phase reason hnext)).tail
    (.still (b.moved target phase reason) hstill)

theorem stepwise_moveTo (target : RunState) (phase : Option String) (reason : String) :
    Stepwise crew scope (moveTo target phase reason) :=
  fun b ↦ (ends_moveStepwise target phase reason b).mono (fun _ _ h ↦ h.1) fun _ _ h ↦ h

/-- What is done to the world while the run is about to end. -/
theorem ends_liftSettling {α : Type} (act : Act α) {b : Bench} (h : b.context.state.IsSettling) :
    Ends (lift act) b (fun _ b' ↦ ReflTransGen (Bench.Step crew scope) b b')
      fun _ b' ↦ ReflTransGen (Bench.Step crew scope) b b' :=
  ends_lift.mpr (ends_of_forall (fun _ w ↦ .single (.settle b w h))
    fun _ w ↦ .single (.settle b w h))

theorem stepwise_filesOf (phase : Phase) : Stepwise crew scope (filesOf phase) := by
  unfold filesOf
  have hresolve : ∀ p, Stepwise crew scope (resolve p) := fun p ↦ keeps_iff.mpr fun b ↦ .refl
  have hfiles : Stepwise crew scope (phase.files.mapM resolve) :=
    keeps_mapM (fun _ ↦ .refl) (fun _ _ _ ↦ .trans) hresolve _
  exact hfiles.bind fun _ ↦ stepwise_pure _

section Snapshots

variable {key : String} {files : List Route} {phase : Phase} {whole : Option Snapshot} {b : Bench}
  {ok : Snapshot → Bench → Prop} {bad : Fault → Bench → Prop}

theorem ends_takeSnapshot_of
    (h : Ends Act.giveWay b.world
      (fun _ w ↦ Ends (b.store.snapshot b.context.runId key (files.map Route.path)) w
        (fun taken w' ↦ ok taken.1 (b.keeping w' taken.2 taken.1))
        fun e w' ↦ bad e { b with world := w' })
      fun e w ↦ bad e { b with world := w }) :
    Ends (takeSnapshot key files) b ok bad := by
  unfold takeSnapshot
  refine ends_bind.mpr (ends_get.mpr (ends_bind.mpr (ends_lift.mpr (h.mono ?_ fun _ _ h ↦ h))))
  intro _ w h
  refine ends_bind.mpr (ends_lift.mpr (h.mono (fun taken w' h ↦ ?_) fun _ _ h ↦ h))
  exact ends_bind.mpr (ends_modify.mpr (ends_bind.mpr (ends_update.mpr (ends_pure.mpr h))))

/-- The files of a phase are recorded by a part of the snapshot of all files, as long as no fixer has
been called and that snapshot has them, or else by a snapshot of their own. -/
theorem ends_phaseSnapshot_of
    (hrefused : ∀ all e, whole = some all → all.covers files = true →
      all.restrict files phase.fixerRef = .error e → bad e b)
    (hpart : ∀ all part, whole = some all → b.context.mutated = false →
      all.restrict files phase.fixerRef = .ok part →
      Ends (b.store.record part) b.world (fun store w ↦ ok part (b.keeping w store part))
        fun e w ↦ bad e { b with world := w })
    (htaken : (∀ all, whole = some all → b.context.mutated = false → all.covers files = false) →
      Ends (takeSnapshot phase.fixerRef files) b ok bad) :
    Ends (phaseSnapshot phase files whole) b ok bad := by
  unfold phaseSnapshot
  refine ends_bind.mpr (ends_get.mpr ?_)
  cases whole with
  | none => exact htaken nofun
  | some all =>
    dsimp only
    split
    · rename_i hreuse
      obtain ⟨hunmutated, hcovers⟩ := Bool.and_eq_true_iff.mp hreuse
      split
      · rename_i e he
        exact hrefused all e rfl hcovers he
      · rename_i part hrestrict
        refine ends_bind.mpr (ends_lift.mpr ((hpart all part rfl (by simpa using hunmutated)
          hrestrict).mono (fun store w h ↦ ?_) fun _ _ h ↦ h))
        exact ends_bind.mpr (ends_modify.mpr (ends_bind.mpr (ends_update.mpr (ends_pure.mpr h))))
    · rename_i hother
      refine htaken ?_
      rintro _ ⟨⟩ hmutated
      simpa [hmutated] using hother

/-- Keeping a snapshot is a step. -/
theorem keeps_stepwise (hrecords : scope.records) (w : World) (store : Store) (snapshot : Snapshot) :
    ReflTransGen (Bench.Step crew scope) b (b.keeping w store snapshot) :=
  (ReflTransGen.single (.record b w store hrecords)).tail (.amend _ ⟨rfl, rfl, rfl⟩)

end Snapshots

theorem stepwise_takeSnapshot (hrecords : scope.records) (key : String) (files : List Route) :
    Stepwise crew scope (takeSnapshot key files) := fun b ↦
  ends_takeSnapshot_of (ends_of_forall
    (fun _ _ ↦ ends_of_forall (fun _ _ ↦ keeps_stepwise hrecords _ _ _)
      fun _ w ↦ .single (.record b w b.store hrecords))
    fun _ w ↦ .single (.record b w b.store hrecords))

theorem stepwise_phaseSnapshot (hrecords : scope.records) (phase : Phase) (files : List Route)
    (whole : Option Snapshot) : Stepwise crew scope (phaseSnapshot phase files whole) := fun b ↦
  ends_phaseSnapshot_of (fun _ _ _ _ _ ↦ .refl)
    (fun _ _ _ _ _ ↦ ends_of_forall (fun _ _ ↦ keeps_stepwise hrecords _ _ _)
      fun _ w ↦ .single (.record b w b.store hrecords))
    fun _ ↦ stepwise_takeSnapshot hrecords _ _ b

theorem stepwise_judge (phase : Phase) (number : Nat) (settled : Settled FixReply) :
    Stepwise crew scope (judge phase number settled) := by
  have hoverdue : ∀ text, Stepwise crew scope (judge.overdue phase number text) := fun text ↦
    (stepwise_count _ _ _).bind fun _ ↦ (stepwise_log _ _ _).bind fun _ ↦ stepwise_throw _
  unfold judge
  split
  · exact hoverdue _
  · exact stepwise_throw _
  · split
    · exact hoverdue _
    · exact (stepwise_log _ _ _).bind fun _ ↦ stepwise_throw _
  · split
    · exact stepwise_throw _
    · split
      · exact stepwise_pure _
      · exact (stepwise_log _ _ _).bind fun _ ↦ stepwise_throw _

theorem stepwise_callFixer {name : String} {fixer : Fixer}
    (hfixer : crew.registry.get name = .ok fixer) (phase : Phase) (files : List Route)
    (number : Nat) : Stepwise crew scope (callFixer fixer phase files number) := by
  have hmutate : Stepwise crew scope (update fun c ↦ { c with mutated := true }) :=
    stepwise_update fun _ ↦ ⟨rfl, rfl, rfl⟩
  have hcall : ∀ request, Stepwise crew scope (note (.call phase number request)) :=
    fun _ ↦ stepwise_note rfl nofun nofun
  have hrace : ∀ request timeout,
      Stepwise crew scope (lift (Act.race (fixer.fix request) timeout)) := by
    intro request timeout b
    have hsteps : ∀ {w}, ({ b.world with toSite := (fixer.fix request b.world.toSite).2 } :
        World).Still w → ReflTransGen (Bench.Step crew scope) b { b with world := w } :=
      fun hstill ↦ (ReflTransGen.single (.work b request hfixer)).tail (.still
        { b with world := { b.world with toSite := (fixer.fix request b.world.toSite).2 } } hstill)
    exact ends_lift.mpr ((Act.ends_race _ _ _).mono (fun _ _ ↦ hsteps) fun _ _ ↦ hsteps)
  unfold callFixer
  refine (stepwise_count _ _ _).bind fun _ ↦ (stepwise_log _ _ _).bind fun _ ↦ ?_
  refine hmutate.bind fun _ ↦ ?_
  split
  · exact stepwise_throw _
  · refine stepwise_get.bind fun b ↦ (hcall _).bind fun _ ↦ ?_
    exact (hrace _ _).bind fun settled ↦ stepwise_judge phase number settled

theorem stepwise_attemptPhase {name : String} {fixer : Fixer}
    (hfixer : crew.registry.get name = .ok fixer) (phase : Phase) (files : List Route)
    (number : Nat) : Stepwise crew scope (attemptPhase fixer phase files number) := by
  unfold attemptPhase
  have hnumber : Stepwise crew scope (modify fun b ↦
      { b with progress := { b.progress with attempt := number } }) :=
    keeps_modify fun b ↦ .single (.number b number)
  refine hnumber.bind fun _ ↦ ?_
  dsimp only
  split
  · exact (stepwise_moveTo _ _ _).bind fun _ ↦ stepwise_callFixer hfixer _ _ _
  · exact stepwise_callFixer hfixer _ _ _

theorem stepwise_recordFailure (phase : Phase) (message : String) (attempts : Nat)
    (elapsed : Number) (rolledBack : Bool) (details : List (String × Json)) :
    Stepwise crew scope (recordFailure phase message attempts elapsed rolledBack details) :=
  stepwise_record _

theorem stepwise_rollBack (phase : Phase) (snapshot : Snapshot) (message : String)
    (attempts : Nat) (elapsed : Number) :
    Stepwise crew scope (rollBack phase snapshot message attempts elapsed) := by
  unfold rollBack
  intro b
  refine Stepwise.bindFrom (ends_moveStepwise _ _ _ b) fun _ b hrollingBack ↦ ?_
  have hgiveWay : Ends (lift Act.giveWay) b
      (fun _ b' ↦ ReflTransGen (Bench.Step crew scope) b b' ∧
        b'.context.state = .rollingBack)
      fun _ b' ↦ ReflTransGen (Bench.Step crew scope) b b' :=
    ends_lift.mpr ((Act.still_giveWay _).mono
      (fun _ _ h ↦ ⟨.single (.still b h), hrollingBack⟩) fun _ _ h ↦ .single (.still b h))
  refine Stepwise.bindFrom hgiveWay fun _ b hrollingBack ↦ ?_
  refine Stepwise.bindFrom (Q := fun _ ↦ True) (ends_attempt.mpr
    ((ends_liftSettling _ (.inl hrollingBack)).mono (fun _ _ h ↦ ⟨h, trivial⟩)
      fun _ _ h ↦ ⟨h, trivial⟩)) fun outcome b _ ↦ ?_
  refine (?_ : Stepwise crew scope _) b
  split
  · refine (stepwise_fail _).bind fun _ ↦ (stepwise_recordFailure _ _ _ _ _ _).bind fun _ ↦ ?_
    exact stepwise_moveTo _ _ _
  · exact stepwise_throw _
  · refine (stepwise_count _ _ _).bind fun _ ↦ (stepwise_fail _).bind fun _ ↦ ?_
    exact (stepwise_recordFailure _ _ _ _ _ _).bind fun _ ↦ stepwise_moveTo _ _ _

theorem stepwise_settleFailure (phase : Phase) (snapshot : Option Snapshot) (message : String)
    (attempts : Nat) (elapsed : Number) :
    Stepwise crew scope (settleFailure phase snapshot message attempts elapsed) := by
  unfold settleFailure
  refine (stepwise_count _ _ _).bind fun _ ↦ (stepwise_count _ _ _).bind fun _ ↦ ?_
  refine (stepwise_log _ _ _).bind fun _ ↦ stepwise_get.bind fun b ↦ ?_
  dsimp only
  split
  · exact stepwise_rollBack _ _ _ _ _
  · refine (stepwise_recordFailure _ _ _ _ _ _).bind fun _ ↦ ?_
    split
    · refine (stepwise_update fun _ ↦ ⟨?_, ?_, ?_⟩).bind fun _ ↦ stepwise_moveTo _ _ _
      · rfl
      · rfl
      · rfl
    · exact stepwise_pure _

theorem stepwise_observeDuration (phase : Phase) (elapsed : Number) :
    Stepwise crew scope (observeDuration phase elapsed) :=
  stepwise_lift (Act.still_modify (fun _ ↦ rfl) (fun _ ↦ rfl) fun _ ↦ rfl)

theorem stepwise_settleSuccess (phase : Phase) (r : FixReport) (attempts : Nat)
    (elapsed : Number) : Stepwise crew scope (settleSuccess phase r attempts elapsed) := by
  unfold settleSuccess
  refine (stepwise_count _ _ _).bind fun _ ↦ (stepwise_observeDuration _ _).bind fun _ ↦ ?_
  refine (stepwise_count _ _ _).bind fun _ ↦ ?_
  dsimp only
  split
  · exact stepwise_throw _
  · exact (stepwise_record _).bind fun _ ↦ stepwise_log _ _ _

theorem stepwise_rehearse (phase : Phase) (files : List Route) :
    Stepwise crew scope (rehearse phase files) := by
  unfold rehearse
  exact (stepwise_record _).bind fun _ ↦ stepwise_log _ _ _

theorem stepwise_carryOut {name : String} {fixer : Fixer}
    (hfixer : crew.registry.get name = .ok fixer) (phase : Phase) (files : List Route)
    (snapshot : Option Snapshot) :
    Stepwise crew scope (carryOut phase files snapshot fixer) := by
  unfold carryOut
  refine stepwise_get.bind fun b ↦ stepwise_get.bind fun b' ↦ ?_
  have hattempts : ∀ p : RetryPolicy, Stepwise crew scope
      (retryFrom p (attemptPhase fixer phase files)
        (fun number fault wait ↦ lift (Act.rest number fault wait)) phase.retries 1) := fun p ↦
    keeps_retryFrom (fun _ _ _ ↦ .trans) (fun _ ↦ .refl)
      (stepwise_attemptPhase hfixer phase files)
      (fun _ _ _ ↦ stepwise_lift (Act.still_rest _ _ _)) _ _
  refine (hattempts _).attempt.bind fun outcome ↦ ?_
  refine (stepwise_lift (Act.still_since _)).bind fun elapsed ↦ ?_
  refine stepwise_get.bind fun b ↦ ?_
  dsimp only
  split
  · exact stepwise_settleSuccess _ _ _ _
  · split
    · exact (stepwise_observeDuration _ _).bind fun _ ↦ stepwise_settleFailure _ _ _ _ _
    · exact stepwise_throw _

theorem stepwise_settleUnrecorded (hrecords : scope.records) (phase : Phase) (fault : Fault) :
    Stepwise crew scope (settleUnrecorded phase fault) := by
  unfold settleUnrecorded
  refine (stepwise_note (o := .refusal _) rfl (fun _ ↦ hrecords) nofun).bind fun _ ↦ ?_
  refine (stepwise_recordFailure _ _ _ _ _ _).bind fun _ ↦ ?_
  exact (stepwise_fail _).bind fun _ ↦ stepwise_get.bind fun _ ↦ stepwise_moveTo _ _ _

theorem stepwise_remedy (phase : Phase) (files : List Route)
    (snapshot : Option Snapshot) : Stepwise crew scope (remedy crew phase files snapshot) := by
  unfold remedy
  split
  · exact (stepwise_log _ _ _).bind fun _ ↦ stepwise_settleFailure _ _ _ _ _
  · exact stepwise_carryOut ‹_› _ _ _

/-- How a phase goes on once its files are known, by what the settings ask for. -/
structure Proceeds (crew : Crew) (whole : Option Snapshot) (phase : Phase) (files : List Route)
    (ok : Unit → Bench → Prop) (bad : Fault → Bench → Prop) (b : Bench) : Prop where
  rehearsed : b.context.config.dryRun = true → Ends (rehearse phase files) b ok bad
  recorded : b.context.config.dryRun = false → b.context.config.backupEnabled = true →
    Ends (phaseSnapshot phase files whole) b
      (fun s b' ↦ Ends (remedy crew phase files (some s)) b' ok bad)
      fun e b' ↦ (e.isA .backup = true → Ends (settleUnrecorded phase e) b' ok bad) ∧
        (¬ e.isA .backup = true → bad e b')
  unrecorded : b.context.config.dryRun = false → b.context.config.backupEnabled = false →
    Ends (remedy crew phase files none) b ok bad

theorem ends_runPhase_of {whole : Option Snapshot} {phase : Phase} {b : Bench}
    {ok : Unit → Bench → Prop} {bad : Fault → Bench → Prop}
    (h : Ends (filesOf phase) b
      (fun files b' ↦ ∀ fields, Ends (log .info "phase_started" fields) b'
        (fun _ ↦ Proceeds crew whole phase files ok bad) bad)
      bad) :
    Ends (runPhase crew whole phase) b ok bad := by
  unfold runPhase
  refine ends_bind.mpr (h.mono (fun files b₁ h ↦ ?_) fun _ _ h ↦ h)
  refine ends_bind.mpr ((h _).mono (fun _ b₂ h ↦ ends_bind.mpr (ends_get.mpr ?_)) fun _ _ h ↦ h)
  dsimp only
  split
  · exact h.rehearsed ‹_›
  rename_i hdry
  have hdry := Bool.eq_false_iff.mpr hdry
  split
  · refine ends_bind.mpr (ends_attempt.mpr ((h.recorded hdry ‹_›).mono (fun _ _ h ↦ h) ?_))
    intro e b₃ h
    dsimp only
    split
    · exact h.1 ‹_›
    · exact ends_throw.mpr (h.2 ‹_›)
  · exact h.unrecorded hdry (Bool.eq_false_iff.mpr ‹_›)

theorem stepwise_runPhase (hrecords : scope.records) (whole : Option Snapshot) (phase : Phase) :
    Stepwise crew scope (runPhase crew whole phase) := by
  unfold runPhase
  refine (stepwise_filesOf phase).bind fun files ↦ (stepwise_log _ _ _).bind fun _ ↦ ?_
  refine stepwise_get.bind fun b ↦ ?_
  dsimp only
  split
  · exact stepwise_rehearse _ _
  · split
    · refine (stepwise_phaseSnapshot hrecords _ _ _).attempt.bind fun outcome ↦ ?_
      split
      · exact stepwise_remedy _ _ _
      · split
        · exact stepwise_settleUnrecorded hrecords _ _
        · exact stepwise_throw _
    · exact stepwise_remedy _ _ _

theorem stepwise_runValidation : Stepwise crew scope (runValidation crew) := by
  have hvalidation : ∀ summary,
      Stepwise crew scope (update fun c ↦ { c with validation := some summary }) :=
    fun _ ↦ stepwise_update fun _ ↦ ⟨rfl, rfl, rfl⟩
  unfold runValidation
  refine stepwise_get.bind fun b ↦ ?_
  dsimp only
  split
  · split
    · exact stepwise_warn _
    · intro b
      refine Stepwise.bindFrom (ends_moveStepwise _ _ _ b) fun _ b hvalidating ↦ ?_
      refine Stepwise.bindFrom (Q := fun _ ↦ True) ((ends_liftSettling _ (.inr hvalidating)).mono
        (fun _ _ h ↦ ⟨h, trivial⟩) fun _ _ h ↦ h) fun summary b _ ↦ hvalidation summary b
  · exact stepwise_pure _

theorem stepwise_conclude : Stepwise crew scope conclude := by
  unfold conclude
  refine stepwise_get.bind fun b ↦ ?_
  dsimp only
  split
  · exact stepwise_moveTo _ _ _
  · split
    · exact (stepwise_warn _).bind fun _ ↦ stepwise_moveTo _ _ _
    · exact (stepwise_fail _).bind fun _ ↦ stepwise_moveTo _ _ _

/-- How the files of all phases are recorded, by what the settings ask for. -/
structure Records (phases : List Phase) (ok : Option Snapshot → Bench → Prop)
    (bad : Fault → Bench → Prop) (b : Bench) : Prop where
  idle : phases = [] ∨ b.context.config.dryRun = true → ok none b
  unbacked : b.context.config.backupEnabled = false →
    Ends (log .warning "backups_disabled" []) b.unbacked (fun _ ↦ ok none) bad
  recorded : phases ≠ [] → b.context.config.dryRun = false →
    b.context.config.backupEnabled = true → Ends (phases.mapM filesOf) b
      (fun files b' ↦ Ends (takeSnapshot runKey files.flatten) b' (fun s ↦ ok (some s))
        fun e b'' ↦ (e.isA .backup = true →
          Ends (moveTo .aborted none s!"Backup failed: {e.message}") (b''.refused e)
            (fun _ ↦ ok none) bad) ∧
          (¬ e.isA .backup = true → bad e b''))
      bad

theorem ends_recordAll_of {phases : List Phase} {b : Bench} {ok : Option Snapshot → Bench → Prop}
    {bad : Fault → Bench → Prop} (h : Records phases ok bad b) :
    Ends (recordAll phases) b ok bad := by
  unfold recordAll
  refine ends_bind.mpr (ends_get.mpr ?_)
  dsimp only
  split
  · rename_i hidle
    rw [Bool.or_eq_true, List.isEmpty_iff] at hidle
    exact ends_pure.mpr (h.idle hidle)
  rename_i hasked
  rw [Bool.or_eq_true, List.isEmpty_iff, not_or] at hasked
  split
  · rename_i hunbacked
    refine ends_bind.mpr (ends_update.mpr (ends_bind.mpr ?_))
    exact (h.unbacked (by simpa using hunbacked)).mono (fun _ _ h ↦ ends_pure.mpr h) fun _ _ h ↦ h
  rename_i hbacked
  refine ends_bind.mpr ((h.recorded hasked.1 (Bool.eq_false_iff.mpr hasked.2)
    (by simpa using hbacked)).mono (fun files b₁ h ↦ ?_) fun _ _ h ↦ h)
  refine ends_bind.mpr (ends_attempt.mpr (h.mono (fun _ _ h ↦ ends_pure.mpr h) fun e b₂ h ↦ ?_))
  refine Ends.guard (fun hnot ↦ h.2 (by simpa using hnot)) fun hbackup ↦ ?_
  refine ends_bind.mpr (ends_note.mpr (ends_bind.mpr (ends_update.mpr (ends_bind.mpr ?_))))
  exact (h.1 (by simpa using hbackup)).mono (fun _ _ h ↦ ends_pure.mpr h) fun _ _ h ↦ h

theorem stepwise_recordAll (hrecords : scope.records) (phases : List Phase) :
    Stepwise crew scope (recordAll phases) := by
  unfold recordAll
  refine stepwise_get.bind fun b ↦ ?_
  dsimp only
  split
  · exact stepwise_pure _
  · split
    · exact (stepwise_warn _).bind fun _ ↦ (stepwise_log _ _ _).bind fun _ ↦ stepwise_pure _
    · have hfiles : Stepwise crew scope (phases.mapM filesOf) :=
        keeps_mapM (fun _ ↦ .refl) (fun _ _ _ ↦ .trans) stepwise_filesOf _
      refine hfiles.bind fun files ↦ (stepwise_takeSnapshot hrecords _ _).attempt.bind fun outcome ↦ ?_
      split
      · exact stepwise_pure _
      · split
        · exact stepwise_throw _
        · refine (stepwise_note (o := .refusal _) rfl (fun _ ↦ hrecords) nofun).bind fun _ ↦ ?_
          refine (stepwise_fail _).bind fun _ ↦ ?_
          exact (stepwise_moveTo _ _ _).bind fun _ ↦ stepwise_pure _

/-- Phases are carried out one after the other, as long as the run goes on. What holds before each
of them, and of those that are left over, is shown once for any of them. -/
theorem ends_runPhases_of {whole : Option Snapshot} {P : List Phase → Bench → Prop}
    {ok : Unit → Bench → Prop} {bad : Fault → Bench → Prop}
    (hlast : ∀ b, P [] b → Ends (do runValidation crew; conclude) b ok bad)
    (hphase : ∀ phase rest b, P (phase :: rest) b →
      Ends (moveTo .executing (some phase.name) "") b
        (fun _ b' ↦ Ends (runPhase crew whole phase) (b'.entered phase)
          (fun _ b'' ↦ b''.Forks (ok () (b''.unbound "phase")) (P rest (b''.unbound "phase")))
          fun e b'' ↦ bad e (b''.unbound "phase"))
        bad)
    {phases : List Phase} {b : Bench} (h : P phases b) :
    Ends (runPhases crew whole phases) b ok bad := by
  induction phases generalizing b with
  | nil => exact hlast _ h
  | cons phase rest ih =>
    unfold runPhases
    refine ends_bind.mpr ((hphase _ _ _ h).mono (fun _ b₁ hcarried ↦ ?_) fun _ _ h ↦ h)
    refine ends_bind.mpr (ends_note.mpr (ends_bind.mpr (ends_lift.mpr (ends_modify.mpr ?_))))
    refine ends_bind.mpr (Ends.andThenAlways (hcarried.mono (fun _ b₂ h₂ ↦ ?_) fun _ _ h ↦ h))
    refine ends_lift.mpr (ends_modify.mpr (ends_bind.mpr (ends_get.mpr ?_)))
    split
    · exact ends_pure.mpr (h₂.ended ‹_›)
    · exact ih (h₂.onward (Bool.eq_false_iff.mpr ‹_›))

/-- The files of all phases are recorded before any of them is carried out. -/
theorem ends_execute_of {phases : List Phase} {b : Bench} {ok : Unit → Bench → Prop}
    {bad : Fault → Bench → Prop}
    (h : Ends (moveTo .backingUp none "") b
      (fun _ b' ↦ Ends (recordAll phases) b'
        (fun whole b'' ↦ b''.Forks (ok () b'') (Ends (runPhases crew whole phases) b'' ok bad)) bad)
      bad) :
    Ends (execute crew phases) b ok bad := by
  unfold execute
  refine ends_bind.mpr (h.mono (fun _ b₁ h ↦ ?_) fun _ _ h ↦ h)
  refine ends_bind.mpr (h.mono (fun whole b₂ h ↦ ends_bind.mpr (ends_get.mpr ?_)) fun _ _ h ↦ h)
  split
  · exact ends_pure.mpr (h.ended ‹_›)
  · exact h.onward (Bool.eq_false_iff.mpr ‹_›)

/-- A run carries out the phases in order of priority, and then counts and logs what has come of
it. -/
theorem ends_run_of {phases : List Phase} {b : Bench} {ok : Unit → Bench → Prop}
    {bad : Fault → Bench → Prop}
    (h : ∀ fields, Ends (log .info "run_starting" fields) (b.bound "run_id" b.context.runId)
      (fun _ b₁ ↦ Ends (execute crew (phases.mergeSort fun p q ↦ p.priority ≤ q.priority)) b₁
        (fun _ b₂ ↦
          Ends (lift (Act.count .runsFinished 1 [("state", b₂.context.state.name)])) b₂.left
            (fun _ b₃ ↦ (∀ e, b₂.context.fixedCount = .error e → bad e b₃) ∧
              ∀ fixed, b₂.context.fixedCount = .ok fixed → ∀ fields,
                Ends (log .info "run_finished" fields) b₃ ok bad)
            bad)
        fun e b₂ ↦ bad e b₂.left)
      bad) :
    Ends (run crew phases) b ok bad := by
  unfold run
  refine ends_bind.mpr (ends_get.mpr (ends_bind.mpr (ends_lift.mpr (ends_modify.mpr ?_))))
  refine ends_bind.mpr ((h _).mono (fun _ b₁ h ↦ ?_) fun _ _ h ↦ h)
  refine ends_bind.mpr (Ends.andThenAlways (h.mono (fun _ b₂ h ↦ ?_) fun _ _ h ↦ h))
  refine ends_bind.mpr (ends_lift.mpr (ends_modify.mpr (ends_lift.mpr (ends_modify.mpr ?_))))
  refine ends_bind.mpr (ends_get.mpr ?_)
  refine ends_bind.mpr (h.mono (fun _ b₃ h ↦ ends_bind.mpr (ends_lift.mpr ?_)) fun _ _ h ↦ h)
  refine ends_ask.mono ?_ ?_
  · rintro fixed _ ⟨rfl, hfixed⟩
    exact h.2 fixed hfixed _
  · rintro e _ ⟨rfl, hfixed⟩
    exact h.1 e hfixed

theorem stepwise_runPhases (hrecords : scope.records) (hbegins : scope.begins)
    (whole : Option Snapshot) (phases : List Phase) :
    Stepwise crew scope (runPhases crew whole phases) := by
  induction phases with
  | nil => exact stepwise_runValidation.bind fun _ ↦ stepwise_conclude
  | cons phase rest ih =>
    unfold runPhases
    refine (stepwise_moveTo _ _ _).bind fun _ ↦ ?_
    refine (stepwise_note (o := .start _) rfl nofun fun _ ↦ hbegins).bind fun _ ↦ ?_
    refine (stepwise_lift (Act.still_bindField _ _)).bind fun _ ↦ ?_
    refine ((stepwise_runPhase hrecords _ _).andThenAlways
      (stepwise_lift (Act.still_unbindField _))).bind fun _ ↦ ?_
    refine stepwise_get.bind fun b ↦ ?_
    split
    · exact stepwise_pure _
    · exact ih

theorem stepwise_execute (hrecords : scope.records) (hbegins : scope.begins)
    (phases : List Phase) : Stepwise crew scope (execute crew phases) := by
  unfold execute
  refine (stepwise_moveTo _ _ _).bind fun _ ↦ (stepwise_recordAll hrecords _).bind fun whole ↦ ?_
  refine stepwise_get.bind fun b ↦ ?_
  split
  · exact stepwise_pure _
  · exact stepwise_runPhases hrecords hbegins _ _

/-- The fields that a run binds to the log are unbound at its end. -/
theorem stepwise_unbind : Stepwise crew scope (do
    lift (Act.unbindField "run_id")
    lift (Act.unbindField "phase")) :=
  (stepwise_lift (Act.still_unbindField _)).bind fun _ ↦ stepwise_lift (Act.still_unbindField _)

/-- A run consists of steps, however it ends. -/
theorem stepwise_run (hrecords : scope.records) (hbegins : scope.begins) (phases : List Phase) :
    Stepwise crew scope (run crew phases) := by
  unfold run
  refine stepwise_get.bind fun b ↦ (stepwise_lift (Act.still_bindField _ _)).bind fun _ ↦ ?_
  refine (stepwise_log _ _ _).bind fun _ ↦ ?_
  refine ((stepwise_execute hrecords hbegins _).andThenAlways stepwise_unbind).bind fun _ ↦ ?_
  refine stepwise_get.bind fun b ↦ (stepwise_lift (Act.still_count _ _ _)).bind fun _ ↦ ?_
  exact (stepwise_lift (Act.still_ofExcept _)).bind fun _ ↦ stepwise_log _ _ _

end RunAct

end Remedy
