import Remedy.Proofs.Faults
import Remedy.Proofs.Run.Calm

/-!
# How a phase ends

A phase of a run ends in one of six ways (`Ending`), unless the run fails in it: an attempt
succeeds, or the phase fails and is not required, or it fails, is required, and its files are left
as they are, or put back, or cannot all be put back; and last, its files cannot be recorded, so that
it is not even tried. `Settles` says what each of these leaves in the context: one result, the state
that belongs to the way of ending, and an error if and only if the run is over.

`ends_runPhase` is the specification that the laws about whole runs are put together from. It is
proved from one for each part of a phase. What a row of attempts leaves behind is said by `Tries`,
which is the invariant of the repetition: however many attempts were made, only the state, the mark
that a fixer was called and the account have changed.
-/

set_option autoImplicit false

namespace Remedy

/-! ### What has happened -/

namespace Occurrence

def isCall : Occurrence → Bool
  | .call _ _ _ => true
  | _ => false

/-- The occurrence is a call of the fixer of the phase. -/
inductive IsCallOf (phase : Phase) : Occurrence → Prop
  | call (number : Nat) (request : FixRequest) : IsCallOf phase (.call phase number request)

end Occurrence

/-- What has happened in a run so far, changes of the context left out. -/
def Progress.happened (p : Progress) : List Occurrence :=
  (p.account.reverse.map (·.occurrence)).filter (!·.isChange)

namespace Bench

@[simp] theorem happened_change (b : Bench) (f : RunContext → RunContext) :
    (b.change f).progress.happened = b.progress.happened := by
  simp [Progress.happened, change, note, Occurrence.isChange]

@[simp] theorem happened_moved (b : Bench) (target : RunState) (phase : Option String)
    (reason : String) : (b.moved target phase reason).progress.happened = b.progress.happened :=
  b.happened_change _

theorem happened_note (b : Bench) {o : Occurrence} (h : o.isChange = false) :
    (b.note o).progress.happened = b.progress.happened ++ [o] := by
  simp [Progress.happened, note, h]

theorem happened_unrecorded (b : Bench) (phase : Phase) (fault : Fault) :
    (b.unrecorded phase fault).progress.happened =
      b.progress.happened ++ [.refusal (some phase)] := by
  rw [unrecorded, happened_change, happened_change, b.happened_note rfl]

end Bench

/-! ### Ways of ending -/

inductive Ending where
  | passed
  | tolerated
  | left
  | restored
  | stuck
  | unrecorded
  deriving DecidableEq, Repr

namespace Ending

/-- Whether the run is over after a phase that ends this way. -/
def halts : Ending → Bool
  | .passed | .tolerated => false
  | _ => true

/-- Whether a phase can end this way, depending on whether it is required. -/
def fits : Ending → (required : Bool) → Bool
  | .tolerated, required => !required
  | .left, required | .restored, required | .stuck, required => required
  | _, _ => true

/-- The states that a run can be in after a phase that ends this way. -/
def states (mutated : Bool) : Ending → List RunState
  | .passed | .tolerated => [.executing, .retrying]
  | .left => [.failed]
  | .restored => [.rolledBack]
  | .stuck => [.rollbackFailed]
  | .unrecorded => [if mutated then .failed else .aborted]

section Halting

variable {e : Ending} {mutated : Bool} {s : RunState}

theorem isTerminal_of_halts (hhalts : e.halts = true) (h : s ∈ e.states mutated) :
    s.isTerminal = true ∧ s ≠ .completed := by
  cases e <;> cases mutated <;> simp_all [halts, states, RunState.isTerminal]

theorem not_isTerminal_of_goes (hgoes : e.halts = false) (h : s ∈ e.states mutated) :
    s.isTerminal = false := by
  cases e <;> simp_all [halts, states]
  all_goals rcases h with rfl | rfl <;> rfl

theorem rolledBack_iff_of_halts (hhalts : e.halts = true) (h : s ∈ e.states mutated) :
    s = .rolledBack ↔ e = .restored := by
  cases e <;> cases mutated <;> simp_all [halts, states]

theorem aborted_iff_of_halts (hhalts : e.halts = true) (h : s ∈ e.states mutated) :
    s = .aborted ↔ e = .unrecorded ∧ mutated = false := by
  cases e <;> cases mutated <;> simp_all [halts, states]

theorem left_or_unrecorded_of_failed (h : s ∈ e.states mutated) (hfailed : s = .failed) :
    e = .left ∨ e = .unrecorded := by
  cases e <;> cases mutated <;> simp_all [states]

/-- Only a phase that is required ends the run, unless its files could not be recorded. -/
theorem required_of_halts {required : Bool} (hhalts : e.halts = true) (h : e.fits required)
    (hrecorded : e ≠ .unrecorded) : required = true := by
  cases e <;> simp_all [halts, fits]

end Halting

end Ending

/-- What a phase that ends in a way makes of the context, if `os` has happened in it. -/
structure Settles (phase : Phase) (e : Ending) (os : List Occurrence) (c c' : RunContext) :
    Prop where
  result : ∃ r : PhaseResult, c'.history = c.history ++ [r] ∧ r.phase = phase.name ∧
    r.success = decide (e = .passed) ∧ r.rolledBack = decide (e = .restored)
  fits : e.fits phase.required
  state : c'.state ∈ e.states c.mutated
  error : if e.halts then c'.error ≠ none else c'.error = c.error
  validation : c'.validation = c.validation
  config : c'.config = c.config
  mutated : c'.mutated = (c.mutated || os.any Occurrence.isCall)
  /-- Files are left as they are only if none have been recorded, or they are not to be put back. -/
  left : e = .left → (c.config.backupEnabled && c.config.rollbackOnFailure) = false
  occurrences : if e = .unrecorded then os = [.refusal (some phase)]
    else ∀ o ∈ os, o.IsCallOf phase

/-- What attempts of a phase make of the context, if `calls` are the calls that were made. -/
structure Tries (phase : Phase) (calls : List Occurrence) (c c' : RunContext) : Prop where
  history : c'.history = c.history
  state : c'.state = .executing ∨ c'.state = .retrying
  error : c'.error = c.error
  validation : c'.validation = c.validation
  config : c'.config = c.config
  mutated : c'.mutated = (c.mutated || calls.any Occurrence.isCall)
  calls : ∀ o ∈ calls, o.IsCallOf phase

theorem Tries.none {phase : Phase} {c : RunContext}
    (h : c.state = .executing ∨ c.state = .retrying) : Tries phase [] c c where
  history := rfl
  state := h
  error := rfl
  validation := rfl
  config := rfl
  mutated := by simp
  calls := by simp

/-- The ending of a phase is that of its attempts and what comes after them. -/
theorem Tries.settles {phase : Phase} {e : Ending} {calls : List Occurrence}
    {c c' c'' : RunContext} (h : Tries phase calls c c') (hend : Settles phase e [] c' c'') :
    Settles phase e calls c c'' := by
  have hrecorded : e ≠ .unrecorded := by
    rintro rfl
    simpa using hend.occurrences
  constructor
  · simpa only [h.history] using hend.result
  · exact hend.fits
  · have hstate := hend.state
    cases e <;> first | exact hstate | exact absurd rfl hrecorded
  · simpa only [h.error] using hend.error
  · rw [hend.validation, h.validation]
  · rw [hend.config, h.config]
  · rw [hend.mutated, h.mutated, List.any_nil, Bool.or_false]
  · simpa only [h.config] using hend.left
  · rw [if_neg hrecorded]
    exact h.calls

/-- In `b` attempts of the phase have been made since `b₀`, or none. -/
def Trying (phase : Phase) (b₀ b : Bench) : Prop :=
  ∃ calls, Tries phase calls b₀.context b.context ∧
    b.progress.happened = b₀.progress.happened ++ calls

/-- From `b` to `b'` the phase has been settled. -/
def Finishes (phase : Phase) (b b' : Bench) : Prop :=
  ∃ e os, Settles phase e os b.context b'.context ∧ b'.progress.happened = b.progress.happened ++ os

theorem Trying.finishes {phase : Phase} {b₀ b b' : Bench} (h : Trying phase b₀ b)
    (hfinish : ∃ e, Settles phase e [] b.context b'.context ∧
      b'.progress.happened = b.progress.happened) :
    Finishes phase b₀ b' := by
  obtain ⟨calls, htries, hcalls⟩ := h
  obtain ⟨e, hsettles, hhappened⟩ := hfinish
  exact ⟨e, calls, htries.settles hsettles, hhappened.trans hcalls⟩

namespace RunAct

section Parts

variable {α β : Type} {b : Bench}

/-- An action on the world that fails with nothing of the run's own may end in any world. -/
theorem ends_lift_of_raises {act : Act α} (hact : Raises Fault.Ordinary act)
    {ok : α → Bench → Prop} {bad : Fault → Bench → Prop}
    (hok : ∀ a w, ok a { b with world := w })
    (hbad : ∀ e w, e.Ordinary → bad e { b with world := w }) : Ends (lift act) b ok bad :=
  ends_lift.mpr ((hact b.world).mono (fun a w _ ↦ hok a w) hbad)

end Parts

/-! ### Recording -/

theorem ends_filesOf (phase : Phase) (b : Bench) :
    Ends (filesOf phase) b (fun _ b' ↦ b' = b) fun e b' ↦ b' = b ∧ e.Ordinary :=
  (ends_filesOf_asked phase b).mono (fun _ _ h ↦ h.1)
    fun _ _ ⟨hsame, _, _, he⟩ ↦ ⟨hsame, FileTree.ordinary_of_resolve he⟩

/-- What the store does not find itself has nothing to do with it. -/
theorem ordinary_of_blames {e : Fault} {P : BackupFault → Prop}
    (h : e.Ordinary ∨ ∃ cause, e = .backup cause ∧ P cause) (hnot : ¬ e.isA .backup = true) :
    e.Ordinary := by
  rcases h with h | ⟨cause, rfl, -⟩
  · exact h
  · exact absurd rfl hnot

theorem ends_takeSnapshot (key : String) (files : List Route) (b : Bench) :
    Ends (takeSnapshot key files) b
      (fun s b' ↦ b'.context = b.context.keep s ∧ b'.progress.happened = b.progress.happened)
      fun e b' ↦ (¬ e.isA .backup = true → e.Ordinary) ∧ b'.context = b.context ∧
        b'.progress.happened = b.progress.happened := by
  refine ends_takeSnapshot_of ((Act.raises_giveWay b.world).mono (fun _ w _ ↦ ?_)
    fun e w he ↦ ⟨fun _ ↦ he, rfl, rfl⟩)
  exact (Store.ends_snapshot_blames _ _ _ _ w).mono
    (fun r w _ ↦ ⟨rfl, Bench.happened_change _ _⟩) fun e w he ↦ ⟨ordinary_of_blames he, rfl, rfl⟩

theorem ends_phaseSnapshot (phase : Phase) (files : List Route) (whole : Option Snapshot)
    (b : Bench) :
    Ends (phaseSnapshot phase files whole) b
      (fun s b' ↦ b'.context = b.context.keep s ∧ b'.progress.happened = b.progress.happened)
      fun e b' ↦ (¬ e.isA .backup = true → e.Ordinary) ∧ b'.context = b.context ∧
        b'.progress.happened = b.progress.happened := by
  refine ends_phaseSnapshot_of ?_ (fun all part _ _ _ ↦ ?_) fun _ ↦ ends_takeSnapshot _ _ _
  · exact fun all e _ _ he ↦ ⟨fun _ ↦ Snapshot.ordinary_of_restrict he, rfl, rfl⟩
  · exact (Store.ends_record_blames _ _ _).mono (fun _ _ _ ↦ ⟨rfl, Bench.happened_change _ _⟩)
      fun e w he ↦ ⟨ordinary_of_blames he, rfl, rfl⟩

end RunAct

/-! ### Attempts -/

/-- What is left when attempts of the phase fail. Only a timeout that no clock can take keeps the
mark of a call from coming with one. -/
def Stopped (phase : Phase) (b₀ : Bench) (e : Fault) (b : Bench) : Prop :=
  e.Ordinary ∧ (e.kind = .overflow ∨ Trying phase b₀ b)

section Attempts

variable {α β : Type} {phase : Phase} {b₀ b : Bench}

theorem Trying.lift {act : Act α} {f : α → RunAct β} {ok : β → Bench → Prop}
    (hb : Trying phase b₀ b) (hact : Raises Fault.Ordinary act)
    (hnext : ∀ a w, Trying phase b₀ { b with world := w } →
      Ends (f a) { b with world := w } ok (Stopped phase b₀)) :
    Ends (RunAct.lift act >>= f) b ok (Stopped phase b₀) :=
  ends_bind.mpr (RunAct.ends_lift_of_raises hact (fun a w ↦ hnext a w hb)
    fun _ _ he ↦ ⟨he, .inr hb⟩)

theorem Trying.throw {e : Fault} {ok : α → Bench → Prop} (hb : Trying phase b₀ b)
    (he : e.Ordinary) :
    Ends (MonadExcept.throw e : RunAct α) b ok (Stopped phase b₀) :=
  ends_throw.mpr ⟨he, .inr hb⟩

theorem RunState.retrying_mem_next {s : RunState} (h : s = .executing) : .retrying ∈ s.next := by
  subst h
  decide

theorem RetryPolicy.not_covers_overflow {backoff : Number} {e : Fault} (h : e.kind = .overflow) :
    ({ backoff := backoff } : RetryPolicy).covers e = false := by
  simp [covers, Fault.isA, h, FaultKind.isA, FaultKind.lineage]

namespace RunAct

theorem ends_judge {number : Nat} {settled : Settled FixReply} (hb : Trying phase b₀ b) :
    Ends (judge phase number settled) b (fun _ b' ↦ Trying phase b₀ b') (Stopped phase b₀) := by
  have hoverdue : ∀ text, Ends (judge.overdue phase number text) b (fun _ b' ↦ Trying phase b₀ b')
      (Stopped phase b₀) := by
    intro text
    unfold judge.overdue
    refine hb.lift (Act.raises_count _ _ _) fun _ w hb ↦ ?_
    refine hb.lift (Act.raises_log _ _ _) fun _ w hb ↦ hb.throw ?_
    trivial
  unfold judge
  split
  · exact hoverdue _
  · exact hb.throw trivial
  · split
    · exact hoverdue _
    · refine hb.lift (Act.raises_log _ _ _) fun _ w hb ↦ ?_
      exact hb.throw trivial
  · split
    · exact hb.throw (FixReply.ordinary_of_check ‹_›)
    · split
      · exact ends_pure.mpr hb
      · refine hb.lift (Act.raises_log _ _ _) fun _ w hb ↦ ?_
        exact hb.throw trivial

theorem ends_callFixer {fixer : Fixer} {files : List Route} {number : Nat}
    (hb : Trying phase b₀ b) :
    Ends (callFixer fixer phase files number) b (fun _ b' ↦ Trying phase b₀ b')
      (Stopped phase b₀) := by
  unfold callFixer
  refine hb.lift (Act.raises_count _ _ _) fun _ w hb ↦ ?_
  refine hb.lift (Act.raises_log _ _ _) fun _ w hb ↦ ?_
  refine ends_bind.mpr (ends_update.mpr (Ends.guard (fun _ ↦ ?_) fun _ ↦ ?_))
  · exact ⟨trivial, .inl rfl⟩
  refine ends_bind.mpr (ends_get.mpr (ends_bind.mpr (ends_note.mpr ?_)))
  -- The call is noted right after the mark was set, so the two agree from here on.
  have hcalled : ∀ request, Trying phase b₀ (Bench.note
      (Bench.change { b with world := w } fun c ↦ { c with mutated := true })
      (.call phase number request)) := by
    intro request
    obtain ⟨calls, htries, hcalls⟩ := hb
    refine ⟨calls ++ [.call phase number request], ?_, ?_⟩
    · exact {
        history := htries.history
        state := htries.state
        error := htries.error
        validation := htries.validation
        config := htries.config
        mutated := by simp [Bench.note, Bench.change, Occurrence.isCall]
        calls := by
          intro o ho
          rcases List.mem_append.mp ho with ho | ho
          · exact htries.calls o ho
          · rw [List.mem_singleton.mp ho]
            exact .call _ _ }
    · rw [Bench.happened_note _ rfl, Bench.happened_change]
      exact (congrArg (· ++ _) hcalls).trans (List.append_assoc _ _ _)
  exact (hcalled _).lift (Act.raises_race _ _) fun settled w hb ↦ ends_judge hb

theorem ends_attemptPhase {fixer : Fixer} {files : List Route} {number : Nat}
    (hb : Trying phase b₀ b) :
    Ends (attemptPhase fixer phase files number) b (fun _ b' ↦ Trying phase b₀ b')
      (Stopped phase b₀) := by
  unfold attemptPhase
  refine ends_bind.mpr (ends_modify.mpr ?_)
  dsimp only
  split
  · refine ends_bind.mpr (ends_moveTo (fun _ ↦ ends_callFixer hb) (fun _ w _ ↦ ?_) ?_)
    · obtain ⟨calls, htries, hcalls⟩ := hb
      refine ends_callFixer ⟨calls, { htries with state := .inr rfl }, ?_⟩
      exact (Bench.happened_moved _ _ _ _).trans hcalls
    · intro hne hnext
      obtain ⟨calls, htries, hcalls⟩ := hb
      rcases htries.state with hstate | hstate
      · exact absurd (RunState.retrying_mem_next hstate) hnext
      · exact absurd hstate hne
  · exact ends_callFixer hb

theorem ends_attempts {backoff : Number} {fixer : Fixer} {files : List Route}
    {left number : Nat} (hb : Trying phase b₀ b) :
    Ends (retryFrom { backoff := backoff } (attemptPhase fixer phase files)
        (fun number fault wait ↦ lift (Act.rest number fault wait)) left number) b
      (fun _ b' ↦ Trying phase b₀ b') (Stopped phase b₀) := by
  refine ends_retryFrom (I := fun _ b ↦ Trying phase b₀ b) (fun _ _ ↦ ends_attemptPhase) ?_ _ _ _ hb
  rintro n e b' ⟨-, hkind | htrying⟩ hcovers
  · rw [RetryPolicy.not_covers_overflow hkind] at hcovers
    cases hcovers
  · exact ends_lift_of_raises (Act.raises_rest _ _ _) (fun _ _ ↦ htrying)
      fun _ _ he ↦ ⟨he, .inr htrying⟩

end RunAct

end Attempts

/-! ### Results -/

/-- From `b` to `b'` the phase has been settled, and nothing has happened in between. -/
def Concludes (phase : Phase) (b b' : Bench) : Prop :=
  ∃ e, Settles phase e [] b.context b'.context ∧ b'.progress.happened = b.progress.happened

namespace RunAct

section Results

variable {phase : Phase} {b : Bench} {attempts : Nat} {elapsed : Number}

/-- After an action on the world that fails with nothing of the run's own, what holds in any world
holds. -/
theorem ends_liftThen {α β : Type} {act : Act α} {f : α → RunAct β} {ok : β → Bench → Prop}
    (hact : Raises Fault.Ordinary act)
    (hnext : ∀ a w, Ends (f a) { b with world := w } ok fun e _ ↦ e.Ordinary) :
    Ends (lift act >>= f) b ok fun e _ ↦ e.Ordinary :=
  ends_bind.mpr (ends_lift_of_raises hact hnext fun _ _ he ↦ he)

/-- A phase whose files were to be put back gets its result, and the run is over. -/
theorem ends_enterReturned {e : Ending} {target : RunState} {r : PhaseResult} {text : String}
    (hstate : b.context.state = .rollingBack) (hrequired : phase.required = true)
    (htarget : e = .restored ∧ target = .rolledBack ∨ e = .stuck ∧ target = .rollbackFailed)
    (hphase : r.phase = phase.name) (hsuccess : r.success = false)
    (hback : r.rolledBack = decide (e = .restored)) (name : Option String) (reason : String) :
    Ends (do
      update fun c ↦ { c with error := some text }
      update (·.record r)
      moveTo target name reason) b (fun _ b' ↦ Concludes phase b b') fun e _ ↦ e.Ordinary := by
  have hnext : target ∈ b.context.state.next := by
    rw [hstate]
    obtain ⟨-, rfl⟩ | ⟨-, rfl⟩ := htarget <;> decide
  refine ends_bind.mpr (ends_update.mpr (ends_bind.mpr (ends_update.mpr ?_)))
  refine ends_moveTo_of_next hnext fun w _ ↦ ⟨e, ?_, by simp⟩
  constructor
  case result =>
    refine ⟨r, rfl, hphase, hsuccess.trans ?_, hback⟩
    obtain ⟨rfl, -⟩ | ⟨rfl, -⟩ := htarget <;> rfl
  case fits => obtain ⟨rfl, -⟩ | ⟨rfl, -⟩ := htarget <;> exact hrequired
  case state => obtain ⟨rfl, rfl⟩ | ⟨rfl, rfl⟩ := htarget <;> exact List.mem_singleton.mpr rfl
  case error => obtain ⟨rfl, -⟩ | ⟨rfl, -⟩ := htarget <;> exact Option.some_ne_none text
  case validation => rfl
  case config => rfl
  case mutated => exact (Bool.or_false _).symm
  case left => obtain ⟨rfl, -⟩ | ⟨rfl, -⟩ := htarget <;> exact nofun
  case occurrences => obtain ⟨rfl, -⟩ | ⟨rfl, -⟩ := htarget <;> simp

theorem ends_rollBack {snapshot : Snapshot} {message : String}
    (hstate : b.context.state = .executing ∨ b.context.state = .retrying)
    (hrequired : phase.required = true) :
    Ends (rollBack phase snapshot message attempts elapsed) b (fun _ b' ↦ Concludes phase b b')
      fun e _ ↦ e.Ordinary := by
  have hnext : .rollingBack ∈ b.context.state.next := by
    rcases hstate with h | h <;> rw [h] <;> decide
  unfold rollBack
  refine ends_bind.mpr (ends_moveTo_of_next hnext fun w _ ↦ ?_)
  have hconcludes : ∀ {w} (_ : Unit) b', Concludes phase
      { b.moved .rollingBack (some phase.name) message with world := w } b' →
      Concludes phase b b' := fun _ _ ⟨e, hsettles, hhappened⟩ ↦
    ⟨e, { hsettles with }, hhappened.trans (Bench.happened_moved _ _ _ _)⟩
  refine ends_liftThen Act.raises_giveWay fun _ w ↦ ?_
  refine ends_bind.mpr (ends_attempt.mpr (ends_lift_of_raises (Store.raises_restore _) ?_ ?_))
  · intro routes w
    refine ends_liftThen (Act.raises_count _ _ _) fun _ w ↦ ?_
    exact (ends_enterReturned rfl hrequired (.inl ⟨rfl, rfl⟩) rfl rfl rfl _ _).mono
      hconcludes fun _ _ he ↦ he
  · intro e w he
    cases e with
    | rollback failed total =>
      exact (ends_enterReturned rfl hrequired (.inr ⟨rfl, rfl⟩) rfl rfl rfl _ _).mono
        hconcludes fun _ _ he ↦ he
    | _ => exact he

theorem ends_settleFailure {snapshot : Option Snapshot} {message : String}
    (hstate : b.context.state = .executing ∨ b.context.state = .retrying)
    (hsnapshot : snapshot = none → b.context.config.backupEnabled = false) :
    Ends (settleFailure phase snapshot message attempts elapsed) b
      (fun _ b' ↦ Concludes phase b b') fun e _ ↦ e.Ordinary := by
  have hnext : .failed ∈ b.context.state.next := by
    rcases hstate with h | h <;> rw [h] <;> decide
  have hleft : phase.required = true → (∀ s, snapshot = some s →
      (phase.required && b.context.config.rollbackOnFailure) = true → False) →
      (b.context.config.backupEnabled && b.context.config.rollbackOnFailure) = false := by
    intro hrequired hkept
    cases snapshot with
    | none => rw [hsnapshot rfl, Bool.false_and]
    | some s =>
      have hno := Bool.eq_false_iff.mpr (hkept s rfl)
      rw [hrequired, Bool.true_and] at hno
      rw [hno, Bool.and_false]
  unfold settleFailure
  refine ends_liftThen (Act.raises_count _ _ _) fun _ w ↦ ?_
  refine ends_liftThen (Act.raises_count _ _ _) fun _ w ↦ ?_
  refine ends_liftThen (Act.raises_log _ _ _) fun _ w ↦ ?_
  refine ends_bind.mpr (ends_get.mpr ?_)
  dsimp only
  split
  · rename_i hback
    exact ends_rollBack hstate (Bool.and_eq_true_iff.mp hback).1
  · rename_i hkept
    refine ends_bind.mpr (ends_update.mpr ?_)
    split
    · rename_i hrequired
      refine ends_bind.mpr (ends_update.mpr (ends_moveTo_of_next hnext ?_))
      intro w _
      refine ⟨.left, ?_, by simp⟩
      exact {
        result := ⟨_, rfl, rfl, rfl, rfl⟩
        fits := hrequired
        state := by simp [Bench.moved, Bench.change, Bench.note, Ending.states]
        error := by simp [Bench.moved, Bench.change, Bench.note, Ending.halts]
        validation := rfl
        config := rfl
        mutated := (Bool.or_false _).symm
        left := fun _ ↦ hleft hrequired hkept
        occurrences := by simp }
    · rename_i hrequired
      refine ends_pure.mpr ⟨.tolerated, ?_, by simp⟩
      exact {
        result := ⟨_, rfl, rfl, rfl, rfl⟩
        fits := by simpa [Ending.fits] using hrequired
        state := by simpa [Bench.change, Bench.note, Ending.states, RunContext.record] using hstate
        error := rfl
        validation := rfl
        config := rfl
        mutated := (Bool.or_false _).symm
        left := nofun
        occurrences := by simp }

/-- A result that says so lets a phase pass. -/
theorem ends_enterPassed {r : PhaseResult}
    (hstate : b.context.state = .executing ∨ b.context.state = .retrying)
    (hphase : r.phase = phase.name) (hsuccess : r.success = true) (hback : r.rolledBack = false)
    (level : LogLevel) (name : String) (fields : List (String × Json)) :
    Ends (do
      update (·.record r)
      log level name fields) b (fun _ b' ↦ Concludes phase b b') fun e _ ↦ e.Ordinary := by
  refine ends_bind.mpr (ends_update.mpr ?_)
  refine ends_lift_of_raises (Act.raises_log _ _ _) (fun _ w ↦ ?_) fun _ _ he ↦ he
  refine ⟨.passed, ?_, by simp⟩
  exact {
    result := ⟨r, rfl, hphase, hsuccess, hback⟩
    fits := rfl
    state := by simpa [Bench.change, Bench.note, Ending.states, RunContext.record] using hstate
    error := rfl
    validation := rfl
    config := rfl
    mutated := (Bool.or_false _).symm
    left := nofun
    occurrences := by simp }

theorem ends_settleSuccess {r : FixReport}
    (hstate : b.context.state = .executing ∨ b.context.state = .retrying) :
    Ends (settleSuccess phase r attempts elapsed) b (fun _ b' ↦ Concludes phase b b')
      fun e _ ↦ e.Ordinary := by
  unfold settleSuccess
  refine ends_liftThen (Act.raises_count _ _ _) fun _ w ↦ ?_
  refine ends_liftThen (raises_modify _) fun _ w ↦ ?_
  refine ends_liftThen (Act.raises_count _ _ _) fun _ w ↦ ?_
  dsimp only
  split
  · exact Json.ordinary_of_record ‹_›
  · exact ends_enterPassed (b := { b with world := w }) hstate rfl rfl rfl _ _ _

theorem ends_rehearse {files : List Route}
    (hstate : b.context.state = .executing ∨ b.context.state = .retrying) :
    Ends (rehearse phase files) b (fun _ b' ↦ Concludes phase b b') fun e _ ↦ e.Ordinary := by
  unfold rehearse
  exact ends_enterPassed hstate rfl rfl rfl _ _ _

theorem ends_settleUnrecorded {fault : Fault} (hstate : b.context.state = .executing) :
    Ends (settleUnrecorded phase fault) b (fun _ b' ↦ Finishes phase b b')
      fun e _ ↦ e.Ordinary := by
  refine ends_settleUnrecorded_iff.mpr
    (ends_moveTo_of_next (Bench.next_of_unrecorded hstate phase fault) fun w _ ↦
      ⟨.unrecorded, [.refusal (some phase)], ?_, ?_⟩)
  · exact {
      result := ⟨_, rfl, rfl, rfl, rfl⟩
      fits := rfl
      state := List.mem_singleton.mpr rfl
      error := by simp [Bench.moved, Bench.unrecorded, Bench.change, Bench.note, Ending.halts]
      validation := rfl
      config := rfl
      mutated := (Bool.or_false _).symm
      left := nofun
      occurrences := rfl }
  · exact (Bench.happened_moved _ _ _ _).trans (b.happened_unrecorded phase fault)

end Results

/-! ### Phases -/

section Phases

variable {phase : Phase} {b : Bench}

theorem ends_carryOut {files : List Route} {snapshot : Option Snapshot} {fixer : Fixer}
    (hstate : b.context.state = .executing ∨ b.context.state = .retrying)
    (hsnapshot : snapshot = none → b.context.config.backupEnabled = false) :
    Ends (carryOut phase files snapshot fixer) b (fun _ b' ↦ Finishes phase b b')
      fun e _ ↦ e.Ordinary := by
  have hnone : Trying phase b b := ⟨[], .none hstate, (List.append_nil _).symm⟩
  have hgoing : ∀ {b'}, Trying phase b b' →
      b'.context.state = .executing ∨ b'.context.state = .retrying :=
    fun ⟨_, htries, _⟩ ↦ htries.state
  unfold carryOut
  refine ends_bind.mpr (ends_get.mpr (ends_bind.mpr (ends_get.mpr (ends_bind.mpr ?_))))
  refine ends_attempt.mpr ((ends_attempts hnone).mono (fun r b' hb ↦ ?_) fun e b' he ↦ ?_)
  · refine ends_liftThen (Act.raises_since _) fun elapsed w ↦ ?_
    have hb : Trying phase b { b' with world := w } := hb
    refine ends_bind.mpr (ends_get.mpr ?_)
    exact (ends_settleSuccess (hgoing hb)).mono (fun _ _ h ↦ hb.finishes h) fun _ _ he ↦ he
  · refine ends_liftThen (Act.raises_since _) fun elapsed w ↦ ?_
    refine ends_bind.mpr (ends_get.mpr ?_)
    obtain ⟨hordinary, hkind | hb⟩ := he
    · dsimp only
      rw [if_neg (by simp [Fault.isA, hkind, FaultKind.isA, FaultKind.lineage])]
      exact hordinary
    · dsimp only
      split
      · refine ends_liftThen (raises_modify _) fun _ w' ↦ ?_
        have hb : Trying phase b { b' with world := w' } := hb
        have hconfig : snapshot = none → b'.context.config.backupEnabled = false := by
          obtain ⟨_, htries, _⟩ := hb
          rw [htries.config]
          exact hsnapshot
        exact (ends_settleFailure (b := { b' with world := w' }) (hgoing hb) hconfig).mono
          (fun _ _ h ↦ hb.finishes h) fun _ _ he ↦ he
      · exact hordinary

end Phases

end RunAct

theorem Concludes.finishes {phase : Phase} {b₀ b b' : Bench} (h : Concludes phase b b')
    (hcontext : Tries phase [] b₀.context b.context)
    (hhappened : b.progress.happened = b₀.progress.happened) : Finishes phase b₀ b' := by
  obtain ⟨e, hsettles, hb'⟩ := h
  exact ⟨e, [], hcontext.settles hsettles, by rw [hb', hhappened, List.append_nil]⟩

namespace RunAct

section Phases

variable {crew : Crew} {phase : Phase} {b : Bench}

theorem ends_remedy {files : List Route} {snapshot : Option Snapshot}
    (hstate : b.context.state = .executing)
    (hsnapshot : snapshot = none → b.context.config.backupEnabled = false) :
    Ends (remedy crew phase files snapshot) b (fun _ b' ↦ Finishes phase b b')
      fun e _ ↦ e.Ordinary := by
  unfold remedy
  split
  · refine ends_liftThen (Act.raises_log _ _ _) fun _ w ↦ ?_
    refine (ends_settleFailure (b := { b with world := w }) (.inl hstate) hsnapshot).mono
      (fun _ _ h ↦ ?_) fun _ _ he ↦ he
    exact h.finishes (.none (.inl hstate)) rfl
  · exact ends_carryOut (.inl hstate) hsnapshot

/-- A phase that is begun while the run is executing ends in one of the ways, or the run fails. -/
theorem ends_runPhase {whole : Option Snapshot} (hstate : b.context.state = .executing) :
    Ends (runPhase crew whole phase) b (fun _ b' ↦ Finishes phase b b') fun e _ ↦ e.Ordinary := by
  -- Keeping a snapshot leaves all that the endings speak of as it is.
  have hkept : ∀ {s b' b''}, b'.context = b.context.keep s →
      b'.progress.happened = b.progress.happened → Finishes phase b' b'' →
      Finishes phase b b'' := by
    rintro s b' b'' hcontext hhappened ⟨e, os, hsettles, hos⟩
    rw [hcontext] at hsettles
    exact ⟨e, os, { hsettles with }, by rw [hos, hhappened]⟩
  refine ends_runPhase_of ((ends_filesOf phase b).mono ?_ fun _ _ he ↦ he.2)
  rintro files b' rfl fields
  refine ends_lift.mpr ((Act.raises_log _ _ _ _).mono (fun _ w _ ↦ ?_) fun _ _ he ↦ he)
  constructor
  case rehearsed =>
    refine fun _ ↦ (ends_rehearse (b := { b' with world := w }) (.inl hstate)).mono
      (fun _ _ h ↦ ?_) fun _ _ he ↦ he
    exact h.finishes (.none (.inl hstate)) rfl
  case recorded =>
    refine fun _ _ ↦ (ends_phaseSnapshot _ _ _ _).mono ?_ ?_
    · rintro s b'' ⟨hcontext, hhappened⟩
      exact (ends_remedy (hcontext ▸ hstate) fun hnone ↦ by cases hnone).mono
        (fun _ _ h ↦ hkept hcontext hhappened h) fun _ _ he ↦ he
    · rintro e b'' ⟨hordinary, hcontext, hhappened⟩
      refine ⟨fun _ ↦ ?_, hordinary⟩
      refine (ends_settleUnrecorded (hcontext ▸ hstate)).mono (fun _ _ h ↦ ?_) fun _ _ he ↦ he
      obtain ⟨e, os, hsettles, hos⟩ := h
      exact ⟨e, os, hcontext ▸ hsettles, by rw [hos, hhappened]⟩
  case unrecorded =>
    exact fun _ hdisabled ↦ ends_remedy (b := { b' with world := w }) hstate fun _ ↦ hdisabled

end Phases

end RunAct

end Remedy
