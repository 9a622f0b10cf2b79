import Remedy.Proofs.Charging
import Remedy.Proofs.Offsite
import Remedy.Run.Context

/-!
# What a run charges

A run adds to the meter in many places: for each call of a fixer and each one that is overdue, and
for each phase that is settled, one way or the other. `World.Bills` says that it comes to a list of
charges, whatever else is measured in the meantime. `Attempts` says that such a list is what attempts
at one phase charge, and `Balance` that it is what the results of phases and the states of runs say.
Both are put together from parts (`Attempts.call`, `Attempts.late`, `Balance.append`).
-/

set_option autoImplicit false

namespace Remedy

open Meter (Tally)

/-! ### The meter of runs -/

/-- Whether runs add to the counter themselves; reading diagnostics and checks add to the others. -/
def Meter.Tally.isOfRuns : Tally → Bool
  | .diagnosticsParsed | .diagnosticsSkipped | .validationChecks => false
  | _ => true

/-- The meters agree in what runs add to. -/
structure Meter.Agrees (m m' : Meter) : Prop where
  counter : ∀ tally : Tally, tally.isOfRuns = true → m'.counter tally = m.counter tally
  durations : m'.phaseDuration = m.phaseDuration

namespace Meter

variable {m m' m'' : Meter}

theorem Agrees.refl (m : Meter) : m.Agrees m := ⟨fun _ _ ↦ rfl, rfl⟩

theorem Agrees.trans (h : m.Agrees m') (h' : m'.Agrees m'') : m.Agrees m'' :=
  ⟨fun tally ht ↦ (h'.counter tally ht).trans (h.counter tally ht), h'.durations.trans h.durations⟩

theorem phaseDuration_setCounter (m : Meter) (tally : Tally) (c : Counter) :
    (m.setCounter tally c).phaseDuration = m.phaseDuration := by
  cases tally <;> rfl

theorem agrees_setCounter {tally : Tally} (h : tally.isOfRuns = false) (m : Meter) (c : Counter) :
    m.Agrees (m.setCounter tally c) := by
  refine ⟨fun t ht ↦ counter_setCounter_of_ne m c ?_, phaseDuration_setCounter m tally c⟩
  rintro rfl
  rw [h] at ht
  cases ht

theorem Agrees.charge (h : m.Agrees m') (cs : List Charge) : (m.charge cs).Agrees (m'.charge cs) := by
  induction cs generalizing m m' with
  | nil => exact h
  | cons c rest ih =>
    refine ih ?_
    cases c with
    | add tally labels amount =>
      refine ⟨fun t ht ↦ ?_, ?_⟩
      · by_cases hsame : tally = t
        · subst hsame
          simp only [Charge.onto, counter_setCounter, h.counter _ ht]
        · simp only [Charge.onto, counter_setCounter_of_ne _ _ hsame, h.counter _ ht]
      · simp only [Charge.onto, phaseDuration_setCounter, h.durations]
    | observe duration labels =>
      refine ⟨fun t ht ↦ ?_, ?_⟩
      · have hcounter := h.counter t ht
        cases t <;> exact hcounter
      · simp only [Charge.onto, h.durations]

end Meter

namespace World

/-- Nothing has been added to the meter that runs add to it. -/
def Unbilled (w w' : World) : Prop := w.meter.Agrees w'.meter

/-- What has been added to the meter of what runs add to it are the charges. -/
def Bills (cs : List Charge) (w w' : World) : Prop := (w.meter.charge cs).Agrees w'.meter

theorem Bills.trans {cs cs' : List Charge} {w w' w'' : World} (h : w.Bills cs w')
    (h' : w'.Bills cs' w'') : w.Bills (cs ++ cs') w'' := by
  unfold Bills
  rw [Meter.charge_append]
  exact (Meter.Agrees.charge h cs').trans h'

end World

namespace Act

theorem keeps_count_unbilled {tally : Tally} (h : tally.isOfRuns = false) (amount : Number)
    (labels : Labels) : Keeps World.Unbilled (count tally amount labels) :=
  keeps_count_of (fun w c ↦ Meter.agrees_setCounter h w.meter c) amount labels

theorem isOffsite_unbilled : IsOffsite World.Unbilled where
  refl w := .refl w.meter
  trans _ _ _ := .trans
  record _ := keeps_modify fun w ↦ .refl w.meter
  aside w _ _ _ _ _ := .refl w.meter
  site w _ := .refl w.meter
  draws w _ := .refl w.meter

theorem isChecking_unbilled : IsChecking World.Unbilled where
  toIsPassing := isOffsite_unbilled.toIsPassing
  parsed := keeps_count_unbilled rfl
  skipped := keeps_count_unbilled rfl
  checked := keeps_count_unbilled rfl
  measured _ _ := ⟨fun tally _ ↦ by cases tally <;> rfl, rfl⟩

/-- Counting a whole number charges it. -/
theorem ends_count_whole {tally : Tally} {amount : Number} {n : ℕ} (h : amount.Is n)
    (labels : Labels) (w : World) :
    Ends (count tally amount labels) w (fun _ w' ↦ w.Bills [.add tally labels n] w')
      fun _ _ ↦ True := by
  unfold count
  refine ends_bind.mpr (ends_get.mpr ?_)
  rw [Counter.inc_of_is h]
  rcases hinc : (w.meter.counter tally).inc (.int n) labels with ⟨c, fault⟩
  refine ends_bind.mpr (ends_set.mpr ?_)
  cases fault with
  | some e => exact ends_throw.mpr trivial
  | none =>
    refine ends_pure.mpr ?_
    show Meter.Agrees (w.meter.setCounter tally ((w.meter.counter tally).inc (.int n) labels).1) _
    rw [hinc]
    exact .refl _

theorem ends_count_one (tally : Tally) (labels : Labels) (w : World) :
    Ends (count tally 1 labels) w (fun _ w' ↦ w.Bills [.add tally labels 1] w')
      fun _ _ ↦ False := by
  unfold count
  refine ends_bind.mpr (ends_get.mpr ?_)
  rw [Counter.inc_one]
  refine ends_bind.mpr (ends_set.mpr (ends_pure.mpr ?_))
  show Meter.Agrees (w.meter.setCounter tally ((w.meter.counter tally).inc 1 labels).1) _
  rw [Counter.inc_one]
  exact .refl _

end Act

/-! ### Charges of attempts -/

/-- The labels of a root cause. -/
def RootCause.labels (cause : RootCause) : Labels := [("root_cause", cause.name)]

theorem RootCause.labels_inj {cause cause' : RootCause} :
    cause.labels = cause'.labels ↔ cause = cause' := by
  cases cause <;> cases cause' <;> decide

namespace Charge

/-- The call of a fixer. -/
def call (cause : RootCause) : Charge := .add .fixerAttempts cause.labels 1

/-- A fixer that is overdue. -/
def overdue (cause : RootCause) : Charge := .add .fixerTimeouts cause.labels 1

end Charge

/-- The charges of so many attempts at phases of a root cause, of which at most so many are
overdue. -/
structure Attempts (cause : RootCause) (calls overdue : ℕ) (cs : List Charge) : Prop where
  calls : Meter.items .fixerAttempts cs = List.replicate calls (cause.labels, 1)
  overdue : Meter.due .fixerTimeouts cs ≤ overdue
  others : ∀ tally, tally ≠ .fixerAttempts → tally ≠ .fixerTimeouts → Meter.items tally cs = []
  observations : cs.countP (·.isObservation) = 0

namespace Attempts

variable {cause : RootCause} {calls overdue overdue' : ℕ} {cs : List Charge}

theorem none (cause : RootCause) : Attempts cause 0 0 [] :=
  ⟨rfl, le_rfl, fun _ _ _ ↦ rfl, rfl⟩

theorem call (h : Attempts cause calls overdue cs) :
    Attempts cause (calls + 1) overdue (cs ++ [.call cause]) := by
  constructor
  case calls =>
    rw [Meter.items_append, h.calls, List.replicate_succ']
    rfl
  case overdue =>
    rw [Meter.due_append]
    exact h.overdue
  case others =>
    intro tally hcalls hoverdue
    rw [Meter.items_append, h.others tally hcalls hoverdue]
    simp [Meter.items, Charge.call, Charge.item?, hcalls.symm]
  case observations =>
    rw [List.countP_append, h.observations]
    rfl

theorem late (h : Attempts cause calls overdue cs) :
    Attempts cause calls (overdue + 1) (cs ++ [.overdue cause]) := by
  constructor
  case calls =>
    rw [Meter.items_append, h.calls]
    exact List.append_nil _
  case overdue =>
    rw [Meter.due_append]
    exact Nat.add_le_add_right h.overdue 1
  case others =>
    intro tally hcalls hoverdue
    rw [Meter.items_append, h.others tally hcalls hoverdue]
    simp [Meter.items, Charge.overdue, Charge.item?, hoverdue.symm]
  case observations =>
    rw [List.countP_append, h.observations]
    rfl

theorem mono (h : Attempts cause calls overdue cs) (hle : overdue ≤ overdue') :
    Attempts cause calls overdue' cs :=
  { h with overdue := h.overdue.trans hle }

theorem due_calls (h : Attempts cause calls overdue cs) : Meter.due .fixerAttempts cs = calls := by
  simp [Meter.due, h.calls]

theorem due_others (h : Attempts cause calls overdue cs) {tally : Tally}
    (hcalls : tally ≠ .fixerAttempts) (hoverdue : tally ≠ .fixerTimeouts) :
    Meter.due tally cs = 0 := by
  simp [Meter.due, h.others tally hcalls hoverdue]

theorem dueUnder_calls (h : Attempts cause calls overdue cs) (cause' : RootCause) :
    Counter.dueUnder cause'.labels (Meter.items .fixerAttempts cs) =
      if cause = cause' then calls else 0 := by
  simp [Counter.dueUnder, h.calls, RootCause.labels_inj]

end Attempts

/-! ### Balance -/

/-- A phase and its result. -/
abbrev Entry := Phase × PhaseResult

/-- The charges are what the results of phases say, of which some were carried out, and the states
that runs have ended in. -/
structure Balance (entries carried : List Entry) (states : List RunState) (cs : List Charge) :
    Prop where
  attempts : Meter.due .fixerAttempts cs = (entries.map (·.2.attempts)).sum
  attemptsOf : ∀ cause : RootCause,
    Counter.dueUnder cause.labels (Meter.items .fixerAttempts cs) =
      ((entries.filter (·.1.cause = cause)).map (·.2.attempts)).sum
  timeouts : Meter.due .fixerTimeouts cs ≤ Meter.due .fixerAttempts cs
  executed : Meter.due .phasesExecuted cs = carried.length
  failed : Meter.due .phasesFailed cs = carried.countP (!·.2.success)
  rolledBack : Meter.due .phasesRolledBack cs = entries.countP (·.2.rolledBack)
  fixed : ∃ counts, List.Forall₂ Number.Is (entries.map (·.2.fixedCount)) counts ∧
    Meter.due .errorsFixed cs = counts.sum
  unfixed : ∀ e ∈ entries, e.2.success = false ∨ e.2.rolledBack = true → e.2.fixedCount = 0
  observations : cs.countP (·.isObservation) = carried.countP (0 < ·.2.attempts)
  finished : ∀ state : RunState,
    Counter.dueUnder [("state", state.name)] (Meter.items .runsFinished cs) = states.count state
  runs : Meter.due .runsFinished cs = states.length

theorem Balance.none : Balance [] [] [] [] where
  attempts := rfl
  attemptsOf _ := rfl
  timeouts := le_rfl
  executed := rfl
  failed := rfl
  rolledBack := rfl
  fixed := ⟨[], .nil, rfl⟩
  unfixed _ h := absurd h List.not_mem_nil
  observations := rfl
  finished _ := rfl
  runs := rfl

theorem RunState.name_inj {s t : RunState} : s.name = t.name ↔ s = t := by
  cases s <;> cases t <;> decide

/-- A run that has ended. -/
theorem Balance.finish (state : RunState) :
    Balance [] [] [state] [.add .runsFinished [("state", state.name)] 1] where
  attempts := rfl
  attemptsOf _ := rfl
  timeouts := le_rfl
  executed := rfl
  failed := rfl
  rolledBack := rfl
  fixed := ⟨[], .nil, rfl⟩
  unfixed _ h := absurd h List.not_mem_nil
  observations := rfl
  finished s := by
    by_cases h : state = s <;>
      simp [Meter.items, Charge.item?, Counter.dueUnder, RunState.name_inj, h]
  runs := rfl

theorem Counter.dueUnder_append (labels : Labels) (items items' : List (Labels × ℕ)) :
    dueUnder labels (items ++ items') = dueUnder labels items + dueUnder labels items' := by
  simp [dueUnder]

theorem Balance.append {entries entries' carried carried' : List Entry}
    {states states' : List RunState} {cs cs' : List Charge} (h : Balance entries carried states cs)
    (h' : Balance entries' carried' states' cs') :
    Balance (entries ++ entries') (carried ++ carried') (states ++ states') (cs ++ cs') := by
  constructor
  case attempts => rw [Meter.due_append, h.attempts, h'.attempts, List.map_append, List.sum_append]
  case attemptsOf =>
    intro cause
    rw [Meter.items_append, Counter.dueUnder_append, h.attemptsOf, h'.attemptsOf,
      List.filter_append, List.map_append, List.sum_append]
  case timeouts =>
    rw [Meter.due_append, Meter.due_append]
    exact Nat.add_le_add h.timeouts h'.timeouts
  case executed => rw [Meter.due_append, h.executed, h'.executed, List.length_append]
  case failed => rw [Meter.due_append, h.failed, h'.failed, List.countP_append]
  case rolledBack => rw [Meter.due_append, h.rolledBack, h'.rolledBack, List.countP_append]
  case fixed =>
    obtain ⟨counts, hcounts, hsum⟩ := h.fixed
    obtain ⟨counts', hcounts', hsum'⟩ := h'.fixed
    refine ⟨counts ++ counts', ?_, ?_⟩
    · rw [List.map_append]
      exact List.rel_append hcounts hcounts'
    · rw [Meter.due_append, hsum, hsum', List.sum_append]
  case unfixed => exact List.forall_mem_append.mpr ⟨h.unfixed, h'.unfixed⟩
  case observations =>
    rw [List.countP_append, h.observations, h'.observations, List.countP_append]
  case finished =>
    intro state
    rw [Meter.items_append, Counter.dueUnder_append, h.finished, h'.finished, List.count_append]
  case runs => rw [Meter.due_append, h.runs, h'.runs, List.length_append]

end Remedy
