import Mathlib.Data.List.Forall2
import Remedy.Proofs.Run.Endings

/-!
# The outcome of a run and its history

The history of a run determines its outcome. `RunOutcome` says how: the results are those of the
first phases in order, only the last one can be the failure of a required phase, and from the
results, the refusals to record files and the checks it can be told in which state the run has ended
and whether it has an error. `RunAct.outcome_of_run` is that every run that returns has such an
outcome.

While phases are carried out, `Underway` is kept: every phase so far has passed or was tolerated.
A phase that ends otherwise ends the run.
-/

set_option autoImplicit false

namespace Remedy

/-- What happens in phases that are carried out one after the other. -/
def chronicle (acts : List (Phase × List Occurrence)) : List Occurrence :=
  acts.flatMap fun act ↦ .start act.1 :: act.2

theorem chronicle_concat (acts : List (Phase × List Occurrence)) (phase : Phase)
    (os : List Occurrence) :
    chronicle (acts ++ [(phase, os)]) = chronicle acts ++ .start phase :: os := by
  simp [chronicle]

/-- How a run has ended that was to carry out the phases in this order. -/
structure RunOutcome (phases : List Phase) (config : RunConfig) (b : Bench) : Prop where
  /-- If the files of all phases could not be recorded, the run has ended before its first phase. -/
  refused : .refusal none ∈ b.progress.happened → b.progress.happened = [.refusal none] ∧
    b.context.history = [] ∧ b.context.state = .aborted
  /-- Otherwise each phase that has a result was begun, in order, and in its turn nothing happened
  but calls of its own fixer, or the refusal to record its files. -/
  happened : .refusal none ∉ b.progress.happened →
    ∃ acts, acts.map (·.1) = phases.take b.context.history.length ∧
      b.progress.happened = chronicle acts ∧
      ∀ act ∈ acts, ∀ o ∈ act.2, o.IsCallOf act.1 ∨ o = .refusal (some act.1)
  /-- The results are those of the first phases. -/
  names : b.context.history.map (·.phase) =
    (phases.take b.context.history.length).map (·.name)
  /-- Every phase but the last one has succeeded, or has failed and is not required. -/
  earlier : ∀ (i : Nat) (phase : Phase) (r : PhaseResult),
    phases[i]? = some phase → b.context.history[i]? = some r →
    i + 1 < b.context.history.length → r.success = true ∨ phase.required = false
  /-- If phases are left over, the last one that has a result has failed, and it is required or its
  files could not be recorded. -/
  proper : .refusal none ∉ b.progress.happened → b.context.history.length < phases.length →
    ∃ (phase : Phase) (r : PhaseResult), phases[b.context.history.length - 1]? = some phase ∧
      b.context.history.getLast? = some r ∧ r.success = false ∧
      (phase.required = true ∨ .refusal (some phase) ∈ b.progress.happened)
  /-- Only the last phase can have been rolled back. -/
  rolledBack : ∀ (i : Nat) (r : PhaseResult), b.context.history[i]? = some r → r.rolledBack = true →
    i + 1 = b.context.history.length
  rolledBack_iff : (∃ r ∈ b.context.history, r.rolledBack = true) ↔
    b.context.state = .rolledBack
  /-- The run is aborted if and only if files could not be recorded before any fixer was called. -/
  aborted_iff : b.context.state = .aborted ↔ ∃ front phase back,
    b.progress.happened = front ++ .refusal phase :: back ∧ ∀ o ∈ front, o.isCall = false
  /-- The run is completed if and only if all files could be recorded, no required phase has failed,
  and the checks, if they were run, succeeded or need not succeed. -/
  completed_iff : b.context.state = .completed ↔
    (∀ phase, .refusal phase ∉ b.progress.happened) ∧
    (∀ (i : Nat) (phase : Phase) (r : PhaseResult),
      phases[i]? = some phase → b.context.history[i]? = some r →
      phase.required = true → r.success = true) ∧
    (b.context.validation = none ∨ b.context.validation.any (·.overallSuccess) = true ∨
      config.continueOnValidationFailure = true)
  error_iff : b.context.error = none ↔ b.context.state = .completed
  terminal : b.context.state.isTerminal = true

/-- In addition, where files are recorded and put back, the run fails only if files could not be
recorded, or if no required phase has failed. -/
structure RunEnding (phases : List Phase) (config : RunConfig) (b : Bench) : Prop extends
    RunOutcome phases config b where
  failed : b.context.state = .failed →
    (config.backupEnabled && config.rollbackOnFailure) = true →
    (∃ phase, .refusal phase ∈ b.progress.happened) ∨
    ∀ (i : Nat) (phase : Phase) (r : PhaseResult),
      phases[i]? = some phase → b.context.history[i]? = some r →
      phase.required = true → r.success = true

/-- A phase has passed or was tolerated, and this is its result. -/
structure Passes (act : Phase × List Occurrence) (r : PhaseResult) : Prop where
  name : r.phase = act.1.name
  success : r.success = true ∨ act.1.required = false
  rolledBack : r.rolledBack = false

/-- The run has carried out the phases of `acts` and is to go on; `os` has happened since. -/
structure Underway (config : RunConfig) (acts : List (Phase × List Occurrence))
    (os : List Occurrence) (b : Bench) : Prop where
  results : List.Forall₂ Passes acts b.context.history
  state : b.context.state ∈ [.backingUp, .executing, .retrying]
  error : b.context.error = none
  validation : b.context.validation = none
  config : b.context.config = config
  mutated : b.context.mutated = b.progress.happened.any Occurrence.isCall
  happened : b.progress.happened = chronicle acts ++ os
  calls : ∀ act ∈ acts, ∀ o ∈ act.2, o.IsCallOf act.1

section Results

variable {config : RunConfig} {acts : List (Phase × List Occurrence)} {history : List PhaseResult}

theorem refusal_not_mem_chronicle (hcalls : ∀ act ∈ acts, ∀ o ∈ act.2, o.IsCallOf act.1)
    (phase : Option Phase) : .refusal phase ∉ chronicle acts := by
  intro h
  obtain ⟨act, hact, ho⟩ := List.mem_flatMap.mp h
  rcases List.mem_cons.mp ho with ho | ho
  · cases ho
  · cases hcalls act hact _ ho

theorem names_of_passes (h : List.Forall₂ Passes acts history) :
    history.map (·.phase) = acts.map (·.1.name) := by
  induction h with
  | nil => rfl
  | cons hpasses _ ih => rw [List.map_cons, List.map_cons, hpasses.name, ih]

theorem passes_of_getElem? (h : List.Forall₂ Passes acts history) {rest : List Phase} {i : Nat}
    {phase : Phase} {r : PhaseResult} (hphase : (acts.map (·.1) ++ rest)[i]? = some phase)
    (hr : history[i]? = some r) :
    (r.success = true ∨ phase.required = false) ∧ r.rolledBack = false := by
  have hi : i < acts.length := by
    rw [h.length_eq]
    exact (List.getElem?_eq_some_iff.mp hr).1
  have hi' : i < history.length := h.length_eq ▸ hi
  have hpasses : Passes acts[i] history[i] := by
    simpa using h.get hi hi'
  rw [List.getElem?_append_left (by simpa using hi), List.getElem?_map,
    List.getElem?_eq_getElem hi] at hphase
  rw [List.getElem?_eq_getElem hi'] at hr
  cases hphase
  cases hr
  exact ⟨hpasses.success, hpasses.rolledBack⟩

/-- No required phase has failed. -/
theorem success_of_passes (h : List.Forall₂ Passes acts history) {i : Nat} {phase : Phase}
    {r : PhaseResult} (hphase : (acts.map (·.1))[i]? = some phase) (hr : history[i]? = some r)
    (hrequired : phase.required = true) : r.success = true := by
  rw [← List.append_nil (acts.map (·.1))] at hphase
  refine (passes_of_getElem? h hphase hr).1.resolve_right fun hfree ↦ ?_
  rw [hfree] at hrequired
  cases hrequired

end Results

theorem refused_first_iff {front₀ : List Occurrence} (phase₀ : Option Phase)
    (h : ∀ phase, .refusal phase ∉ front₀) :
    (∃ front phase back, front₀ ++ [.refusal phase₀] = front ++ .refusal phase :: back ∧
      ∀ o ∈ front, o.isCall = false) ↔ front₀.any Occurrence.isCall = false := by
  constructor
  · rintro ⟨front, phase, back, heq, hfront⟩
    rcases List.eq_nil_or_concat back with rfl | ⟨back', o, rfl⟩
    · obtain ⟨rfl, -⟩ := List.append_inj' heq rfl
      simpa using hfront
    · -- A refusal that something follows would stand in front of the only one.
      have heq' : front₀ = front ++ .refusal phase :: back' := by
        have hsplit : front₀ ++ [.refusal phase₀] = (front ++ .refusal phase :: back') ++ [o] := by
          simpa using heq
        exact (List.append_inj' hsplit rfl).1
      exact absurd (heq' ▸ by simp) (h phase)
  · intro hnone
    exact ⟨front₀, phase₀, [], rfl, by simpa using hnone⟩

/-! ### Endings of a run -/

section Endings

variable {phases : List Phase} {config : RunConfig} {b : Bench}

theorem outcome_of_refused (hhistory : b.context.history = [])
    (hhappened : b.progress.happened = [.refusal none]) (hstate : b.context.state = .aborted)
    (herror : b.context.error ≠ none) : RunOutcome phases config b where
  refused := fun _ ↦ ⟨hhappened, hhistory, hstate⟩
  happened := fun h ↦ absurd (by simp [hhappened]) h
  names := by simp [hhistory]
  earlier := by simp [hhistory]
  proper := fun h ↦ absurd (by simp [hhappened]) h
  rolledBack := by simp [hhistory]
  rolledBack_iff := by simp [hhistory, hstate]
  aborted_iff := by
    have hfront : ∀ phase, Occurrence.refusal phase ∉ ([] : List Occurrence) := by simp
    rw [hhappened]
    exact iff_of_true hstate ((refused_first_iff none hfront).mpr rfl)
  completed_iff := by
    refine iff_of_false (by simp [hstate]) fun h ↦ h.1 none ?_
    simp [hhappened]
  error_iff := iff_of_false herror (by simp [hstate])
  terminal := by rw [hstate]; rfl

/-- The phases of `acts` have been carried out, and the checks have decided how the run ends. -/
structure Concluded (acts : List (Phase × List Occurrence)) (config : RunConfig) (b : Bench) :
    Prop where
  results : List.Forall₂ Passes acts b.context.history
  calls : ∀ act ∈ acts, ∀ o ∈ act.2, o.IsCallOf act.1
  happened : b.progress.happened = chronicle acts
  state : b.context.state = if b.context.validation = none ∨
    b.context.validation.any (·.overallSuccess) = true ∨
    config.continueOnValidationFailure = true then .completed else .failed
  error : b.context.error = none ↔ b.context.state = .completed

namespace Concluded

variable {acts : List (Phase × List Occurrence)} (h : Concluded acts config b)

include h

theorem refusal_not_mem (phase : Option Phase) : .refusal phase ∉ b.progress.happened := by
  rw [h.happened]
  exact refusal_not_mem_chronicle h.calls phase

theorem length_history : b.context.history.length = (acts.map (·.1)).length := by
  rw [List.length_map, h.results.length_eq]

theorem passes {i : Nat} {phase : Phase} {r : PhaseResult}
    (hphase : (acts.map (·.1))[i]? = some phase) (hr : b.context.history[i]? = some r) :
    (r.success = true ∨ phase.required = false) ∧ r.rolledBack = false := by
  rw [← List.append_nil (acts.map (·.1))] at hphase
  exact passes_of_getElem? h.results hphase hr

theorem not_rolledBack {r : PhaseResult} (hr : r ∈ b.context.history) : r.rolledBack = false := by
  obtain ⟨i, hi⟩ := List.mem_iff_getElem?.mp hr
  have hlt : i < (acts.map (·.1)).length := h.length_history ▸ (List.getElem?_eq_some_iff.mp hi).1
  exact (h.passes (List.getElem?_eq_getElem hlt) hi).2

theorem ended : b.context.state = .completed ∨ b.context.state = .failed := by
  rw [h.state]
  split
  · exact .inl rfl
  · exact .inr rfl

/-- A run that has carried out all phases ends by what the checks say. -/
theorem outcome : RunOutcome (acts.map (·.1)) config b := by
  constructor
  case refused => exact fun hnone ↦ absurd hnone (h.refusal_not_mem none)
  case happened =>
    refine fun _ ↦ ⟨acts, ?_, h.happened, fun act hact o ho ↦ .inl (h.calls act hact o ho)⟩
    rw [h.length_history, List.take_length]
  case names =>
    rw [names_of_passes h.results, h.length_history, List.take_length, List.map_map]
    rfl
  case earlier => exact fun i phase r hphase hr _ ↦ (h.passes hphase hr).1
  case proper => exact fun _ hlt ↦ absurd h.length_history (Nat.ne_of_lt hlt)
  case rolledBack =>
    intro i r hr hback
    rw [h.not_rolledBack (List.mem_of_getElem? hr)] at hback
    cases hback
  case rolledBack_iff =>
    constructor
    · rintro ⟨r, hr, hback⟩
      rw [h.not_rolledBack hr] at hback
      cases hback
    · intro hstate
      rcases h.ended with h' | h' <;> rw [h'] at hstate <;> cases hstate
  case aborted_iff =>
    constructor
    · intro hstate
      rcases h.ended with h' | h' <;> rw [h'] at hstate <;> cases hstate
    · rintro ⟨front, phase, back, heq, -⟩
      exact absurd (heq ▸ by simp) (h.refusal_not_mem phase)
  case completed_iff =>
    have hrequired : ∀ (i : Nat) (phase : Phase) (r : PhaseResult),
        (acts.map (·.1))[i]? = some phase → b.context.history[i]? = some r →
        phase.required = true → r.success = true :=
      fun i phase r ↦ success_of_passes h.results
    rw [h.state]
    split
    · exact iff_of_true rfl ⟨h.refusal_not_mem, hrequired, ‹_›⟩
    · exact iff_of_false (by simp) fun hall ↦ absurd hall.2.2 ‹_›
  case error_iff => exact h.error
  case terminal => rcases h.ended with h' | h' <;> rw [h'] <;> rfl

theorem ending : RunEnding (acts.map (·.1)) config b :=
  ⟨h.outcome, fun _ _ ↦ .inr fun _ _ _ ↦ success_of_passes h.results⟩

end Concluded

/-- The phases of `acts` have been carried out, as the context `c` has it, and `phase` has ended the
run after them. -/
structure Halted (acts : List (Phase × List Occurrence)) (phase : Phase) (e : Ending)
    (os : List Occurrence) (c : RunContext) (b : Bench) : Prop where
  results : List.Forall₂ Passes acts c.history
  calls : ∀ act ∈ acts, ∀ o ∈ act.2, o.IsCallOf act.1
  mutated : c.mutated = (chronicle acts).any Occurrence.isCall
  settles : Settles phase e os c b.context
  halts : e.halts = true
  happened : b.progress.happened = chronicle acts ++ .start phase :: os

namespace Halted

variable {acts : List (Phase × List Occurrence)} {phase : Phase} {rest : List Phase} {e : Ending}
  {os : List Occurrence} {c : RunContext} {i : Nat} {r : PhaseResult}
  (h : Halted acts phase e os c b)

include h

theorem not_completed : b.context.state ≠ .completed :=
  (Ending.isTerminal_of_halts h.halts h.settles.state).2

/-- The last result is that of the phase that has ended the run. -/
theorem result : ∃ r : PhaseResult, b.context.history = c.history ++ [r] ∧
    b.context.history[acts.length]? = some r ∧ r.phase = phase.name ∧ r.success = false ∧
    r.rolledBack = decide (e = .restored) := by
  obtain ⟨r, hhistory, hname, hsuccess, hback⟩ := h.settles.result
  refine ⟨r, hhistory, ?_, hname, ?_, hback⟩
  · rw [hhistory, h.results.length_eq, List.getElem?_concat_length]
  · rw [hsuccess]
    refine decide_eq_false fun hpassed ↦ ?_
    have hhalts := h.halts
    rw [hpassed] at hhalts
    cases hhalts

theorem length_history : b.context.history.length = acts.length + 1 := by
  obtain ⟨r, hhistory, -⟩ := h.result
  rw [hhistory, List.length_append, h.results.length_eq]
  rfl

theorem take_phases : (acts.map (·.1) ++ phase :: rest).take b.context.history.length =
    acts.map (·.1) ++ [phase] := by
  rw [h.length_history, List.append_cons]
  exact List.take_left' (by simp)

theorem lt_or_eq (hr : b.context.history[i]? = some r) : i < acts.length ∨ i = acts.length := by
  have hlt := (List.getElem?_eq_some_iff.mp hr).1
  rw [h.length_history] at hlt
  exact Nat.lt_succ_iff_lt_or_eq.mp hlt

/-- The phases before it have passed or were tolerated. -/
theorem earlier {phase' : Phase} (hi : i < acts.length)
    (hphase : (acts.map (·.1) ++ rest)[i]? = some phase') (hr : b.context.history[i]? = some r) :
    (r.success = true ∨ phase'.required = false) ∧ r.rolledBack = false := by
  obtain ⟨_, hhistory, -⟩ := h.result
  rw [hhistory, List.getElem?_append_left (h.results.length_eq ▸ hi)] at hr
  exact passes_of_getElem? h.results hphase hr

theorem restored_of_rolledBack (hr : b.context.history[i]? = some r) (hback : r.rolledBack = true) :
    i = acts.length ∧ e = .restored := by
  rcases h.lt_or_eq hr with hi | rfl
  · have hphase : (acts.map (·.1) ++ [])[i]? = some acts[i].1 := by simp [hi]
    rw [(h.earlier hi hphase hr).2] at hback
    cases hback
  · obtain ⟨_, -, hlast, -, -, hrolled⟩ := h.result
    rw [hlast] at hr
    cases hr
    exact ⟨rfl, of_decide_eq_true (hrolled ▸ hback)⟩

theorem occurrences : ∀ o ∈ os, o.IsCallOf phase ∨ o = .refusal (some phase) := by
  intro o ho
  have hos := h.settles.occurrences
  split at hos
  · rw [hos] at ho
    exact .inr (List.mem_singleton.mp ho)
  · exact .inl (hos o ho)

/-- The only files that can have been refused to record are those of the last phase. -/
theorem refusal_mem_iff (p : Option Phase) :
    .refusal p ∈ b.progress.happened ↔ e = .unrecorded ∧ p = some phase := by
  have hos := h.settles.occurrences
  have hbefore := refusal_not_mem_chronicle h.calls p
  rw [h.happened]
  split at hos
  · simp [hos, hbefore, ‹e = .unrecorded›]
  · have hcall : .refusal p ∉ os := fun hp ↦ by cases hos _ hp
    simp [hcall, hbefore, ‹¬ e = .unrecorded›]

theorem required_or_refused :
    phase.required = true ∨ .refusal (some phase) ∈ b.progress.happened := by
  rw [h.refusal_mem_iff (some phase)]
  by_cases he : e = .unrecorded
  · exact .inr ⟨he, rfl⟩
  · exact .inl (Ending.required_of_halts h.halts h.settles.fits he)

theorem rolledBack_iff : (∃ r ∈ b.context.history, r.rolledBack = true) ↔
    b.context.state = .rolledBack := by
  rw [Ending.rolledBack_iff_of_halts h.halts h.settles.state]
  constructor
  · rintro ⟨r, hr, hback⟩
    obtain ⟨i, hi⟩ := List.mem_iff_getElem?.mp hr
    exact (h.restored_of_rolledBack hi hback).2
  · intro he
    obtain ⟨r, -, hlast, -, -, hback⟩ := h.result
    refine ⟨r, List.mem_of_getElem? hlast, ?_⟩
    rw [hback]
    exact decide_eq_true he

theorem aborted_iff : b.context.state = .aborted ↔ ∃ front p back,
    b.progress.happened = front ++ .refusal p :: back ∧ ∀ o ∈ front, o.isCall = false := by
  rw [Ending.aborted_iff_of_halts h.halts h.settles.state]
  by_cases he : e = .unrecorded
  · have hos := h.settles.occurrences
    rw [if_pos he] at hos
    have hfront : ∀ p, Occurrence.refusal p ∉ chronicle acts ++ [Occurrence.start phase] := by
      intro p
      simp [refusal_not_mem_chronicle h.calls p]
    have hsplit : b.progress.happened =
        (chronicle acts ++ [.start phase]) ++ [.refusal (some phase)] := by
      rw [h.happened, hos]
      simp
    have hcalled : (chronicle acts ++ [Occurrence.start phase]).any Occurrence.isCall =
        c.mutated := by
      rw [List.any_append, ← h.mutated]
      exact Bool.or_false _
    rw [hsplit, refused_first_iff _ hfront, hcalled]
    exact and_iff_right he
  · refine iff_of_false (fun haborted ↦ he haborted.1) ?_
    rintro ⟨front, p, back, heq, -⟩
    exact he ((h.refusal_mem_iff p).mp (heq ▸ by simp)).1

/-- A run ends with the first phase that has neither passed nor is tolerated. -/
theorem outcome : RunOutcome (acts.map (·.1) ++ phase :: rest) config b := by
  obtain ⟨r, hhistory, hlastResult, hname, hfailed, -⟩ := h.result
  have hlast : (acts.map (·.1) ++ phase :: rest)[acts.length]? = some phase := by
    rw [List.getElem?_append_right (by simp)]
    simp
  constructor
  case refused => exact fun hnone ↦ by cases ((h.refusal_mem_iff none).mp hnone).2
  case happened =>
    refine fun _ ↦ ⟨acts ++ [(phase, os)], ?_, ?_, ?_⟩
    · rw [h.take_phases]
      simp
    · rw [h.happened, chronicle_concat]
    · intro act hact o ho
      rcases List.mem_append.mp hact with hact | hact
      · exact .inl (h.calls act hact o ho)
      · rw [List.mem_singleton.mp hact] at ho ⊢
        exact h.occurrences o ho
  case names =>
    rw [h.take_phases, hhistory, List.map_append, names_of_passes h.results, List.map_append,
      List.map_map]
    simp [hname, Function.comp_def]
  case earlier =>
    intro i phase' r' hphase hr hi
    rw [h.length_history] at hi
    exact (h.earlier (Nat.lt_of_succ_lt_succ hi) hphase hr).1
  case proper =>
    refine fun _ _ ↦ ⟨phase, r, ?_, ?_, hfailed, h.required_or_refused⟩
    · rw [h.length_history]
      exact hlast
    · rw [hhistory, List.getLast?_concat]
  case rolledBack =>
    intro i r' hr hback
    rw [h.length_history, (h.restored_of_rolledBack hr hback).1]
  case rolledBack_iff => exact h.rolledBack_iff
  case aborted_iff => exact h.aborted_iff
  case completed_iff =>
    refine iff_of_false h.not_completed ?_
    rintro ⟨hnone, hrequired, -⟩
    have hphase := h.required_or_refused.resolve_right (hnone (some phase))
    rw [hrequired _ phase r hlast hlastResult hphase] at hfailed
    cases hfailed
  case error_iff =>
    have herror := h.settles.error
    rw [if_pos h.halts] at herror
    exact iff_of_false herror h.not_completed
  case terminal => exact (Ending.isTerminal_of_halts h.halts h.settles.state).1

end Halted

theorem RunEnding.inWorld (h : RunEnding phases config b) (w : World) :
    RunEnding phases config { b with world := w } :=
  { h with }

end Endings

/-! ### The course of a run -/

section Course

variable {config : RunConfig} {acts : List (Phase × List Occurrence)} {os : List Occurrence}
  {b : Bench} {phase : Phase}

theorem Underway.inWorld (h : Underway config acts os b) (w : World) :
    Underway config acts os { b with world := w } :=
  { h with }

theorem Underway.moved (h : Underway config acts os b) {target : RunState}
    (htarget : target ∈ [RunState.backingUp, .executing, .retrying]) (name : Option String)
    (reason : String) (w : World) :
    Underway config acts os ⟨w, b.store, (b.moved target name reason).context,
      (b.moved target name reason).progress⟩ :=
  { h with
    state := htarget
    mutated := h.mutated.trans (by rw [Bench.happened_moved])
    happened := by simpa using h.happened }

theorem Underway.begun (h : Underway config acts [] b) (phase : Phase) :
    Underway config acts [.start phase] (b.note (.start phase)) :=
  { h with
    mutated := by
      rw [b.happened_note rfl, List.any_append, ← h.mutated]
      exact (Bool.or_false _).symm
    happened := by
      rw [b.happened_note rfl, h.happened, List.append_nil] }

/-- A phase that does not end the run joins those before it. -/
theorem Underway.next (h : Underway config acts [.start phase] b) {e : Ending} {b' : Bench}
    (hsettles : Settles phase e os b.context b'.context) (hgoes : e.halts = false)
    (hhappened : b'.progress.happened = b.progress.happened ++ os) :
    Underway config (acts ++ [(phase, os)]) [] b' := by
  obtain ⟨r, hhistory, hname, hsuccess, hback⟩ := hsettles.result
  have hrecorded : e ≠ .unrecorded := by
    rintro rfl
    cases hgoes
  have hcalls := hsettles.occurrences
  have herror := hsettles.error
  rw [if_neg hrecorded] at hcalls
  rw [hgoes] at herror
  have hpasses : Passes (phase, os) r := by
    refine ⟨hname, ?_, ?_⟩
    · rw [hsuccess]
      have hfits := hsettles.fits
      cases e <;> simp_all [Ending.halts, Ending.fits]
    · rw [hback]
      cases e <;> simp_all [Ending.halts]
  constructor
  case results =>
    rw [hhistory]
    exact List.rel_append h.results (.cons hpasses .nil)
  case state =>
    have hstate := hsettles.state
    cases e with
    | passed => exact List.mem_cons_of_mem _ hstate
    | tolerated => exact List.mem_cons_of_mem _ hstate
    | _ => cases hgoes
  case error => exact herror.trans h.error
  case validation => exact hsettles.validation.trans h.validation
  case config => exact hsettles.config.trans h.config
  case mutated => rw [hsettles.mutated, h.mutated, hhappened, List.any_append]
  case happened =>
    rw [hhappened, h.happened, chronicle_concat, List.append_assoc, List.append_nil]
    rfl
  case calls =>
    intro act hact
    rcases List.mem_append.mp hact with hact | hact
    · exact h.calls act hact
    · rw [List.mem_singleton.mp hact]
      exact hcalls

/-- A phase that ends the run determines its outcome. -/
theorem Underway.halted (h : Underway config acts [.start phase] b) {e : Ending} {b' : Bench}
    (hsettles : Settles phase e os b.context b'.context) (hhalts : e.halts = true)
    (hhappened : b'.progress.happened = b.progress.happened ++ os) (rest : List Phase) :
    RunEnding (acts.map (·.1) ++ phase :: rest) config b' := by
  have hhalted : Halted acts phase e os b.context b' := {
    results := h.results
    calls := h.calls
    mutated := by
      rw [h.mutated, h.happened, List.any_append]
      exact Bool.or_false _
    settles := hsettles
    halts := hhalts
    happened := by
      rw [hhappened, h.happened, List.append_assoc]
      rfl }
  refine ⟨hhalted.outcome, fun hfailed hback ↦ .inl ?_⟩
  rcases Ending.left_or_unrecorded_of_failed hsettles.state hfailed with he | he
  · have hleft := hsettles.left he
    rw [h.config, hback] at hleft
    cases hleft
  · have hos := hsettles.occurrences
    rw [if_pos he] at hos
    exact ⟨some phase, by rw [hhappened, hos]; simp⟩

/-- The checks have been run, or are not to be. -/
structure Validated (config : RunConfig) (acts : List (Phase × List Occurrence)) (b : Bench) :
    Prop where
  results : List.Forall₂ Passes acts b.context.history
  state : b.context.state = .validating ∨
    b.context.validation = none ∧ b.context.state ∈ [.backingUp, .executing, .retrying]
  error : b.context.error = none
  config : b.context.config = config
  happened : b.progress.happened = chronicle acts
  calls : ∀ act ∈ acts, ∀ o ∈ act.2, o.IsCallOf act.1

namespace RunAct

theorem ends_runValidation {crew : Crew} (h : Underway config acts [] b) :
    Ends (runValidation crew) b (fun _ b' ↦ Validated config acts b') fun e _ ↦ e.Ordinary := by
  have hhappened : b.progress.happened = chronicle acts := by rw [h.happened, List.append_nil]
  unfold runValidation
  refine ends_bind.mpr (ends_get.mpr ?_)
  dsimp only
  split
  · split
    · refine ends_update.mpr { h with state := .inr ⟨h.validation, h.state⟩, happened := ?_ }
      rw [Bench.happened_change, hhappened]
    · have hnext : .validating ∈ b.context.state.next := by
        have hstate := h.state
        simp only [List.mem_cons, List.not_mem_nil, or_false] at hstate
        rcases hstate with hs | hs | hs <;> rw [hs] <;> decide
      refine ends_bind.mpr (ends_moveTo_of_next hnext fun w _ ↦ ?_)
      refine ends_liftThen (raises_validate _) fun summary w ↦ ends_update.mpr ?_
      refine { h with state := .inl rfl, happened := ?_ }
      rw [Bench.happened_change, Bench.happened_moved, hhappened]
  · exact ends_pure.mpr { h with state := .inr ⟨h.validation, h.state⟩, happened := hhappened }

theorem all_iff_none_or_any {α : Type} (f : α → Bool) (x : Option α) :
    x.all f = true ↔ x = none ∨ x.any f = true := by
  cases x <;> simp

theorem ends_conclude (h : Validated config acts b) :
    Ends conclude b (fun _ b' ↦ RunEnding (acts.map (·.1)) config b') fun e _ ↦ e.Ordinary := by
  have hcompleted : .completed ∈ b.context.state.next := by
    rcases h.state with hs | ⟨-, hs⟩
    · rw [hs]
      decide
    · simp only [List.mem_cons, List.not_mem_nil, or_false] at hs
      rcases hs with hs | hs | hs <;> rw [hs] <;> decide
  unfold conclude
  refine ends_bind.mpr (ends_get.mpr ?_)
  dsimp only
  split
  · rename_i hall
    refine ends_moveTo_of_next hcompleted fun w _ ↦ ?_
    refine Concluded.ending ⟨h.results, h.calls, ?_, ?_, ?_⟩
    · rw [Bench.happened_moved, h.happened]
    · refine (if_pos ?_).symm
      rcases (all_iff_none_or_any _ _).mp hall with hnone | hany
      · exact .inl hnone
      · exact .inr (.inl hany)
    · exact iff_of_true h.error rfl
  · rename_i hall
    split
    · rename_i hcontinue
      refine ends_bind.mpr (ends_update.mpr (ends_moveTo_of_next hcompleted fun w _ ↦ ?_))
      refine Concluded.ending ⟨h.results, h.calls, ?_, ?_, ?_⟩
      · rw [Bench.happened_moved, Bench.happened_change, h.happened]
      · exact (if_pos (.inr (.inr (h.config ▸ hcontinue)))).symm
      · exact iff_of_true h.error rfl
    · rename_i hstop
      -- Without checks the run would be completed, so it is validating.
      have hstate : b.context.state = .validating := by
        rcases h.state with hs | ⟨hnone, -⟩
        · exact hs
        · exact absurd ((all_iff_none_or_any _ _).mpr (.inl hnone)) hall
      refine ends_bind.mpr (ends_update.mpr (ends_moveTo_of_next ?_ fun w _ ↦ ?_))
      · show RunState.failed ∈ b.context.state.next
        rw [hstate]
        decide
      refine Concluded.ending ⟨h.results, h.calls, ?_, ?_, ?_⟩
      · rw [Bench.happened_moved, Bench.happened_change, h.happened]
      · refine (if_neg ?_).symm
        rintro (hnone | hany | hcontinue)
        · exact hall ((all_iff_none_or_any _ _).mpr (.inl hnone))
        · exact hall ((all_iff_none_or_any _ _).mpr (.inr hany))
        · exact hstop (h.config ▸ hcontinue)
      · refine iff_of_false ?_ ?_
        · intro h
          cases h
        · intro h
          cases h

/-- Carrying out the phases that are left over gives a run that is underway its outcome. -/
theorem ends_runPhases {crew : Crew} (whole : Option Snapshot) (rest : List Phase)
    (h : Underway config acts [] b) :
    Ends (runPhases crew whole rest) b
      (fun _ b' ↦ RunEnding (acts.map (·.1) ++ rest) config b') fun e _ ↦ e.Ordinary := by
  refine ends_runPhases_of (P := fun part b ↦ ∃ acts', acts'.map (·.1) ++ part =
    acts.map (·.1) ++ rest ∧ Underway config acts' [] b) ?_ ?_ ⟨acts, rfl, h⟩
  · rintro b ⟨acts', hacts, h⟩
    rw [← hacts, List.append_nil]
    exact (ends_runValidation h).bind fun _ _ h ↦ ends_conclude h
  · rintro phase part b ⟨acts', hacts, h⟩
    rw [← hacts]
    have hbegun : ∀ {b₁ : Bench}, Underway config acts' [] b₁ → b₁.context.state = .executing →
        Ends (runPhase crew whole phase) (b₁.entered phase)
          (fun _ b₂ ↦ b₂.Forks
            (RunEnding (acts'.map (·.1) ++ phase :: part) config (b₂.unbound "phase"))
            (∃ acts'', acts''.map (·.1) ++ part = acts'.map (·.1) ++ phase :: part ∧
              Underway config acts'' [] (b₂.unbound "phase")))
          fun e _ ↦ e.Ordinary := by
      intro b₁ h₁ hstate
      have h₂ : Underway config acts' [.start phase] (b₁.entered phase) :=
        (h₁.begun phase).inWorld _
      refine (ends_runPhase (b := b₁.entered phase) hstate).mono ?_ fun _ _ he ↦ he
      rintro _ b₂ ⟨e, os, hsettles, hhappened⟩
      cases hhalts : e.halts with
      | true =>
        exact .of_ended (Ending.isTerminal_of_halts hhalts hsettles.state).1
          ((h₂.halted hsettles hhalts hhappened part).inWorld _)
      | false =>
        refine .of_onward (Ending.not_isTerminal_of_goes hhalts hsettles.state)
          ⟨_, ?_, (h₂.next hsettles hhalts hhappened).inWorld _⟩
        simp
    refine ends_moveTo (fun hsame ↦ hbegun h hsame) (fun _ w _ ↦ ?_) ?_
    · exact hbegun (h.moved (by simp) _ _ w) rfl
    · intro hne hnext
      have hstate := h.state
      simp only [List.mem_cons, List.not_mem_nil, or_false] at hstate
      rcases hstate with hs | hs | hs
      · rw [hs] at hnext
        exact absurd (by decide) hnext
      · exact absurd hs hne
      · rw [hs] at hnext
        exact absurd (by decide) hnext

/-- The files of all phases are recorded, or need not be, or the run is over. -/
theorem ends_recordAll {phases : List Phase} (h : Underway config [] [] b)
    (hstate : b.context.state = .backingUp) :
    Ends (recordAll phases) b
      (fun _ b' ↦ Underway config [] [] b' ∨
        b'.context.state = .aborted ∧ RunEnding phases config b')
      fun e _ ↦ e.Ordinary := by
  have hfiles : Ends (phases.mapM filesOf) b (fun _ b' ↦ b' = b) fun e _ ↦ e.Ordinary :=
    (ends_mapM (fun p ↦ (ends_filesOf p b).mono (fun _ _ h ↦ ⟨h, trivial⟩) fun _ _ h ↦ h)
      phases).mono (fun _ _ h ↦ h.1) fun _ _ h ↦ h.2
  refine ends_recordAll_of ?_
  constructor
  case idle => exact fun _ ↦ .inl h
  case unbacked =>
    refine fun _ ↦ ends_lift_of_raises (Act.raises_log _ _ _) (fun _ w ↦ .inl ?_) fun _ _ he ↦ he
    exact { h with
      mutated := h.mutated.trans (by rw [Bench.unbacked, Bench.happened_change])
      happened := by rw [Bench.unbacked, Bench.happened_change, h.happened] }
  case recorded =>
    intro _ _ _
    refine hfiles.mono ?_ fun _ _ he ↦ he
    rintro files b' rfl
    refine (ends_takeSnapshot _ _ _).mono ?_ ?_
    · rintro s b' ⟨hcontext, hhappened⟩
      obtain ⟨w, store, context, progress⟩ := b'
      cases hcontext
      exact .inl { h with
        mutated := h.mutated.trans (by rw [hhappened])
        happened := hhappened.trans h.happened }
    · rintro e b' ⟨hordinary, hcontext, hhappened⟩
      refine ⟨fun _ ↦ ends_moveTo_of_next ?_ fun w _ ↦ .inr ⟨rfl, ?_⟩, hordinary⟩
      · show RunState.aborted ∈ b'.context.state.next
        rw [hcontext, hstate]
        decide
      · refine ⟨outcome_of_refused ?_ ?_ rfl fun hnone ↦ (by cases hnone), fun hfailed ↦ ?_⟩
        · exact (congrArg RunContext.history hcontext).trans
            (List.forall₂_nil_left_iff.mp h.results)
        · rw [Bench.happened_moved, Bench.refused, Bench.happened_change, b'.happened_note rfl,
            hhappened, h.happened]
          rfl
        · cases hfailed

theorem ends_execute {crew : Crew} {phases : List Phase} {runId : String} {project : Route}
    (hcontext : b.context = { runId := runId, project := project, config := config })
    (hhappened : b.progress.happened = []) :
    Ends (execute crew phases) b (fun _ b' ↦ RunEnding phases config b') fun e _ ↦ e.Ordinary := by
  obtain ⟨world, store, context, progress⟩ := b
  cases hcontext
  refine ends_execute_of (ends_moveTo_of_next (by simp [RunState.next]) fun w _ ↦ ?_)
  refine (ends_recordAll ?_ rfl).mono
    (fun whole b' (hb : Underway config [] [] b' ∨ _) ↦ ?_) fun _ _ h ↦ h
  · exact {
      results := .nil
      state := List.mem_cons_self
      error := rfl
      validation := rfl
      config := rfl
      mutated := by
        rw [Bench.happened_moved, hhappened]
        rfl
      happened := (Bench.happened_moved _ _ _ _).trans hhappened
      calls := by simp }
  rcases hb with hb | ⟨haborted, houtcome⟩
  · have hgoing : b'.context.isFinished = false := by
      have hs := hb.state
      simp only [List.mem_cons, List.not_mem_nil, or_false] at hs
      unfold RunContext.isFinished
      rcases hs with hs | hs | hs <;> rw [hs] <;> rfl
    exact .of_onward hgoing (by simpa using ends_runPhases whole phases hb)
  · have hfinished : b'.context.isFinished = true := by
      unfold RunContext.isFinished
      rw [haborted]
      rfl
    exact .of_ended hfinished houtcome

end RunAct

end Course

section Run

variable (crew : Crew) (phases : List Phase) (world : World) (store : Store) (runId : String)
  (project : Route) (config : RunConfig)

theorem RunAct.ends_run_ending : Ends (run crew phases) (.fresh world store runId project config)
    (fun _ b ↦ RunEnding (phases.mergeSort fun p q ↦ p.priority ≤ q.priority) config b)
    fun e _ ↦ e.Ordinary := by
  refine ends_run_of fun fields ↦
    ends_lift_of_raises (Act.raises_log _ _ _) (fun _ w ↦ ?_) fun _ _ he ↦ he
  refine (ends_execute rfl rfl).mono (fun _ b h ↦ ?_) fun _ _ he ↦ he
  refine ends_lift_of_raises (Act.raises_count _ _ _) (fun _ w ↦ ?_) fun _ _ he ↦ he
  refine ⟨fun e ↦ RunContext.ordinary_of_fixedCount, fun fixed _ fields ↦ ?_⟩
  exact ends_lift_of_raises (Act.raises_log _ _ _) (fun _ w ↦ h.inWorld w) fun _ _ he ↦ he

theorem RunAct.ends_run_ordinary : Ends (run crew phases) (.fresh world store runId project config)
    (fun _ b ↦ RunOutcome (phases.mergeSort fun p q ↦ p.priority ≤ q.priority) config b)
    fun e _ ↦ e.Ordinary :=
  (ends_run_ending crew phases world store runId project config).mono
    (fun _ _ h ↦ h.toRunOutcome) fun _ _ h ↦ h

theorem RunAct.ends_run : Ends (run crew phases) (.fresh world store runId project config)
    (fun _ b ↦ RunOutcome (phases.mergeSort fun p q ↦ p.priority ≤ q.priority) config b)
    fun e _ ↦ e.Foreign :=
  (ends_run_ordinary crew phases world store runId project config).mono (fun _ _ h ↦ h)
    fun _ _ h ↦ h.foreign

/-- Every run that returns has an outcome: its history determines how it has ended. The phases are
those that it was given, in order of priority, and those of one priority in the given order. -/
theorem RunAct.outcome_of_run : Ends (run crew phases) (.fresh world store runId project config)
    (fun _ b ↦ RunOutcome (phases.mergeSort fun p q ↦ p.priority ≤ q.priority) config b)
    fun _ _ ↦ True :=
  (ends_run crew phases world store runId project config).mono (fun _ _ h ↦ h) fun _ _ _ ↦ trivial

end Run

end Remedy
