import Remedy.Proofs.Run.Attempts

/-!
# What a phase is charged

A phase that gets a result is charged for it. If it was carried out, what was charged for the
attempts, and then for its success, its failure or the return of its files, is what the result says
(`Carried`); if it was only rehearsed, or its files could not be recorded, nothing is charged. These
are the ways in which a phase can be entered in the books (`Bench.Books`), and
`RunAct.ends_runPhase_books` is that every phase that gets a result is.
-/

set_option autoImplicit false

namespace Remedy

open Meter (Tally)

/-! ### Results -/

/-- Between the benches one result has been added, and the charges have been made. -/
structure Bench.Enters (r : PhaseResult) (cs : List Charge) (b b' : Bench) : Prop where
  history : b'.context.history = b.context.history ++ [r]
  config : b'.context.config = b.context.config
  refusals : b'.refusals = b.refusals
  bills : b.world.Bills cs b'.world

namespace Bench

variable {b b' b'' : Bench} {cs cs' : List Charge} {r : PhaseResult} {phase : Phase}

theorem Charged.enters (h : b.Charged cs b') (h' : b'.Enters r cs' b'') :
    b.Enters r (cs ++ cs') b'' where
  history := by rw [h'.history, h.history]
  config := h'.config.trans h.config
  refusals := h'.refusals.trans h.refusals
  bills := h.bills.trans h'.bills

theorem Enters.charged (h : b.Enters r cs b') (h' : b'.Charged cs' b'') :
    b.Enters r (cs ++ cs') b'' where
  history := h'.history.trans h.history
  config := h'.config.trans h.config
  refusals := h'.refusals.trans h.refusals
  bills := h.bills.trans h'.bills

theorem Enters.aside (h : b.Enters r cs b') (h' : b'.Aside b'') : b.Enters r cs b'' := by
  simpa using h.charged h'

theorem enters_record (b : Bench) (r : PhaseResult) : b.Enters r [] (b.change (·.record r)) :=
  ⟨rfl, rfl, b.refusals_change _, .refl b.world.meter⟩

end Bench

/-- What a phase was charged that has been carried out is what its result says. -/
theorem Attempts.balance {phase : Phase} {r : PhaseResult} {cs extra : List Charge}
    (h : Attempts phase.cause r.attempts r.attempts cs)
    (hattempts : Meter.items .fixerAttempts extra = [])
    (htimeouts : Meter.items .fixerTimeouts extra = [])
    (hexecuted : Meter.due .phasesExecuted extra = 1)
    (hfailed : Meter.due .phasesFailed extra = if r.success then 0 else 1)
    (hrolledBack : Meter.due .phasesRolledBack extra = if r.rolledBack then 1 else 0)
    (hfixed : r.fixedCount.Is (Meter.due .errorsFixed extra))
    (hunfixed : r.success = false ∨ r.rolledBack = true → r.fixedCount = 0)
    (hobservations : extra.countP (·.isObservation) = if 0 < r.attempts then 1 else 0)
    (hfinished : Meter.items .runsFinished extra = []) :
    Balance [(phase, r)] [(phase, r)] [] (cs ++ extra) := by
  have hdue : ∀ tally, tally ≠ .fixerAttempts → tally ≠ .fixerTimeouts →
      Meter.due tally (cs ++ extra) = Meter.due tally extra := by
    intro tally hcalls hoverdue
    rw [Meter.due_append, h.due_others hcalls hoverdue, Nat.zero_add]
  have hcalls : Meter.due .fixerAttempts (cs ++ extra) = r.attempts := by
    rw [Meter.due_append, h.due_calls, Meter.due, hattempts]
    rfl
  constructor
  case attempts => simpa using hcalls
  case attemptsOf =>
    intro cause
    rw [Meter.items_append, hattempts, List.append_nil, h.dueUnder_calls]
    by_cases hcause : phase.cause = cause <;> simp [hcause]
  case timeouts =>
    rw [hcalls, Meter.due_append, Meter.due, Meter.due, htimeouts]
    exact h.overdue
  case executed =>
    rw [hdue .phasesExecuted (by decide) (by decide), hexecuted]
    rfl
  case failed =>
    rw [hdue .phasesFailed (by decide) (by decide), hfailed]
    cases hsuccess : r.success <;> simp [hsuccess]
  case rolledBack =>
    rw [hdue .phasesRolledBack (by decide) (by decide), hrolledBack]
    cases hback : r.rolledBack <;> simp [hback]
  case fixed =>
    refine ⟨[Meter.due .errorsFixed extra], .cons hfixed .nil, ?_⟩
    rw [hdue .errorsFixed (by decide) (by decide)]
    simp
  case unfixed => exact List.forall_mem_singleton.mpr hunfixed
  case observations =>
    rw [List.countP_append, h.observations, Nat.zero_add, hobservations]
    by_cases hattempts : 0 < r.attempts <;> simp [hattempts]
  case finished =>
    intro state
    rw [Meter.items_append, h.others .runsFinished (by decide) (by decide), hfinished]
    rfl
  case runs =>
    rw [hdue .runsFinished (by decide) (by decide), Meter.due, hfinished]
    rfl

namespace Charge

/-- A phase that has been carried out and has failed. -/
def failure (cause : RootCause) : List Charge :=
  [.add .phasesExecuted cause.labels 1, .add .phasesFailed cause.labels 1]

/-- The files of a phase that have been put back, if they have. -/
def rollback (cause : RootCause) (r : PhaseResult) : List Charge :=
  if r.rolledBack then [.add .phasesRolledBack cause.labels 1] else []

theorem items_failure (cause : RootCause) (tally : Tally) :
    Meter.items tally (failure cause) =
      if tally = .phasesExecuted ∨ tally = .phasesFailed then [(cause.labels, 1)] else [] := by
  cases tally <;> rfl

theorem items_rollback (cause : RootCause) (r : PhaseResult) (tally : Tally) :
    Meter.items tally (rollback cause r) =
      if r.rolledBack && decide (tally = .phasesRolledBack) then [(cause.labels, 1)] else [] := by
  unfold rollback
  cases r.rolledBack <;> cases tally <;> rfl

end Charge

/-- A phase failed after so many attempts, and `extra` was charged besides. -/
def Failed (attempts : ℕ) (extra : PhaseResult → List Charge) (b b' : Bench) : Prop :=
  ∃ r : PhaseResult, (r.attempts = attempts ∧ r.success = false ∧ r.fixedCount = 0) ∧
    b.Enters r (extra r) b'

/-- The phase has been carried out, and what was charged for it is what its result says. -/
def Carried (phase : Phase) (b b' : Bench) : Prop :=
  ∃ r cs, b.Enters r cs b' ∧ Balance [(phase, r)] [(phase, r)] [] cs

theorem Attempted.enters {phase : Phase} {calls overdue : ℕ} {b₀ b b' : Bench} {r : PhaseResult}
    {extra : List Charge} (h : Attempted phase calls overdue b₀ b) (h' : b.Enters r extra b') :
    ∃ cs, Attempts phase.cause calls overdue cs ∧ b₀.Enters r (cs ++ extra) b' := by
  obtain ⟨cs, hcs, hbills⟩ := h.charges
  exact ⟨cs, hcs, by rw [h'.history, h.history], h'.config.trans h.config,
    h'.refusals.trans h.refusals, hbills.trans h'.bills⟩

/-- A phase that fails is charged for its attempts and its failure; how long it took has been
observed if there were any. -/
theorem Attempted.carried_of_failed {phase : Phase} {attempts : ℕ} {b₀ b b' : Bench}
    (observed : List Charge) (h : Attempted phase attempts attempts b₀ b)
    (hobserved : ∀ tally, Meter.items tally observed = [])
    (hcount : observed.countP (·.isObservation) = if 0 < attempts then 1 else 0)
    (hfailed : Failed attempts (fun r ↦ observed ++ Charge.failure phase.cause ++
      Charge.rollback phase.cause r) b b') : Carried phase b₀ b' := by
  obtain ⟨r, ⟨rfl, hsuccess, hfixed⟩, henters⟩ := hfailed
  obtain ⟨cs, hcs, henters⟩ := h.enters henters
  have hitems : ∀ tally, Meter.items tally (observed ++ Charge.failure phase.cause ++
      Charge.rollback phase.cause r) =
      (if tally = .phasesExecuted ∨ tally = .phasesFailed then [(phase.cause.labels, 1)] else []) ++
        if r.rolledBack && decide (tally = .phasesRolledBack) then [(phase.cause.labels, 1)]
        else [] := by
    intro tally
    rw [Meter.items_append, Meter.items_append, hobserved, List.nil_append, Charge.items_failure,
      Charge.items_rollback]
  have hobservations : (observed ++ Charge.failure phase.cause ++
      Charge.rollback phase.cause r).countP (·.isObservation) = if 0 < r.attempts then 1 else 0 := by
    rw [List.countP_append, List.countP_append, hcount]
    cases hback : r.rolledBack <;>
      simp [Charge.failure, Charge.rollback, hback, Charge.isObservation]
  dsimp only at henters
  generalize observed ++ Charge.failure phase.cause ++ Charge.rollback phase.cause r = extra at *
  refine ⟨r, _, henters, hcs.balance ?_ ?_ ?_ ?_ ?_ ?_ (fun _ ↦ hfixed)
    hobservations ?_⟩
  · simp [hitems]
  · simp [hitems]
  · simp [Meter.due, hitems]
  · simp [Meter.due, hitems, hsuccess]
  · cases hback : r.rolledBack <;> simp [Meter.due, hitems, hback]
  · have hnone : Meter.due .errorsFixed extra = 0 := by simp [Meter.due, hitems]
    rw [hfixed, hnone]
    rfl
  · simp [hitems]

namespace RunAct

section Results

variable {b₀ b : Bench} {phase : Phase} {attempts : ℕ} {elapsed : Number}

theorem ends_observe_charged (b : Bench) :
    Ends (observeDuration phase elapsed) b
      (fun _ b' ↦ b.Charged [.observe elapsed phase.cause.labels] b') fun _ _ ↦ False :=
  ends_lift.mpr (ends_modify.mpr (Bench.charged_of_bills (.refl _)))

theorem ends_settleSuccess_carried {r : FixReport} {n : ℕ}
    (h : Attempted phase attempts attempts b₀ b) (hattempts : 1 ≤ attempts)
    (hr : r.fixedCount.amount.Is n) :
    Ends (settleSuccess phase r attempts elapsed) b (fun _ b' ↦ Carried phase b₀ b')
      fun _ _ ↦ True := by
  unfold settleSuccess
  refine ((ends_countOne_charged _ _ _).mono (fun _ _ h ↦ h) fun _ _ _ ↦ trivial).bind ?_
  intro _ b₁ h₁
  refine ((ends_observe_charged b₁).mono (fun _ _ h ↦ h₁.trans h) fun _ _ _ ↦ trivial).bind ?_
  intro _ b₂ h₂
  refine ((ends_count_charged hr _ _).mono (fun _ _ h ↦ h₂.trans h) fun _ _ h ↦ h).bind ?_
  intro _ b₃ h₃
  dsimp only
  split
  · exact ends_throw.mpr trivial
  · refine ends_bind.mpr (ends_update.mpr ((aside_log _ _ _ _).mono ?_ fun _ _ _ ↦ trivial))
    intro _ b' hlog
    obtain ⟨cs, hcs, henters⟩ := h.enters ((h₃.enters (b₃.enters_record _)).aside hlog)
    refine ⟨_, _, henters, hcs.balance rfl rfl rfl rfl rfl ?_ ?_ ?_ rfl⟩
    · simpa [Meter.due, Meter.items, Charge.item?] using hr
    · simp
    · exact (if_pos hattempts).symm

theorem ends_rollBack_failed {snapshot : Snapshot} {message : String} (b : Bench) :
    Ends (rollBack phase snapshot message attempts elapsed) b
      (fun _ b' ↦ Failed attempts (Charge.rollback phase.cause) b b') fun _ _ ↦ True := by
  have haside : ∀ {α : Type} {act : RunAct α} {b b₁ : Bench}, Keeps Bench.Aside act → b.Aside b₁ →
      Ends act b₁ (fun _ b' ↦ b.Aside b') fun _ _ ↦ True := fun hact h ↦
    (hact _).mono (fun _ _ h' ↦ h.aside h') fun _ _ _ ↦ trivial
  have hmoved : ∀ {cs : List Charge} {r : PhaseResult} {b b₁ : Bench} {target name reason},
      b.Enters r cs b₁ → Ends (moveTo target name reason) b₁ (fun _ b' ↦ b.Enters r cs b')
        fun _ _ ↦ True := fun h ↦
    (aside_moveTo _ _ _ _).mono (fun _ _ h' ↦ h.aside h') fun _ _ _ ↦ trivial
  unfold rollBack
  refine (haside (aside_moveTo _ _ _) (.refl b)).bind fun _ b₁ h₁ ↦ ?_
  refine (haside (aside_lift Act.isOffsite_unbilled.keeps_giveWay) h₁).bind fun _ b₂ h₂ ↦ ?_
  refine (haside (aside_lift (Store.keeps_restore Act.isOffsite_unbilled snapshot)).attempt
    h₂).bind fun outcome b₃ h₃ ↦ ?_
  split
  · refine ends_bind.mpr (ends_update.mpr (ends_bind.mpr (ends_update.mpr ?_)))
    refine (hmoved ((h₃.aside (Bench.aside_change rfl rfl)).enters
      (Bench.enters_record _ _))).mono (fun _ b' h ↦ ⟨_, ⟨rfl, rfl, rfl⟩, h⟩) fun _ _ h ↦ h
  · exact ends_throw.mpr trivial
  · refine ((ends_countOne_charged _ _ _).mono (fun _ _ h ↦ Bench.Charged.trans h₃ h)
      fun _ _ _ ↦ trivial).bind fun _ b₄ h₄ ↦ ?_
    refine ends_bind.mpr (ends_update.mpr (ends_bind.mpr (ends_update.mpr ?_)))
    refine (hmoved ((h₄.aside (Bench.aside_change rfl rfl)).enters
      (Bench.enters_record _ _))).mono (fun _ b' h ↦ ⟨_, ⟨rfl, rfl, rfl⟩, h⟩) fun _ _ h ↦ h

theorem ends_settleFailure_failed {snapshot : Option Snapshot} {message : String} (b : Bench) :
    Ends (settleFailure phase snapshot message attempts elapsed) b
      (fun _ b' ↦ Failed attempts (fun r ↦ Charge.failure phase.cause ++
        Charge.rollback phase.cause r) b b') fun _ _ ↦ True := by
  unfold settleFailure
  refine ((ends_countOne_charged _ _ _).mono (fun _ _ h ↦ h) fun _ _ _ ↦ trivial).bind ?_
  intro _ b₁ h₁
  refine ((ends_countOne_charged _ _ _).mono (fun _ _ h ↦ h₁.trans h) fun _ _ _ ↦ trivial).bind ?_
  intro _ b₂ h₂
  refine ((aside_log _ _ _ _).mono (fun _ _ h ↦ h₂.aside h) fun _ _ _ ↦ trivial).bind ?_
  intro _ b₃ h₃
  refine ends_bind.mpr (ends_get.mpr ?_)
  dsimp only
  split
  · refine (ends_rollBack_failed b₃).mono ?_ fun _ _ h ↦ h
    rintro _ b' ⟨r, hr, henters⟩
    exact ⟨r, hr, h₃.enters henters⟩
  · refine ends_bind.mpr (ends_update.mpr ?_)
    have henters := h₃.enters (b₃.enters_record
      { phase := phase.name, success := false, message := message, executionTime := elapsed,
        attempts := attempts })
    split
    · refine ends_bind.mpr (ends_update.mpr ((aside_moveTo _ _ _ _).mono ?_ fun _ _ _ ↦ trivial))
      intro _ b' hmoved
      exact ⟨_, ⟨rfl, rfl, rfl⟩, (henters.aside (Bench.aside_change rfl rfl)).aside hmoved⟩
    · exact ends_pure.mpr ⟨_, ⟨rfl, rfl, rfl⟩, henters⟩

/-! ### Phases -/

theorem ends_carryOut_carried {files : List Route} {snapshot : Option Snapshot} {fixer : Fixer}
    (hwhole : ∀ request site reply, (fixer.fix request site).1.outcome = .ok reply → reply.Whole)
    (b : Bench) :
    Ends (carryOut phase files snapshot fixer) b (fun _ b' ↦ Carried phase b b')
      fun _ _ ↦ True := by
  unfold carryOut
  refine ends_bind.mpr (ends_get.mpr (ends_bind.mpr (ends_get.mpr (ends_bind.mpr ?_))))
  refine ends_attempt.mpr ((ends_attempts_charged hwhole).mono ?_ ?_)
  · rintro r b₁ ⟨n, hn, ⟨hattempted, hattempt⟩, k, hk⟩
    refine ends_bind.mpr ((aside_lift (Act.isOffsite_unbilled.keeps_since _) b₁).mono ?_
      fun _ _ _ ↦ trivial)
    intro elapsed b₂ haside
    refine ends_bind.mpr (ends_get.mpr ?_)
    rw [haside.attempt, hattempt]
    exact ends_settleSuccess_carried (hattempted.aside haside) hn hk
  · rintro fault b₁ ⟨n, hn, hfails⟩
    refine ends_bind.mpr ((aside_lift (Act.isOffsite_unbilled.keeps_since _) b₁).mono ?_
      fun _ _ _ ↦ trivial)
    intro elapsed b₂ haside
    refine ends_bind.mpr (ends_get.mpr ?_)
    dsimp only
    split
    · rename_i hfailed
      obtain ⟨hattempted, hattempt⟩ := hfails hfailed
      rw [haside.attempt, hattempt]
      refine ((ends_observe_charged b₂).mono (fun _ _ h ↦ h) fun _ _ _ ↦ trivial).bind ?_
      intro _ b₃ hobserved
      refine (ends_settleFailure_failed b₃).mono ?_ fun _ _ h ↦ h
      rintro _ b' ⟨r, hr, henters⟩
      refine (hattempted.aside haside).carried_of_failed
        [.observe elapsed phase.cause.labels] (fun _ ↦ rfl) (if_pos hn).symm ?_
      exact ⟨r, hr, hobserved.enters henters⟩
    · exact ends_throw.mpr trivial

theorem ends_remedy_carried {crew : Crew} {files : List Route} {snapshot : Option Snapshot}
    (hcrew : crew.Whole) (b : Bench) :
    Ends (remedy crew phase files snapshot) b (fun _ b' ↦ Carried phase b b')
      fun _ _ ↦ True := by
  unfold remedy
  split
  · refine ((aside_log _ _ _ b).mono (fun _ _ h ↦ h) fun _ _ _ ↦ trivial).bind fun _ b₁ h₁ ↦ ?_
    refine (ends_settleFailure_failed b₁).mono (fun _ b' hfailed ↦ ?_) fun _ _ h ↦ h
    exact ((Attempted.none phase b).aside h₁).carried_of_failed [] (fun _ ↦ rfl) rfl
      hfailed
  · exact ends_carryOut_carried (hcrew _ _ ‹_›) b

end Results

end RunAct

/-- How a phase that has got its result was dealt with: it was carried out, and charged for what its
result says; or it was only rehearsed, or its files could not be recorded, and it was not charged. -/
inductive Bench.Books (phase : Phase) (b b' : Bench) : Prop
  | carried (hdry : b.context.config.dryRun = false) (hcarried : Carried phase b b')
  | rehearsed {r : PhaseResult} (hdry : b.context.config.dryRun = true)
      (henters : b.Enters r [] b') (hbalance : Balance [(phase, r)] [] [] [])
  | refused {r : PhaseResult} (hdry : b.context.config.dryRun = false)
      (henters : (b.note (.refusal (some phase))).Enters r [] b')
      (hbalance : Balance [(phase, r)] [] [] []) (hfinished : b'.context.isFinished = true)

/-- A phase in which nothing was done has nothing to be charged for. -/
theorem Balance.idle {phase : Phase} {r : PhaseResult} (hattempts : r.attempts = 0)
    (hfixed : r.fixedCount = 0) (hback : r.rolledBack = false) : Balance [(phase, r)] [] [] [] where
  attempts := by simp [hattempts, Meter.due, Meter.items]
  attemptsOf cause := by
    by_cases hcause : phase.cause = cause <;>
      simp [hcause, hattempts, Meter.items, Counter.dueUnder]
  timeouts := Nat.le_refl _
  executed := rfl
  failed := rfl
  rolledBack := by simp [hback, Meter.due, Meter.items]
  fixed := ⟨[0], .cons (show r.fixedCount.Is 0 by rw [hfixed]; rfl) .nil, rfl⟩
  unfixed := List.forall_mem_singleton.mpr fun _ ↦ hfixed
  observations := rfl
  finished _ := rfl
  runs := rfl

theorem Carried.aside {phase : Phase} {b₀ b b' : Bench} (h : b₀.Aside b) (h' : Carried phase b b') :
    Carried phase b₀ b' := by
  obtain ⟨r, cs, henters, hbalance⟩ := h'
  exact ⟨r, cs, h.enters henters, hbalance⟩

namespace RunAct

section Phases

variable {crew : Crew} {phase : Phase}

theorem ends_rehearse_enters {files : List Route} (b : Bench) :
    Ends (rehearse phase files) b
      (fun _ b' ↦ ∃ r, b.Enters r [] b' ∧ Balance [(phase, r)] [] [] []) fun _ _ ↦ True := by
  unfold rehearse
  refine ends_bind.mpr (ends_update.mpr ((aside_log _ _ _ _).mono ?_ fun _ _ _ ↦ trivial))
  exact fun _ b' h ↦ ⟨_, (b.enters_record _).aside h, .idle rfl rfl rfl⟩

theorem ends_settleUnrecorded_enters {fault : Fault} (b : Bench) :
    Ends (settleUnrecorded phase fault) b
      (fun _ b' ↦ ∃ r, (b.note (.refusal (some phase))).Enters r [] b' ∧
        Balance [(phase, r)] [] [] [] ∧ b'.context.isFinished = true) fun _ _ ↦ True := by
  refine ends_settleUnrecorded_iff.mpr ((ends_moveAside _ _ _ _).mono ?_ fun _ _ _ ↦ trivial)
  rintro _ b' ⟨haside, hstate⟩
  unfold Bench.unrecorded at haside
  refine ⟨_, ((Bench.enters_record _ _).aside (Bench.aside_change rfl rfl)).aside haside,
    .idle rfl rfl rfl, ?_⟩
  unfold RunContext.isFinished
  rw [hstate]
  split <;> rfl

/-- A phase that gets a result is charged for it, or not charged if it was not carried out. -/
theorem ends_runPhase_books (hcrew : crew.Whole) (whole : Option Snapshot) (b : Bench) :
    Ends (runPhase crew whole phase) b (fun _ b' ↦ b.Books phase b') fun _ _ ↦ True := by
  refine ends_runPhase_of ((aside_filesOf phase b).mono (fun files b₁ h₁ fields ↦ ?_)
    fun _ _ _ ↦ trivial)
  refine (aside_log _ _ _ _).mono (fun _ b₂ h₂ ↦ ?_) fun _ _ _ ↦ trivial
  have h₂ := h₁.aside h₂
  constructor
  case rehearsed =>
    rw [h₂.config]
    refine fun hdry ↦ (ends_rehearse_enters b₂).mono ?_ fun _ _ h ↦ h
    rintro _ b' ⟨r, henters, hbalance⟩
    exact .rehearsed hdry (h₂.enters henters) hbalance
  case recorded =>
    rw [h₂.config]
    refine fun hdry _ ↦ (aside_phaseSnapshot _ _ _ b₂).mono (fun snapshot b₃ h₃ ↦ ?_)
      fun fault b₃ h₃ ↦ ⟨fun _ ↦ ?_, fun _ ↦ trivial⟩
    · refine (ends_remedy_carried hcrew b₃).mono (fun _ b' h ↦ ?_) fun _ _ h ↦ h
      exact .carried hdry (Carried.aside (h₂.aside h₃) h)
    · refine (ends_settleUnrecorded_enters b₃).mono ?_ fun _ _ h ↦ h
      rintro _ b' ⟨r, henters, hbalance, hfinished⟩
      have hnoted : (b.note (.refusal (some phase))).Aside (b₃.note (.refusal (some phase))) := by
        have haside := h₂.aside h₃
        exact ⟨haside.history, haside.config, haside.attempt, by
          rw [Bench.refusals_note, Bench.refusals_note, haside.refusals], haside.bills⟩
      exact .refused hdry (hnoted.enters henters) hbalance hfinished
  case unrecorded =>
    rw [h₂.config]
    refine fun hdry _ ↦ (ends_remedy_carried hcrew b₂).mono (fun _ b' h ↦ ?_) fun _ _ h ↦ h
    exact .carried hdry (Carried.aside h₂ h)

end Phases

end RunAct

end Remedy
