import Remedy.Proofs.Run.Bearing
import Remedy.Proofs.Run.Upkeep

/-!
# What probes can do to a run

A check takes whatever its probe does, unless the probe hands back something in time that is no
report, or a report whose details are no record (`Check.Breaks`). So a check that is run returns a
result that says whether it has passed, or it breaks, and not both (`Check.ends_run_unless`).
Checks in a row have a result each, and a run that moves to be validated leaves that state again,
unless one of the checks breaks (`validated_unless_broken`).

For runs this is carried by what is so until the checks are run: the run is not being validated and
is not to be called off (`Bench.Before`).
-/

set_option autoImplicit false

namespace Remedy

/-! ### One check -/

theorem Act.isChecking_uncalled : Act.IsChecking World.Uncalled where
  toIsPassing := Act.isOffsite_uncalled.toIsPassing
  parsed := Act.keeps_count_of fun _ _ ↦ id
  skipped := Act.keeps_count_of fun _ _ ↦ id
  checked := Act.keeps_count_of fun _ _ ↦ id
  measured _ _ := id

namespace Check

variable {c : Check} {w : World}

/-- The probe has handed back in time what a check does not take. -/
def Breaks (c : Check) (w : World) : Prop :=
  ∃ reply, (Act.race c.probe c.timeout w).1 = .ok (.ended (.ok reply)) ∧ ¬ reply.Proper

theorem ends_judge_improper (c : Check) {reply : ProbeReply} (h : ¬ reply.Proper) (w : World) :
    Ends (c.judge (.ended (.ok reply))) w (fun _ _ ↦ False) fun _ _ ↦ True := by
  cases reply with
  | output kind name r => exact absurd trivial h
  | other kind => exact ends_throw.mpr trivial
  | report r =>
    cases hrecord : r.details.record with
    | ok details => exact absurd ⟨details, hrecord⟩ h
    | error e =>
      show Ends (Act.ofExcept (c.conclude r)) w _ _
      rw [conclude, hrecord]
      exact ends_throw.mpr trivial

theorem ends_settle_unless (hw : w.interrupt = none) :
    Ends c.settle w (fun r _ ↦ c.Answers r ∧ ¬ c.Breaks w) fun _ _ ↦ c.Breaks w := by
  unfold settle
  refine ends_bind.mpr (ends_attempt.mpr ?_)
  refine ((Act.ends_race_outcome c.probe c.timeout hw).and ends_self).mono ?_ ?_
  · rintro settled w' ⟨-, hact⟩
    have hrace : (Act.race c.probe c.timeout w).1 = .ok settled := by rw [hact]
    by_cases himproper : ∃ reply, settled = .ended (.ok reply) ∧ ¬ reply.Proper
    · obtain ⟨reply, rfl, hreply⟩ := himproper
      exact (c.ends_judge_improper hreply w').mono (fun _ _ ↦ False.elim)
        fun _ _ _ ↦ ⟨reply, hrace, hreply⟩
    · have hnot : ¬ c.Breaks w := by
        rintro ⟨reply, hsettled, hreply⟩
        exact himproper ⟨reply, Except.ok.inj (hrace.symm.trans hsettled), hreply⟩
      have hanswers : Ends (c.judge settled) w' (fun r _ ↦ c.Answers r) fun _ _ ↦ False := by
        cases settled with
        | overdue =>
          -- Nothing is asked of a probe whose time is up, so any course will do.
          have hcourse : ∀ reply : ProbeReply, (Course.failed (.cancelled "")).outcome = .ok reply →
              reply.Proper := nofun
          exact c.ends_judge (.inl rfl) hcourse w'
        | ended outcome =>
          have hcourse : ∀ reply, ({ outcome } : Course ProbeReply).outcome = .ok reply →
              reply.Proper := fun reply hreply ↦
            by_contra fun h ↦ himproper ⟨reply, congrArg _ hreply, h⟩
          exact c.ends_judge (.inr rfl) hcourse w'
      exact hanswers.mono (fun _ _ h ↦ ⟨h, hnot⟩) fun _ _ ↦ False.elim
  · rintro _ w' ⟨rfl, hact⟩
    refine ends_pure.mpr ⟨c.answers_failure _, ?_⟩
    rintro ⟨reply, hrace, -⟩
    rw [hact] at hrace
    cases hrace

/-- A check returns a result that says whether it has passed, unless its probe breaks it. -/
theorem ends_run_unless (hw : w.interrupt = none) :
    Ends c.run w (fun r _ ↦ c.Answers r ∧ ¬ c.Breaks w) fun _ _ ↦ c.Breaks w := by
  have hmeasure : Ends c.measure w (fun r _ ↦ c.Answers r ∧ ¬ c.Breaks w)
      fun _ _ ↦ c.Breaks w := by
    unfold measure
    refine ends_bind.mpr (ends_get.mpr (ends_bind.mpr (ends_attempt.mpr ?_)))
    refine (ends_settle_unless hw).mono ?_ ?_
    · rintro r w' ⟨⟨hof, hstatus⟩, hnot⟩
      exact ends_bind.mpr (ends_bind.mpr (ends_get.mpr (ends_pure.mpr (ends_bind.mpr
        (ends_modify.mpr (ends_bind.mpr (ends_pure.mpr
          ⟨⟨⟨hof.name, hof.kind, hof.required⟩, hstatus⟩, hnot⟩)))))))
    · intro e w' hbreaks
      exact ends_bind.mpr (ends_bind.mpr (ends_get.mpr (ends_pure.mpr (ends_bind.mpr
        (ends_modify.mpr (ends_bind.mpr (ends_throw.mpr hbreaks)))))))
  unfold run
  refine hmeasure.bind fun r w₁ h ↦ ?_
  refine ((ends_count_status r.status w₁).mono (fun _ _ _ ↦ h) fun _ _ ↦ False.elim).bind ?_
  intro _ w₂ h
  dsimp only
  split
  · exact ends_bind.mpr (ends_log_idle fun _ _ _ ↦ ends_pure.mpr h)
  · exact ends_bind.mpr (ends_log_idle fun _ _ _ ↦ ends_pure.mpr h)

end Check

/-! ### Checks in a row -/

/-- One of the checks breaks, at a time at which it is not to be called off. -/
def Broken (checks : List Check) : Prop :=
  ∃ c ∈ checks, ∃ w : World, w.interrupt = none ∧ c.Breaks w

theorem Broken.tail {c : Check} {rest : List Check} (h : Broken rest) : Broken (c :: rest) := by
  obtain ⟨c', hc', hbreaks⟩ := h
  exact ⟨c', List.mem_cons_of_mem _ hc', hbreaks⟩

theorem ends_runChecks_unless (blocker : Option String) (checks : List Check) {w : World}
    (hw : w.interrupt = none) :
    Ends (runChecks blocker checks) w
      (fun results _ ↦ List.Forall₂ (fun c r ↦ r.Of c) checks results)
      fun _ _ ↦ Broken checks := by
  induction checks generalizing blocker w with
  | nil => exact ends_pure.mpr .nil
  | cons c rest ih =>
    cases blocker with
    | some name =>
      exact (ends_runChecks_some name (c :: rest) w).mono (fun _ _ h ↦ h.answers)
        fun _ _ ↦ False.elim
    | none =>
      unfold runChecks
      have huncalled : Keeps World.Uncalled c.run :=
        Act.isChecking_uncalled.keeps_run fun _ ↦ id
      refine ends_bind.mpr (((Check.ends_run_unless hw).and (huncalled w)).mono ?_ ?_)
      · rintro r w₁ ⟨⟨hanswers, -⟩, hw₁⟩
        refine ((ih _ (hw₁ hw)).mono (fun _ _ h ↦ h) fun _ _ ↦ Broken.tail).bind ?_
        exact fun results w' h ↦ ends_pure.mpr (.cons hanswers.1 h)
      · exact fun _ _ h ↦ ⟨c, List.mem_cons_self, w, hw, h.1⟩

theorem ends_validate_unless (checks : List Check) {w : World} (hw : w.interrupt = none) :
    Ends (validate checks) w
      (fun s _ ↦ List.Forall₂ (fun c r ↦ r.Of c) checks s.results)
      fun _ _ ↦ Broken checks := by
  unfold validate
  refine ends_bind.mpr (ends_log_idle fun w₀ hidle _ ↦ ends_bind.mpr (ends_get.mpr ?_))
  refine (ends_runChecks_unless none checks (hidle.uninterrupted hw)).bind fun results w₁ h ↦ ?_
  refine ends_bind.mpr (ends_bind.mpr (ends_get.mpr (ends_pure.mpr ?_)))
  exact ends_bind.mpr (ends_log_idle fun _ _ _ ↦ ends_pure.mpr h)

/-! ### Before the checks -/

/-- The run is not being validated, and it is not to be called off. -/
structure Bench.Before (b : Bench) : Prop where
  state : b.context.state ≠ .validating
  uncalled : b.world.interrupt = none

/-- The run is not being validated, unless one of its checks breaks. -/
def Bench.Through (crew : Crew) (b : Bench) : Prop :=
  b.context.state = .validating → Broken crew.checks

namespace RunAct

variable {α β : Type}

/-- The action lets the run stay before its checks, however it ends. -/
def Early (act : RunAct α) : Prop := Keeps (Upholds Bench.Before) act

theorem Early.bind {act : RunAct α} {f : α → RunAct β} (h : Early act)
    (hnext : ∀ a, Early (f a)) : Early (act >>= f) :=
  Upholds.bind h hnext

theorem early_pure (a : α) : Early (pure a) :=
  keeps_pure upholds_refl a

theorem early_throw (e : Fault) : Early (throw e : RunAct α) :=
  keeps_throw upholds_refl e

theorem early_get : Early get :=
  keeps_get upholds_refl

theorem early_lift {act : Act α} (h : Keeps World.Uncalled act) : Early (lift act) :=
  fun b ↦ ends_lift.mpr ((h b.world).mono (fun _ _ hw hb ↦ ⟨hb.state, hw hb.uncalled⟩)
    fun _ _ hw hb ↦ ⟨hb.state, hw hb.uncalled⟩)

theorem early_update {f : RunContext → RunContext} (h : ∀ c, (f c).state = c.state) :
    Early (update f) :=
  keeps_modify fun b hb ↦ ⟨(h b.context).trans_ne hb.state, hb.uncalled⟩

theorem Early.amend {f : RunContext → RunContext} {next : Unit → RunAct α}
    (h : ∀ c, (f c).state = c.state) (hnext : ∀ u, Early (next u)) : Early (update f >>= next) :=
  (early_update h).bind hnext

theorem early_note (o : Occurrence) : Early (note o) :=
  keeps_modify fun _ hb ↦ ⟨hb.state, hb.uncalled⟩

theorem early_log (level : LogLevel) (name : String) (fields : List (String × Json)) :
    Early (log level name fields) :=
  early_lift (Act.isOffsite_uncalled.keeps_log _ _ _)

theorem early_tally (tally : Meter.Tally) (amount : Number) (labels : Labels) :
    Early (lift (Act.count tally amount labels)) :=
  early_lift (Act.keeps_count_of (fun _ _ ↦ id) amount labels)

theorem early_count (tally : Meter.Tally) (amount : Number) (cause : RootCause) :
    Early (count tally amount cause) :=
  early_tally _ _ _

theorem early_moveTo {target : RunState} (htarget : target ≠ .validating) (phase : Option String)
    (reason : String) : Early (moveTo target phase reason) := by
  unfold moveTo
  refine early_get.bind fun b ↦ ?_
  dsimp only
  split
  · exact early_pure _
  refine early_get.bind fun b' ↦ ?_
  split
  · exact early_throw _
  · rename_i c hmove
    refine .bind (keeps_modify fun b₁ h₁ ↦ ⟨?_, h₁.uncalled⟩) fun _ ↦ early_log _ _ _
    have hstate : c.state = target := by
      unfold RunContext.move at hmove
      split at hmove
      · rename_i hsame
        cases hmove
        exact hsame
      · split at hmove
        · cases hmove
          rfl
        · cases hmove
    exact hstate.trans_ne htarget

theorem early_filesOf (phase : Phase) : Early (filesOf phase) := by
  have hresolve : ∀ p, Early (resolve p) := fun _ ↦ keeps_iff.mpr upholds_refl
  unfold filesOf
  exact .bind (keeps_mapM upholds_refl upholds_trans hresolve _) fun _ ↦ early_pure _

theorem early_takeSnapshot (key : String) (files : List Route) :
    Early (takeSnapshot key files) := by
  have hR := Act.isOffsite_uncalled
  refine fun b ↦ ends_takeSnapshot_of ((hR.keeps_giveWay b.world).mono (fun _ w hw ↦ ?_)
    fun _ _ hw hb ↦ ⟨hb.state, hw hb.uncalled⟩)
  exact (Store.keeps_snapshot hR _ _ _ _ w).mono
    (fun _ _ hw' hb ↦ ⟨hb.state, hw' (hw hb.uncalled)⟩)
    fun _ _ hw' hb ↦ ⟨hb.state, hw' (hw hb.uncalled)⟩

theorem early_phaseSnapshot (phase : Phase) (files : List Route) (whole : Option Snapshot) :
    Early (phaseSnapshot phase files whole) := by
  refine fun b ↦ ends_phaseSnapshot_of (fun _ _ _ _ _ ↦ id) (fun _ _ _ _ _ ↦ ?_)
    fun _ ↦ early_takeSnapshot _ _ b
  exact (Store.keeps_record Act.isOffsite_uncalled _ _ _).mono
    (fun _ _ hw hb ↦ ⟨hb.state, hw hb.uncalled⟩) fun _ _ hw hb ↦ ⟨hb.state, hw hb.uncalled⟩

theorem early_judge (phase : Phase) (number : Nat) (settled : Settled FixReply) :
    Early (judge phase number settled) := by
  have hoverdue : ∀ text, Early (judge.overdue phase number text) := fun _ ↦
    (early_count _ _ _).bind fun _ ↦ (early_log _ _ _).bind fun _ ↦ early_throw _
  unfold judge
  split
  · exact hoverdue _
  · exact early_throw _
  · split
    · exact hoverdue _
    · exact (early_log _ _ _).bind fun _ ↦ early_throw _
  · split
    · exact early_throw _
    · split
      · exact early_pure _
      · exact (early_log _ _ _).bind fun _ ↦ early_throw _

theorem early_callFixer (fixer : Fixer) (phase : Phase) (files : List Route) (number : Nat) :
    Early (callFixer fixer phase files number) := by
  unfold callFixer
  refine (early_count _ _ _).bind fun _ ↦ (early_log _ _ _).bind fun _ ↦ ?_
  refine .amend (fun _ ↦ rfl) fun _ ↦ ?_
  split
  · exact early_throw _
  refine early_get.bind fun b ↦ (early_note _).bind fun _ ↦ ?_
  refine .bind (early_lift ?_) fun settled ↦ early_judge phase number settled
  exact Act.isOffsite_uncalled.keeps_race (fun _ ↦ id) phase.timeout

theorem early_attempts (fixer : Fixer) (phase : Phase) (files : List Route) (policy : RetryPolicy)
    (left number : Nat) :
    Early (retryFrom policy (attemptPhase fixer phase files)
      (fun number fault wait ↦ lift (Act.rest number fault wait)) left number) := by
  have hR := Act.isOffsite_uncalled
  have hattempt : ∀ number, Early (attemptPhase fixer phase files number) := by
    intro number
    unfold attemptPhase
    refine .bind (keeps_modify fun _ hb ↦ ⟨hb.state, hb.uncalled⟩) fun _ ↦ ?_
    dsimp only
    split
    · exact (early_moveTo (by decide) _ _).bind fun _ ↦ early_callFixer fixer phase files number
    · exact early_callFixer fixer phase files number
  have hrest : ∀ number fault wait, Early (lift (Act.rest number fault wait)) := by
    intro number fault wait
    refine early_lift ?_
    unfold Act.rest
    refine hR.keeps_bind (hR.record _) fun _ ↦ ?_
    split
    · exact hR.keeps_pause _
    · exact hR.keeps_giveWay
  exact keeps_retryFrom upholds_trans upholds_refl hattempt hrest _ _

theorem early_recordFailure (phase : Phase) (message : String) (attempts : Nat) (elapsed : Number)
    (rolledBack : Bool) (details : List (String × Json)) :
    Early (recordFailure phase message attempts elapsed rolledBack details) :=
  early_update fun _ ↦ rfl

theorem early_rollBack (phase : Phase) (snapshot : Snapshot) (message : String) (attempts : Nat)
    (elapsed : Number) : Early (rollBack phase snapshot message attempts elapsed) := by
  have hR := Act.isOffsite_uncalled
  unfold rollBack
  refine (early_moveTo (by decide) _ _).bind fun _ ↦ (early_lift hR.keeps_giveWay).bind fun _ ↦ ?_
  refine .bind (Keeps.attempt (early_lift (Store.keeps_restore hR _))) fun outcome ↦ ?_
  split
  · refine .amend (fun _ ↦ rfl) fun _ ↦ (early_recordFailure _ _ _ _ _ _).bind fun _ ↦ ?_
    exact early_moveTo (by decide) _ _
  · exact early_throw _
  · refine (early_count _ _ _).bind fun _ ↦ Early.amend (fun _ ↦ rfl) fun _ ↦ ?_
    exact (early_recordFailure _ _ _ _ _ _).bind fun _ ↦ early_moveTo (by decide) _ _

theorem early_settleFailure (phase : Phase) (snapshot : Option Snapshot) (message : String)
    (attempts : Nat) (elapsed : Number) :
    Early (settleFailure phase snapshot message attempts elapsed) := by
  unfold settleFailure
  refine (early_count _ _ _).bind fun _ ↦ (early_count _ _ _).bind fun _ ↦ ?_
  refine (early_log _ _ _).bind fun _ ↦ early_get.bind fun b ↦ ?_
  dsimp only
  split
  · exact early_rollBack _ _ _ _ _
  · refine (early_recordFailure _ _ _ _ _ _).bind fun _ ↦ ?_
    split
    · exact .amend (fun _ ↦ rfl) fun _ ↦ early_moveTo (by decide) _ _
    · exact early_pure _

theorem early_observeDuration (phase : Phase) (elapsed : Number) :
    Early (observeDuration phase elapsed) :=
  early_lift (keeps_modify fun _ ↦ id)

theorem early_settleSuccess (phase : Phase) (r : FixReport) (attempts : Nat) (elapsed : Number) :
    Early (settleSuccess phase r attempts elapsed) := by
  unfold settleSuccess
  refine (early_count _ _ _).bind fun _ ↦ (early_observeDuration _ _).bind fun _ ↦ ?_
  refine (early_count _ _ _).bind fun _ ↦ ?_
  dsimp only
  split
  · exact early_throw _
  · exact .amend (fun _ ↦ rfl) fun _ ↦ early_log _ _ _

theorem early_remedy (crew : Crew) (phase : Phase) (files : List Route)
    (snapshot : Option Snapshot) : Early (remedy crew phase files snapshot) := by
  unfold remedy
  split
  · exact (early_log _ _ _).bind fun _ ↦ early_settleFailure _ _ _ _ _
  unfold carryOut
  refine early_get.bind fun b ↦ early_get.bind fun b' ↦ ?_
  refine .bind (Keeps.attempt (early_attempts _ phase files _ _ _)) fun outcome ↦ ?_
  refine (early_lift (Act.isOffsite_uncalled.keeps_since _)).bind fun elapsed ↦ ?_
  refine early_get.bind fun b ↦ ?_
  dsimp only
  split
  · exact early_settleSuccess _ _ _ _
  · split
    · exact (early_observeDuration _ _).bind fun _ ↦ early_settleFailure _ _ _ _ _
    · exact early_throw _

theorem early_settleUnrecorded (phase : Phase) (fault : Fault) :
    Early (settleUnrecorded phase fault) := by
  unfold settleUnrecorded
  refine (early_note _).bind fun _ ↦ (early_recordFailure _ _ _ _ _ _).bind fun _ ↦ ?_
  refine .amend (fun _ ↦ rfl) fun _ ↦ early_get.bind fun b ↦ ?_
  refine early_moveTo ?_ _ _
  split <;> decide

/-- No phase calls a run off, or has it validated. -/
theorem early_runPhase (crew : Crew) (whole : Option Snapshot) (phase : Phase) :
    Early (runPhase crew whole phase) := by
  unfold runPhase
  refine (early_filesOf phase).bind fun files ↦ (early_log _ _ _).bind fun _ ↦ ?_
  refine early_get.bind fun b ↦ ?_
  dsimp only
  split
  · exact .amend (fun _ ↦ rfl) fun _ ↦ early_log _ _ _
  split
  · refine .bind (Keeps.attempt (early_phaseSnapshot _ _ _)) fun outcome ↦ ?_
    split
    · exact early_remedy _ _ _ _
    · split
      · exact early_settleUnrecorded _ _
      · exact early_throw _
  · exact early_remedy _ _ _ _

theorem early_recordAll (phases : List Phase) : Early (recordAll phases) := by
  unfold recordAll
  refine early_get.bind fun b ↦ ?_
  dsimp only
  split
  · exact early_pure _
  split
  · exact .amend (fun _ ↦ rfl) fun _ ↦ (early_log _ _ _).bind fun _ ↦ early_pure _
  refine .bind (keeps_mapM upholds_refl upholds_trans early_filesOf _) fun files ↦ ?_
  refine .bind (Keeps.attempt (early_takeSnapshot _ _)) fun outcome ↦ ?_
  split
  · exact early_pure _
  · split
    · exact early_throw _
    · refine (early_note _).bind fun _ ↦ Early.amend (fun _ ↦ rfl) fun _ ↦ ?_
      exact (early_moveTo (by decide) _ _).bind fun _ ↦ early_pure _

/-! ### Checks and what comes after them -/

section Runs

variable {crew : Crew} {b : Bench}

theorem Early.ends {act : RunAct α} (h : Early act) (hb : b.Before) :
    Ends act b (fun _ b' ↦ b'.Before) fun _ b' ↦ b'.Through crew :=
  (keeps_upholds.mp h b hb).mono (fun _ _ h ↦ h) fun _ _ h hstate ↦ absurd hstate h.state

theorem ends_runValidation_unless (hb : b.Before) :
    Ends (runValidation crew) b (fun _ _ ↦ True) fun _ b' ↦ b'.Through crew := by
  unfold runValidation
  refine ends_bind.mpr (ends_get.mpr ?_)
  dsimp only
  split
  · split
    · exact ends_update.mpr trivial
    refine ends_bind.mpr (((ends_moveTo_lingers _ _ _ hb.uncalled).and
      (ends_moveCalmly _ _ _ b)).mono ?_ ?_)
    · rintro _ b₁ ⟨⟨⟨hb₁, -⟩, -⟩, -⟩
      refine ends_bind.mpr (ends_lift.mpr ((ends_validate_unless crew.checks hb₁).mono ?_ ?_))
      · exact fun _ _ _ ↦ ends_update.mpr trivial
      · exact fun _ _ hbroken _ ↦ hbroken
    · rintro _ _ ⟨-, rfl⟩ hstate
      exact absurd hstate hb.state
  · exact ends_pure.mpr trivial

/-- Wherever it is, a run that comes to its end is not being validated any more. -/
theorem ends_conclude_out (b : Bench) :
    Ends conclude b (fun _ b' ↦ b'.context.state ≠ .validating)
      fun _ b' ↦ b'.context.state ≠ .validating := by
  have hout : ∀ (b₁ : Bench) (target : RunState) (reason : String), target ≠ .validating →
      target ∈ RunState.validating.next →
      Ends (moveTo target none reason) b₁ (fun _ b' ↦ b'.context.state ≠ .validating)
        fun _ b' ↦ b'.context.state ≠ .validating := by
    intro b₁ target reason hne hnext
    refine ends_moveTo (fun hsame ↦ hsame.trans_ne hne) (fun _ _ _ ↦ hne) fun _ hblocked hstate ↦ ?_
    exact hblocked (hstate ▸ hnext)
  unfold conclude
  refine ends_bind.mpr (ends_get.mpr ?_)
  dsimp only
  split
  · exact hout _ _ _ (by decide) (by decide)
  split
  · exact ends_bind.mpr (ends_update.mpr (hout _ _ _ (by decide) (by decide)))
  · exact ends_bind.mpr (ends_update.mpr (hout _ _ _ (by decide) (by decide)))

theorem ends_lift_out (act : Act α) (h : b.context.state ≠ .validating) :
    Ends (lift act) b (fun _ b' ↦ b'.context.state ≠ .validating) fun _ b' ↦ b'.Through crew :=
  ends_lift.mpr (ends_of_forall (fun _ _ ↦ h) fun _ _ hstate ↦ absurd hstate h)

theorem ends_runPhases_unless (whole : Option Snapshot) (phases : List Phase) (hb : b.Before) :
    Ends (runPhases crew whole phases) b (fun _ b' ↦ b'.context.state ≠ .validating)
      fun _ b' ↦ b'.Through crew := by
  refine ends_runPhases_of (P := fun _ ↦ Bench.Before) ?_ ?_ hb
  · intro b hb
    refine (ends_runValidation_unless hb).bind fun _ b₁ _ ↦ ?_
    exact (ends_conclude_out b₁).mono (fun _ _ h ↦ h) fun _ _ h hstate ↦ absurd hstate h
  · intro phase rest b hb
    refine ((early_moveTo (by decide) _ _).ends hb).mono (fun _ b₁ h₁ ↦ ?_) fun _ _ h ↦ h
    have hentered : (b₁.entered phase).Before := ⟨h₁.state, h₁.uncalled⟩
    exact ((early_runPhase crew whole phase).ends hentered).mono
      (fun _ b₂ h₂ ↦ ⟨fun _ ↦ h₂.state, fun _ ↦ ⟨h₂.state, h₂.uncalled⟩⟩) fun _ _ h ↦ h

theorem ends_execute_unless (phases : List Phase) (hb : b.Before) :
    Ends (execute crew phases) b (fun _ b' ↦ b'.context.state ≠ .validating)
      fun _ b' ↦ b'.Through crew := by
  refine ends_execute_of (((early_moveTo (by decide) _ _).ends hb).mono (fun _ b₁ h₁ ↦ ?_)
    fun _ _ h ↦ h)
  exact ((early_recordAll phases).ends h₁).mono
    (fun whole b₂ h₂ ↦ ⟨fun _ ↦ h₂.state, fun _ ↦ ends_runPhases_unless whole phases h₂⟩)
    fun _ _ h ↦ h

/-- However a run ends, it is not being validated any more, unless one of its checks breaks. -/
theorem ends_run_unless (phases : List Phase) (hb : b.Before) :
    Ends (run crew phases) b (fun _ b' ↦ b'.context.state ≠ .validating)
      fun _ b' ↦ b'.Through crew := by
  have hbound : (b.bound "run_id" b.context.runId).Before := ⟨hb.state, hb.uncalled⟩
  refine ends_run_of fun fields ↦ ((early_log _ _ _).ends hbound).mono (fun _ b₁ h₁ ↦ ?_)
    fun _ _ h ↦ h
  refine (ends_execute_unless _ h₁).mono (fun _ b₂ h₂ ↦ ?_) fun _ _ h ↦ h
  exact (ends_lift_out (b := b₂.left) _ h₂).mono
    (fun _ b₃ h₃ ↦ ⟨fun _ _ hstate ↦ absurd hstate h₃, fun _ _ _ ↦ ends_lift_out _ h₃⟩)
    fun _ _ h ↦ h

end Runs

end RunAct

/-! ### Probes -/

/-- A check breaks only if its probe returns, and what it returns is not taken. -/
theorem Check.Breaks.exists_reply {c : Check} {w : World} (h : c.Breaks w) :
    ∃ reply, (c.probe w.toSite).1.outcome = .ok reply ∧ ¬ reply.Proper := by
  obtain ⟨reply, hrace, hreply⟩ := h
  refine ⟨reply, ?_, hreply⟩
  have hsettled := (Act.ends_race_settled c.probe c.timeout w).and ends_self
  unfold Ends at hsettled
  rcases hact : Act.race c.probe c.timeout w with ⟨_ | settled, w'⟩
  · rw [hact] at hrace
    cases hrace
  · rw [hact] at hrace hsettled
    cases hrace
    rcases hsettled.1 with hoverdue | hended
    · cases hoverdue
    · exact (Settled.ended.inj hended).symm

/-- A check that is run returns a result that says whether it has passed, or it breaks, which it only
does because of what its probe returns. If none breaks, checks have a result each, and a run does not
stay in the state in which it is validated. -/
theorem checks_settle (w : World) (hw : w.interrupt = none) :
    (∀ c : Check, c.Breaks w →
      ∃ reply, (c.probe w.toSite).1.outcome = .ok reply ∧ ¬ reply.Proper) ∧
    (∀ c : Check,
      Ends c.run w (fun r _ ↦ c.Answers r ∧ ¬ c.Breaks w) fun _ _ ↦ c.Breaks w) ∧
    (∀ checks : List Check,
      Ends (validate checks) w (fun s _ ↦ List.Forall₂ (fun c r ↦ r.Of c) checks s.results)
        fun _ _ ↦ Broken checks) ∧
    ∀ (crew : Crew) (phases : List Phase) (store : Store) (runId : String) (project : Route)
      (config : RunConfig),
      Ends (RunAct.run crew phases) (.fresh w store runId project config)
        (fun _ b ↦ b.context.state.isTerminal = true)
        fun _ b ↦ b.context.state = .validating → Broken crew.checks := by
  refine ⟨fun c h ↦ h.exists_reply, fun c ↦ Check.ends_run_unless hw,
    fun checks ↦ ends_validate_unless checks hw, ?_⟩
  intro crew phases store runId project config
  have hbefore : (Bench.fresh w store runId project config).Before := ⟨nofun, hw⟩
  exact ((RunAct.ends_run_unless phases hbefore).and
    (RunAct.ends_run crew phases w store runId project config)).mono
    (fun _ _ h ↦ h.2.terminal) fun _ _ h ↦ h.1

/-- A probe that calls itself off. -/
theorem checks_settle_cancelled :
    let c : Check := ⟨"c", .compile, Work.ofCourse (.failed (.cancelled "")), seconds 60, true⟩
    (default : World).interrupt = none ∧ ¬ c.Breaks default ∧
      (∃ r w', c.run default = (.ok r, w') ∧ c.Answers r) ∧
      (∃ s w', validate [c] default = (.ok s, w') ∧ s.results.length = 1) ∧
      (RunAct.run ⟨[], [c]⟩ [] (.fresh default default "r" [] {})).2.context.state ≠
        .validating := by
  intro c
  obtain ⟨-, hrun, hvalidate, hruns⟩ := checks_settle default rfl
  have hnot : ∀ w, ¬ c.Breaks w := fun w h ↦ by
    obtain ⟨reply, houtcome, -⟩ := h.exists_reply
    cases houtcome
  have hnone : ¬ Broken [c] := by
    rintro ⟨c', hc', w, -, h⟩
    rw [List.mem_singleton.mp hc'] at h
    exact hnot w h
  refine ⟨rfl, hnot _, ?_, ?_, ?_⟩
  · obtain ⟨r, w', hact, hr⟩ := ((hrun c).mono (fun _ _ h ↦ h) fun _ _ h ↦ hnot _ h).exists_ok
    exact ⟨r, w', hact, hr.1⟩
  · obtain ⟨s, w', hact, hs⟩ :=
      ((hvalidate [c]).mono (fun _ _ h ↦ h) fun _ _ h ↦ hnone h).exists_ok
    exact ⟨s, w', hact, hs.length_eq.symm⟩
  · refine Ends.state (P := fun b ↦ b.context.state ≠ .validating)
      ((hruns ⟨[], [c]⟩ [] default "r" [] {}).mono ?_ ?_)
    · rintro _ b hterminal hstate
      rw [hstate] at hterminal
      cases hterminal
    · exact fun _ b h hstate ↦ hnone (h hstate)

/-- A probe whose report has details that are no record: the check fails as a whole, and so does the
run, which stays in the state in which it is validated. -/
theorem validating_of_broken :
    let c : Check :=
      ⟨"c", .compile, Work.ofCourse (.done (.report ⟨true, "", (5 : ℕ)⟩)), seconds 60, false⟩
    (c.run default).1.toOption.isNone ∧ (validate [c] default).1.toOption.isNone ∧
      let ended := RunAct.run ⟨[], [c]⟩ [] (.fresh default default "r" [] {})
      ended.1.toOption.isNone ∧ ended.2.context.state = .validating := by
  decide +kernel

end Remedy
