import Remedy.Proofs.Offsite
import Remedy.Proofs.Run.Ledger
import Remedy.Proofs.Run.Trials

/-!
# What is said of the attempts

The result of a phase says how often its fixer was called and whether a call succeeded; then it
carries what that call said, and otherwise the failure of the last one (`PhaseResult.Tells`).
`RunAct.ends_runPhase_tried` says so of every phase that has a fixer and is reached in earnest,
whatever the fixer replies and however long it takes, unless the files of the phase cannot be
recorded.

Two things are asked for: that what a fixer counts fits into a counter, or else the run fails and
there is no result (`RunAct.uncounted_of_runPhase`), and that the timeout is one that a clock can
take. A run may also fail as files are checked that have been put back.
-/

set_option autoImplicit false

namespace Remedy

/-! ### What a result says -/

/-- The result blames the failure that a message is about. -/
structure PhaseResult.Blames (r : PhaseResult) (message : String) : Prop where
  success : r.success = false
  fixedCount : r.fixedCount = 0
  message : r.message = .str message ∨
    ∃ reason : String, r.message = .str s!"{message}; rollback failed: {reason}"

/-- The result says of the calls of a fixer how many there were, and what came of the last one. -/
structure PhaseResult.Tells (r : PhaseResult) (fixer : Fixer) (phase : Phase) (calls : ℕ)
    (last : Trial) : Prop where
  name : r.phase = phase.name
  attempts : r.attempts = calls
  success : r.success = true ↔ ∃ report, last.Succeeds fixer phase report
  fixed : ∀ report, last.Succeeds fixer phase report →
    r.fixedCount = report.fixedCount.amount ∧ report.details = .obj r.details
  failed : ∀ e, last.verdict fixer phase = .error e → r.Blames e.message

/-- From `b` on the fixer of the phase has been called until a call succeeded or none was left. All
calls in `earlier` failed, and `last` was the last one. -/
structure Bench.Tried (fixer : Fixer) (phase : Phase) (files : List Route) (earlier : List Trial)
    (last : Trial) (b b' : Bench) : Prop where
  row : ∃ w, Trials fixer phase b.world (earlier ++ [last]) w
  calls : b'.progress.happened = b.progress.happened ++ phase.calls (earlier ++ [last])
  requests : ∀ t ∈ earlier ++ [last], t.request = phase.request files t.world.now
  ordered : (earlier ++ [last]).IsChain fun t t' ↦ t.done fixer phase ≤ t'.world.now
  failures : ∀ t ∈ earlier, ∀ report, ¬ t.Succeeds fixer phase report
  within : earlier.length ≤ phase.retries
  exhausted : (∀ report, ¬ last.Succeeds fixer phase report) → earlier.length = phase.retries

/-- A result has been added, and nothing has happened. -/
def Bench.Adds (r : PhaseResult) (b b' : Bench) : Prop :=
  b'.context.history = b.context.history ++ [r] ∧ b'.progress.happened = b.progress.happened

/-- No result has been added, and nothing has happened. -/
def Bench.Pauses (b b' : Bench) : Prop :=
  b'.context.history = b.context.history ∧ b'.progress.happened = b.progress.happened

/-! ### Being called off -/

/-- The activity is not to be called off if it was not. -/
def World.Uncalled (w w' : World) : Prop := w.interrupt = none → w'.interrupt = none

theorem Act.isOffsite_uncalled : IsOffsite World.Uncalled where
  refl _ := id
  trans _ _ _ h h' := h' ∘ h
  record _ := keeps_modify fun _ ↦ id
  aside _ _ _ _ _ h := h
  site _ _ := id
  draws _ _ := id

theorem FixReply.Fixes.exists_details {reply : FixReply} {r : FixReport} (h : reply.Fixes r)
    (hproper : reply.Proper) : ∃ fields, r.details = .obj fields := by
  cases h with
  | count _ => exact ⟨[], rfl⟩
  | report _ _ _ => exact hproper.2

namespace RunAct

/-! ### Results -/

section Results

variable {b : Bench} {phase : Phase} {attempts : ℕ} {elapsed : Number}

theorem ends_settleSuccess_told {r : FixReport} (hb : b.world.interrupt = none)
    (hr : r.Countable) :
    Ends (settleSuccess phase r attempts elapsed) b
      (fun _ b' ↦ b'.world.interrupt = none ∧ ∃ result, b.Adds result b' ∧
        result.phase = phase.name ∧ result.attempts = attempts ∧ result.success = true ∧
        result.fixedCount = r.fixedCount.amount ∧ r.details.record = .ok result.details)
      fun _ _ ↦ False := by
  obtain ⟨fields, hrecord⟩ := hr.record
  unfold settleSuccess
  refine ends_thenPassing (Act.passes_countOne _ _) hb fun _ w₁ hw₁ ↦ ?_
  refine ends_bind.mpr (ends_lift.mpr (ends_modify.mpr ?_))
  refine ends_thenPassing (Act.passes_count hr.not_lt hr.fits _ _) (hw₁.interrupt hb)
    fun _ w₂ hw₂ ↦ ?_
  have hinterrupt := hw₂.interrupt (hw₁.interrupt hb)
  dsimp only
  rw [hrecord]
  refine ends_bind.mpr (ends_update.mpr ?_)
  refine (ends_passing (Act.passes_log _ _ _) hinterrupt).mono ?_ fun _ _ ↦ id
  rintro _ _ ⟨w₃, hw₃, rfl⟩
  exact ⟨hw₃.interrupt hinterrupt, _, ⟨rfl, by simp⟩, rfl, rfl, rfl, rfl, rfl⟩

/-- How a failed phase comes to its result, if it comes to one. -/
def Blamed (phase : Phase) (attempts : ℕ) (message : String) (b b' : Bench) : Prop :=
  ∃ result, b.Adds result b' ∧ result.phase = phase.name ∧ result.attempts = attempts ∧
    result.Blames message

/-- Files were to be put back from the snapshot, and neither was this done nor did it fail in the
way in which it may. -/
structure Upset (snapshot : Snapshot) (e : Fault) (b b' : Bench) : Prop where
  pauses : b.Pauses b'
  snapshots : b'.context.snapshots = b.context.snapshots
  file : ∃ cause, e = .file cause
  restore : ∃ w, b.world.Later w ∧ Store.restore snapshot w = (.error e, b'.world)

theorem ends_rollBack_blamed {snapshot : Snapshot} {message : String}
    (hstate : b.context.state = .executing ∨ b.context.state = .retrying)
    (hb : b.world.interrupt = none) :
    Ends (rollBack phase snapshot message attempts elapsed) b
      (fun _ b' ↦ Blamed phase attempts message b b' ∧ b'.context.isFinished = true)
      fun e b' ↦ Upset snapshot e b b' := by
  have hnext : .rollingBack ∈ b.context.state.next := by
    rcases hstate with h | h <;> rw [h] <;> decide
  unfold rollBack
  refine ends_bind.mpr ((ends_moveTo_waits hnext hb).mono ?_ fun _ _ ↦ False.elim)
  rintro _ _ ⟨w₁, hw₁, rfl⟩
  refine ends_thenPassing Act.passes_giveWay (hw₁.interrupt hb) fun _ w₂ hw₂ ↦ ?_
  refine ends_bind.mpr (ends_attempt.mpr (ends_lift.mpr (((Store.raises_restore_causes _ _).and
    ((Store.keeps_restore Act.isOffsite_uncalled _ _).and ends_self)).mono ?_ ?_)))
  · rintro routes w₃ ⟨-, huncalled, -⟩
    refine ends_thenPassing (Act.passes_countOne _ _)
      (huncalled (hw₂.interrupt (hw₁.interrupt hb))) fun _ w₄ _ ↦ ?_
    refine ends_bind.mpr (ends_update.mpr (ends_bind.mpr (ends_update.mpr ?_)))
    refine ends_moveTo_of_next (by simp [Bench.change, Bench.note, RunContext.record,
      Bench.moved, RunState.next]) fun w _ ↦ ⟨⟨_, ⟨rfl, ?_⟩, rfl, rfl, rfl, rfl, .inl rfl⟩, rfl⟩
    simp
  · rintro e w₃ ⟨⟨failed, total, rfl⟩ | ⟨cause, rfl⟩, -, hrestore⟩
    · refine ends_bind.mpr (ends_update.mpr (ends_bind.mpr (ends_update.mpr ?_)))
      refine ends_moveTo_of_next (by simp [Bench.change, Bench.note, RunContext.record,
        Bench.moved, RunState.next]) fun w _ ↦
          ⟨⟨_, ⟨rfl, ?_⟩, rfl, rfl, rfl, rfl, .inr ⟨_, rfl⟩⟩, rfl⟩
      simp
    · exact ⟨⟨rfl, Bench.happened_moved _ _ _ _⟩, rfl, ⟨cause, rfl⟩, w₂, hw₁.trans hw₂, hrestore⟩

theorem ends_settleFailure_blamed {snapshot : Option Snapshot} {message : String}
    (hstate : b.context.state = .executing ∨ b.context.state = .retrying)
    (hb : b.world.interrupt = none) :
    Ends (settleFailure phase snapshot message attempts elapsed) b
      (fun _ b' ↦ Blamed phase attempts message b b' ∧
        (b'.context.isFinished = false → b'.world.interrupt = none))
      fun e b' ↦ ∃ s, snapshot = some s ∧ Upset s e b b' := by
  have hnext : .failed ∈ b.context.state.next := by
    rcases hstate with h | h <;> rw [h] <;> decide
  unfold settleFailure
  refine ends_thenPassing (Act.passes_countOne _ _) hb fun _ w₁ hw₁ ↦ ?_
  refine ends_thenPassing (Act.passes_countOne _ _) (hw₁.interrupt hb) fun _ w₂ hw₂ ↦ ?_
  have hw := hw₁.trans hw₂
  refine ends_thenPassing (Act.passes_log _ _ _) (hw.interrupt hb) fun _ w₃ hw₃ ↦ ?_
  have hinterrupt := hw₃.interrupt (hw.interrupt hb)
  refine ends_bind.mpr (ends_get.mpr ?_)
  dsimp only
  split
  · refine (ends_rollBack_blamed (b := { b with world := w₃ }) hstate hinterrupt).mono ?_ ?_
    · rintro _ b' ⟨hblamed, hfinished⟩
      exact ⟨hblamed, fun hgoing ↦ by rw [hfinished] at hgoing; cases hgoing⟩
    · rintro e b' ⟨hpauses, hsnapshots, hfile, w, hlater, hrestore⟩
      exact ⟨_, rfl, hpauses, hsnapshots, hfile, w, (hw.trans hw₃).trans hlater, hrestore⟩
  · refine ends_bind.mpr (ends_update.mpr ?_)
    split
    · refine ends_bind.mpr (ends_update.mpr (ends_moveTo_of_next hnext fun w _ ↦ ?_))
      exact ⟨⟨_, ⟨rfl, by simp⟩, rfl, rfl, rfl, rfl, .inl rfl⟩, fun hgoing ↦ by cases hgoing⟩
    · exact ends_pure.mpr ⟨⟨_, ⟨rfl, by simp⟩, rfl, rfl, rfl, rfl, .inl rfl⟩, fun _ ↦ hinterrupt⟩

end Results

end RunAct

/-! ### Attempts and their result -/

section Trials

variable {fixer : Fixer} {phase : Phase} {files : List Route} {b₀ b b' : Bench} {ts : List Trial}
  {t : Trial} (hserves : fixer.Serves phase)

include hserves

theorem Attempting.tried (h : Attempting fixer phase files b₀ (ts ++ [t]) b)
    (hfails : ∀ t ∈ ts, ∃ e, t.verdict fixer phase = .error e) (hwithin : ts.length ≤ phase.retries)
    (hexhausted : ∀ e, t.verdict fixer phase = .error e → ts.length = phase.retries)
    (hhappened : b'.progress.happened = b.progress.happened) :
    Bench.Tried fixer phase files ts t b₀ b' where
  row := ⟨_, h.row⟩
  calls := hhappened.trans h.calls
  requests := h.requests
  ordered := h.row.ordered.1
  failures t ht := by
    obtain ⟨e, he⟩ := hfails t ht
    exact Trial.not_succeeds hserves he
  within := hwithin
  exhausted hnone := by
    cases hverdict : t.verdict fixer phase with
    | ok report => exact absurd ((Trial.verdict_eq_ok_iff hserves).mp hverdict) (hnone report)
    | error e => exact hexhausted e hverdict

theorem PhaseResult.tells_of_ok {r : PhaseResult} {report : FixReport} {calls : ℕ}
    (h : t.verdict fixer phase = .ok report) (hname : r.phase = phase.name)
    (hattempts : r.attempts = calls) (hsuccess : r.success = true)
    (hfixed : r.fixedCount = report.fixedCount.amount)
    (hdetails : report.details = .obj r.details) :
    r.Tells fixer phase calls t where
  name := hname
  attempts := hattempts
  success := iff_of_true hsuccess ⟨report, (Trial.verdict_eq_ok_iff hserves).mp h⟩
  fixed report' hreport' := by
    have hverdict := (Trial.verdict_eq_ok_iff hserves).mpr hreport'
    rw [h] at hverdict
    cases hverdict
    exact ⟨hfixed, hdetails⟩
  failed e he := by
    rw [h] at he
    cases he

theorem PhaseResult.tells_of_error {r : PhaseResult} {e : Fault} {calls : ℕ}
    (h : t.verdict fixer phase = .error e) (hname : r.phase = phase.name)
    (hattempts : r.attempts = calls) (hblames : r.Blames e.message) :
    r.Tells fixer phase calls t where
  name := hname
  attempts := hattempts
  success := by
    refine iff_of_false (by simp [hblames.success]) ?_
    rintro ⟨report, hreport⟩
    exact Trial.not_succeeds hserves h report hreport
  fixed report hreport := absurd hreport (Trial.not_succeeds hserves h report)
  failed e' he' := by
    rw [h] at he'
    cases he'
    exact hblames

end Trials

namespace RunAct

/-! ### Phases -/

section Phases

variable {fixer : Fixer} {phase : Phase} {b : Bench} (hserves : fixer.Serves phase)
  (htimeout : phase.timeout.toDouble?.isSome = true) (hb : b.world.interrupt = none)

include hserves htimeout hb

theorem ends_carryOut_tried {files : List Route} {snapshot : Option Snapshot}
    (hstate : b.context.state = .executing) :
    Ends (carryOut phase files snapshot fixer) b
      (fun _ b' ↦ ∃ earlier last r, Bench.Tried fixer phase files earlier last b b' ∧
        b'.context.history = b.context.history ++ [r] ∧
        r.Tells fixer phase (earlier.length + 1) last)
      fun e b' ↦ ∃ earlier last, Bench.Tried fixer phase files earlier last b b' ∧
        (∀ report, ¬ last.Succeeds fixer phase report) ∧
        b'.context.history = b.context.history ∧ ∃ cause, e = .file cause := by
  unfold carryOut
  refine ends_bind.mpr (ends_get.mpr (ends_bind.mpr (ends_get.mpr (ends_bind.mpr ?_))))
  refine ends_attempt.mpr ((ends_attempts_trials hserves.borne htimeout hb (.inl hstate)).mono ?_ ?_)
  · rintro report b₁ ⟨ts, hlength, hfails, t, hverdict, h, hattempt⟩
    have hb₁ := h.row.interrupt hb
    obtain ⟨-, reply, houtcome, hfixes⟩ := (Trial.verdict_eq_ok_iff hserves).mp hverdict
    obtain ⟨fields, hdetails⟩ := hfixes.exists_details (hserves.proper _ _ _ houtcome)
    refine ends_thenPassing (Act.passes_since _) hb₁ fun elapsed w hw ↦ ?_
    refine ends_bind.mpr (ends_get.mpr ?_)
    dsimp only
    refine (ends_settleSuccess_told (hw.interrupt hb₁)
      (Trial.countable_of_verdict hserves.borne hverdict)).mono ?_ fun _ _ ↦ False.elim
    rintro _ b' ⟨-, r, ⟨hhistory, hhappened⟩, hname, hattempts, hsuccess, hfixed, hrecord⟩
    rw [hdetails] at hrecord
    obtain rfl : fields = r.details := Except.ok.inj hrecord
    refine ⟨ts, t, r, h.tried hserves hfails hlength ?_ hhappened,
      hhistory.trans (congrArg (· ++ [r]) h.history),
      r.tells_of_ok hserves hverdict hname (hattempts.trans hattempt) hsuccess hfixed hdetails⟩
    intro e he
    rw [hverdict] at he
    cases he
  · rintro e b₁ ⟨ts, hlength, hfails, t, hverdict, h, hattempt⟩
    have hb₁ := h.row.interrupt hb
    have hfailed := Trial.fails_of_verdict hserves.borne hverdict
    refine ends_thenPassing (Act.passes_since _) hb₁ fun elapsed w hw ↦ ?_
    refine ends_bind.mpr (ends_get.mpr ?_)
    dsimp only
    rw [if_pos (by cases hfailed <;> rfl)]
    refine ends_bind.mpr (ends_lift.mpr (ends_modify.mpr ?_))
    refine (ends_settleFailure_blamed ?_ ?_).mono ?_ ?_
    · exact h.state
    · exact hw.interrupt hb₁
    · rintro _ b' ⟨⟨r, ⟨hhistory, hhappened⟩, hname, hattempts, hblames⟩, -⟩
      exact ⟨ts, t, r, h.tried hserves hfails hlength.le (fun _ _ ↦ hlength) hhappened,
        hhistory.trans (congrArg (· ++ [r]) h.history),
        r.tells_of_error hserves hverdict hname (hattempts.trans hattempt) hblames⟩
    · rintro e' b' ⟨s, -, ⟨hhistory, hhappened⟩, -, hcause, -⟩
      exact ⟨ts, t, h.tried hserves hfails hlength.le (fun _ _ ↦ hlength) hhappened,
        Trial.not_succeeds hserves hverdict, hhistory.trans h.history, hcause⟩

end Phases

/-! ### Recording -/

end RunAct

/-- The files of a phase are recorded, or cannot be; nothing has happened to its fixer. -/
structure Bench.Prepares (b b' : Bench) : Prop where
  history : b'.context.history = b.context.history
  config : b'.context.config = b.context.config
  state : b'.context.state = b.context.state
  happened : b'.progress.happened = b.progress.happened
  interrupt : b.world.Uncalled b'.world

theorem Bench.Prepares.trans {b b' b'' : Bench} (h : b.Prepares b') (h' : b'.Prepares b'') :
    b.Prepares b'' where
  history := h'.history.trans h.history
  config := h'.config.trans h.config
  state := h'.state.trans h.state
  happened := h'.happened.trans h.happened
  interrupt := h'.interrupt ∘ h.interrupt

namespace RunAct

theorem ends_takeSnapshot_prepares (key : String) (files : List Route) (b : Bench) :
    Ends (takeSnapshot key files) b (fun _ b' ↦ b.Prepares b') fun _ b' ↦ b.Prepares b' := by
  refine ends_takeSnapshot_of ((Act.isOffsite_uncalled.keeps_giveWay b.world).mono
    (fun _ w hw ↦ ?_) fun _ _ hw ↦ ⟨rfl, rfl, rfl, rfl, hw⟩)
  exact (Store.keeps_snapshot Act.isOffsite_uncalled _ _ _ _ w).mono
    (fun _ _ hw' ↦ ⟨rfl, rfl, rfl, Bench.happened_change _ _, hw' ∘ hw⟩)
    fun _ _ hw' ↦ ⟨rfl, rfl, rfl, rfl, hw' ∘ hw⟩

theorem ends_phaseSnapshot_prepares (phase : Phase) (files : List Route) (whole : Option Snapshot)
    (b : Bench) :
    Ends (phaseSnapshot phase files whole) b (fun _ b' ↦ b.Prepares b')
      fun _ b' ↦ b.Prepares b' := by
  refine ends_phaseSnapshot_of (fun _ _ _ _ _ ↦ ⟨rfl, rfl, rfl, rfl, id⟩) (fun _ part _ _ _ ↦ ?_)
    fun _ ↦ ends_takeSnapshot_prepares _ _ _
  exact (Store.keeps_record Act.isOffsite_uncalled _ _ _).mono
    (fun _ _ hw ↦ ⟨rfl, rfl, rfl, Bench.happened_change _ _, hw⟩)
    fun _ _ hw ↦ ⟨rfl, rfl, rfl, rfl, hw⟩

theorem ends_settleUnrecorded_refuses {phase : Phase} {fault : Fault} {b : Bench}
    (hstate : b.context.state = .executing) :
    Ends (settleUnrecorded phase fault) b
      (fun _ b' ↦ b'.progress.happened = b.progress.happened ++ [.refusal (some phase)])
      fun _ _ ↦ False := by
  refine ends_settleUnrecorded_iff.mpr
    (ends_moveTo_of_next (Bench.next_of_unrecorded hstate phase fault) fun w _ ↦ ?_)
  exact (Bench.happened_moved _ _ _ _).trans (b.happened_unrecorded phase fault)

/-- A phase that has a fixer and is reached in earnest calls it until a call succeeds or none is
left, and its result says so; unless its files cannot be recorded, or the run fails in checking
files that have been put back. -/
theorem ends_runPhase_tried {crew : Crew} {whole : Option Snapshot} {fixer : Fixer} {phase : Phase}
    {b : Bench} (hfixer : crew.registry.get phase.fixerRef = .ok fixer)
    (hserves : fixer.Serves phase) (htimeout : phase.timeout.toDouble?.isSome = true)
    (hdry : b.context.config.dryRun = false) (hstate : b.context.state = .executing)
    (hb : b.world.interrupt = none) :
    Ends (runPhase crew whole phase) b
      (fun _ b' ↦ b'.progress.happened = b.progress.happened ++ [.refusal (some phase)] ∨
        ∃ files b₁ earlier last r, filesOf phase b = (.ok files, b) ∧ b.Prepares b₁ ∧
          Bench.Tried fixer phase files earlier last b₁ b' ∧
          b'.context.history = b.context.history ++ [r] ∧
          r.Tells fixer phase (earlier.length + 1) last)
      fun e b' ↦ b.Pauses b' ∨
        ∃ files b₁ earlier last, filesOf phase b = (.ok files, b) ∧ b.Prepares b₁ ∧
          Bench.Tried fixer phase files earlier last b₁ b' ∧
          (∀ report, ¬ last.Succeeds fixer phase report) ∧
          b'.context.history = b.context.history ∧ ∃ cause, e = .file cause := by
  -- How it goes on once the files of the phase are recorded, if they are to be.
  have hremedy : ∀ {files b₁} snapshot, filesOf phase b = (.ok files, b) → b.Prepares b₁ →
      Ends (remedy crew phase files snapshot) b₁
        (fun _ b' ↦ ∃ files b₁ earlier last r, filesOf phase b = (.ok files, b) ∧ b.Prepares b₁ ∧
          Bench.Tried fixer phase files earlier last b₁ b' ∧
          b'.context.history = b.context.history ++ [r] ∧
          r.Tells fixer phase (earlier.length + 1) last)
        fun e b' ↦ ∃ files b₁ earlier last, filesOf phase b = (.ok files, b) ∧ b.Prepares b₁ ∧
          Bench.Tried fixer phase files earlier last b₁ b' ∧
          (∀ report, ¬ last.Succeeds fixer phase report) ∧
          b'.context.history = b.context.history ∧ ∃ cause, e = .file cause := by
    intro files b₁ snapshot hfiles h₁
    unfold remedy
    rw [hfixer]
    refine (ends_carryOut_tried hserves htimeout (h₁.interrupt hb)
      (h₁.state.trans hstate)).mono ?_ ?_
    · rintro _ b' ⟨earlier, last, r, htried, hhistory, htells⟩
      exact ⟨files, b₁, earlier, last, r, hfiles, h₁, htried, h₁.history ▸ hhistory, htells⟩
    · rintro e b' ⟨earlier, last, htried, hfails, hhistory, hcause⟩
      exact ⟨files, b₁, earlier, last, hfiles, h₁, htried, hfails,
        hhistory.trans h₁.history, hcause⟩
  refine ends_runPhase_of (((ends_filesOf phase b).and ends_self).mono ?_ ?_)
  case refine_2 =>
    rintro e b' ⟨⟨rfl, -⟩, -⟩
    exact .inl ⟨rfl, rfl⟩
  rintro files b' ⟨rfl, hfiles⟩ fields
  refine ends_lift.mpr ((Act.passes_log _ _ _ b'.world hb).mono (fun _ w hw ↦ ?_)
    fun _ _ ↦ False.elim)
  have hlogged : b'.Prepares { b' with world := w } := ⟨rfl, rfl, rfl, rfl, hw.interrupt⟩
  constructor
  case rehearsed => exact fun hyes ↦ nomatch hdry.symm.trans hyes
  case recorded =>
    refine fun _ _ ↦ (ends_phaseSnapshot_prepares _ _ _ _).mono ?_ ?_
    · intro snapshot b₁ h₁
      exact (hremedy (some snapshot) hfiles (hlogged.trans h₁)).mono (fun _ _ ↦ .inr)
        fun _ _ ↦ .inr
    · intro fault b₁ h₁
      have h₁ := hlogged.trans h₁
      refine ⟨fun _ ↦ ?_, fun _ ↦ .inl ⟨h₁.history, h₁.happened⟩⟩
      exact (ends_settleUnrecorded_refuses (h₁.state.trans hstate)).mono
        (fun _ b₂ h₂ ↦ .inl (h₁.happened ▸ h₂)) fun _ _ ↦ False.elim
  case unrecorded =>
    exact fun _ _ ↦ (hremedy none hfiles hlogged).mono (fun _ _ ↦ .inr) fun _ _ ↦ .inr

end RunAct

/-! ### Fixers that count -/

theorem Fixer.serves_counting {count : ℤ} (hfits : (Number.int count).toDouble?.isSome = true)
    (phase : Phase) : (Fixer.counting count).Serves phase where
  limited _ _ := nofun
  proper _ _ _ hreply := by
    cases hreply
    trivial
  fits _ _ _ _ hreply hfixes := by
    cases hreply
    cases hfixes
    exact hfits

theorem Trial.succeeds_counting {count : ℤ} (hcount : 0 ≤ count) {phase : Phase}
    (hphase : (Course.done (FixReply.count 0)).misses phase.timeout = false) (t : Trial) :
    t.Succeeds (.counting count) phase { fixedCount := count } :=
  ⟨hphase, _, rfl, .count hcount⟩

/-- A run that has just come to its phase. -/
def Bench.reached : Bench where
  world := Scenario.oneFile.world
  store := .ofProject ["p"] defaultBackupDirectory
  context := { runId := "run-1", project := ["p"], state := .executing
               config := { backupEnabled := false, validationEnabled := false } }

namespace RunAct

/-- A fixer that says at once that it fixed three findings is called once, and the result says
so. -/
theorem tried_of_counting :
    let phase : Phase := .sample .syntactic ["a.ts"]
    ∃ b' files b₁ earlier last r, runPhase (.counting 3) none phase .reached = (.ok (), b') ∧
      Bench.reached.Prepares b₁ ∧ Bench.Tried (.counting 3) phase files earlier last b₁ b' ∧
      b'.context.history = [r] ∧ r.Tells (.counting 3) phase (earlier.length + 1) last := by
  intro phase
  have hrun : runPhase (.counting 3) none phase .reached =
      (.ok (), (runPhase (.counting 3) none phase .reached).2) :=
    Prod.ext (Store.eq_ok_of_toOption (by decide +kernel)) rfl
  have htried := @ends_runPhase_tried (.counting 3) none _ phase .reached rfl
    (Fixer.serves_counting (by decide +kernel) phase) (by decide +kernel) rfl
    rfl rfl
  rw [ends_of_eq hrun] at htried
  rcases htried with
    hrefused | ⟨files, b₁, earlier, last, r, -, hprepares, htried, hhistory, htells⟩
  · have hnone : (runPhase (.counting 3) none phase .reached).2.progress.happened.countP
        Occurrence.isRefusal = 0 := by decide +kernel
    rw [hrefused] at hnone
    simp [Occurrence.isRefusal] at hnone
  · exact ⟨_, files, b₁, earlier, last, r, hrun, hprepares, htried, hhistory, htells⟩

/-- More than a fraction can be. -/
def tooMany : ℤ := 10 ^ 309

/-- A count that does not fit into a counter is no failure of the call, but there is no result. -/
theorem uncounted_of_runPhase :
    (∀ t : Trial, t.Succeeds (.counting tooMany) (.sample .syntactic ["a.ts"])
      { fixedCount := tooMany }) ∧
    let ended := runPhase (.counting tooMany) none (.sample .syntactic ["a.ts"]) .reached
    ended.1.toOption = none ∧ ended.2.context.history.length = 0 ∧
      ended.2.progress.happened.countP Occurrence.isCall = 1 := by
  have hmany : 0 ≤ tooMany := by decide +kernel
  exact ⟨Trial.succeeds_counting hmany (by decide +kernel), by decide +kernel⟩

end RunAct

end Remedy
