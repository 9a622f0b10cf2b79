import Remedy.Proofs.Run.Bearing
import Remedy.Proofs.Run.Snapshots

/-!
# Fixers that get nothing done

A fixer may raise, call itself off, miss its deadline, or reply with something that is no report of
success (`FixReply.Futile`): each time this is a failed attempt. If all attempts of a phase are of
this kind, the result of the phase is a failure, and if the phase is required, its files are put back
or the run says that this failed (`Bench.Concedes`). So it is in every run whose crew can be borne
(`RunAct.ends_run_borne`).

Not every reply can be borne. A count that is no number is not taken for a failed attempt: the run
falls with it, and the files stay as the fixer left them (`RunAct.stranded_of_run`).
-/

set_option autoImplicit false

namespace Remedy

/-! ### Fixers that get nothing done -/

/-- The reply is that of a failed attempt. -/
inductive FixReply.Futile : FixReply → Prop
  | count {n : ℤ} (hn : n < 0) : Futile (.count n)
  | negative {r : FixReport} (hcount : isNegative? r.fixedCount = some true) : Futile (.report r)
  | unsuccessful {r : FixReport} (hcount : (isNegative? r.fixedCount).isSome = true)
      (hsuccess : r.success.truthy = false) : Futile (.report r)
  | other (kind : String) : Futile (.other kind)

/-- Whenever the fixer returns, its reply is that of a failed attempt. -/
def Fixer.Futile (fixer : Fixer) : Prop :=
  ∀ request site reply, (fixer.fix request site).1.outcome = .ok reply → reply.Futile

theorem FixReply.Futile.verdict {reply : FixReply} (h : reply.Futile) (phase : Phase) :
    ∃ e, (Settled.ended (.ok reply)).verdict phase = .error e := by
  cases h with
  | @count n hn =>
    rw [Settled.verdict_count, if_pos hn]
    exact ⟨_, rfl⟩
  | negative hcount => exact ⟨_, by simp [Settled.verdict, FixReply.check, bind, Except.bind, hcount]; rfl⟩
  | unsuccessful hcount hsuccess =>
    obtain ⟨negative, hnegative⟩ := Option.isSome_iff_exists.mp hcount
    cases negative with
    | true => exact ⟨_, by simp [Settled.verdict, FixReply.check, bind, Except.bind, hnegative]; rfl⟩
    | false =>
      exact ⟨_, by simp [Settled.verdict, FixReply.check, bind, Except.bind, hnegative, hsuccess]; rfl⟩
  | other kind => exact ⟨_, rfl⟩

theorem Fixer.Futile.verdict {fixer : Fixer} (h : fixer.Futile) (phase : Phase) (t : Trial) :
    ∃ e, t.verdict fixer phase = .error e := by
  unfold Trial.verdict Course.settled
  split
  · exact ⟨_, rfl⟩
  · cases houtcome : (t.course fixer).outcome with
    | error fault =>
      obtain ⟨e, -, he⟩ := Settled.verdict_error phase fault
      exact ⟨e, he⟩
    | ok reply => exact (h _ _ _ houtcome).verdict phase

/-! ### Runs -/

/-- The phase has no fixer, or one that gets nothing done. -/
def Crew.Fails (crew : Crew) (phase : Phase) : Prop :=
  ∀ fixer, crew.registry.get phase.fixerRef = .ok fixer → fixer.Futile

/-- The results of the phases that were to be carried out in this order concede that nothing was done
where fixers get nothing done. -/
structure Bench.Concedes (crew : Crew) (phases : List Phase) (config : RunConfig) (b : Bench) :
    Prop where
  /-- It is a failure in which all attempts were made, unless there was nobody to make them or files
  could not be recorded. -/
  failed : ∀ (i : Nat) (phase : Phase) (r : PhaseResult), phases[i]? = some phase →
    b.context.history[i]? = some r → crew.Fails phase → r.success = false ∧
      (r.attempts = phase.retries + 1 ∨ r.attempts = 0 ∧
        ((∃ e, crew.registry.get phase.fixerRef = .error e) ∨
          .refusal (some phase) ∈ b.progress.happened))
  /-- If the phase is required, its files were put back or it is said that they could not be, unless
  they could not even be recorded. -/
  undone : (config.backupEnabled && config.rollbackOnFailure) = true →
    ∀ (i : Nat) (phase : Phase) (r : PhaseResult), phases[i]? = some phase →
      b.context.history[i]? = some r → crew.Fails phase → phase.required = true →
      b.context.state = .rolledBack ∨ b.context.state = .rollbackFailed ∨
        ∃ phase, .refusal phase ∈ b.progress.happened

section Conceding

variable {crew : Crew} {phases settled : List Phase} {config : RunConfig} {b : Bench}

/-- What the results say of a phase, they say of the phase in its place. -/
theorem grounded_of_getElem? (hsettled : settled <+: phases)
    (hresults : List.Forall₂ (PhaseResult.Grounded crew config b.progress.happened) settled
      b.context.history)
    {i : Nat} {phase : Phase} {r : PhaseResult} (hphase : phases[i]? = some phase)
    (hr : b.context.history[i]? = some r) :
    r.Grounded crew config b.progress.happened phase := by
  obtain ⟨hi, rfl⟩ := List.getElem?_eq_some_iff.mp hr
  have hlt : i < settled.length := hresults.length_eq ▸ hi
  obtain ⟨_, rfl⟩ := List.getElem?_eq_some_iff.mp hphase
  have hgrounded := hresults.get hlt hi
  rwa [List.get_eq_getElem, List.get_eq_getElem, hsettled.getElem hlt] at hgrounded

/-- Where nothing gets done the result cannot say success, unless nothing was done in earnest. -/
theorem PhaseResult.Grounded.not_success {os : List Occurrence} {phase : Phase} {r : PhaseResult}
    (h : r.Grounded crew config os phase) (hdry : config.dryRun = false) (hfails : crew.Fails phase) :
    r.success = false := by
  refine Bool.eq_false_iff.mpr fun hsuccess ↦ ?_
  rcases h.success hsuccess with hdry' | ⟨fixer, hfixer, t, report, hverdict⟩
  · rw [hdry] at hdry'
    cases hdry'
  · obtain ⟨e, he⟩ := (hfails fixer hfixer).verdict phase t
    rw [he] at hverdict
    cases hverdict

/-- A run that has ended and in which a required phase has failed has put files back or failed to,
unless it could not record them. -/
theorem RunEnding.undone (h : RunEnding phases config b)
    (hback : (config.backupEnabled && config.rollbackOnFailure) = true) {i : Nat} {phase : Phase}
    {r : PhaseResult} (hphase : phases[i]? = some phase) (hr : b.context.history[i]? = some r)
    (hrequired : phase.required = true) (hfailure : r.success = false) :
    b.context.state = .rolledBack ∨ b.context.state = .rollbackFailed ∨
      ∃ phase, .refusal phase ∈ b.progress.happened := by
  have hnot : ¬ ∀ (i : Nat) (phase : Phase) (r : PhaseResult), phases[i]? = some phase →
      b.context.history[i]? = some r → phase.required = true → r.success = true := by
    intro hall
    rw [hall i phase r hphase hr hrequired] at hfailure
    cases hfailure
  have hterminal := h.terminal
  cases hstate : b.context.state with
  | rolledBack => exact .inl rfl
  | rollbackFailed => exact .inr (.inl rfl)
  | completed => exact absurd (h.completed_iff.mp hstate).2.1 hnot
  | failed => exact .inr (.inr ((h.failed hstate hback).resolve_right hnot))
  | aborted =>
    obtain ⟨front, phase, back, hhappened, -⟩ := h.aborted_iff.mp hstate
    exact .inr (.inr ⟨phase, by rw [hhappened]; simp⟩)
  | _ =>
    rw [hstate] at hterminal
    cases hterminal

theorem concedes_of_grounded (h : RunEnding phases config b) (hdry : config.dryRun = false)
    (hsettled : settled <+: phases)
    (hresults : List.Forall₂ (PhaseResult.Grounded crew config b.progress.happened) settled
      b.context.history) : b.Concedes crew phases config where
  failed _ _ _ hphase hr hfails :=
    have hgrounded := grounded_of_getElem? hsettled hresults hphase hr
    have hfailure := hgrounded.not_success hdry hfails
    ⟨hfailure, hgrounded.failure hfailure⟩
  undone hback _ _ _ hphase hr hfails hrequired :=
    h.undone hback hphase hr hrequired
      ((grounded_of_getElem? hsettled hresults hphase hr).not_success hdry hfails)

end Conceding

namespace RunAct

/-- A run whose crew can be borne ends in a state of its own, and its results concede where nothing
got done, unless a path cannot be followed or the counts in the results cannot be added up. -/
theorem ends_run_borne {crew : Crew} {phases : List Phase} (hcrew : crew.Borne phases) {world : World}
    (hworld : world.interrupt = none) (store : Store) (runId : String) (project : Route)
    (config : RunConfig) :
    let ordered := phases.mergeSort fun p q ↦ p.priority ≤ q.priority
    Ends (run crew phases) (.fresh world store runId project config)
      (fun _ b ↦ b.context.state.isTerminal = true ∧ RunEnding ordered config b ∧
        (config.dryRun = false → b.Concedes crew ordered config))
      fun e b ↦ b.Obstructed phases e ∨ b.context.fixedCount = .error e := by
  refine ((ends_run_ending crew phases world store runId project config).and
    (ends_run_reports (b := .fresh world store runId project config) hcrew hworld rfl rfl)).mono
      ?_ ?_
  · rintro _ b ⟨hending, settled, hsettled, hresults⟩
    exact ⟨hending.terminal, hending, fun hdry ↦
      concedes_of_grounded hending hdry hsettled hresults⟩
  · rintro e b ⟨hordinary, hfault⟩
    exact hfault.resolve_left fun hnot ↦ hnot hordinary

end RunAct

/-! ### A fixer that replies what it likes -/

/-- A fixer that overwrites the files that it is handed, and then gives that reply. -/
def Fixer.replying (content : Text.Bytes) (reply : FixReply) : Fixer where
  kind := "Fixer"
  fix request := fun site ↦
    (.done reply, { site with files := site.files.overwrite content request.files })

/-- A run over a file with one finding, with that fixer. -/
def RunAct.replyingRun (reply : FixReply) : Except Fault Unit × Bench :=
  run ⟨[(.syntactic, .replying (Text.encode "new") reply)], []⟩ [.sample .syntactic ["a.ts"]]
    (.fresh Scenario.oneFile.world (.ofProject ["p"] defaultBackupDirectory) "run-1" ["p"]
      { validationEnabled := false })

namespace RunAct

theorem borne_replying {reply : FixReply} (h : reply.Bearable) (phases : List Phase)
    (htimeouts : ∀ phase ∈ phases, phase.timeout.toDouble?.isSome = true) :
    Crew.Borne ⟨[(.syntactic, .replying (Text.encode "new") reply)], []⟩ phases where
  fixers phase _ fixer hfixer := by
    obtain ⟨cause, hmem⟩ := Registry.mem_of_get hfixer
    obtain ⟨-, rfl⟩ := Prod.mk.inj (List.mem_singleton.mp hmem)
    refine ⟨fun _ _ ↦ nofun, fun _ _ reply hreply ↦ ?_⟩
    cases hreply
    exact h
  timeouts := htimeouts
  probes _ h := absurd h List.not_mem_nil
  deadlines _ h := absurd h List.not_mem_nil

/-- The fixer replies with something that is no report. The run rolls back, and the file is as it
was. -/
theorem ends_run_borne_replying :
    let b := (replyingRun (.other "str")).2
    b.context.state = .rolledBack ∧ b.world.files.bytes? ["p", "a.ts"] = some (Text.encode "old") ∧
      RunEnding [.sample .syntactic ["a.ts"]] { validationEnabled := false } b := by
  have hends := ends_run_borne
    (borne_replying (show (FixReply.other "str").Bearable from trivial)
      [.sample .syntactic ["a.ts"]] (by simp only [List.mem_singleton, forall_eq]; decide +kernel))
    (show Scenario.oneFile.world.interrupt = none from rfl)
    (.ofProject ["p"] defaultBackupDirectory) "run-1" ["p"] { validationEnabled := false }
  have hrun : replyingRun (.other "str") = (.ok (), (replyingRun (.other "str")).2) :=
    Prod.ext (Store.eq_ok_of_toOption (by decide +kernel)) rfl
  have hending := ((ends_of_eq hrun).mp hends).2.1
  rw [List.mergeSort_singleton] at hending
  exact ⟨by decide +kernel, by decide +kernel, hending⟩

/-- A count that is no number is no failed attempt: the run does not return, the required phase has no
result, and its file is not put back although there is a snapshot of it. -/
theorem stranded_of_run :
    let ended := replyingRun (.report { fixedCount := "x" })
    ended.1.toOption = none ∧ ended.2.context.state = .executing ∧
      ended.2.context.history.length = 0 ∧ ended.2.context.snapshots.length = 2 ∧
      ended.2.world.files.bytes? ["p", "a.ts"] = some (Text.encode "new") := by
  decide +kernel

end RunAct

end Remedy
