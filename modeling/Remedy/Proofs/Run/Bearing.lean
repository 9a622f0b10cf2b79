import Remedy.Proofs.Backup.Foiling
import Remedy.Proofs.Gate
import Remedy.Proofs.Run.Outcome
import Remedy.Proofs.Run.Recording
import Remedy.Proofs.Run.Tried

/-!
# What a run can bear

A run takes the failure of a fixer for a failed attempt, and that of the store for an ending of its
own. So if nobody calls it off, and all that fixers and probes reply can be borne (`Crew.Borne`), it
comes to an end, and its results tell which phases got something done (`RunAct.ends_run_reports`).
There are two exceptions: a path that it has to follow cannot be followed, which the store does not
answer for (`Bench.Obstructed`), and the counts in its results, each of which is a number, may be too
large to be added up.

What is followed along a run is that it is not called off, that the context keeps the snapshots that
it has, and what its results say of the attempts (`PhaseResult.Grounded`). That a move is not allowed
never happens (`RunAct.ends_run_ending`), and is left aside here.
-/

set_option autoImplicit false

namespace Remedy

/-! ### Crews and results -/

/-- What the crew replies in these phases can be borne, and none of its work goes on for ever without
a deadline. -/
structure Crew.Borne (crew : Crew) (phases : List Phase) : Prop where
  fixers : ∀ phase ∈ phases, ∀ fixer, crew.registry.get phase.fixerRef = .ok fixer →
    fixer.Borne phase
  timeouts : ∀ phase ∈ phases, phase.timeout.toDouble?.isSome = true
  probes : ∀ check ∈ crew.checks, check.probe.Replies
  deadlines : ∀ check ∈ crew.checks, ∀ site, (check.probe site).1.Limited check.timeout

/-- The result says success only if a call of the fixer succeeded, or nothing was done in earnest.
If it says failure, all attempts were made, or none, for lack of a fixer or because the files of the
phase could not be recorded. -/
structure PhaseResult.Grounded (crew : Crew) (config : RunConfig) (happened : List Occurrence)
    (phase : Phase) (r : PhaseResult) : Prop where
  success : r.success = true → config.dryRun = true ∨
    ∃ fixer, crew.registry.get phase.fixerRef = .ok fixer ∧
      ∃ (t : Trial) (report : FixReport), t.verdict fixer phase = .ok report
  failure : r.success = false → r.attempts = phase.retries + 1 ∨ r.attempts = 0 ∧
    ((∃ e, crew.registry.get phase.fixerRef = .error e) ∨ .refusal (some phase) ∈ happened)

theorem PhaseResult.Grounded.mono {crew : Crew} {config : RunConfig} {phase : Phase}
    {r : PhaseResult} {os os' : List Occurrence} (h : r.Grounded crew config os phase)
    (hsub : ∀ o ∈ os, o ∈ os') : r.Grounded crew config os' phase :=
  ⟨h.success, fun hfailure ↦
    (h.failure hfailure).imp_right fun hnone ↦ ⟨hnone.1, hnone.2.imp_right (hsub _)⟩⟩

/-! ### Paths that cannot be followed -/

/-- The key is one under which a run of the phases takes snapshots. -/
def Phase.IsKey (phases : List Phase) (key : String) : Prop :=
  key = runKey ∨ ∃ phase ∈ phases, phase.fixerRef = key

namespace Bench

variable {phases : List Phase} {b b' : Bench}

/-- A path of a phase leads there, and did so before the log was last written. -/
def Leads (phases : List Phase) (b : Bench) (r : Route) : Prop :=
  ∃ (w : World) (phase : Phase) (p : Path), w.Still b.world ∧ phase ∈ phases ∧ p ∈ phase.files ∧
    w.files.resolve ((Route.path b.context.project).join p) = .ok r

theorem Leads.inWorld {r : Route} (h : b.Leads phases r) {w : World} (hw : b.world.Still w) :
    ({ b with world := w } : Bench).Leads phases r := by
  obtain ⟨w₀, phase, p, hstill, hphase, hp, hresolve⟩ := h
  exact ⟨w₀, phase, p, hstill.trans hw, hphase, hp, hresolve⟩

/-- The snapshot is among those that the context keeps. -/
def Holds (b : Bench) (s : Snapshot) : Prop :=
  ∃ key, Json.lookup key b.context.snapshots = some s

theorem holds_of_keep {s : Snapshot} (h : b'.context = b.context.keep s) : b'.Holds s := by
  refine ⟨s.key, ?_⟩
  rw [h]
  exact (Json.lookup_insert _ _ _ _).trans (if_pos rfl)

/-- The contexts keep the same snapshots. -/
def Shares (b b' : Bench) : Prop := b'.context.snapshots = b.context.snapshots

theorem shares_refl (b : Bench) : b.Shares b :=
  rfl

theorem shares_trans (b b' b'' : Bench) (h : b.Shares b') (h' : b'.Shares b'') : b.Shares b'' :=
  h'.trans h

theorem Holds.shares {s : Snapshot} (h : b.Holds s) (hb : b.Shares b') : b'.Holds s := by
  obtain ⟨key, hkey⟩ := h
  exact ⟨key, hb ▸ hkey⟩

/-- A path cannot be followed that the run has to follow: that of a file of a phase, the same again
when it is to be recorded, that of the directory for a snapshot, or that of a file that is checked
after it has been put back. -/
inductive Obstructed (phases : List Phase) (b : Bench) : Fault → Prop
  | path {phase : Phase} {p : Path} {e : Fault} (hphase : phase ∈ phases) (hp : p ∈ phase.files)
      (hresolve : b.world.files.resolve ((Route.path b.context.project).join p) = .error e) :
      Obstructed phases b e
  | file {r : Route} {e : Fault} (hr : b.Leads phases r)
      (hresolve : b.world.files.resolve (Route.path r) = .error e) : Obstructed phases b e
  | place {key : String} (hkey : Phase.IsKey phases key)
      (hwalk : b.world.files.walk (b.store.location b.context.runId key) = .error .nameTooLong) :
      Obstructed phases b
        (.file ⟨.nameTooLong, (b.store.location b.context.runId key).text, none⟩)
  | nul {key : String} (hkey : Phase.IsKey phases key)
      (hnul : (b.store.location b.context.runId key).hasNul = true) :
      Obstructed phases b (.invalid .nul)
  | recorded {s : Snapshot} {r : Route} (hs : b.Holds s) (hr : r ∈ s.paths)
      (hwalk : b.world.files.walk (Route.path r) = .error .nameTooLong) :
      Obstructed phases b (.file ⟨.nameTooLong, Route.text r, none⟩)

theorem Obstructed.inWorld {e : Fault} (h : b.Obstructed phases e) {w : World}
    (hfiles : w.files = b.world.files) (hw : b.world.Still w) :
    ({ b with world := w } : Bench).Obstructed phases e := by
  cases h with
  | path hphase hp hresolve => exact .path hphase hp (hfiles ▸ hresolve)
  | file hr hresolve => exact .file (hr.inWorld hw) (hfiles ▸ hresolve)
  | place hkey hwalk =>
    exact .place (b := { b with world := w }) hkey (hfiles ▸ hwalk)
  | nul hkey hnul => exact .nul hkey hnul
  | recorded hs hr hwalk => exact .recorded (b := { b with world := w }) hs hr (hfiles ▸ hwalk)

/-- The phase has a grounded result. Unless the run is over, it is not called off, and nothing was
refused. -/
def Reports (crew : Crew) (config : RunConfig) (phase : Phase) (b b' : Bench) : Prop :=
  ∃ r, b'.context.history = b.context.history ++ [r] ∧
    r.Grounded crew config b'.progress.happened phase ∧
    (b'.context.isFinished = false → b'.world.interrupt = none ∧ r.Grounded crew config [] phase)

theorem Reports.before {crew : Crew} {config : RunConfig} {phase : Phase} {b₁ : Bench}
    (h : b₁.Reports crew config phase b') (hhistory : b₁.context.history = b.context.history) :
    b.Reports crew config phase b' := by
  obtain ⟨r, hadded, hgrounded⟩ := h
  exact ⟨r, hhistory ▸ hadded, hgrounded⟩

/-- A result that is grounded without a refusal. -/
theorem reports_of_grounded {crew : Crew} {config : RunConfig} {phase : Phase} {r : PhaseResult}
    (hhistory : b'.context.history = b.context.history ++ [r]) (hr : r.Grounded crew config [] phase)
    (hgoing : b'.context.isFinished = false → b'.world.interrupt = none) :
    b.Reports crew config phase b' :=
  ⟨r, hhistory, hr.mono fun _ h ↦ absurd h List.not_mem_nil, fun h ↦ ⟨hgoing h, hr⟩⟩

/-- Nothing has been added to the results. Unless the run is over, it is not called off. -/
structure Lingers (b b' : Bench) : Prop where
  history : b'.context.history = b.context.history
  config : b'.context.config = b.context.config
  interrupt : b'.context.isFinished = false → b'.world.interrupt = none

end Bench

theorem Snapshot.exists_restrict {s : Snapshot} {routes : List Route}
    (h : s.covers routes = true) (key : String) : ∃ part, s.restrict routes key = .ok part := by
  have hpick : ∀ done, ∃ files, routes.foldlM s.pick done = .ok files := by
    unfold covers at h
    rw [List.all_eq_true] at h
    induction routes with
    | nil => exact fun done ↦ ⟨done, rfl⟩
    | cons route rest ih =>
      intro done
      obtain ⟨hroute, hrest⟩ := List.forall_mem_cons.mp h
      obtain ⟨content, hcontent⟩ := Option.isSome_iff_exists.mp hroute
      obtain ⟨files, hfiles⟩ := ih hrest (put route content done)
      refine ⟨files, ?_⟩
      rw [List.foldlM_cons, pick, hcontent]
      exact hfiles
  obtain ⟨files, hfiles⟩ := hpick []
  exact ⟨{ s with key := key, files := files }, by rw [restrict, hfiles]; rfl⟩

namespace RunAct

/-! ### Snapshots are kept through the attempts -/

/-- The context keeps the snapshots that it has. -/
def Retains {α : Type} (act : RunAct α) : Prop :=
  Keeps Bench.Shares act

section Retaining

variable {α β : Type}

theorem Retains.bind {act : RunAct α} {f : α → RunAct β} (h : Retains act)
    (hnext : ∀ a, Retains (f a)) : Retains (act >>= f) :=
  Keeps.bind Bench.shares_trans h hnext

theorem retains_lift (act : Act α) : Retains (lift act) :=
  fun _ ↦ ends_lift.mpr (ends_of_forall (fun _ _ ↦ rfl) fun _ _ ↦ rfl)

theorem Calmly.retains {act : RunAct α} (h : Calmly act) : Retains act :=
  fun b ↦ (h b).mono (fun _ _ hrests ↦ hrests.context.snapshots)
    fun _ _ hrests ↦ hrests.context.snapshots

theorem retains_moveTo (target : RunState) (name : Option String) (reason : String) :
    Retains (moveTo target name reason) :=
  fun b ↦ (ends_moveCalmly target name reason b).mono
    (fun _ _ hmoved ↦ hmoved.1.context.snapshots) fun _ _ hsame ↦ hsame ▸ Bench.shares_refl b

theorem retains_callFixer (fixer : Fixer) (phase : Phase) (files : List Route) (number : Nat) :
    Retains (callFixer fixer phase files number) := by
  unfold callFixer
  refine .bind (retains_lift _) fun _ ↦ .bind (retains_lift _) fun _ ↦ ?_
  refine .bind (keeps_modify fun _ ↦ rfl) fun _ ↦ ?_
  split
  · exact keeps_throw Bench.shares_refl _
  refine .bind (keeps_get Bench.shares_refl) fun b ↦ .bind (keeps_modify fun _ ↦ rfl) fun _ ↦ ?_
  exact .bind (retains_lift _) fun settled ↦ (calmly_judge _ _ settled).retains

theorem retains_attempts (fixer : Fixer) (phase : Phase) (files : List Route) (policy : RetryPolicy)
    (left number : Nat) :
    Retains (retryFrom policy (attemptPhase fixer phase files)
      (fun number fault wait ↦ lift (Act.rest number fault wait)) left number) := by
  have hattempt : ∀ number, Retains (attemptPhase fixer phase files number) := by
    intro number
    unfold attemptPhase
    refine .bind (keeps_modify fun _ ↦ rfl) fun _ ↦ ?_
    dsimp only
    split
    · exact .bind (retains_moveTo _ _ _) fun _ ↦ retains_callFixer fixer phase files number
    · exact retains_callFixer fixer phase files number
  exact keeps_retryFrom Bench.shares_trans Bench.shares_refl hattempt (fun _ _ _ ↦ retains_lift _)
    _ _

end Retaining

/-! ### Moves -/

/-- A move of a run that is not called off does not call it off, and fails only if it is not
allowed. -/
theorem ends_moveTo_lingers (target : RunState) (name : Option String) (reason : String) {b : Bench}
    (hb : b.world.interrupt = none) :
    Ends (moveTo target name reason) b
      (fun _ b' ↦ (b'.world.interrupt = none ∧ b.Lingers b') ∧ b'.context.state = target)
      fun e _ ↦ ¬ e.Ordinary := by
  by_cases hnext : target ∈ b.context.state.next
  · refine (ends_moveTo_waits hnext hb).mono ?_ fun _ _ ↦ False.elim
    rintro _ _ ⟨w, hw, rfl⟩
    have hinterrupt := hw.interrupt hb
    exact ⟨⟨hinterrupt, rfl, rfl, fun _ ↦ hinterrupt⟩, rfl⟩
  · exact ends_moveTo (fun hsame ↦ ⟨⟨hb, rfl, rfl, fun _ ↦ hb⟩, hsame⟩)
      (fun h ↦ absurd h hnext) fun _ _ ↦ id

/-! ### Recording -/

section Recording

variable {phases : List Phase} {phase : Phase} {b : Bench}

theorem ends_filesOf_leads (hphase : phase ∈ phases) :
    Ends (filesOf phase) b (fun files b' ↦ b' = b ∧ ∀ r ∈ files, b.Leads phases r)
      fun e b' ↦ b' = b ∧ b.Obstructed phases e := by
  refine (ends_filesOf_asked phase b).mono ?_ fun e b' ⟨hsame, p, hp, he⟩ ↦ ⟨hsame, .path hphase hp he⟩
  rintro files b' ⟨rfl, hfiles, -⟩
  refine ⟨rfl, fun r hr ↦ ?_⟩
  obtain ⟨p, hp, hresolve⟩ := (hfiles r).mp hr
  exact ⟨b'.world, phase, p, .refl _, hphase, hp, hresolve⟩

theorem ends_filesOfAll_leads {part : List Phase} (hsub : ∀ phase ∈ part, phase ∈ phases) :
    Ends (part.mapM filesOf) b (fun files b' ↦ b' = b ∧ ∀ r ∈ files.flatten, b.Leads phases r)
      fun e b' ↦ b' = b ∧ b.Obstructed phases e := by
  induction part with
  | nil => exact ends_pure.mpr ⟨rfl, by simp⟩
  | cons phase rest ih =>
    obtain ⟨hphase, hrest⟩ := List.forall_mem_cons.mp hsub
    rw [List.mapM_cons]
    refine (ends_filesOf_leads hphase).bind ?_
    rintro files b' ⟨rfl, hfiles⟩
    refine (ih hrest).bind ?_
    rintro others b' ⟨rfl, hothers⟩
    refine ends_pure.mpr ⟨rfl, fun r hr ↦ ?_⟩
    rw [List.flatten_cons, List.mem_append] at hr
    exact hr.elim (hfiles r) (hothers r)

/-- What the store does not answer for is a path that cannot be followed. -/
theorem ends_takeSnapshot_bears {key : String} (hkey : Phase.IsKey phases key) {files : List Route}
    (hfiles : ∀ r ∈ files, b.Leads phases r) :
    Ends (takeSnapshot key files) b (fun s b' ↦ b.Prepares b' ∧ b'.Holds s)
      fun e b' ↦ b.Prepares b' ∧ (e.isA .backup = true ∨ b'.Obstructed phases e) := by
  have hfaults : Ends (takeSnapshot key files) b (fun _ _ ↦ True)
      fun e b' ↦ e.isA .backup = true ∨ b'.Obstructed phases e := by
    refine ends_takeSnapshot_of (((Act.still_giveWay b.world).and
      (Act.raises_giveWay (P := fun _ ↦ False) b.world)).mono ?_ fun _ _ h ↦ h.2.elim)
    rintro _ w ⟨hstill, -⟩
    refine (b.store.ends_snapshot_foiled _ _ _ w).mono (fun _ _ _ ↦ trivial) ?_
    rintro e w' (⟨hbackup, -⟩ | ⟨rfl, hfoiled⟩)
    · exact .inl hbackup
    · refine .inr ?_
      cases hfoiled with
      | place hwalk => exact .place (b := { b with world := w' }) hkey hwalk
      | file hp hresolve =>
        obtain ⟨r, hr, rfl⟩ := List.mem_map.mp hp
        exact .file ((hfiles r hr).inWorld hstill) hresolve
      | nul _ hnul => exact .nul hkey hnul
  refine ((ends_takeSnapshot_prepares key files b).and
    ((ends_takeSnapshot key files b).and hfaults)).mono ?_ fun _ _ h ↦ ⟨h.1, h.2.2⟩
  exact fun s b' h ↦ ⟨h.1, Bench.holds_of_keep h.2.1.1⟩

theorem ends_phaseSnapshot_bears (hphase : phase ∈ phases) {files : List Route}
    (hfiles : ∀ r ∈ files, b.Leads phases r) (whole : Option Snapshot) :
    Ends (phaseSnapshot phase files whole) b (fun s b' ↦ b.Prepares b' ∧ b'.Holds s)
      fun e b' ↦ b.Prepares b' ∧ (e.isA .backup = true ∨ b'.Obstructed phases e) := by
  have hfaults : Ends (phaseSnapshot phase files whole) b (fun _ _ ↦ True)
      fun e b' ↦ e.isA .backup = true ∨ b'.Obstructed phases e := by
    have htaken := (ends_takeSnapshot_bears (.inr ⟨phase, hphase, rfl⟩) hfiles).mono
      (fun _ _ _ ↦ trivial) fun _ _ h ↦ h.2
    refine ends_phaseSnapshot_of (fun all e _ hcovers he ↦ ?_) (fun _ part _ _ _ ↦ ?_) fun _ ↦ htaken
    · obtain ⟨part, hpart⟩ := Snapshot.exists_restrict hcovers phase.fixerRef
      exact nomatch he.symm.trans hpart
    · exact (Store.raises_record _ _ _).mono (fun _ _ _ ↦ trivial) fun _ _ ↦ .inl
  refine ((ends_phaseSnapshot_prepares phase files whole b).and
    ((ends_phaseSnapshot phase files whole b).and hfaults)).mono ?_ fun _ _ h ↦ ⟨h.1, h.2.2⟩
  exact fun s b' h ↦ ⟨h.1, Bench.holds_of_keep h.2.1.1⟩

end Recording

/-! ### Results -/

section Results

variable {crew : Crew} {config : RunConfig} {phases : List Phase} {phase : Phase} {b : Bench}
  {files : List Route} {snapshot : Option Snapshot}

theorem ends_rehearse_reports (hb : b.world.interrupt = none) (hdry : config.dryRun = true) :
    Ends (rehearse phase files) b (fun _ b' ↦ b.Reports crew config phase b')
      fun _ _ ↦ False := by
  unfold rehearse
  refine ends_bind.mpr (ends_update.mpr ?_)
  refine (ends_passing (b := b.change _) (Act.passes_log _ _ _) hb).mono ?_ fun _ _ ↦ id
  rintro _ _ ⟨w, hw, rfl⟩
  exact Bench.reports_of_grounded rfl ⟨fun _ ↦ .inl hdry, fun hfailure ↦ by cases hfailure⟩
    fun _ ↦ hw.interrupt hb

theorem ends_settleUnrecorded_reports {fault : Fault} (hstate : b.context.state = .executing) :
    Ends (settleUnrecorded phase fault) b (fun _ b' ↦ b.Reports crew config phase b')
      fun _ _ ↦ False := by
  refine ends_settleUnrecorded_iff.mpr
    (ends_moveTo_of_next (Bench.next_of_unrecorded hstate phase fault) fun w _ ↦
      ⟨_, rfl, ⟨fun hsuccess ↦ ?_, fun _ ↦ .inr ⟨rfl, .inr ?_⟩⟩, fun hgoing ↦ ?_⟩)
  · cases hsuccess
  · simp only [Bench.happened_moved, b.happened_unrecorded]
    exact List.mem_append_right _ List.mem_cons_self
  · have hfinished : (if b.context.mutated then RunState.failed else .aborted).isTerminal =
        false := hgoing
    split at hfinished <;> cases hfinished

/-- A phase that has failed comes to a result, unless it is to be put back and one of its files
cannot be followed then. -/
theorem ends_settleFailure_reports {message : String} {attempts : ℕ} {elapsed : Number}
    (hsnapshot : ∀ s, snapshot = some s → b.Holds s) (hb : b.world.interrupt = none)
    (hstate : b.context.state = .executing ∨ b.context.state = .retrying)
    (hattempts : attempts = phase.retries + 1 ∨
      attempts = 0 ∧ ∃ e, crew.registry.get phase.fixerRef = .error e) :
    Ends (settleFailure phase snapshot message attempts elapsed) b
      (fun _ b' ↦ b.Reports crew config phase b') fun e b' ↦ b'.Obstructed phases e := by
  refine (ends_settleFailure_blamed hstate hb).mono ?_ ?_
  · rintro _ b' ⟨⟨r, hadds, -, hcalls, hblames⟩, hgoing⟩
    refine Bench.reports_of_grounded hadds.1 ⟨fun hsuccess ↦ ?_, fun _ ↦ ?_⟩ hgoing
    · rw [hblames.success] at hsuccess
      cases hsuccess
    · exact hcalls ▸ hattempts.imp_right fun hnone ↦ ⟨hnone.1, .inl hnone.2⟩
  · rintro e b' ⟨s, hs, hupset⟩
    obtain ⟨cause, rfl⟩ := hupset.file
    obtain ⟨w, -, hrestore⟩ := hupset.restore
    rcases (ends_of_error hrestore).mp (Store.ends_restore_foiled s w) with
      ⟨failed, total, hrollback⟩ | ⟨r, hr, hcause, hwalk⟩
    · cases hrollback
    · rw [hcause]
      exact .recorded ((hsnapshot s hs).shares hupset.snapshots) hr hwalk

theorem ends_carryOut_reports {fixer : Fixer}
    (hfixer : crew.registry.get phase.fixerRef = .ok fixer) (hborne : fixer.Borne phase)
    (htimeout : phase.timeout.toDouble?.isSome = true)
    (hsnapshot : ∀ s, snapshot = some s → b.Holds s) (hb : b.world.interrupt = none)
    (hstate : b.context.state = .executing) :
    Ends (carryOut phase files snapshot fixer) b (fun _ b' ↦ b.Reports crew config phase b')
      fun e b' ↦ b'.Obstructed phases e := by
  unfold carryOut
  refine ends_bind.mpr (ends_get.mpr (ends_bind.mpr (ends_get.mpr (ends_bind.mpr ?_))))
  refine ends_attempt.mpr (((ends_attempts_trials hborne htimeout hb (.inl hstate)).and
    (retains_attempts fixer phase files _ _ _ b)).mono ?_ ?_)
  · rintro report b₁ ⟨⟨ts, -, -, t, hverdict, htrying, -⟩, -⟩
    have hb₁ := htrying.row.interrupt hb
    refine ends_thenPassing (Act.passes_since _) hb₁ fun elapsed w hw ↦ ?_
    refine ends_bind.mpr (ends_get.mpr ?_)
    refine (ends_settleSuccess_told (hw.interrupt hb₁)
      (Trial.countable_of_verdict hborne hverdict)).mono ?_ fun _ _ ↦ False.elim
    rintro _ b' ⟨hinterrupt, r, hadds, -, -, hsuccess, -⟩
    refine Bench.reports_of_grounded (hadds.1.trans (congrArg (· ++ [r]) htrying.history))
      ⟨fun _ ↦ .inr ⟨fixer, hfixer, t, report, hverdict⟩, fun hfailure ↦ ?_⟩ fun _ ↦ hinterrupt
    rw [hsuccess] at hfailure
    cases hfailure
  · rintro e b₁ ⟨⟨ts, hlength, -, t, hverdict, htrying, hattempt⟩, hretained⟩
    have hb₁ := htrying.row.interrupt hb
    have hfailed := Trial.fails_of_verdict hborne hverdict
    refine ends_thenPassing (Act.passes_since _) hb₁ fun elapsed w hw ↦ ?_
    refine ends_bind.mpr (ends_get.mpr ?_)
    dsimp only
    rw [if_pos (by cases hfailed <;> rfl)]
    refine ends_thenPassing (Act.passes_modify (fun _ ↦ ⟨.of_eq rfl rfl rfl, rfl, rfl⟩)
      (fun _ ↦ rfl) fun _ ↦ rfl) (hw.interrupt hb₁) fun _ w₂ hw₂ ↦ ?_
    exact (ends_settleFailure_reports (b := { b₁ with world := w₂ })
      (fun s hs ↦ (hsnapshot s hs).shares hretained) (hw₂.interrupt (hw.interrupt hb₁))
      htrying.state (.inl (hattempt.trans (by rw [hlength])))).mono
        (fun _ _ hreports ↦ hreports.before htrying.history) fun _ _ h ↦ h

theorem ends_remedy_reports (hcrew : crew.Borne phases) (hphase : phase ∈ phases)
    (hsnapshot : ∀ s, snapshot = some s → b.Holds s) (hb : b.world.interrupt = none)
    (hstate : b.context.state = .executing) :
    Ends (remedy crew phase files snapshot) b (fun _ b' ↦ b.Reports crew config phase b')
      fun e b' ↦ b'.Obstructed phases e := by
  unfold remedy
  split
  · rename_i fault hmissing
    refine ends_thenPassing (Act.passes_log _ _ _) hb fun _ w hw ↦ ?_
    exact (ends_settleFailure_reports (b := { b with world := w }) hsnapshot (hw.interrupt hb)
      (.inl hstate) (.inr ⟨rfl, fault, hmissing⟩)).mono
        (fun _ _ hreports ↦ hreports.before rfl) fun _ _ h ↦ h
  · rename_i fixer hfixer
    exact ends_carryOut_reports hfixer (hcrew.fixers phase hphase fixer hfixer)
      (hcrew.timeouts phase hphase) hsnapshot hb hstate

/-! ### Phases -/

/-- A phase comes to a result, unless a path cannot be followed. -/
theorem ends_runPhase_reports (hcrew : crew.Borne phases) (hphase : phase ∈ phases)
    (whole : Option Snapshot) (hb : b.world.interrupt = none)
    (hstate : b.context.state = .executing) (hconfig : b.context.config = config) :
    Ends (runPhase crew whole phase) b (fun _ b' ↦ b.Reports crew config phase b')
      fun e b' ↦ b'.Obstructed phases e := by
  refine ends_runPhase_of ((ends_filesOf_leads hphase).mono ?_ fun _ _ h ↦ h.1 ▸ h.2)
  rintro files b ⟨rfl, hfiles⟩ fields
  refine ends_lift.mpr ((Act.passes_log _ _ _ b.world hb).mono (fun _ w hw ↦ ?_)
    fun _ _ ↦ False.elim)
  have hb₁ := hw.interrupt hb
  constructor
  case rehearsed =>
    exact fun hdry ↦ (ends_rehearse_reports hb₁ (hconfig ▸ hdry)).mono
      (fun _ _ hreports ↦ hreports.before rfl) fun _ _ ↦ False.elim
  case recorded =>
    refine fun _ _ ↦ (ends_phaseSnapshot_bears hphase
      (fun r hr ↦ (hfiles r hr).inWorld hw.still) whole).mono ?_ ?_
    · rintro s b₂ ⟨hprepares, hholds⟩
      refine (ends_remedy_reports hcrew hphase ?_ (hprepares.interrupt hb₁)
        (hprepares.state.trans hstate)).mono
        (fun _ _ hreports ↦ hreports.before hprepares.history) fun _ _ h ↦ h
      exact fun s' hs' ↦ Option.some.inj hs' ▸ hholds
    · rintro e b₂ ⟨hprepares, hfaults⟩
      refine ⟨fun _ ↦ ?_, hfaults.resolve_left⟩
      exact (ends_settleUnrecorded_reports (hprepares.state.trans hstate)).mono
        (fun _ _ hreports ↦ hreports.before hprepares.history) fun _ _ ↦ False.elim
  case unrecorded =>
    exact fun _ _ ↦ (ends_remedy_reports (b := { b with world := w }) hcrew hphase
      (fun s (hs : none = some s) ↦ nomatch hs) hb₁ hstate).mono
      (fun _ _ hreports ↦ hreports.before rfl) fun _ _ h ↦ h

end Results

/-! ### Checks -/

theorem ends_runValidation_bears {crew : Crew} {b : Bench}
    (hprobes : ∀ check ∈ crew.checks, check.probe.Replies) (hb : b.world.interrupt = none) :
    Ends (runValidation crew) b (fun _ b' ↦ b'.context.history = b.context.history)
      fun e _ ↦ ¬ e.Ordinary := by
  unfold runValidation
  refine ends_bind.mpr (ends_get.mpr ?_)
  dsimp only
  split
  · split
    · exact ends_update.mpr rfl
    · refine ((ends_moveTo_lingers _ _ _ hb).mono (fun _ _ h ↦ h) fun _ _ h ↦ h).bind ?_
      rintro _ b₁ ⟨⟨hb₁, hlingers⟩, -⟩
      refine ends_bind.mpr (ends_lift.mpr ((ends_validate hprobes hb₁).mono ?_
        fun _ _ ↦ False.elim))
      exact fun _ _ _ ↦ ends_update.mpr hlingers.history
  · exact ends_pure.mpr rfl

theorem ends_conclude_bears (b : Bench) :
    Ends conclude b (fun _ b' ↦ b'.context.history = b.context.history)
      fun e _ ↦ ¬ e.Ordinary := by
  have hmoved : ∀ (b₁ : Bench) target reason, b₁.context.history = b.context.history →
      Ends (moveTo target none reason) b₁ (fun _ b' ↦ b'.context.history = b.context.history)
        fun e _ ↦ ¬ e.Ordinary := fun b₁ target reason hhistory ↦
    ends_moveTo (fun _ ↦ hhistory) (fun _ _ _ ↦ hhistory) fun _ _ ↦ id
  unfold conclude
  refine ends_bind.mpr (ends_get.mpr ?_)
  dsimp only
  split
  · exact hmoved _ _ _ rfl
  split
  · exact ends_bind.mpr (ends_update.mpr (hmoved _ _ _ rfl))
  · exact ends_bind.mpr (ends_update.mpr (hmoved _ _ _ rfl))

end RunAct

/-! ### Runs -/

namespace RunAct

section Runs

variable {crew : Crew} {config : RunConfig} {phases part : List Phase} {b : Bench}

/-- The phases that are left over come to their results, one after the other. -/
theorem ends_runPhases_reports (hcrew : crew.Borne phases) (whole : Option Snapshot)
    {done : List Phase} (hsub : ∀ phase ∈ part, phase ∈ phases) (hb : b.world.interrupt = none)
    (hconfig : b.context.config = config)
    (hdone : List.Forall₂ (PhaseResult.Grounded crew config []) done b.context.history) :
    Ends (runPhases crew whole part) b
      (fun _ b' ↦ ∃ settled, settled <+: done ++ part ∧
        List.Forall₂ (PhaseResult.Grounded crew config b'.progress.happened) settled
          b'.context.history)
      fun e b' ↦ ¬ e.Ordinary ∨ b'.Obstructed phases e := by
  have hanyway : ∀ {os : List Occurrence} {settled : List Phase} {history : List PhaseResult},
      List.Forall₂ (PhaseResult.Grounded crew config []) settled history →
      List.Forall₂ (PhaseResult.Grounded crew config os) settled history := fun h ↦
    h.imp fun _ _ hr ↦ hr.mono fun _ ho ↦ absurd ho List.not_mem_nil
  refine ends_runPhases_of (P := fun rest b ↦ ∃ before, before ++ rest = done ++ part ∧
    (∀ phase ∈ rest, phase ∈ phases) ∧ b.world.interrupt = none ∧ b.context.config = config ∧
      List.Forall₂ (PhaseResult.Grounded crew config []) before b.context.history)
    ?_ ?_ ⟨done, rfl, hsub, hb, hconfig, hdone⟩
  · rintro b ⟨before, hbefore, -, hb, -, hdone⟩
    refine ((ends_runValidation_bears hcrew.probes hb).mono (fun _ _ h ↦ h)
      fun _ _ ↦ .inl).bind fun _ b₁ h₁ ↦ ?_
    refine (ends_conclude_bears b₁).mono (fun _ b₂ h₂ ↦ ?_) fun _ _ ↦ .inl
    exact ⟨before, hbefore ▸ List.prefix_append _ _, (h₂.trans h₁).symm ▸ hanyway hdone⟩
  · rintro phase rest b ⟨before, hbefore, hsub, hb, hconfig, hdone⟩
    obtain ⟨hphase, hrest⟩ := List.forall_mem_cons.mp hsub
    refine (ends_moveTo_lingers _ _ _ hb).mono ?_ fun _ _ ↦ .inl
    rintro _ b₁ ⟨⟨hb₁, hlingers⟩, hstate⟩
    have hreports := ends_runPhase_reports (b := b₁.entered phase) hcrew hphase whole hb₁ hstate
      (hlingers.config.trans hconfig)
    refine (hreports.and (ends_runPhase (b := b₁.entered phase) hstate)).mono ?_ ?_
    · rintro _ b₂ ⟨⟨r, hhistory, hgrounded, hgoing⟩, e, os, hsettles, -⟩
      have hadded : ∀ {os : List Occurrence},
          List.Forall₂ (PhaseResult.Grounded crew config os) before b.context.history →
          r.Grounded crew config os phase →
          List.Forall₂ (PhaseResult.Grounded crew config os) (before ++ [phase])
            b₂.context.history := by
        intro os hbefore hr
        rw [hhistory]
        refine List.rel_append ?_ (.cons hr .nil)
        exact hlingers.history.symm ▸ hbefore
      have hnext : before ++ [phase] ++ rest = done ++ part := by simpa using hbefore
      constructor
      · exact fun _ ↦ ⟨before ++ [phase], hnext ▸ List.prefix_append _ _,
          hadded (hanyway hdone) hgrounded⟩
      · intro hunfinished
        obtain ⟨hb₂, hgrounded⟩ := hgoing hunfinished
        exact ⟨before ++ [phase], hnext, hrest, hb₂,
          hsettles.config.trans (hlingers.config.trans hconfig), hadded hdone hgrounded⟩
    · rintro e b₂ ⟨hfault, -⟩
      exact .inr (hfault.inWorld rfl (.of_eq rfl rfl rfl))

/-- The files of all phases are recorded, if that is to be done, or the run is over. -/
theorem ends_recordAll_lingers (hsub : ∀ phase ∈ part, phase ∈ phases)
    (hb : b.world.interrupt = none) :
    Ends (recordAll part) b (fun _ b' ↦ b.Lingers b')
      fun e b' ↦ ¬ e.Ordinary ∨ b'.Obstructed phases e := by
  refine ends_recordAll_of ?_
  constructor
  case idle => exact fun _ ↦ ⟨rfl, rfl, fun _ ↦ hb⟩
  case unbacked =>
    intro _
    have hunbacked : b.unbacked.world.interrupt = none := hb
    exact ends_lift.mpr ((Act.passes_log _ _ _ _ hunbacked).mono
      (fun _ w hw ↦ ⟨rfl, rfl, fun _ ↦ hw.interrupt hb⟩) fun _ _ ↦ False.elim)
  case recorded =>
    intro _ _ _
    refine (ends_filesOfAll_leads hsub).mono ?_ fun _ _ h ↦ .inr (h.1 ▸ h.2)
    rintro files b ⟨rfl, hfiles⟩
    refine (ends_takeSnapshot_bears (.inl rfl) hfiles).mono ?_ ?_
    · rintro s b₁ ⟨hprepares, -⟩
      exact ⟨hprepares.history, hprepares.config, fun _ ↦ hprepares.interrupt hb⟩
    · rintro e b₁ ⟨hprepares, hfaults⟩
      refine ⟨fun _ ↦ ?_, fun hnot ↦ .inr (hfaults.resolve_left hnot)⟩
      refine (ends_moveTo_lingers (b := b₁.refused e) _ _ _ (hprepares.interrupt hb)).mono ?_
        fun _ _ ↦ .inl
      rintro _ b₂ ⟨⟨hb₂, hlingers⟩, -⟩
      exact ⟨hlingers.history.trans hprepares.history, hlingers.config.trans hprepares.config,
        fun _ ↦ hb₂⟩

theorem ends_execute_reports (hcrew : crew.Borne phases) (hsub : ∀ phase ∈ part, phase ∈ phases)
    (hb : b.world.interrupt = none) (hconfig : b.context.config = config)
    (hhistory : b.context.history = []) :
    Ends (execute crew part) b
      (fun _ b' ↦ ∃ settled, settled <+: part ∧
        List.Forall₂ (PhaseResult.Grounded crew config b'.progress.happened) settled
          b'.context.history)
      fun e b' ↦ ¬ e.Ordinary ∨ b'.Obstructed phases e := by
  refine ends_execute_of ((ends_moveTo_lingers _ _ _ hb).mono ?_ fun _ _ ↦ .inl)
  rintro _ b₁ ⟨⟨hb₁, hlingers⟩, -⟩
  refine (ends_recordAll_lingers hsub hb₁).mono (fun whole b₂ hlingers₂ ↦ ?_) fun _ _ h ↦ h
  have hnone : b₂.context.history = [] :=
    hlingers₂.history.trans (hlingers.history.trans hhistory)
  refine ⟨fun _ ↦ ⟨[], List.nil_prefix, by rw [hnone]; exact .nil⟩, fun hgoing ↦ ?_⟩
  exact ends_runPhases_reports hcrew whole hsub (hlingers₂.interrupt hgoing)
    (hlingers₂.config.trans (hlingers.config.trans hconfig)) (by rw [hnone]; exact .nil)

/-- A run comes to an end of its own, unless a path cannot be followed, or the counts that are in the
results cannot be added up. -/
theorem ends_run_reports (hcrew : crew.Borne phases) (hb : b.world.interrupt = none)
    (hconfig : b.context.config = config) (hhistory : b.context.history = []) :
    Ends (run crew phases) b
      (fun _ b' ↦ ∃ settled, settled <+: phases.mergeSort (fun p q ↦ p.priority ≤ q.priority) ∧
        List.Forall₂ (PhaseResult.Grounded crew config b'.progress.happened) settled
          b'.context.history)
      fun e b' ↦ ¬ e.Ordinary ∨ b'.Obstructed phases e ∨ b'.context.fixedCount = .error e := by
  have hbound : (b.bound "run_id" b.context.runId).world.interrupt = none := hb
  refine ends_run_of fun fields ↦ ends_lift.mpr ?_
  refine (Act.passes_log _ _ _ _ hbound).mono (fun _ w hw ↦ ?_) fun _ _ ↦ False.elim
  refine (ends_execute_reports (b := { b with world := w }) hcrew (fun _ ↦ List.mem_mergeSort.mp)
    (hw.interrupt hb) hconfig hhistory).mono ?_ ?_
  · rintro _ b₁ hsettled
    refine ends_lift.mpr ((Act.steady_count (P := fun _ _ ↦ True) rfl rfl _ _ _ trivial).mono ?_
      fun _ _ ↦ False.elim)
    rintro _ w -
    refine ⟨fun e hfixed ↦ .inr (.inr hfixed), fun fixed _ fields ↦ ends_lift.mpr ?_⟩
    exact (Act.raises_log (P := fun _ ↦ False) _ _ _ w).mono (fun _ _ _ ↦ hsettled)
      fun _ _ ↦ False.elim
  · rintro e b₁ hfaults
    exact hfaults.imp_right fun hfault ↦ .inl (hfault.inWorld rfl (.of_eq rfl rfl rfl))

end Runs

end RunAct

end Remedy
