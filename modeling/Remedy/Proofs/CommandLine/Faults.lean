import Remedy.CommandLine.Commands
import Remedy.Proofs.Pipeline.Entering
import Remedy.Proofs.Returning
import Remedy.Proofs.Run.Outcome

/-!
# What a command fails with

The command line answers three kinds of faults (`Fault.Answered`). Whatever else a command can fail
with is one of a few kinds that have no handler (`Fault.Unanswered`), or comes from reading the
document of the settings, as far as that is not answered. What fixers, checks and modules fail with
is not among these: it has been put into another fault, or into a result, before it gets here.

The other lemmas go through what a command may do once it has its settings, up to a run of the
pipeline (`Pipeline.raises_run`) and the undoing of one (`Command.raises_undo`).
-/

set_option autoImplicit false

namespace Remedy

namespace Fault

/-- One of the handlers of the command line takes the fault. -/
def Answered (e : Fault) : Prop :=
  e.isA .fileNotFound = true ∨ e.isA .value = true ∨ e.isA .resolver = true

/-- A refusal of the system other than that a file is missing, links that lead in a circle, a value
that is used as what it is not, a number that is out of range, or that the command is called off. -/
def Unanswered : Fault → Prop
  | .file cause => cause.errno ≠ .notFound
  | .linkLoop _ | .misuse _ | .overflow _ | .cancelled _ => True
  | .raised kind _ => kind = .os
  | _ => False

theorem Unanswered.not_answered {e : Fault} (h : e.Unanswered) : ¬ e.Answered := by
  have hkinds : ∀ k ∈ [FaultKind.os, .fileExists, .notADirectory, .isADirectory, .runtime, .key,
      .type, .attribute, .overflow, .cancelled],
      ¬ (k.isA .fileNotFound = true ∨ k.isA .value = true ∨ k.isA .resolver = true) := by decide
  refine hkinds e.kind ?_
  cases e with
  | file cause =>
    obtain ⟨errno, path, target⟩ := cause
    cases errno with
    | notFound => exact absurd rfl h
    | _ => simp [kind, FileError.kind]
  | misuse cause => cases cause <;> simp [kind]
  | raised k text =>
    obtain rfl : k = .os := h
    simp [kind]
  | linkLoop | overflow | cancelled => simp [kind]
  | _ => exact h.elim

/-- It is known of the fault whether it is answered, or it comes from reading a document. -/
def Foreseen (e : Fault) : Prop :=
  e.Answered ∨ e.Unanswered ∨ ∃ text, Yaml.read text = .error e

theorem foreseen_file (cause : FileError) : (Fault.file cause).Foreseen := by
  by_cases hcause : cause.errno = .notFound
  · refine .inl (.inl ?_)
    simp [isA, kind, FileError.kind, hcause, FaultKind.isA, FaultKind.lineage]
  · exact .inr (.inl hcause)

theorem Ordinary.foreseen {e : Fault} (h : e.Ordinary) : e.Foreseen := by
  cases e with
  | file cause => exact foreseen_file cause
  | rollback | phaseTimeout | fixer => exact .inl (.inr (.inr rfl))
  | invalid => exact .inl (.inr (.inl rfl))
  | misuse | overflow | linkLoop | cancelled => exact .inr (.inl trivial)
  | _ => exact h.elim

theorem foreseen_invalid (cause : Invalid) : (Fault.invalid cause).Foreseen :=
  .inl (.inr (.inl rfl))

theorem foreseen_command (cause : CommandFault) : (Fault.command cause).Foreseen := by
  refine .inl (.inr (.inr ?_))
  cases cause <;> rfl

end Fault

open Fault

/-! ### Files and settings -/

namespace Act

theorem raises_onFiles_foreseen {α : Type} (act : FileAct α) : Raises Foreseen (onFiles act) :=
  (raises_onFiles act).mono fun _ ↦ Ordinary.foreseen

/-- An outcome fails with what it is a failure of. -/
theorem raises_ofExcept_of {P : Fault → Prop} {α : Type} {outcome : Except Fault α}
    (h : ∀ e, outcome = .error e → P e) : Raises P (ofExcept outcome) := by
  intro w
  cases outcome with
  | ok a => trivial
  | error e => exact h e rfl

theorem raises_setUpLog (level : LogLevel) (format : LogFormat) (file : Option Path) :
    Raises (· = .invalid .nul) (setUpLog level format file) := by
  unfold setUpLog
  cases file with
  | none => exact (raises_pure _).bind fun _ ↦ raises_modify _
  | some p =>
    refine Raises.bind ?_ fun _ ↦ raises_modify _
    unfold openLog
    exact Raises.guard rfl ((raises_tryFiles _).bind fun _ ↦ raises_pure _)

end Act

theorem answered_of_reader {α : Type} {read : Reader α} {title : String} {s : Setting} {e : Fault}
    (h : read.run title s = .error e) : e.Answered := by
  unfold Reader.run at h
  split at h
  · cases h
  · cases h
    exact .inr (.inl rfl)

/-- The document of the settings cannot be read, or it does not consist of named entries. -/
theorem foreseen_of_configEntries {p : Path} {text : String} {e : Fault}
    (h : configEntries p text = .error e) : e.Foreseen := by
  unfold configEntries at h
  cases hread : Yaml.read text with
  | error cause =>
    rw [hread] at h
    cases h
    exact .inr (.inr ⟨text, hread⟩)
  | ok s =>
    rw [hread] at h
    dsimp only [bind, Except.bind] at h
    split at h
    · split at h
      · cases h
      · cases h
        exact .inr (.inl trivial)
    · split at h
      · cases h
        exact foreseen_invalid _
      · cases h

/-! ### Programs and fixers -/

namespace Act

variable {α : Type}

theorem raises_await (course : Course α) : Raises (· = .cancelled "") (await course) := by
  have hrecorded : Raises (· = .cancelled "") (course.closing.forM Act.record) :=
    raises_forM raises_record _
  have hclosed : Raises (· = .cancelled "") (do
      if course.endless then waitForever
      course.closing.forM Act.record) := by
    dsimp only
    split
    · exact raises_waitForever_cancelled.bind fun _ ↦ hrecorded
    · exact hrecorded
  unfold await
  dsimp only at hclosed ⊢
  split
  · exact (raises_pause_cancelled _).bind fun _ ↦ hclosed
  · exact hclosed

theorem returns_await (course : Course α) : Returns (await course) := by
  have hrecorded : Returns (course.closing.forM Act.record) := steady_forM steady_record _
  have hclosed : Returns (do
      if course.endless then waitForever
      course.closing.forM Act.record) := by
    dsimp only
    split
    · exact returns_waitForever.bind fun _ ↦ hrecorded
    · exact hrecorded
  unfold await
  dsimp only at hclosed ⊢
  split
  · exact (returns_pause _).bind fun _ ↦ hclosed
  · exact hclosed

/-- Work that is waited for fails with its own fault, or because it is called off. -/
theorem ends_finish_outcome (work : Work α) (w : World) :
    Ends (finish work) w (fun _ _ ↦ True)
      fun e _ ↦ (work w.toSite).1.outcome = .error e ∨ w.interrupt ≠ none ∧ e = .cancelled "" := by
  have hbegun : Ends (begin work) w
      (fun course w' ↦ course = (work w.toSite).1 ∧ (w.interrupt = none → w'.interrupt = none))
      fun _ _ ↦ False := by
    unfold begin
    refine ends_bind.mpr (ends_get.mpr (ends_bind.mpr (ends_set.mpr (ends_bind.mpr ?_))))
    have hrecorded : Steady (fun interrupt _ ↦ w.interrupt = none → interrupt = none)
        ((work w.toSite).1.opening.forM Act.record) := steady_forM steady_record _
    refine (hrecorded { w with toSite := (work w.toSite).2 } fun h ↦ h).mono ?_ fun _ _ ↦ id
    exact fun _ w' h ↦ ends_pure.mpr ⟨rfl, h⟩
  rw [finish_eq]
  refine (hbegun.mono (fun _ _ h ↦ h) fun _ _ ↦ False.elim).bind ?_
  rintro _ w₁ ⟨rfl, hnone⟩
  have hlast : ∀ w', Ends (ofExcept (work w.toSite).1.outcome) w' (fun _ _ ↦ True)
      fun e _ ↦ (work w.toSite).1.outcome = .error e ∨
        w.interrupt ≠ none ∧ e = .cancelled "" := fun _ ↦
    ends_ask.mono (fun _ _ _ ↦ trivial) fun _ _ h ↦ .inl h.2
  by_cases hw : w.interrupt = none
  · exact (returns_await _).next (hnone hw) fun _ w' _ ↦ hlast w'
  · refine ((raises_await _ w₁).mono (fun _ _ h ↦ h) ?_).bind fun _ w' _ ↦ hlast w'
    exact fun _ _ he ↦ .inr ⟨hw, he⟩

theorem raises_finish {work : Work α}
    (h : ∀ site e, (work site).1.outcome = .error e → e.Foreseen) :
    Raises Foreseen (finish work) := by
  refine fun w ↦ (ends_finish_outcome work w).mono (fun _ _ h ↦ h) ?_
  rintro e _ (he | ⟨-, rfl⟩)
  · exact h _ e he
  · exact .inr (.inl trivial)

end Act

namespace Invocation

theorem foreseen_of_obstacle {i : Invocation} {files : FileTree}
    {bindings : List (String × String)} {name : String} {e : Fault}
    (h : i.obstacle? files bindings name = some e) : e.Foreseen := by
  have hmissing : (Fault.command (.notFound name)).Foreseen := foreseen_command _
  unfold obstacle? at h
  dsimp only at h
  repeat' split at h
  all_goals cases h
  all_goals first
    | exact hmissing
    | exact foreseen_file _
    | exact .inr (.inl rfl)

theorem foreseen_of_conclude {i : Invocation} {opening : List Event}
    {ending : Except Shell.Ending Nat} {after : Shell.Session} {e : Fault}
    (h : (i.conclude opening ending after).outcome = .error e) : e.Foreseen := by
  have hfinish : ∀ {r : CommandResult} {cause : CommandFault} {c : Bool},
      (if c then Except.error (Fault.command cause) else .ok r) = .error e → e.Foreseen := by
    intro r cause c h
    split at h
    · cases h
      exact foreseen_command _
    · cases h
  unfold conclude at h
  dsimp only at h
  split at h
  · exact hfinish h
  · exact hfinish h
  · exact hfinish h
  · cases h
    exact foreseen_command _

theorem foreseen_of_start {i : Invocation} {opening : List Event} {site : Site} {e : Fault}
    (hbindings : i.bindings = none) (h : (i.start opening site).1.outcome = .error e) :
    e.Foreseen := by
  unfold start at h
  dsimp only at h
  rw [hbindings] at h
  split at h
  · rename_i fault hflaw
    cases h
    exact foreseen_of_obstacle hflaw
  · exact foreseen_of_conclude h

/-- Running a command that brings no variables of its own. -/
theorem foreseen_of_run {i : Invocation} {site : Site} {e : Fault} (hbindings : i.bindings = none)
    (h : (i.run site).1.outcome = .error e) : e.Foreseen := by
  unfold run at h
  dsimp only at h
  split at h
  · cases h
    exact foreseen_command _
  · cases h
    exact foreseen_file _
  · cases h
    exact foreseen_command _
  · split at h
    · cases h
      exact .inr (.inl trivial)
    · split at h
      · cases h
        exact .inr (.inl trivial)
      · exact foreseen_of_start hbindings h

end Invocation

/-- Collecting diagnostics. -/
theorem DiagnosticsConfig.foreseen_of_collect {c : DiagnosticsConfig} {project : Route}
    {site : Site} {e : Fault} (h : (c.collect project site).1.outcome = .error e) :
    e.Foreseen := by
  have hrun : (c.collect project site).1.outcome =
      (Invocation.run { words := c.command, directory := some (Route.path project)
                        timeout := c.timeout } site).1.outcome.map
        fun r ↦ .text r.output := rfl
  rw [hrun] at h
  cases houtcome : (Invocation.run { words := c.command, directory := some (Route.path project)
                                     timeout := c.timeout } site).1.outcome with
  | ok r =>
    rw [houtcome] at h
    cases h
  | error fault =>
    rw [houtcome] at h
    cases h
    exact Invocation.foreseen_of_run rfl houtcome

/-! ### Diagnostics and phases -/

theorem Diagnostic.raises_read (source : Diagnostic.Source) : Raises Ordinary (read source) := by
  have hskipped : ∀ (lines : List (List Char)) (count : Nat),
      Raises Ordinary (logSkipped count lines) := by
    intro lines
    induction lines with
    | nil => exact fun count ↦ raises_pure _
    | cons line rest ih => exact fun count ↦ (Act.raises_log _ _ _).bind fun _ ↦ ih _
  unfold read
  refine Raises.bind ?_ fun text ↦ ?_
  · cases source with
    | other kind => exact (Act.raises_log _ _ _).bind fun _ ↦ raises_pure _
    | _ => exact raises_pure _
  split
  · exact raises_pure _
  · dsimp only
    refine (hskipped _ _).bind fun _ ↦ ?_
    split
    · exact raises_throw trivial
    · refine (Act.raises_count _ _ _).bind fun _ ↦ ?_
      split
      · exact raises_pure _
      · exact (Act.raises_count _ _ _).bind fun _ ↦ raises_pure _

theorem raises_analyze (extra : ExtraCodes) (source : Diagnostic.Source) :
    Raises Ordinary (analyze extra source) := by
  unfold analyze
  exact (Diagnostic.raises_read source).bind fun _ ↦
    (Act.raises_log _ _ _).bind fun _ ↦ raises_pure _

theorem raises_plan (c : PlannerConfig) (found : List Finding) : Raises Ordinary (plan c found) := by
  unfold plan
  split
  · exact raises_throw trivial
  · exact (Act.raises_log _ _ _).bind fun _ ↦ raises_pure _

/-! ### Fixers and checks -/

/-- A reference that begins with a dot would be one within a package, of which there is none. -/
theorem Catalog.config_of_load {c : Catalog} {reference : String} {e : Fault}
    (h : c.load reference = .error e) :
    (∃ cause, e = .config cause) ∨
      reference.toList.head? = some '.' ∧ e = .misuse .wrongType := by
  unfold load at h
  dsimp only at h
  split at h
  · cases h
    exact .inl ⟨_, rfl⟩
  split at h
  · cases h
    exact .inr ⟨‹_›, rfl⟩
  split at h
  · cases h
    exact .inl ⟨_, rfl⟩
  · cases h
    exact .inl ⟨_, rfl⟩
  · split at h
    · cases h
      exact .inl ⟨_, rfl⟩
    · split at h
      · cases h
        exact .inl ⟨_, rfl⟩
      · cases h

theorem raises_checksOf {P : Fault → Prop} (configs : List CheckConfig) (project : Route) :
    Raises P (checksOf configs project) := by
  unfold checksOf
  exact (Act.raises_log _ _ _).bind fun _ ↦ raises_pure _

theorem raises_validateQuickly (checks : List Check) : Raises Ordinary (validateQuickly checks) := by
  unfold validateQuickly
  split
  · exact raises_pure _
  · exact (Check.raises_run _).bind fun _ ↦ raises_pure _

/-! ### The lock -/

namespace RunLock

theorem raises_overwrite (route : Route) (text : String) :
    Raises Foreseen (overwrite route text) :=
  Act.raises_onFiles_foreseen _

theorem raises_poll (l : RunLock) (route : Route) : Raises Foreseen (l.poll route) := by
  unfold poll
  refine raises_get.bind fun w ↦ ?_
  split
  · exact raises_pure _
  · exact (raises_set _).bind fun _ ↦ (raises_overwrite _ _).bind fun _ ↦ raises_pure _

theorem raises_refuse_foreseen (l : RunLock) (route : Route) :
    Raises Foreseen (l.refuse route) := by
  refine (l.raises_refuse route).mono ?_
  rintro e (⟨path, text, rfl⟩ | ⟨cause, rfl⟩)
  · exact .inl (.inr (.inr rfl))
  · exact .inl (.inr (.inl rfl))

theorem raises_pollUntil (l : RunLock) (route : Route) (deadline : Moment) (polls : Nat) :
    Raises Foreseen (l.pollUntil route deadline polls) := by
  intro w
  refine ends_pollUntil_of (P := fun _ ↦ True) (Q := fun _ ↦ True) (fun w₁ _ ↦ ?_)
    (fun w₁ _ ↦ l.raises_refuse_foreseen route w₁)
    (fun w₁ _ ↦ ((Act.raises_pause _).mono fun _ ↦ Ordinary.foreseen) w₁) deadline polls trivial
  exact (l.raises_poll route w₁).mono (fun taken _ _ ↦ by cases taken <;> trivial) fun _ _ h ↦ h

theorem raises_acquire (l : RunLock) (timeout : Option Number) :
    Raises Foreseen (l.acquire timeout) := by
  unfold acquire
  refine raises_get.bind fun w ↦ ?_
  split
  · exact raises_pure _
  · refine Raises.guard (.inr (.inl trivial)) ?_
    refine (Act.raises_onFiles_foreseen _).bind fun _ ↦ ?_
    refine (Act.raises_onFiles_foreseen _).bind fun route ↦ raises_get.bind fun w ↦ ?_
    exact (l.raises_pollUntil _ _ _).bind fun _ ↦ Act.raises_log _ _ _

theorem raises_release {P : Fault → Prop} (l : RunLock) : Raises P l.release :=
  fun w ↦ (ends_release_ok l w).mono (fun _ _ h ↦ h) fun _ _ ↦ False.elim

theorem raises_during {α : Type} {act : Act α} (l : RunLock) (h : Raises Foreseen act) :
    Raises Foreseen (l.during act) := by
  unfold during
  exact (l.raises_acquire none).bind fun _ ↦ h.andThenAlways l.raises_release

end RunLock

/-! ### Undoing a run -/

namespace Json

theorem ordinary_of_demand {j : Json} {name : String} {e : Fault} (h : j.demand name = .error e) :
    e.Ordinary := by
  unfold demand at h
  split at h
  · split at h
    · cases h
    · cases h
      trivial
  · cases h
    trivial

theorem ordinary_of_text {j : Json} {e : Fault} (h : j.text = .error e) : e.Ordinary := by
  unfold text at h
  split at h
  · cases h
  · cases h
    trivial

end Json

theorem ordinary_of_manifestEntries {j : Json} {e : Fault} (h : manifestEntries j = .error e) :
    e.Ordinary := by
  unfold manifestEntries at h
  split at h
  · unfold Json.each at h
    split at h
    · cases h
    · cases h
      trivial
  · cases h
    trivial

namespace Store

/-- What keeps an entry from being read: an ordinary fault, or one of the store that is about no name
of a run or a key. -/
theorem raises_loadEntry {P : Fault → Prop} (hordinary : ∀ e, e.Ordinary → P e)
    (hbackup : ∀ cause, ¬ cause.IsOfName → P (.backup cause)) (s : Store) (location : Path)
    (done : List (Route × Option Text.Bytes)) (entry : Json) :
    Raises P (s.loadEntry location done entry) := by
  have hexcept : ∀ {α : Type} {outcome : Except Fault α},
      (∀ e, outcome = .error e → e.Ordinary) → Raises P (Act.ofExcept outcome) :=
    fun h ↦ Act.raises_ofExcept_of fun e he ↦ hordinary e (h e he)
  have hdemand : ∀ {α : Type} (name : String) {f : Json → Act α}, (∀ j, Raises P (f j)) →
      Raises P (Act.ofExcept (entry.demand name) >>= f) :=
    fun name _ hf ↦ (hexcept fun _ ↦ Json.ordinary_of_demand).bind hf
  have htext : ∀ {α : Type} (j : Json) {f : String → Act α}, (∀ text, Raises P (f text)) →
      Raises P (Act.ofExcept j.text >>= f) :=
    fun j _ hf ↦ (hexcept fun _ ↦ Json.ordinary_of_text).bind hf
  unfold loadEntry
  refine hdemand "path" fun j ↦ htext j fun path ↦ ?_
  refine ((s.raises_resolve _).mono hordinary).bind fun route ↦ ?_
  refine hdemand "created_at" fun j ↦ htext j fun stamp ↦ ?_
  split
  · exact raises_throw (hordinary _ trivial)
  refine hdemand "existed" fun j ↦ ?_
  split
  · exact raises_pure _
  refine hdemand "backup" fun j ↦ htext j fun name ↦ Raises.guard (hordinary _ trivial) ?_
  refine (Act.raises_tryFiles _).bind fun outcome ↦ ?_
  cases outcome with
  | error cause => exact raises_throw (hbackup _ id)
  | ok content =>
    refine hdemand "sha256" fun j ↦ ?_
    split
    · exact raises_pure _
    · exact raises_throw (hbackup _ id)

/-- What keeps a snapshot from being read back; a fault about a name is raised only for one that may
not be used. -/
theorem raises_load_of {P : Fault → Prop} {runId key : String} (hordinary : ∀ e, e.Ordinary → P e)
    (hbackup : ∀ cause, ¬ cause.IsOfName → P (.backup cause))
    (hnames : ¬ (isBackupName runId = true ∧ isBackupName key = true) →
      ∀ label name, P (.backup (.invalidName label name))) (s : Store) :
    Raises P (s.load runId key) := by
  have hentries : ∀ (entries : List Json) (location : Path)
      (done : List (Route × Option Text.Bytes)),
      Raises P (entries.foldlM (s.loadEntry location) done) := by
    intro entries location
    induction entries with
    | nil => exact fun done ↦ raises_pure _
    | cons entry rest ih =>
      intro done
      rw [List.foldlM_cons]
      exact (raises_loadEntry hordinary hbackup s location done entry).bind ih
  have hcheck : Raises P (checkNames runId key) := fun _ ↦ ends_checkNames hnames fun _ ↦ trivial
  unfold load
  refine hcheck.bind fun _ ↦ Raises.guard (hbackup _ id) ((Act.raises_tryFiles _).bind ?_)
  intro outcome
  cases outcome with
  | error cause => exact Raises.guard (hbackup _ id) (raises_throw (hbackup _ id))
  | ok content =>
    dsimp only
    split
    · exact raises_throw (hbackup _ id)
    · refine (Act.raises_ofExcept_of fun e he ↦
        hordinary e (ordinary_of_manifestEntries he)).bind fun entries ↦ ?_
      exact (hentries entries _ _).bind fun _ ↦ raises_pure _

theorem raises_load (s : Store) (runId key : String) : Raises Foreseen (s.load runId key) :=
  have hbackup : ∀ cause, (Fault.backup cause).Foreseen := fun _ ↦ .inl (.inr (.inr rfl))
  raises_load_of (fun _ ↦ Ordinary.foreseen) (fun cause _ ↦ hbackup cause)
    (fun _ _ _ ↦ hbackup _) s

end Store

/-! ### Runs of the pipeline -/

namespace Pipeline

variable (p : Pipeline)

theorem raises_prepare (raw : Diagnostic.Source) : Raises Ordinary (p.prepare raw) := by
  unfold prepare
  exact (raises_analyze _ raw).bind fun _ ↦ (raises_plan _ _).bind fun _ ↦ raises_pure _

theorem raises_lift {P : Fault → Prop} {α : Type} {act : Act α} (h : Raises P act) :
    Raises P (lift act) :=
  fun t ↦ ends_lift.mpr ((h t.world).mono (fun _ _ h ↦ h) fun _ _ h ↦ h)

theorem raises_execute (phases : List Phase) (runId : String) :
    Raises Ordinary (p.execute phases runId) :=
  fun _ ↦ ends_execute_iff.mpr ((RunAct.ends_run_ordinary ..).mono (fun _ _ _ ↦ trivial)
    fun _ _ h ↦ h)

theorem raises_remeasure {source : Work Diagnostic.Source}
    (h : ∀ site e, (source site).1.outcome = .error e → e.Foreseen) (c : RunContext) :
    Raises Foreseen (remeasure source c) := by
  unfold remeasure
  refine (Act.raises_finish h).attemptThen (fun raw ↦ ?_) fun e he ↦ ?_
  · exact ((Diagnostic.raises_read raw).mono fun _ ↦ Ordinary.foreseen).bind fun _ ↦ raises_pure _
  · exact Raises.guard he ((Act.raises_log _ _ _).bind fun _ ↦ raises_pure _)

theorem ordinary_of_context {c : RunContext} {initial : Number} {final : Option Number} {e : Fault}
    (h : RunSummary.ofContext c initial final = .error e) : e.Ordinary := by
  unfold RunSummary.ofContext at h
  cases hfixed : c.fixedCount with
  | error fault =>
    rw [hfixed] at h
    cases h
    exact RunContext.ordinary_of_fixedCount hfixed
  | ok fixed =>
    rw [hfixed] at h
    cases final with
    | some count => cases h
    | none =>
      dsimp only [bind, Except.bind, RunSummary.estimate] at h
      cases hleft : initial.sub? fixed with
      | some left =>
        rw [hleft] at h
        cases h
      | none =>
        rw [hleft] at h
        cases h
        trivial

theorem raises_runLocked (raw : Diagnostic.Source) (runId : String)
    (h : ∀ source, p.source = some source →
      ∀ site e, (source site).1.outcome = .error e → e.Foreseen) :
    Raises Foreseen (p.runLocked raw runId) := by
  unfold runLocked
  refine (raises_lift ((p.raises_prepare raw).mono fun _ ↦ Ordinary.foreseen)).bind fun made ↦ ?_
  refine Raises.bind (Raises.andThenAlways ?_ (raises_modify _)) fun counted ↦ ?_
  · refine ((p.raises_execute _ _).mono fun _ ↦ Ordinary.foreseen).bind fun c ↦ ?_
    split
    · split
      · exact raises_pure _
      · exact raises_lift (raises_remeasure (h _ ‹_›) c)
    · exact raises_pure _
  · exact raises_lift (Act.raises_ofExcept_of fun e he ↦ (ordinary_of_context he).foreseen)

theorem raises_run (raw : Diagnostic.Source) (given : Option String)
    (h : ∀ source, p.source = some source →
      ∀ site e, (source site).1.outcome = .error e → e.Foreseen) :
    Raises Foreseen (p.run raw given) := by
  have hnamed : ∀ runId, Raises Foreseen (do
      lift ((p.lock runId).acquire none)
      let s ← andThenAlways (p.runLocked raw runId) (lift (p.lock runId).release)
      lift (Act.log .info "run_summary"
        [("run_id", runId), ("state", s.state.name), ("initial_errors", s.initialErrorCount),
          ("final_errors", s.finalErrorCount), ("fixed", s.fixedCount)])
      return s) := by
    intro runId
    refine (raises_lift (RunLock.raises_acquire _ _)).bind fun _ ↦ ?_
    refine ((p.raises_runLocked raw runId h).andThenAlways
      (raises_lift (RunLock.raises_release _))).bind fun s ↦ ?_
    exact (raises_lift (Act.raises_log _ _ _)).bind fun _ ↦ raises_pure _
  unfold run
  split
  · exact hnamed _
  · refine Raises.bind (raises_lift ?_) hnamed
    unfold Act.newRunId
    exact raises_get.bind fun _ ↦ (raises_set _).bind fun _ ↦ raises_pure _

end Pipeline

/-! ### Commands -/

namespace Meter

theorem ordinary_of_stats {h : Histogram} {labels : Option Labels} {e : Fault}
    (hstats : h.stats labels = .error e) : e.Ordinary := by
  unfold Histogram.stats at hstats
  split at hstats
  · cases hstats
  · rename_i x rest hvalues
    cases hsum : Number.sum (x :: rest) with
    | error fault =>
      rw [hsum] at hstats
      cases hstats
      exact Number.ordinary_of_sum hsum
    | ok sum =>
      rw [hsum] at hstats
      cases hmean : Histogram.mean sum (rest.length + 1) with
      | ok mean =>
        dsimp only [bind, Except.bind] at hstats
        rw [hmean] at hstats
        cases hstats
      | error fault =>
        dsimp only [bind, Except.bind] at hstats
        rw [hmean] at hstats
        cases hstats
        unfold Histogram.mean at hmean
        split at hmean
        · cases hmean
        · split at hmean
          · cases hmean
            trivial
          · cases hmean
        · cases hmean

theorem ordinary_of_report {m : Meter} {uptime : Double} {e : Fault}
    (h : m.report uptime = .error e) : e.Ordinary := by
  unfold report at h
  cases hphases : m.phaseDuration.stats none with
  | error fault =>
    rw [hphases] at h
    cases h
    exact ordinary_of_stats hphases
  | ok phases =>
    rw [hphases] at h
    dsimp only [bind, Except.bind] at h
    cases hchecks : m.checkDuration.stats none with
    | error fault =>
      rw [hchecks] at h
      cases h
      exact ordinary_of_stats hchecks
    | ok checks =>
      rw [hchecks] at h
      cases h

end Meter

namespace Command

theorem raises_say {P : Fault → Prop} (a : Arguments) (level : LogLevel) (name : String)
    (fields : List (String × Json)) : Raises P (say a level name fields) := by
  unfold say
  exact raises_get.bind fun _ ↦ (raises_modify _).bind fun _ ↦
    (Act.raises_log _ _ _).bind fun _ ↦ raises_modify _

theorem raises_readDiagnostics (config : Config) (project : Route) (standardInput : Text.Bytes)
    (input : Option String) :
    Raises Foreseen (readDiagnostics config project standardInput input) := by
  unfold readDiagnostics
  split
  · exact Act.raises_finish fun _ _ ↦ DiagnosticsConfig.foreseen_of_collect
  · exact Act.raises_finish fun _ _ ↦ DiagnosticsConfig.foreseen_of_collect
  · exact raises_pure _
  · exact Raises.guard (foreseen_invalid _)
      ((Act.raises_onFiles_foreseen _).bind fun _ ↦ raises_pure _)

theorem raises_analyzeOnly (config : Config) (raw : Diagnostic.Source) :
    Raises Ordinary (analyzeOnly config raw) := by
  unfold analyzeOnly
  exact (raises_analyze _ raw).bind fun _ ↦ (raises_plan _ _).bind fun _ ↦ raises_pure _

theorem raises_runValidation (a : Arguments) (config : Config) (project : Route) (quick : Bool) :
    Raises Foreseen (runValidation a config project quick) := by
  unfold runValidation
  refine (raises_checksOf _ _).bind fun checks ↦ ?_
  split
  · refine ((raises_validateQuickly checks).mono fun _ ↦ Ordinary.foreseen).bind fun result ↦ ?_
    cases result with
    | none => exact (raises_say _ _ _ _).bind fun _ ↦ raises_pure _
    | some r => exact raises_pure _
  · exact ((raises_validate checks).mono fun _ ↦ Ordinary.foreseen).bind fun _ ↦ raises_pure _

theorem raises_undoRun (a : Arguments) (store : Store) (lock : RunLock) (runId key : String) :
    Raises Foreseen (undoRun a store lock runId key) := by
  unfold undoRun
  refine lock.raises_during ((store.raises_load runId key).bind fun snapshot ↦ ?_)
  refine ((Store.raises_restore snapshot).mono fun _ ↦ Ordinary.foreseen).attemptThen
    (fun restored ↦ raises_pure _) fun e he ↦ ?_
  split
  · rename_i heq
    cases heq
  · exact (raises_say _ _ _ _).bind fun _ ↦ raises_pure _
  · rename_i heq
    cases heq
    exact raises_throw he

theorem raises_undo (a : Arguments) (config : Config) (project : Route) (o : UndoOptions) :
    Raises Foreseen (undo a config project o) := by
  unfold undo
  refine (Act.raises_onFiles_foreseen _).bind fun runs ↦ ?_
  split
  · refine Raises.bind (raises_mapM (fun run ↦ ?_) runs) fun _ ↦ raises_pure _
    exact (Act.raises_onFiles_foreseen _).bind fun _ ↦ raises_pure _
  · split
    · exact (raises_say _ _ _ _).bind fun _ ↦ raises_pure _
    · exact raises_undoRun a _ _ _ _

end Command

end Remedy
