import Remedy.Proofs.Actions
import Remedy.Run.Execution

/-!
# Faults that have nothing to do with the run

Only the move to a state that is not next to the present one is a fault of the kind
`FaultKind.invalidTransition`, and only the store has faults of the kind `FaultKind.backup`. Whatever
else an action fails with is `Ordinary`, and so foreign to a run: what logging, counting and waiting
fail with (`raises_log`, `raises_count`, `raises_pause`), what putting files back fails with
(`Store.raises_restore`), and what checks fail with (`raises_validate`). What a fixer or a probe fails
with may be of any kind, but it never gets out of an attempt as it is: `FixReply.check` and the
judgement of an attempt put it into a fault of their own, and a check turns it into a result.

When a snapshot cannot be taken and this is the store's own finding, its fault tells what it has
found (`BackupFault.Blames`).
-/

set_option autoImplicit false

namespace Remedy

/-- A fault that is neither that of a move which is not allowed nor one of the store of snapshots. -/
def Fault.Foreign (e : Fault) : Prop := e.kind ≠ .invalidTransition ∧ e.kind ≠ .backup

theorem FileError.foreign_kind (e : FileError) :
    e.kind ≠ .invalidTransition ∧ e.kind ≠ .backup := by
  unfold FileError.kind
  split <;> decide

/-- A fault of the file system, of a value, of an attempt or of the end of one, which is what the
program fails with apart from the findings of its parts. What work fails with is none, whatever it
may be. -/
def Fault.Ordinary : Fault → Prop
  | .file _ | .rollback _ _ | .phaseTimeout _ _ | .fixer _ | .invalid _ | .misuse _ | .overflow _
  | .linkLoop _ | .cancelled _ => True
  | _ => False

theorem Fault.Ordinary.foreign {e : Fault} (h : e.Ordinary) : e.Foreign := by
  cases e with
  | file cause => exact cause.foreign_kind
  | misuse cause => cases cause <;> simp [Foreign, kind]
  | rollback | phaseTimeout | fixer | invalid | overflow | linkLoop | cancelled =>
    simp [Foreign, kind]
  | _ => exact h.elim

/-! ### Logging, counting and waiting -/

namespace Act

theorem raises_ofExcept {α : Type} {outcome : Except Fault α}
    (h : ∀ e, outcome = .error e → e.Ordinary) : Raises Fault.Ordinary (ofExcept outcome) := by
  intro w
  cases outcome with
  | ok a => trivial
  | error e => exact h e rfl

/-- Logging cannot fail. -/
theorem raises_record {P : Fault → Prop} (event : Event) : Raises P (record event) :=
  raises_modify _

theorem raises_log {P : Fault → Prop} (level : LogLevel) (name : String)
    (fields : List (String × Json)) : Raises P (log level name fields) :=
  raises_record _

end Act

theorem Counter.ordinary_of_inc {c : Counter} {amount : Number} {labels : Labels} {e : Fault}
    (h : (c.inc amount labels).2 = some e) : e.Ordinary := by
  unfold Counter.inc at h
  split at h
  · cases h
    trivial
  · dsimp only at h
    split at h
    · cases h
    · cases h
      trivial

namespace Act

theorem raises_count (tally : Meter.Tally) (amount : Number) (labels : Labels) :
    Raises Fault.Ordinary (count tally amount labels) := by
  unfold count
  refine raises_get.bind fun w ↦ ?_
  rcases hinc : (w.meter.counter tally).inc amount labels with ⟨c, fault⟩
  refine (raises_set _).bind fun _ ↦ ?_
  cases fault with
  | none => exact raises_pure _
  | some e => exact raises_throw (Counter.ordinary_of_inc (by rw [hinc]))

theorem raises_tryFiles {P : Fault → Prop} {α : Type} (act : FileAct α) : Raises P (tryFiles act) :=
  fun _ ↦ trivial

theorem raises_onFiles_file {α : Type} (act : FileAct α) :
    Raises (fun e ↦ ∃ cause, e = .file cause) (onFiles act) := by
  unfold onFiles
  refine (raises_tryFiles act).bind fun outcome ↦ ?_
  cases outcome with
  | ok a => exact raises_pure _
  | error e => exact raises_throw ⟨e, rfl⟩

theorem raises_onFiles {α : Type} (act : FileAct α) : Raises Fault.Ordinary (onFiles act) :=
  (raises_onFiles_file act).mono fun _ ⟨cause, he⟩ ↦ by rw [he]; trivial

theorem raises_withBound {P : Fault → Prop} {α : Type} {bound : List (String × Json)} {act : Act α}
    (h : Raises P act) : Raises P (withBound bound act) := by
  unfold withBound
  exact raises_get.bind fun _ ↦ (raises_modify _).bind fun _ ↦ h.andThenAlways (raises_modify _)

theorem raises_giveWay {P : Fault → Prop} : Raises P giveWay := by
  unfold giveWay
  refine raises_get.bind fun w ↦ (raises_modify _).bind fun _ ↦ ?_
  exact raises_forM (fun _ ↦ raises_withBound (raises_log _ _ _)) _

/-- Waiting fails only because the activity is called off. -/
theorem raises_pause_cancelled (seconds : Moment) :
    Raises (fun e ↦ e = .cancelled "") (pause seconds) := by
  unfold pause
  refine raises_giveWay.bind fun _ ↦ raises_get.bind fun w ↦ ?_
  dsimp only
  split
  · split
    · exact (raises_set _).bind fun _ ↦ raises_throw rfl
    · exact raises_set _
  · exact raises_set _

theorem raises_pause (seconds : Moment) : Raises Fault.Ordinary (pause seconds) :=
  (raises_pause_cancelled seconds).mono fun _ he ↦ by rw [he]; trivial

theorem raises_waitForever_cancelled : Raises (fun e ↦ e = .cancelled "") waitForever := by
  unfold waitForever
  refine raises_get.bind fun w ↦ ?_
  split
  · split
    · exact raises_pause_cancelled _
    · exact raises_pure _
  · exact raises_pure _

theorem raises_waitForever : Raises Fault.Ordinary waitForever :=
  raises_waitForever_cancelled.mono fun _ he ↦ by rw [he]; trivial

theorem raises_expire (timeout : Number) : Raises Fault.Ordinary (expire timeout) := by
  unfold expire
  split
  · exact raises_waitForever
  · exact raises_pause _

theorem raises_since (start : Moment) : Raises Fault.Ordinary (since start) := by
  unfold since
  exact raises_get.bind fun _ ↦ raises_pure _

theorem raises_begin {α : Type} (work : Work α) : Raises Fault.Ordinary (begin work) := by
  unfold begin
  refine raises_get.bind fun w ↦ ?_
  exact (raises_set _).bind fun _ ↦ (raises_forM raises_record _).bind fun _ ↦ raises_pure _

theorem raises_race {α : Type} (work : Work α) (timeout : Number) :
    Raises Fault.Ordinary (race work timeout) := by
  unfold race
  refine (raises_begin work).bind fun course ↦ ?_
  split
  · exact raises_throw trivial
  · dsimp only
    split
    · refine (raises_expire timeout).bind fun _ ↦ (raises_modify _).bind fun _ ↦ ?_
      exact (raises_log _ _ _).bind fun _ ↦ raises_pure _
    · refine (raises_pause _).bind fun _ ↦ ?_
      exact (raises_forM raises_record _).bind fun _ ↦ raises_pure _

theorem raises_rest (number : Nat) (fault : Fault) (wait : Double) :
    Raises Fault.Ordinary (rest number fault wait) := by
  unfold rest
  refine (raises_record _).bind fun _ ↦ ?_
  split
  · exact raises_pause _
  · exact raises_giveWay

theorem raises_drawName {P : Fault → Prop} : Raises P drawName := by
  unfold drawName
  exact raises_get.bind fun _ ↦ (raises_set _).bind fun _ ↦ raises_pure _

theorem raises_replaceContent {P : Fault → Prop} (p : Path) (content : Text.Bytes) :
    Raises P (replaceContent p content) := by
  unfold replaceContent
  exact raises_drawName.bind fun _ ↦ raises_tryFiles _

end Act

/-! ### The store -/

theorem FileTree.ordinary_of_resolve {t : FileTree} {p : Path} {e : Fault}
    (h : t.resolve p = .error e) : e.Ordinary := by
  unfold FileTree.resolve at h
  split at h
  · cases h
    trivial
  · split at h
    · cases h
    · dsimp only at h
      split at h
      · cases h
        trivial
      · cases h

namespace Snapshot

theorem ordinary_of_pick {s : Snapshot} {done : List (Route × Option Text.Bytes)} {route : Route}
    {e : Fault} (h : s.pick done route = .error e) : e.Ordinary := by
  unfold pick at h
  split at h
  · cases h
  · cases h
    trivial

theorem ordinary_of_restrict {s : Snapshot} {routes : List Route} {key : String} {e : Fault}
    (h : s.restrict routes key = .error e) : e.Ordinary := by
  have hpick : ∀ (routes : List Route) (done : List (Route × Option Text.Bytes)),
      routes.foldlM s.pick done = .error e → e.Ordinary := by
    intro routes
    induction routes with
    | nil => exact fun _ h ↦ nomatch h
    | cons route rest ih =>
      intro done h
      rw [List.foldlM_cons] at h
      rcases hroute : s.pick done route with fault | done'
      · rw [hroute] at h
        cases h
        exact ordinary_of_pick hroute
      · rw [hroute] at h
        exact ih _ h
  unfold restrict at h
  rcases hfiles : routes.foldlM s.pick [] with fault | files
  · rw [hfiles] at h
    cases h
    exact hpick _ _ hfiles
  · rw [hfiles] at h
    cases h

end Snapshot

/-- The fault is about the name of a run or a key. -/
def BackupFault.IsOfName : BackupFault → Prop
  | .invalidName _ _ => True
  | _ => False

/-- What a fault of the store that keeps a snapshot from being taken says is so. -/
def BackupFault.Blames (s : Store) (runId key : String) (t : FileTree) : BackupFault → Prop
  | .invalidName _ _ => ¬ (isBackupName runId = true ∧ isBackupName key = true)
  | .duplicate _ _ => s.get runId key ≠ none
  | .occupied _ => (FileAct.present (s.location runId key) t).1 = .ok true
  | .unreadable _ _ | .unwritable _ _ => True
  | _ => False

namespace Store

theorem raises_resolve (s : Store) (p : Path) : Raises Fault.Ordinary (s.resolve p) := by
  intro w
  unfold Ends resolve
  dsimp only
  rcases hresolve : w.files.resolve ((Route.path s.project).join p) with e | route
  · exact FileTree.ordinary_of_resolve hresolve
  · trivial

theorem raises_writeContents {P : Fault → Prop} (location : Path)
    (entries : List (ManifestEntry × Option Text.Bytes)) :
    Raises P (writeContents location entries) := by
  induction entries with
  | nil => exact raises_pure _
  | cons entry rest ih =>
    unfold writeContents
    split
    · refine (Act.raises_replaceContent _ _).bind fun outcome ↦ ?_
      cases outcome with
      | ok _ => exact ih
      | error e => exact raises_pure _
    · exact ih

theorem raises_writeAll {P : Fault → Prop} (s : Store) (snapshot : Snapshot) :
    Raises P (s.writeAll snapshot) := by
  unfold writeAll
  refine raises_get.bind fun w ↦ (Act.raises_tryFiles _).bind fun outcome ↦ ?_
  cases outcome with
  | error e => exact raises_pure _
  | ok _ =>
    refine (raises_writeContents _ _).bind fun outcome ↦ ?_
    cases outcome with
    | error e => exact raises_pure _
    | ok _ => exact Act.raises_replaceContent _ _

theorem ends_record_blames (s : Store) (snapshot : Snapshot) (w : World) :
    Ends (s.record snapshot) w (fun s' _ ↦ s' = s.hold snapshot)
      fun e _ ↦ e.Ordinary ∨ ∃ cause, e = .backup cause ∧
        cause.Blames s snapshot.runId snapshot.key w.files := by
  unfold record
  refine Ends.guard (fun h ↦ ?_) fun _ ↦ ?_
  · exact .inr ⟨_, rfl, fun hnone ↦ by simp [hnone] at h⟩
  · exact ((Act.raises_log _ _ _).mono (fun _ ↦ .inl) w).bind fun _ _ _ ↦ ends_pure.mpr rfl

theorem raises_restoreFile {P : Fault → Prop} (route : Route) (content : Option Text.Bytes) :
    Raises P (restoreFile route content) := by
  unfold restoreFile
  split
  · exact Act.raises_tryFiles _
  · exact Act.raises_replaceContent _ _

theorem raises_restoreFiles {P : Fault → Prop} (files : List (Route × Option Text.Bytes)) :
    Raises P (restoreFiles files) := by
  induction files with
  | nil => exact raises_pure _
  | cons file rest ih =>
    refine (raises_restoreFile _ _).bind fun outcome ↦ ?_
    cases outcome with
    | ok _ => exact ih
    | error e => exact (Act.raises_log _ _ _).bind fun _ ↦ ih.bind fun _ ↦ raises_pure _

theorem raises_currentDigest (route : Route) :
    Raises (fun e ↦ ∃ cause, e = .file cause) (currentDigest route) := by
  unfold currentDigest
  refine (Act.raises_onFiles_file _).bind fun isFile ↦ ?_
  split
  · exact (Act.raises_onFiles_file _).bind fun _ ↦ raises_pure _
  · exact raises_pure _

theorem raises_findAltered (failed : List Route) (digests : List (Route × Option String)) :
    Raises (fun e ↦ ∃ cause, e = .file cause) (findAltered failed digests) := by
  induction digests with
  | nil => exact raises_pure _
  | cons digest rest ih =>
    unfold findAltered
    split
    · exact ih
    · refine (raises_currentDigest _).bind fun digest ↦ ?_
      split
      · exact ih
      · exact (Act.raises_log _ _ _).bind fun _ ↦ ih.bind fun _ ↦ raises_pure _

/-- Putting files back fails with the list of those that are not back, or while they are checked. -/
theorem raises_restore_causes (snapshot : Snapshot) :
    Raises (fun e ↦ (∃ failed total, e = .rollback failed total) ∨ ∃ cause, e = .file cause)
      (restore snapshot) := by
  unfold restore
  refine (Act.raises_log _ _ _).bind fun _ ↦ (raises_restoreFiles _).bind fun failed ↦ ?_
  refine ((raises_findAltered _ _).mono fun _ ↦ .inr).bind fun altered ↦ Raises.guard ?_ ?_
  · exact .inl ⟨_, _, rfl⟩
  · exact (Act.raises_log _ _ _).bind fun _ ↦ raises_pure _

theorem raises_restore (snapshot : Snapshot) : Raises Fault.Ordinary (restore snapshot) := by
  refine (raises_restore_causes snapshot).mono ?_
  rintro e (⟨failed, total, rfl⟩ | ⟨cause, rfl⟩)
  · trivial
  · trivial

end Store

/-! ### Replies and checks -/

namespace Json

theorem ordinary_of_insertPairs {pairs : List Json} {done : List (Json × Json)} {index : Nat}
    {e : Fault} (h : insertPairs done index pairs = .error e) : e.Ordinary := by
  induction pairs generalizing done index with
  | nil => cases h
  | cons pair rest ih =>
    unfold insertPairs at h
    split at h
    · cases h
      trivial
    · cases h
      trivial
    · cases h
      trivial
    · exact ih h
    · cases h
      trivial

theorem ordinary_of_recordOf {pairs : List Json} {e : Fault} (h : recordOf pairs = .error e) :
    e.Ordinary := by
  unfold recordOf at h
  rcases hinsert : insertPairs [] 0 pairs with fault | done
  · rw [hinsert] at h
    cases h
    exact ordinary_of_insertPairs hinsert
  · rw [hinsert] at h
    cases h

theorem ordinary_of_record {j : Json} {e : Fault} (h : j.record = .error e) : e.Ordinary := by
  unfold record at h
  split at h
  · cases h
  · exact ordinary_of_recordOf h
  · exact ordinary_of_recordOf h
  · cases h
    trivial

end Json

theorem FixReply.ordinary_of_check {phase : String} {reply : FixReply} {e : Fault}
    (h : reply.check phase = .error e) : e.Ordinary := by
  have hreport : ∀ r, (FixReply.report r).check phase = .error e → e.Ordinary := by
    intro r hr
    unfold FixReply.check at hr
    dsimp only [bind, Except.bind] at hr
    split at hr
    · cases hr
      trivial
    · cases hr
      trivial
    · cases hr
  cases reply with
  | count n => exact hreport { fixedCount := n } h
  | report r => exact hreport r h
  | other kind =>
    cases h
    trivial

theorem Number.ordinary_of_sum {xs : List Number} {e : Fault} (h : Number.sum xs = .error e) :
    e.Ordinary := by
  unfold Number.sum at h
  generalize (0 : Number) = start at h
  induction xs generalizing start with
  | nil => cases h
  | cons x rest ih =>
    rw [List.foldlM_cons] at h
    rcases hadd : start.add? x with _ | sum
    · rw [hadd] at h
      cases h
      trivial
    · rw [hadd] at h
      exact ih sum h

theorem RunContext.ordinary_of_fixedCount {c : RunContext} {e : Fault}
    (h : c.fixedCount = .error e) : e.Ordinary :=
  Number.ordinary_of_sum h

namespace Check

theorem ordinary_of_conclude {c : Check} {r : ProbeReport} {e : Fault}
    (h : c.conclude r = .error e) : e.Ordinary := by
  unfold conclude at h
  rcases hrecord : r.details.record with fault | details
  · rw [hrecord] at h
    cases h
    exact Json.ordinary_of_record hrecord
  · rw [hrecord] at h
    cases h

theorem raises_judge (c : Check) (settled : Settled ProbeReply) :
    Raises Fault.Ordinary (c.judge settled) := by
  unfold judge
  split
  · exact raises_pure _
  · exact raises_pure _
  · exact raises_throw trivial
  · refine raises_attempt.bind fun outcome ↦ ?_
    cases outcome with
    | ok report => exact Act.raises_ofExcept fun _ h ↦ ordinary_of_conclude h
    | error e => exact raises_pure _
  · exact Act.raises_ofExcept fun _ h ↦ ordinary_of_conclude h

theorem raises_settle (c : Check) : Raises Fault.Ordinary c.settle := by
  unfold settle
  refine (Act.raises_race _ _).attemptThen (fun settled ↦ c.raises_judge settled) fun e he ↦ ?_
  cases e with
  | overflow cause => exact raises_pure _
  | _ => exact raises_throw he

theorem raises_measure (c : Check) : Raises Fault.Ordinary c.measure := by
  unfold measure
  refine raises_get.bind fun w ↦ c.raises_settle.attemptThen (fun r ↦ ?_) fun e he ↦ ?_
  · refine (Act.raises_since _).bind fun _ ↦ (raises_modify _).bind fun _ ↦ ?_
    exact (Act.raises_ofExcept fun _ h ↦ by cases h).bind fun _ ↦ raises_pure _
  · refine (Act.raises_since _).bind fun _ ↦ (raises_modify _).bind fun _ ↦ ?_
    refine (Act.raises_ofExcept fun e' h ↦ ?_).bind fun _ ↦ raises_pure _
    cases h
    exact he

theorem raises_run (c : Check) : Raises Fault.Ordinary c.run := by
  unfold run
  refine c.raises_measure.bind fun r ↦ (Act.raises_count _ _ _).bind fun _ ↦ ?_
  split
  · exact (Act.raises_log _ _ _).bind fun _ ↦ raises_pure _
  · exact (Act.raises_log _ _ _).bind fun _ ↦ raises_pure _

theorem raises_skip (c : Check) (blocker : String) : Raises Fault.Ordinary (c.skip blocker) := by
  unfold skip
  exact (Act.raises_log _ _ _).bind fun _ ↦ (Act.raises_count _ _ _).bind fun _ ↦ raises_pure _

end Check

theorem raises_runChecks (checks : List Check) (blocker : Option String) :
    Raises Fault.Ordinary (runChecks blocker checks) := by
  induction checks generalizing blocker with
  | nil => exact raises_pure _
  | cons c rest ih =>
    cases blocker with
    | some name => exact (c.raises_skip name).bind fun _ ↦ (ih _).bind fun _ ↦ raises_pure _
    | none => exact c.raises_run.bind fun _ ↦ (ih _).bind fun _ ↦ raises_pure _

/-- Running checks fails with no fault of the kind of a move that is not allowed. -/
theorem raises_validate (checks : List Check) : Raises Fault.Ordinary (validate checks) := by
  unfold validate
  refine (Act.raises_log _ _ _).bind fun _ ↦ raises_get.bind fun w ↦ ?_
  refine (raises_runChecks checks none).bind fun results ↦ (Act.raises_since _).bind fun _ ↦ ?_
  exact (Act.raises_log _ _ _).bind fun _ ↦ raises_pure _

end Remedy
