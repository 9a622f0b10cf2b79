import Remedy.Proofs.Backup.Loading
import Remedy.Proofs.CommandLine.Answers

/-!
# What becomes of a damaged backup

Reading a backup gives a snapshot, or it fails, and that with a fault of the backup exactly if the
manifest is legible (`Store.load_legible`): if it is a value at all, it has entries, and each of
them, up to the first whose backup file has been lost, says all that it is asked for
(`Store.Describes`). Whenever reading fails with a fault of the backup, the command that was undoing
the run reports it and ends with code one. A manifest that breaks off is answered like that
(`Command.load_legible_damaged`), and one that is an empty list is not (`Command.load_of_list`).

An entry is settled by going through what is asked of it; that reading stops at the first entry that
fails is why those behind it need not say anything.
-/

set_option autoImplicit false

namespace Remedy

open FileTree

theorem Fault.Ordinary.not_backup {e : Fault} (h : e.Ordinary) : ¬ ∃ cause, e = .backup cause := by
  rintro ⟨cause, rfl⟩
  exact h

section Values

variable {α : Type} {w : World} {ok : α → World → Prop} {bad : Fault → World → Prop}

theorem Json.ends_demand {entry : Json} {name : String} {f : Json → Act α}
    (hok : ∀ value, entry.demand name = .ok value → Ends (f value) w ok bad)
    (hbad : ∀ e, e.Ordinary → (∀ value, entry.demand name ≠ .ok value) → bad e w) :
    Ends (Act.ofExcept (entry.demand name) >>= f) w ok bad := by
  refine ends_bind.mpr (ends_ask.mono ?_ ?_)
  · rintro value _ ⟨rfl, hvalue⟩
    exact hok value hvalue
  · rintro e _ ⟨rfl, he⟩
    exact hbad e (ordinary_of_demand he) fun value hvalue ↦ nomatch he.symm.trans hvalue

theorem Json.ends_demandText {entry : Json} {name : String} {f : String → Act α}
    (hok : ∀ text, entry.demand name = .ok (.str text) → Ends (f text) w ok bad)
    (hbad : ∀ e, e.Ordinary → (∀ text, entry.demand name ≠ .ok (.str text)) → bad e w) :
    Ends (Act.ofExcept (entry.demand name) >>= fun j ↦ Act.ofExcept j.text >>= f) w ok bad := by
  refine ends_demand (fun j hj ↦ ends_bind.mpr (ends_ask.mono ?_ ?_)) ?_
  · rintro text _ ⟨rfl, htext⟩
    unfold Json.text at htext
    split at htext <;> cases htext
    exact hok text hj
  · rintro e _ ⟨rfl, he⟩
    refine hbad e (ordinary_of_text he) fun text htext ↦ ?_
    cases hj.symm.trans htext
    cases he
  · exact fun e he hnone ↦ hbad e he fun text ↦ hnone _

end Values

namespace Store

/-! ### Entries -/

/-- The entry says what its backup file is called, and if that can be read, the digest. -/
def TellsContent (location : Path) (t : FileTree) (entry : Json) : Prop :=
  ∃ name, entry.demand "backup" = .ok (.str name) ∧
    (location.join (Path.ofString name)).hasNul = false ∧
    ∀ content, t.content (location.join (Path.ofString name)) = .ok content →
      ∃ digest, entry.demand "sha256" = .ok digest

/-- The entry says all that it is asked for: where the file is, when it was recorded, and whether it
existed; if it did, what it held. -/
structure Describes (s : Store) (location : Path) (t : FileTree) (entry : Json) : Prop where
  place : ∃ path route, entry.demand "path" = .ok (.str path) ∧
    t.resolve ((Route.path s.project).join (Path.ofString path)) = .ok route
  time : ∃ stamp, entry.demand "created_at" = .ok (.str stamp) ∧ Calendar.checkStamp stamp = .ok ()
  past : ∃ existed, entry.demand "existed" = .ok existed ∧
    (existed.truthy = true → TellsContent location t entry)

/-- The backup file of an entry holds what the entry says it does. -/
def HasContent (location : Path) (t : FileTree) (entry : Json) : Prop :=
  ∃ name content digest, entry.demand "backup" = .ok (.str name) ∧
    t.content (location.join (Path.ofString name)) = .ok content ∧
    entry.demand "sha256" = .ok digest ∧ (digest == .str (Digest.ofBytes content)) = true

/-- If there has to be a backup file for an entry, it holds what the entry says it does. -/
def Intact (location : Path) (t : FileTree) (entry : Json) : Prop :=
  ∀ existed, entry.demand "existed" = .ok existed → existed.truthy = true →
    HasContent location t entry

/-- Each entry says all that it is asked for, up to the first whose backup file has been lost. -/
def Follows (s : Store) (location : Path) (t : FileTree) : List Json → Prop
  | [] => True
  | entry :: rest => s.Describes location t entry ∧
      (Intact location t entry → s.Follows location t rest)

/-- The manifest of a backup is there, and what is in it is a value. -/
structure Reads (s : Store) (runId key : String) (t : FileTree) (manifest : Json) : Prop where
  names : isBackupName runId = true ∧ isBackupName key = true
  nul : ((s.location runId key).child manifestName).hasNul = false
  content : ∃ content, t.content ((s.location runId key).child manifestName) = .ok content ∧
    readManifest content = .ok manifest

/-- If the manifest of a backup is a value, then one whose entries can be followed. -/
def Legible (s : Store) (runId key : String) (t : FileTree) : Prop :=
  ∀ manifest, s.Reads runId key t manifest → ∃ entries, manifestEntries manifest = .ok entries ∧
    s.Follows (s.location runId key) t entries

/-- The snapshot is of a backup whose manifest is a value, of which every entry is intact. -/
structure Attests (s : Store) (runId key : String) (t : FileTree) (snapshot : Snapshot) : Prop where
  ofRun : snapshot.runId = runId
  ofKey : snapshot.key = key
  location : snapshot.location = s.location runId key
  entries : ∃ manifest entries, s.Reads runId key t manifest ∧
    manifestEntries manifest = .ok entries ∧ ∀ entry ∈ entries, Intact snapshot.location t entry

variable {s : Store} {location : Path} {w : World} {entry : Json} {runId key : String}

/-- What the backup file of an entry comes to: reading fails otherwise than with a fault of the
backup if the entry does not say what it is asked for of the file. -/
theorem ends_loadBackup_tells (done : List (Route × Option Text.Bytes)) (path : String)
    (route : Route) :
    Ends (loadBackup location done entry path route) w
      (fun _ w' ↦ w' = w ∧ TellsContent location w.files entry ∧ HasContent location w.files entry)
      fun e w' ↦ w' = w ∧
        ((∃ cause, e = .backup cause) ∧ TellsContent location w.files entry ∧
            ¬ HasContent location w.files entry ∨
          e.Ordinary ∧ ¬ TellsContent location w.files entry) := by
  unfold loadBackup
  refine Json.ends_demandText (fun name hname ↦ ?_) fun e he hnone ↦ ⟨rfl, .inr ⟨he, fun h ↦ ?_⟩⟩
  case refine_2 =>
    obtain ⟨name, hname, -⟩ := h
    exact hnone name hname
  refine Ends.guard (fun hnul ↦ ⟨rfl, .inr ⟨trivial, fun h ↦ ?_⟩⟩) fun hnul ↦ ?_
  · obtain ⟨name', hname', hfree, -⟩ := h
    cases hname.symm.trans hname'
    exact absurd hnul (by simp [hfree])
  have hfree : (location.join (Path.ofString name)).hasNul = false := Bool.eq_false_iff.mpr hnul
  refine ends_bind.mpr (Act.ends_read.mpr ?_)
  cases hread : w.files.content (location.join (Path.ofString name)) with
  | error cause =>
    refine ends_throw.mpr ⟨rfl, .inl ⟨⟨_, rfl⟩, ⟨name, hname, hfree, ?_⟩, ?_⟩⟩
    · exact fun content hcontent ↦ nomatch hread.symm.trans hcontent
    · rintro ⟨name', content, digest, hname', hcontent, -⟩
      cases hname.symm.trans hname'
      exact nomatch hread.symm.trans hcontent
  | ok content =>
    dsimp only
    refine Json.ends_demand (fun digest hdigest ↦ ?_) fun e he hnone ↦ ⟨rfl, .inr ⟨he, fun h ↦ ?_⟩⟩
    case refine_2 =>
      obtain ⟨name', hname', -, hasks⟩ := h
      cases hname.symm.trans hname'
      obtain ⟨digest, hdigest⟩ := hasks content hread
      exact hnone digest hdigest
    have htells : TellsContent location w.files entry :=
      ⟨name, hname, hfree, fun _ _ ↦ ⟨digest, hdigest⟩⟩
    split
    · rename_i hsame
      exact ends_pure.mpr ⟨rfl, htells, name, content, digest, hname, hread, hdigest, hsame⟩
    · rename_i hother
      refine ends_throw.mpr ⟨rfl, .inl ⟨⟨_, rfl⟩, htells, ?_⟩⟩
      rintro ⟨name', content', digest', hname', hcontent', hdigest', hsame⟩
      cases hname.symm.trans hname'
      cases hread.symm.trans hcontent'
      cases hdigest.symm.trans hdigest'
      exact hother hsame

/-- What an entry comes to: it fails otherwise than with a fault of the backup if it does not say
what it is asked for. -/
theorem ends_loadEntry_describes (done : List (Route × Option Text.Bytes)) :
    Ends (s.loadEntry location done entry) w
      (fun _ w' ↦ w' = w ∧ s.Describes location w.files entry ∧ Intact location w.files entry)
      fun e w' ↦ w' = w ∧
        ((∃ cause, e = .backup cause) ∧ s.Describes location w.files entry ∧
            ¬ Intact location w.files entry ∨
          e.Ordinary ∧ ¬ s.Describes location w.files entry) := by
  unfold loadEntry
  refine Json.ends_demandText (fun path hpath ↦ ?_) fun e he hnone ↦ ⟨rfl, .inr ⟨he, fun h ↦ ?_⟩⟩
  case refine_2 =>
    obtain ⟨path, route, hpath, -⟩ := h.place
    exact hnone path hpath
  refine ends_bind.mpr (ends_ask.mono (fun route w' hw' ↦ ?_) fun e w' hw' ↦ ?_)
  case refine_2 =>
    obtain ⟨rfl, he⟩ := hw'
    refine ⟨rfl, .inr ⟨ordinary_of_resolve he, fun h ↦ ?_⟩⟩
    obtain ⟨path', route, hpath', hroute⟩ := h.place
    cases hpath.symm.trans hpath'
    exact nomatch he.symm.trans hroute
  obtain ⟨rfl, hroute⟩ := hw'
  refine Json.ends_demandText (fun stamp hstamp ↦ ?_) fun e he hnone ↦ ⟨rfl, .inr ⟨he, fun h ↦ ?_⟩⟩
  case refine_2 =>
    obtain ⟨stamp, hstamp, -⟩ := h.time
    exact hnone stamp hstamp
  split
  · rename_i cause hcheck
    refine ends_throw.mpr ⟨rfl, .inr ⟨trivial, fun h ↦ ?_⟩⟩
    obtain ⟨stamp', hstamp', hcheck'⟩ := h.time
    cases hstamp.symm.trans hstamp'
    exact nomatch hcheck.symm.trans hcheck'
  rename_i hcheck
  refine Json.ends_demand (fun existed hexisted ↦ ?_) fun e he hnone ↦ ⟨rfl, .inr ⟨he, fun h ↦ ?_⟩⟩
  case refine_2 =>
    obtain ⟨existed, hexisted, -⟩ := h.past
    exact hnone existed hexisted
  -- From here on only what is asked of a file that existed is left.
  have hdescribes : s.Describes location w'.files entry ↔
      (existed.truthy = true → TellsContent location w'.files entry) := by
    refine ⟨fun h ↦ ?_, fun h ↦
      ⟨⟨path, route, hpath, hroute⟩, ⟨stamp, hstamp, hcheck⟩, existed, hexisted, h⟩⟩
    obtain ⟨existed', hexisted', hasks⟩ := h.past
    cases hexisted.symm.trans hexisted'
    exact hasks
  have hintact : Intact location w'.files entry ↔
      (existed.truthy = true → HasContent location w'.files entry) := by
    refine ⟨fun h ↦ h existed hexisted, fun h existed' hexisted' ↦ ?_⟩
    cases hexisted.symm.trans hexisted'
    exact h
  rw [hdescribes, hintact]
  split
  · rename_i hnever
    have hfalse : existed.truthy ≠ true := by simpa using hnever
    exact ends_pure.mpr ⟨rfl, fun htrue ↦ absurd htrue hfalse, fun htrue ↦ absurd htrue hfalse⟩
  · rename_i hever
    have htrue : existed.truthy = true := by simpa using hever
    simp only [htrue, forall_const]
    exact ends_loadBackup_tells done path route

/-- The entries are gone through up to the first that fails. -/
theorem ends_loadEntries_follows (entries : List Json) (done : List (Route × Option Text.Bytes)) :
    Ends (entries.foldlM (s.loadEntry location) done) w
      (fun _ w' ↦ w' = w ∧ s.Follows location w.files entries ∧
        ∀ entry ∈ entries, Intact location w.files entry)
      fun e w' ↦ w' = w ∧ ((∃ cause, e = .backup cause) ↔ s.Follows location w.files entries) := by
  induction entries generalizing done with
  | nil => exact ends_pure.mpr ⟨rfl, trivial, fun _ h ↦ absurd h List.not_mem_nil⟩
  | cons entry rest ih =>
    rw [List.foldlM_cons]
    refine ((ends_loadEntry_describes done).mono (fun _ _ h ↦ h) fun e w' h ↦ ?_).bind ?_
    · obtain ⟨rfl, ⟨hbackup, hdescribes, hlost⟩ | ⟨he, hsilent⟩⟩ := h
      · exact ⟨rfl, iff_of_true hbackup ⟨hdescribes, fun hintact ↦ absurd hintact hlost⟩⟩
      · exact ⟨rfl, iff_of_false he.not_backup fun h ↦ hsilent h.1⟩
    · rintro done' _ ⟨rfl, hdescribes, hintact⟩
      refine (ih done').mono ?_ ?_
      · rintro _ _ ⟨rfl, hfollows, hrest⟩
        exact ⟨rfl, ⟨hdescribes, fun _ ↦ hfollows⟩, List.forall_mem_cons.mpr ⟨hintact, hrest⟩⟩
      · rintro e _ ⟨rfl, hiff⟩
        exact ⟨rfl, hiff.trans ⟨fun h ↦ ⟨hdescribes, fun _ ↦ h⟩, fun h ↦ h.2 hintact⟩⟩

/-! ### Manifests -/

/-- Reading a backup fails with a fault of the backup exactly if the manifest is legible. -/
theorem ends_load_legible (s : Store) (runId key : String) (w : World) :
    Ends (s.load runId key) w
      (fun snapshot w' ↦ w' = w ∧ s.Legible runId key w.files ∧ s.Attests runId key w.files snapshot)
      fun e w' ↦ w' = w ∧ ((∃ cause, e = .backup cause) ↔ s.Legible runId key w.files) := by
  have hunread : ∀ e, (∀ manifest, ¬ s.Reads runId key w.files manifest) →
      ((∃ cause, Fault.backup e = .backup cause) ↔ s.Legible runId key w.files) := fun e hnone ↦
    iff_of_true ⟨e, rfl⟩ fun manifest hreads ↦ absurd hreads (hnone manifest)
  unfold load
  refine ends_bind.mpr (ends_checkNames (fun hnot _ _ ↦ ⟨rfl, hunread _ fun _ h ↦ hnot h.names⟩) ?_)
  intro hnames
  refine Ends.guard (fun hnul ↦ ⟨rfl, hunread _ fun _ h ↦ ?_⟩) fun hnul ↦ ?_
  · exact absurd hnul (by simp [h.nul])
  refine ends_bind.mpr (Act.ends_read.mpr ?_)
  cases hcontent : w.files.content ((s.location runId key).child manifestName) with
  | error e =>
    have hnone : ∀ manifest, ¬ s.Reads runId key w.files manifest := fun manifest h ↦ by
      obtain ⟨content, hread, -⟩ := h.content
      exact nomatch hcontent.symm.trans hread
    exact Ends.guard (fun _ ↦ ⟨rfl, hunread _ hnone⟩) fun _ ↦ ends_throw.mpr ⟨rfl, hunread _ hnone⟩
  | ok content =>
    dsimp only
    have hvalue : ∀ manifest, s.Reads runId key w.files manifest →
        readManifest content = .ok manifest := fun manifest h ↦ by
      obtain ⟨content', hread, hparsed⟩ := h.content
      cases hcontent.symm.trans hread
      exact hparsed
    split
    · rename_i reason hreason
      refine ends_throw.mpr ⟨rfl, hunread _ fun manifest h ↦ ?_⟩
      exact nomatch hreason.symm.trans (hvalue manifest h)
    rename_i manifest hmanifest
    have hreads : s.Reads runId key w.files manifest :=
      ⟨hnames, Bool.eq_false_iff.mpr hnul, content, hcontent, hmanifest⟩
    refine ends_bind.mpr (ends_ask.mono (fun entries w' hw' ↦ ?_) fun e w' hw' ↦ ?_)
    case refine_2 =>
      obtain ⟨rfl, he⟩ := hw'
      refine ⟨rfl, iff_of_false (ordinary_of_manifestEntries he).not_backup fun h ↦ ?_⟩
      obtain ⟨entries, hentries, -⟩ := h manifest hreads
      exact nomatch he.symm.trans hentries
    obtain ⟨rfl, hentries⟩ := hw'
    have hlegible : s.Legible runId key w'.files ↔
        s.Follows (s.location runId key) w'.files entries := by
      refine ⟨fun h ↦ ?_, fun h manifest' hreads' ↦ ?_⟩
      · obtain ⟨entries', hentries', hfollows⟩ := h manifest hreads
        cases hentries.symm.trans hentries'
        exact hfollows
      · cases (hvalue manifest' hreads').symm.trans hmanifest
        exact ⟨entries, hentries, h⟩
    refine ends_bind.mpr ((ends_loadEntries_follows entries []).mono ?_ ?_)
    · rintro files _ ⟨rfl, hfollows, hintact⟩
      exact ends_pure.mpr
        ⟨rfl, hlegible.mpr hfollows, rfl, rfl, rfl, manifest, entries, hreads, hentries, hintact⟩
    · rintro e _ ⟨rfl, hiff⟩
      exact ⟨rfl, hiff.trans hlegible.symm⟩

end Store

namespace Command

/-! ### Undoing from a damaged backup -/

/-- The lock under which a run is undone. -/
def undoLock (directory : String) (project : Route) (runId : String) : RunLock :=
  { RunLock.ofProject (Route.path project) directory with runId := s!"undo-{runId}" }

/-- The command is to undo a run, has found out which, and has got the lock: it is about to read the
backup. -/
inductive Undoes (catalog : Catalog) (a : Arguments) (w : World) :
    Store → String → String → World → Prop
  | mk {config : Config} {project : Route} {o : UndoOptions} {runs : List String} {runId : String}
      {w₁ w₂ w₃ : World} (hassigns : Assigns catalog a w (.undoing config project o) w₁)
      (hlist : o.list = false)
      (hruns : Act.onFiles (Store.ofProject project config.backupDirectory).runs w₁ = (.ok runs, w₂))
      (hrun : ((o.runId.filter fun run ↦ !run.isEmpty) <|> runs.head?) = some runId)
      (hlock : (undoLock config.backupDirectory project runId).acquire none w₂ = (.ok (), w₃)) :
      Undoes catalog a w (.ofProject project config.backupDirectory) runId o.key w₃

variable {catalog : Catalog} {a : Arguments} {standardInput : Text.Bytes} {w : World}

/-- What a fault of a backup is answered with. -/
def reportBackup (a : Arguments) (cause : BackupFault) : Act Unit :=
  say a .error "command_failed"
    [("command", a.task.name), ("error_type", "BackupError"), ("error", cause.message)]

theorem ends_answer_backup (a : Arguments) (cause : BackupFault) (w : World) :
    Ends (answer a (.error (.backup cause))) w
      (fun o w' ↦ o = failed ∧ reportBackup a cause w = (.ok (), w')) fun _ _ ↦ False := by
  have hsaid : Ends (reportBackup a cause) w
      (fun _ w' ↦ reportBackup a cause w = (.ok (), w')) fun _ _ ↦ False :=
    (ends_self.and (ends_say a _ _ _ w)).mono (fun _ _ h ↦ h.1) fun _ _ h ↦ h.2
  unfold answer
  dsimp only
  rw [if_neg (by simp [Fault.isA, Fault.kind, FaultKind.isA, FaultKind.lineage]),
    if_neg (by simp [Fault.isA, Fault.kind, FaultKind.isA, FaultKind.lineage]), if_pos (by rfl)]
  exact hsaid.bind fun _ _ h ↦ ends_pure.mpr ⟨rfl, h⟩

/-- If the backup cannot be read, undoing fails with that, whatever it is. -/
theorem ends_undo_of_error {config : Config} {project : Route} {o : UndoOptions}
    {runs : List String} {runId : String} {e : Fault} {w₁ w₂ w₃ w₄ : World}
    (hlist : o.list = false)
    (hruns : Act.onFiles (Store.ofProject project config.backupDirectory).runs w₁ = (.ok runs, w₂))
    (hrun : ((o.runId.filter fun run ↦ !run.isEmpty) <|> runs.head?) = some runId)
    (hlock : (undoLock config.backupDirectory project runId).acquire none w₂ = (.ok (), w₃))
    (hload : (Store.ofProject project config.backupDirectory).load runId o.key w₃ =
      (.error e, w₄)) :
    Ends (undo a config project o) w₁ (fun _ _ ↦ False) fun e' _ ↦ e' = e := by
  unfold undo
  refine ends_bind.mpr ((ends_of_eq hruns).mpr ?_)
  rw [if_neg (by simp [hlist])]
  rw [hrun]
  dsimp only
  unfold undoRun RunLock.during
  refine ends_bind.mpr ((ends_of_eq hlock).mpr (Ends.andThenAlways ?_))
  refine ends_bind.mpr ((ends_of_error hload).mpr ?_)
  exact (RunLock.ends_release_ok _ w₄).mono (fun _ _ _ ↦ rfl) fun _ _ ↦ False.elim

/-- A backup that is damaged makes the code of the command one, and the damage is reported. -/
theorem ends_run_of_damaged {s : Store} {runId key : String} {cause : BackupFault} {w₃ w₄ : World}
    (hundoes : Undoes catalog a w s runId key w₃)
    (hload : s.load runId key w₃ = (.error (.backup cause), w₄)) :
    Ends (run catalog a standardInput) w
      (fun o w' ↦ o = failed ∧ ∃ w₅, reportBackup a cause w₅ = (.ok (), w')) fun _ _ ↦ False := by
  obtain ⟨⟨project', path, w₀, hbegin, hassign⟩, hlist, hruns, hrun, hlock⟩ := hundoes
  rw [run_eq]
  refine ends_bind.mpr ((ends_of_eq hbegin).mpr (ends_bind.mpr (ends_attempt.mpr ?_)))
  rw [load_eq]
  refine ends_bind.mpr ((ends_of_eq hassign).mpr (ends_bind.mpr (ends_pure.mpr ?_)))
  refine (ends_undo_of_error hlist hruns hrun hlock hload).mono (fun _ _ ↦ False.elim) ?_
  rintro _ w₅ rfl
  exact (ends_answer_backup a cause w₅).mono (fun _ _ h ↦ ⟨h.1, w₅, h.2⟩) fun _ _ h ↦ h

end Command

/-- Reading a backup gives a snapshot whose entries are intact, or it fails, and that with a fault of
the backup exactly if the manifest is legible; the command that is undoing the run then reports the
fault, and its code is one. -/
theorem Store.load_legible (s : Store) (runId key : String) (w : World) :
    Ends (s.load runId key) w
      (fun snapshot w' ↦ w' = w ∧ s.Legible runId key w.files ∧
        s.Attests runId key w.files snapshot)
      fun e w' ↦ w' = w ∧ ((∃ cause, e = .backup cause) ↔ s.Legible runId key w.files) ∧
        ∀ cause, e = .backup cause →
          ∀ (catalog : Catalog) (a : Arguments) (standardInput : Text.Bytes) (w₀ : World),
            Command.Undoes catalog a w₀ s runId key w →
            Ends (Command.run catalog a standardInput) w₀
              (fun o w' ↦ o = Command.failed ∧
                ∃ w₁, Command.reportBackup a cause w₁ = (.ok (), w'))
              fun _ _ ↦ False := by
  refine ((ends_load_legible s runId key w).and ends_self).mono (fun _ _ h ↦ h.1) fun e w' h ↦ ?_
  obtain ⟨⟨rfl, hiff⟩, hload⟩ := h
  refine ⟨rfl, hiff, ?_⟩
  rintro cause rfl catalog a standardInput w₀ hundoes
  exact Command.ends_run_of_damaged hundoes hload

namespace Command

/-! ### Two manifests -/

/-- A project with a backup of which nothing but the text of its manifest is there. -/
def damagedWorld (manifest : String) : World where
  files := ⟨[(["p"], .directory 0), (["p", defaultBackupDirectory], .directory 0),
    (["p", defaultBackupDirectory, "run-1"], .directory 0),
    (["p", defaultBackupDirectory, "run-1", "run"], .directory 0),
    (["p", defaultBackupDirectory, "run-1", "run", manifestName],
      .file (Text.encode manifest) 0o644)], 0, ["p"]⟩

/-- Undoes the last run. -/
def undoingLast : Arguments := ⟨{ project := Path.ofString "." }, .undo {}⟩

/-- Where the backups are and what is to be undone, unless it is to be listed. -/
def Assignment.undoing? : Assignment → Option (String × Route × Option String × String)
  | .undoing c project o =>
    if o.list then none else some (c.backupDirectory, project, o.runId, o.key)
  | .analysis .. | .remedy .. | .checks .. => none

theorem exists_undoing {x : Except Fault Assignment} {directory key : String} {project : Route}
    {given : Option String}
    (h : (x.map Assignment.undoing?).toOption = some (some (directory, project, given, key))) :
    ∃ c o, x = .ok (.undoing c project o) ∧ o.list = false ∧ c.backupDirectory = directory ∧
      o.runId = given ∧ o.key = key := by
  rcases x with _ | _ | _ | _ | ⟨c, p, o⟩
  case ok.undoing =>
    cases hlist : o.list <;>
      simp [Except.map, Except.toOption, Assignment.undoing?, hlist] at h
    obtain ⟨rfl, rfl, rfl, rfl⟩ := h
    exact ⟨c, o, rfl, hlist, rfl, rfl, rfl⟩
  all_goals cases h

/-- The fault of the backup with which something has failed. -/
def backupFault? {α : Type} : Except Fault α → Option BackupFault
  | .error (.backup cause) => some cause
  | _ => none

theorem exists_backup {α : Type} {x : Except Fault α} (h : (backupFault? x).isSome = true) :
    ∃ cause, x = .error (.backup cause) := by
  unfold backupFault? at h
  split at h
  · exact ⟨_, rfl⟩
  · cases h

/-- Undoing comes to a backup whose manifest breaks off. -/
theorem undoes_damaged :
    ∃ w w', Undoes [] undoingLast (damagedWorld "[") Store.sampleStore "run-1" runKey w ∧
      ∃ cause, Store.sampleStore.load "run-1" runKey w = (.error (.backup cause), w') := by
  obtain ⟨hbegin, hassigned, hlisted, hlocked, hloaded⟩ :
      let begun := begin undoingLast (damagedWorld "[")
      let assigned := assign [] undoingLast none ["p"] begun.2
      let listed := Act.onFiles Store.sampleStore.runs assigned.2
      let locked := (undoLock defaultBackupDirectory ["p"] "run-1").acquire none listed.2
      let loaded := Store.sampleStore.load "run-1" runKey locked.2
      begun.1.toOption = some (["p"], none) ∧
        (assigned.1.map Assignment.undoing?).toOption =
          some (some (defaultBackupDirectory, ["p"], none, runKey)) ∧
        listed.1.toOption = some ["run-1"] ∧ locked.1.toOption = some () ∧
        (backupFault? loaded.1).isSome = true := by
    decide +kernel
  generalize hbegun : begin undoingLast (damagedWorld "[") = begun at *
  obtain ⟨begun, w₁⟩ := begun
  obtain rfl := Store.eq_ok_of_toOption hbegin
  generalize hassign : assign [] undoingLast none ["p"] w₁ = assigned at *
  obtain ⟨assigned, w₂⟩ := assigned
  obtain ⟨c, o, rfl, hlist, hdirectory, hgiven, hkey⟩ := exists_undoing hassigned
  generalize hlists : Act.onFiles Store.sampleStore.runs w₂ = listed at *
  obtain ⟨listed, w₃⟩ := listed
  obtain rfl := Store.eq_ok_of_toOption hlisted
  generalize hlocks : (undoLock defaultBackupDirectory ["p"] "run-1").acquire none w₃ = locked at *
  obtain ⟨locked, w₄⟩ := locked
  obtain rfl := Store.eq_ok_of_toOption hlocked
  generalize hloads : Store.sampleStore.load "run-1" runKey w₄ = loaded at *
  obtain ⟨loaded, w₅⟩ := loaded
  have hrun : ((o.runId.filter fun run ↦ !run.isEmpty) <|> ["run-1"].head?) = some "run-1" := by
    rw [hgiven]
    rfl
  refine ⟨w₄, w₅, ?_, ?_⟩
  · have hundoes := Undoes.mk ⟨_, _, _, hbegun, hassign⟩ hlist (hdirectory ▸ hlists) hrun
      (hdirectory ▸ hlocks)
    rwa [hdirectory, hkey] at hundoes
  · obtain ⟨cause, hcause⟩ := exists_backup hloaded
    exact ⟨cause, hloads.trans (Prod.ext hcause rfl)⟩

/-- What a manifest that breaks off comes to: the code of the command is one. -/
theorem load_legible_damaged :
    Ends (run [] undoingLast []) (damagedWorld "[") (fun o _ ↦ o.code = 1) fun _ _ ↦ False := by
  obtain ⟨w, w', hundoes, cause, hload⟩ := undoes_damaged
  have hended := (ends_of_error hload).mp (Store.load_legible Store.sampleStore "run-1" runKey w)
  refine (hended.2.2 cause rfl [] undoingLast [] _ hundoes).mono ?_ fun _ _ h ↦ h
  rintro _ _ ⟨rfl, -⟩
  rfl

/-- A manifest that is an empty list is a value, and what undoing fails with is no fault of the
backup. -/
theorem load_of_list :
    (∃ e, (Store.sampleStore.load "run-1" runKey (damagedWorld "[]")).1 = .error e ∧
      e.kind = .attribute ∧ ¬ ∃ cause, e = .backup cause) ∧
    ∃ e, (run [] undoingLast [] (damagedWorld "[]")).1 = .error e ∧ e.kind = .attribute := by
  have hkinds :
      ((Store.sampleStore.load "run-1" runKey (damagedWorld "[]")).1.mapError Fault.kind).map
        Snapshot.key = .error .attribute ∧
      ((run [] undoingLast [] (damagedWorld "[]")).1.mapError Fault.kind).map Outcome.code =
        .error .attribute := by decide +kernel
  obtain ⟨hloaded, hran⟩ := hkinds
  constructor
  · generalize (Store.sampleStore.load "run-1" runKey (damagedWorld "[]")).1 = loaded at hloaded ⊢
    cases loaded with
    | ok snapshot => cases hloaded
    | error e =>
      have he : e.kind = .attribute := Except.error.inj hloaded
      refine ⟨e, rfl, he, ?_⟩
      rintro ⟨cause, rfl⟩
      cases he
  · generalize (run [] undoingLast [] (damagedWorld "[]")).1 = outcome at hran ⊢
    cases outcome with
    | ok o => cases hran
    | error e => exact ⟨e, rfl, Except.error.inj hran⟩

end Command

end Remedy
