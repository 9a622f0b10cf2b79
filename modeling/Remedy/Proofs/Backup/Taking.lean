import Mathlib.Data.List.Sort
import Mathlib.Data.String.Basic
import Remedy.Proofs.Backup.Parts
import Remedy.Proofs.Backup.Writing
import Remedy.Proofs.Faults

/-!
# Taking snapshots

A snapshot that is taken records what its files hold when it is taken (`Snapshot.Records`), and
writing it touches nothing outside of the directory of its run, in which it lies from then on
(`Store.ends_snapshot`). If it cannot be taken, what lies outside of that directory is as it was all
the same.

Which snapshot that is can be told from the files beforehand (`Store.picture`). Taking it is rejected
before anything is done (`Store.Rejects`), or stopped by a file that cannot be read, or it comes to
writing this snapshot. What is proved of taking snapshots is proved by going through these three
cases (`Store.ends_snapshot_of`); if nothing has to be known of how a snapshot is written, the cases
are those of `Store.ends_snapshot_pictured`. A fault of the store tells what the store has found
(`Store.ends_snapshot_blames`).

The directory of a run is where its path in the store leads (`FileTree.Below`).
-/

set_option autoImplicit false

namespace Remedy

open FileTree

section Lists

variable {α : Type} [DecidableEq α]

theorem mem_distinct {x : α} {xs : List α} : x ∈ distinct xs ↔ x ∈ xs := by
  have hfold : ∀ done : List α,
      x ∈ xs.foldl (fun done x ↦ if x ∈ done then done else done ++ [x]) done ↔
        x ∈ done ∨ x ∈ xs := by
    induction xs with
    | nil => simp
    | cons y rest ih =>
      intro done
      rw [List.foldl_cons, ih]
      split
      · rename_i hy
        constructor
        · rintro (h | h)
          · exact .inl h
          · exact .inr (List.mem_cons_of_mem _ h)
        · rintro (h | h)
          · exact .inl h
          · rcases List.mem_cons.mp h with rfl | h
            · exact .inl hy
            · exact .inr h
      · simp [or_assoc]
  unfold distinct
  rw [hfold]
  simp

theorem nodup_distinct (xs : List α) : (distinct xs).Nodup := by
  have hfold : ∀ done : List α, done.Nodup →
      (xs.foldl (fun done x ↦ if x ∈ done then done else done ++ [x]) done).Nodup := by
    induction xs with
    | nil => exact fun _ h ↦ h
    | cons x rest ih =>
      intro done hdone
      rw [List.foldl_cons]
      split
      · exact ih done hdone
      · rename_i hx
        exact ih _ (List.nodup_append.mpr ⟨hdone, by simp, by
          rintro y hy _ hx' rfl
          exact hx (List.mem_singleton.mp hx' ▸ hy)⟩)
  exact hfold [] List.nodup_nil

/-- What has been asked for, each once and sorted. -/
theorem mem_answers {γ ε : Type} {f : γ → Except ε α} {le : α → α → Bool} {xs : List γ}
    {ys : List α} (h : List.Forall₂ (fun x y ↦ f x = .ok y) xs ys) {y : α} :
    y ∈ (distinct ys).mergeSort le ↔ ∃ x ∈ xs, f x = .ok y := by
  rw [List.mem_mergeSort, mem_distinct]
  induction h with
  | nil => simp
  | @cons x y' xs ys hxy h ih =>
    rw [List.mem_cons, ih]
    constructor
    · rintro (rfl | ⟨z, hz, hy⟩)
      · exact ⟨x, List.mem_cons_self, hxy⟩
      · exact ⟨z, List.mem_cons_of_mem _ hz, hy⟩
    · rintro ⟨z, hz, hy⟩
      rcases List.mem_cons.mp hz with rfl | hz
      · rw [hxy] at hy
        cases hy
        exact .inl rfl
      · exact .inr ⟨z, hz, hy⟩

omit [DecidableEq α] in
theorem answered {γ : Type} {Q : γ → α → Prop} {xs : List γ} {ys : List α}
    (h : List.Forall₂ Q xs ys) {x : γ} (hx : x ∈ xs) : ∃ y ∈ ys, Q x y := by
  induction h with
  | nil => cases hx
  | @cons x' y' xs ys hxy h ih =>
    rcases List.mem_cons.mp hx with rfl | hx
    · exact ⟨y', List.mem_cons_self, hxy⟩
    · obtain ⟨y, hy, hxy⟩ := ih hx
      exact ⟨y, List.mem_cons_of_mem _ hy, hxy⟩

theorem mergeSort_le (routes : List Route) :
    routes.mergeSort Route.le = routes.insertionSort (· ≤ ·) := by
  rw [← List.mergeSort_eq_insertionSort]
  congr 1
  funext a b
  rw [Route.le, ← decide_not, decide_eq_decide, not_lt]

end Lists

/-! ### Reading -/

theorem Act.ends_read {p : Path} {w : World} {ok : Except FileError Text.Bytes → World → Prop}
    {bad : Fault → World → Prop} :
    Ends (Act.tryFiles (FileAct.read p)) w ok bad ↔ ok (w.files.content p) w := by
  unfold Ends Act.tryFiles
  rw [FileAct.read_eq]

/-- What is recorded of a file is what the tree holds there, and that is no directory. -/
def Recorded (t : FileTree) (e : Route × Option Text.Bytes) : Prop :=
  t.Direct e.1 → e.2 = t.bytes? e.1 ∧ ¬ t.HasDirectory e.1

/-- The snapshot is about the files that the paths lead to, and about what they hold. -/
structure Snapshot.Records (s : Snapshot) (project : Route) (files : List Path) (t : FileTree) :
    Prop where
  paths : ∀ r, r ∈ s.paths ↔ ∃ p ∈ files, t.resolve ((Route.path project).join p) = .ok r
  resolved : ∀ p ∈ files, ∃ r, t.resolve ((Route.path project).join p) = .ok r
  entries : ∀ e ∈ s.files, Recorded t e

namespace Store

variable {w : World} {runId key : String}

/-- What is read of a file that can be read or is missing. -/
theorem recorded_of_content {t : FileTree} {r : Route} (ht : t.Sound)
    (hread : ∀ e, t.content (Route.path r) = .error e → e.errno = .notFound) :
    Recorded t (r, (t.content (Route.path r)).toOption) := by
  intro hr
  have hends := FileAct.ends_read ht r
  rw [Ends, FileAct.read_eq] at hends
  cases hcontent : t.content (Route.path r) with
  | ok content =>
    rw [hcontent] at hends
    have hbytes := hends.2 hr
    refine ⟨hbytes.symm, fun hdir ↦ ?_⟩
    rw [hdir.no_bytes] at hbytes
    cases hbytes
  | error e =>
    rw [hcontent] at hends
    have hlook := hends.2 hr (hread e hcontent)
    exact ⟨by rw [bytes?, hlook]; rfl, by simp [HasDirectory, hlook]⟩

/-- Files are read one after the other, up to the first that is there and cannot be. -/
theorem ends_readAll_of {routes : List Route} {ok : List (Route × Option Text.Bytes) → World → Prop}
    {bad : Fault → World → Prop}
    (hunread : ∀ r ∈ routes, ∀ cause, w.files.content (Route.path r) = .error cause →
      cause.errno ≠ .notFound →
      Ends (Act.log .error "snapshot_failed" [("path", Route.text r), ("error", cause.message)]) w
        (fun _ ↦ bad (.backup (.unreadable (Route.text r) cause))) bad)
    (hread : (∀ r ∈ routes, ∀ e, w.files.content (Route.path r) = .error e → e.errno = .notFound) →
      ok (routes.map fun r ↦ (r, (w.files.content (Route.path r)).toOption)) w) :
    Ends (readAll routes) w ok bad := by
  induction routes generalizing ok with
  | nil => exact ends_pure.mpr (hread nofun)
  | cons r rest ih =>
    obtain ⟨hunreadHead, hunread⟩ := List.forall_mem_cons.mp hunread
    unfold readAll readCurrent
    refine ends_bind.mpr (ends_bind.mpr (Act.ends_read.mpr ?_))
    cases hcontent : w.files.content (Route.path r) with
    | ok content =>
      refine ends_pure.mpr (ends_bind.mpr (ih hunread fun hrest ↦ ends_pure.mpr ?_))
      have hall := hread (List.forall_mem_cons.mpr
        ⟨fun e he ↦ (nomatch hcontent.symm.trans he), hrest⟩)
      rwa [List.map_cons, hcontent] at hall
    | error cause =>
      dsimp only
      split
      · rename_i hmissing
        refine ends_pure.mpr (ends_bind.mpr (ih hunread fun hrest ↦ ends_pure.mpr ?_))
        have hall := hread (List.forall_mem_cons.mpr
          ⟨fun e he ↦ Except.error.inj (hcontent.symm.trans he) ▸ hmissing, hrest⟩)
        rwa [List.map_cons, hcontent] at hall
      · rename_i hother
        refine ends_bind.mpr ((hunreadHead cause hcontent hother).mono (fun _ _ h ↦ ?_)
          fun _ _ h ↦ h)
        exact ends_throw.mpr h

/-! ### Snapshots -/

section Names

variable {ok : Unit → World → Prop} {bad : Fault → World → Prop}

theorem ends_checkNames
    (hbad : ¬ (isBackupName runId = true ∧ isBackupName key = true) → ∀ label name,
      bad (.backup (.invalidName label name)) w)
    (hok : isBackupName runId = true ∧ isBackupName key = true → ok () w) :
    Ends (checkNames runId key) w ok bad := by
  unfold checkNames
  refine Ends.guard (fun h ↦ hbad (fun hnames ↦ ?_) _ _) fun hrunId ↦ ?_
  · simp [hnames.1] at h
  split
  · rename_i h
    exact hbad (fun hnames ↦ by simp [hnames.2] at h) _ _
  · rename_i hkey
    exact ends_pure.mpr (hok ⟨by simpa using hrunId, by simpa using hkey⟩)

theorem ends_checkNames_of_names (hnames : isBackupName runId = true ∧ isBackupName key = true)
    (h : ok () w) : Ends (checkNames runId key) w ok bad :=
  ends_checkNames (fun hnot ↦ absurd hnames hnot) fun _ ↦ h

end Names

/-! ### What is taken -/

theorem eq_ok_of_toOption {ε α : Type} {outcome : Except ε α} {a : α}
    (h : outcome.toOption = some a) : outcome = .ok a := by
  cases outcome with
  | error e => cases h
  | ok b => exact congrArg Except.ok (Option.some.inj h)

/-- The files that the paths lead to, each once and sorted. -/
def routes (s : Store) (files : List Path) (t : FileTree) : List Route :=
  (distinct (files.filterMap fun p ↦
    (t.resolve ((Route.path s.project).join p)).toOption)).mergeSort Route.le

theorem mem_routes {s : Store} {files : List Path} {t : FileTree} {r : Route} :
    r ∈ s.routes files t ↔ ∃ p ∈ files, t.resolve ((Route.path s.project).join p) = .ok r := by
  rw [routes, List.mem_mergeSort, mem_distinct, List.mem_filterMap]
  exact exists_congr fun p ↦ and_congr_right fun _ ↦
    ⟨eq_ok_of_toOption, fun hr ↦ congrArg Except.toOption hr⟩

theorem nodup_routes (s : Store) (files : List Path) (t : FileTree) : (s.routes files t).Nodup :=
  (List.mergeSort_perm _ _).nodup_iff.mpr (nodup_distinct _)

/-- The snapshot of the files that the paths lead to, of which each holds what is read of it. -/
def picture (s : Store) (runId key : String) (files : List Path) (t : FileTree) : Snapshot where
  runId := runId
  key := key
  files := (s.routes files t).map fun r ↦ (r, (t.content (Route.path r)).toOption)
  location := s.location runId key

theorem paths_picture (s : Store) (runId key : String) (files : List Path) (t : FileTree) :
    (s.picture runId key files t).paths = s.routes files t := by
  rw [Snapshot.paths, picture, List.map_map]
  exact List.map_id _

/-- Each path leads to a file that can be read or is missing. -/
def Recordable (s : Store) (files : List Path) (t : FileTree) : Prop :=
  ∀ p ∈ files, ∃ r, t.resolve ((Route.path s.project).join p) = .ok r ∧
    ∀ e, t.content (Route.path r) = .error e → e.errno = .notFound

theorem Recordable.readable {s : Store} {files : List Path} {t : FileTree}
    (h : s.Recordable files t) {r : Route} (hr : r ∈ s.routes files t) :
    ∀ e, t.content (Route.path r) = .error e → e.errno = .notFound := by
  obtain ⟨p, hp, hpr⟩ := mem_routes.mp hr
  obtain ⟨r', hr', hread⟩ := h p hp
  cases hpr.symm.trans hr'
  exact hread

theorem Recordable.records {s : Store} {files : List Path} {t : FileTree}
    (h : s.Recordable files t) (ht : t.Sound) :
    (s.picture runId key files t).Records s.project files t where
  paths r := by rw [paths_picture, mem_routes]
  resolved p hp := (h p hp).imp fun _ ↦ And.left
  entries e he := by
    obtain ⟨r, hr, rfl⟩ := List.mem_map.mp he
    exact recorded_of_content ht (h.readable hr)

/-! ### How a snapshot is taken -/

/-- A snapshot may be taken under the names, as far as the files do not matter: they are in order,
no snapshot is held under them, and none lies there. -/
structure Admits (s : Store) (runId key : String) (t : FileTree) : Prop where
  names : isBackupName runId = true ∧ isBackupName key = true
  unheld : s.get runId key = none
  vacant : (FileAct.present (s.location runId key) t).1 = .ok false

/-- Why a snapshot is not taken, before anything is done for it. -/
inductive Rejects (s : Store) (runId key : String) (files : List Path) (t : FileTree) : Fault → Prop
  | names (label name : String) (h : ¬ (isBackupName runId = true ∧ isBackupName key = true)) :
      Rejects s runId key files t (.backup (.invalidName label name))
  | duplicate (h : s.get runId key ≠ none) :
      Rejects s runId key files t (.backup (.duplicate runId key))
  | place (h : t.walk (s.location runId key) = .error .nameTooLong) :
      Rejects s runId key files t (.file ⟨.nameTooLong, (s.location runId key).text, none⟩)
  | occupied (h : (FileAct.present (s.location runId key) t).1 = .ok true) :
      Rejects s runId key files t (.backup (.occupied (s.location runId key).text))
  | file {p : Path} {e : Fault} (hadmits : s.Admits runId key t) (hp : p ∈ files)
      (h : t.resolve ((Route.path s.project).join p) = .error e) : Rejects s runId key files t e
  | nul (hadmits : s.Admits runId key t) (hfiles : s.Recordable files t)
      (h : (s.location runId key).hasNul = true) : Rejects s runId key files t (.invalid .nul)

/-- Nothing is left but to write the snapshot. -/
structure Grants (s : Store) (runId key : String) (files : List Path) (t : FileTree) : Prop
    extends s.Admits runId key t where
  files : s.Recordable files t
  nul : (s.location runId key).hasNul = false

/-- What is done once a snapshot has been written, or could not be. -/
def settle (s : Store) (snapshot : Snapshot) : Except FileError Unit → Act (Snapshot × Store)
  | .error e => do
    Act.log .error "snapshot_failed"
      [("key", snapshot.key), ("location", snapshot.location.text), ("error", e.message)]
    let _ ← Act.tryFiles (FileAct.removeTree snapshot.location)
    throw (.backup (.unwritable snapshot.location.text e))
  | .ok () => do
    Act.log .info "snapshot_created"
      [("key", snapshot.key), ("files", snapshot.fileCount), ("location", snapshot.location.text)]
    return (snapshot, s.hold snapshot)

section Rules

variable {s : Store} {files : List Path} {t : FileTree} {ok : Snapshot × Store → World → Prop}
  {bad : Fault → World → Prop}

theorem present_iff {p : Path} {answer : Bool} (h : (FileAct.present p t).1 = .ok answer) :
    answer = true ↔ p.hasNul = false ∧ ∃ r node, t.walk p = .ok (.at r node) := by
  have hends := (ends_of_eq (Prod.ext h rfl)).mp (FileAct.ends_holds p (fun _ ↦ true) t)
  simpa using hends.2

theorem Admits.free (h : s.Admits runId key t) (hnul : (s.location runId key).hasNul = false)
    (r : Route) (node : Node) : t.walk (s.location runId key) ≠ .ok (.at r node) := by
  intro hwalk
  exact absurd ((present_iff h.vacant).mpr ⟨hnul, r, node, hwalk⟩) Bool.false_ne_true

theorem Grants.free (h : s.Grants runId key files t) (r : Route) (node : Node) :
    t.walk (s.location runId key) ≠ .ok (.at r node) :=
  h.toAdmits.free h.nul r node

theorem Grants.size_le (h : s.Grants runId key files t) :
    (s.location runId key).text.utf8ByteSize ≤ pathLimit :=
  (ends_of_eq (Prod.ext h.vacant rfl)).mp
    (FileAct.ends_holds_size (s.location runId key) (fun _ ↦ true) t) h.nul

/-- To take a snapshot is to be rejected, or to come upon a file that cannot be read, or to write the
snapshot that is known beforehand. -/
theorem ends_snapshot_of (hrejected : ∀ e, s.Rejects runId key files w.files e → bad e w)
    (hunread : s.Admits runId key w.files → ∀ r ∈ s.routes files w.files, ∀ cause,
      w.files.content (Route.path r) = .error cause → cause.errno ≠ .notFound →
      Ends (Act.log .error "snapshot_failed" [("path", Route.text r), ("error", cause.message)]) w
        (fun _ ↦ bad (.backup (.unreadable (Route.text r) cause))) bad)
    (hgranted : s.Grants runId key files w.files →
      Ends (s.writeAll (s.picture runId key files w.files) >>=
        s.settle (s.picture runId key files w.files)) w ok bad) :
    Ends (s.snapshot runId key files) w ok bad := by
  unfold snapshot
  refine ends_bind.mpr (ends_checkNames (fun hnot _ _ ↦ hrejected _ (.names _ _ hnot)) fun hnames ↦ ?_)
  refine Ends.guard (fun h ↦ ?_) fun hunheld ↦ ?_
  · exact hrejected _ (.duplicate fun hnone ↦ by simp [hnone] at h)
  refine ends_bind.mpr (Act.ends_onFiles.mpr (((FileAct.ends_holds _ _ _).and
    (ends_self.and (FileAct.ends_holds_refused _ _ _))).mono ?_ ?_))
  case refine_2 =>
    rintro _ t ⟨⟨rfl, hwalk⟩, -, rfl⟩
    exact hrejected _ (.place hwalk)
  rintro occupied t ⟨⟨rfl, -⟩, hpresent, -⟩
  refine Ends.guard (fun h ↦ ?_) fun hvacant ↦ ?_
  · exact hrejected _ (.occupied (h ▸ congrArg Prod.fst hpresent))
  have hadmits : s.Admits runId key w.files := by
    refine ⟨hnames, by simpa using hunheld, ?_⟩
    exact (congrArg Prod.fst hpresent).trans (congrArg Except.ok (by simpa using hvacant))
  have hask : ∀ p ∈ files, Ends (s.resolve p) w
      (fun r w' ↦ w' = w ∧ w.files.resolve ((Route.path s.project).join p) = .ok r) bad := by
    intro p hp
    refine ends_ask.mono (fun _ _ h ↦ h) ?_
    rintro e w' ⟨rfl, he⟩
    exact hrejected e (.file hadmits hp he)
  refine (ends_mapM_of_mem hask).bind ?_
  rintro answers w' ⟨rfl, hanswers⟩
  have hroutes : (distinct answers).mergeSort Route.le = s.routes files w'.files := by
    rw [routes, ← eq_filterMap_of_answers hanswers]
  rw [hroutes]
  refine ends_bind.mpr (ends_readAll_of (hunread hadmits) fun hread ↦ ?_)
  have hfiles : s.Recordable files w'.files := by
    intro p hp
    obtain ⟨r, -, hr⟩ := answered hanswers hp
    exact ⟨r, hr, hread r (mem_routes.mpr ⟨p, hp, hr⟩)⟩
  refine Ends.guard (fun h ↦ hrejected _ (.nul hadmits hfiles h)) fun hnul ↦ ?_
  refine ends_bind.mpr ?_
  refine (ends_bind.mp (hgranted ⟨hadmits, hfiles, by simpa using hnul⟩)).mono ?_ fun _ _ h ↦ h
  rintro (e | _) w₁ h
  · exact h
  · exact h

theorem ends_settle (s : Store) (snapshot : Snapshot) (outcome : Except FileError Unit) (w : World) :
    Ends (s.settle snapshot outcome) w
      (fun taken _ ↦ outcome = .ok () ∧ taken = (snapshot, s.hold snapshot))
      fun e _ ↦ ∃ cause, outcome = .error cause ∧
        e = .backup (.unwritable snapshot.location.text cause) := by
  cases outcome with
  | error cause =>
    refine (Act.raises_log _ _ _).thenEnds fun _ _ ↦ ?_
    exact (Act.raises_tryFiles _).thenEnds fun _ _ ↦ ends_throw.mpr ⟨cause, rfl, rfl⟩
  | ok _ => exact (Act.raises_log _ _ _).thenEnds fun _ _ ↦ ends_pure.mpr ⟨rfl, rfl⟩

/-- Why a snapshot is not taken, and what has become of the world. -/
inductive Declines (s : Store) (runId key : String) (files : List Path) (w : World) :
    Fault → World → Prop
  | rejected {e : Fault} (h : s.Rejects runId key files w.files e) : Declines s runId key files w e w
  | unread {r : Route} {cause : FileError} {w' : World} (hadmits : s.Admits runId key w.files)
      (hr : r ∈ s.routes files w.files) (h : w.files.content (Route.path r) = .error cause)
      (hstill : w.Still w') :
      Declines s runId key files w (.backup (.unreadable (Route.text r) cause)) w'
  | unwritten {cause : FileError} {w' : World} (h : s.Grants runId key files w.files) :
      Declines s runId key files w (.backup (.unwritable (s.location runId key).text cause)) w'

/-- A snapshot that is taken is the one that is known beforehand. -/
theorem ends_snapshot_pictured (s : Store) (runId key : String) (files : List Path) (w : World) :
    Ends (s.snapshot runId key files) w
      (fun taken _ ↦ s.Grants runId key files w.files ∧
        taken = (s.picture runId key files w.files, s.hold (s.picture runId key files w.files)))
      (s.Declines runId key files w) := by
  refine ends_snapshot_of (fun e ↦ .rejected) ?_ fun hgrants ↦ ?_
  · exact fun hadmits r hr cause h _ ↦ Act.ends_log fun w' hstill ↦ .unread hadmits hr h hstill
  refine (s.raises_writeAll _).thenEnds fun outcome w₁ ↦ (ends_settle s _ outcome w₁).mono ?_ ?_
  · exact fun taken _ h ↦ ⟨hgrants, h.2⟩
  · rintro _ w₂ ⟨cause, -, rfl⟩
    exact .unwritten hgrants

/-- A snapshot cannot be taken for a reason that the store finds itself, and then the fault says
what it has found, or for an ordinary one. -/
theorem ends_snapshot_blames (s : Store) (runId key : String) (files : List Path) (w : World) :
    Ends (s.snapshot runId key files) w
      (fun taken _ ↦ taken.2 = s.hold taken.1 ∧ taken.1.runId = runId ∧ taken.1.key = key)
      fun e _ ↦ e.Ordinary ∨ ∃ cause, e = .backup cause ∧ cause.Blames s runId key w.files := by
  refine (s.ends_snapshot_pictured runId key files w).mono ?_ fun e w' h ↦ ?_
  · rintro _ w' ⟨-, rfl⟩
    exact ⟨rfl, rfl, rfl⟩
  cases h with
  | rejected h =>
    cases h with
    | names _ _ h => exact .inr ⟨_, rfl, h⟩
    | duplicate h => exact .inr ⟨_, rfl, h⟩
    | place => exact .inl trivial
    | occupied h => exact .inr ⟨_, rfl, h⟩
    | file _ _ h => exact .inl (ordinary_of_resolve h)
    | nul => exact .inl trivial
  | unread => exact .inr ⟨_, rfl, trivial⟩
  | unwritten => exact .inr ⟨_, rfl, trivial⟩

end Rules

/-! ### Taking snapshots -/

/-- A tree that is taken away is one that the path leads to, and if none is, it leads to none. -/
theorem ends_removeTree {t : FileTree} {p : Path} (hp : p.isAbsolute = true) :
    Ends (FileAct.removeTree p) t
      (fun _ t' ↦ (t' = t ∧ ∀ r changed, t.walkToLink p ≠ .ok (.at r (.directory changed))) ∨
        p.text.utf8ByteSize ≤ pathLimit ∧ ∃ r, t' = t.remove r ∧
          Walk t false linkLimit [] p.names (.at r (.directory 0)))
      fun _ _ ↦ False := by
  unfold FileAct.removeTree
  refine ends_bind.mpr (ends_get.mpr ?_)
  split
  · rename_i route changed hwalk
    refine ends_modify.mpr (.inr ⟨?_, route, rfl, FileAct.walk_of_walkToLink (p := p) hp hwalk⟩)
    by_contra hlong
    rw [walkToLink, if_pos (Nat.not_le.mp hlong)] at hwalk
    cases hwalk
  · rename_i hother
    exact ends_pure.mpr (.inl ⟨rfl, hother⟩)

/-- What is taken away with the directory of a snapshot is below the directory of its run. -/
theorem below_of_walk {t : FileTree} {p : Path} {key : String} {r : Route} (ht : t.Sound)
    (hp : p.isAbsolute = true) (hkey : key ≠ "..")
    (h : Walk t false linkLimit [] (p.child key).names (.at r (.directory 0))) :
    r ≠ [] ∧ ∀ q, r <+: q → t.Below p q := by
  have hnames : (p.child key).names = p.names ++ [key] := rfl
  rw [hnames] at h
  obtain ⟨mid, -, hmid, hlast⟩ := h.split ht ht.root (List.cons_ne_nil _ _)
  have hroute : r = mid ++ [key] := by
    generalize hplace : Place.at r (.directory 0) = place at hlast
    cases hlast with
    | up => exact absurd rfl hkey
    | free => cases hplace
    | file => cases hplace
    | link => cases hplace
    | enter _ _ h =>
      cases h
      exact (Place.at.inj hplace).1
    | follow _ _ hwhole =>
      rcases hwhole with h | h
      · cases h
      · exact absurd rfl h
  refine ⟨by simp [hroute], fun q hq ↦ ⟨mid, hmid.traced ht hp, ?_⟩⟩
  exact (hroute ▸ List.prefix_append mid [key]).trans hq

/-- Names of snapshots do not lead upwards. -/
theorem ne_dots_of_isBackupName {name : String} (h : isBackupName name = true) : name ≠ ".." := by
  rintro rfl
  exact absurd h (by decide)

theorem location_no_dots {s : Store} (hdots : ".." ∉ s.root.names)
    (hnames : isBackupName runId = true ∧ isBackupName key = true) :
    ".." ∉ (s.location runId key).names := by
  simp [location, Path.child, hdots, (ne_dots_of_isBackupName hnames.1).symm,
    (ne_dots_of_isBackupName hnames.2).symm]

/-- What it comes to when a snapshot is taken. -/
structure Taken (s : Store) (runId key : String) (files : List Path) (w : World)
    (taken : Snapshot × Store) (w' : World) : Prop where
  store : taken.2 = s.hold taken.1
  ofRun : taken.1.runId = runId
  ofKey : taken.1.key = key
  unheld : s.get runId key = none
  records : taken.1.Records s.project files w.files
  nodup : taken.1.paths.Nodup
  touches : w.Touches (fun r ↦ w.files.Below (s.root.child runId) r ∧ w.files.bytes? r = none) w'
  /-- No other name is taken in the directory of the run. -/
  vacant : ".." ∉ s.root.names → ∀ name, name ≠ key →
    w.files.Vacant (s.root.child runId) name → w'.files.Vacant (s.root.child runId) name
  names : isBackupName runId = true ∧ isBackupName key = true
  location : taken.1.location = s.location runId key
  nul : taken.1.location.hasNul = false
  stored : w.LogsOutside (s.location runId key) → ∃ home,
    w'.Secures taken.1 s.project (Calendar.stampText w.files.tick) (s.root.child runId) home

/-- What it comes to when a snapshot cannot be taken. -/
structure Missed (s : Store) (runId : String) (w w' : World) : Prop where
  spares : w.Spares (w.files.Below (s.root.child runId)) w'
  touches : ".." ∉ s.root.names →
    w.Touches (fun r ↦ w.files.Below (s.root.child runId) r ∧ w.files.bytes? r = none) w'

theorem Missed.undisturbed {s : Store} {w w' : World} (hw : w.files.Sound) (h : w.Undisturbed w') :
    s.Missed runId w w' :=
  ⟨(h.mono fun _ ↦ False.elim).spares hw, fun _ ↦ h.mono fun _ ↦ False.elim⟩

/-- After a snapshot could not be written, what there is of it is taken away. -/
theorem Wrote.ends_removeTree {s : Store} {snapshot : Snapshot} {e : FileError} {w₁ w₂ : World}
    (hwrote : s.Wrote runId key snapshot w (.error e) w₁) (hstill : w₁.Still w₂)
    (hw : w.files.Sound) (hroot : s.root.isAbsolute = true)
    (hnames : isBackupName runId = true ∧ isBackupName key = true)
    (hfree : ∀ r node, w.files.walk (s.location runId key) ≠ .ok (.at r node)) :
    Ends (Act.tryFiles (FileAct.removeTree (s.location runId key))) w₂
      (fun _ w' ↦ s.Missed runId w w') fun _ _ ↦ False := by
  have hw₁ := (hwrote.touches.files hw).sound
  have htouches := hwrote.touches.trans (hstill.undisturbed.mono fun _ ↦ False.elim)
  have hbecomes := htouches.files hw
  refine Act.ends_tryFiles.mpr ((Store.ends_removeTree (p := s.location runId key) hroot).mono ?_
    fun _ _ h ↦ h.elim)
  rintro _ t (⟨rfl, -⟩ | ⟨hfits, r, rfl, hwalk⟩)
  · exact ⟨(htouches.mono fun _ ↦ And.left).spares hw, fun _ ↦ htouches⟩
  obtain ⟨hr, hbelow⟩ := below_of_walk (p := s.root.child runId) hbecomes.sound hroot
    (ne_dots_of_isBackupName hnames.2) hwalk
  constructor
  case spares =>
    refine ⟨htouches.log, hbecomes.sound.remove hr, fun q hq hlog ↦ ?_⟩
    rw [below_congr (p := s.root.child runId) hbecomes.alters.links hroot] at hbelow
    rw [bytes?, look_remove _ hr, if_neg fun hprefix ↦ hq (hbelow q hprefix)]
    exact hbecomes.alters.bytes q fun hor ↦ hor.elim (fun h ↦ hq h.1) hlog
  case touches =>
    intro hdots
    have hdots' := location_no_dots hdots hnames
    refine ⟨htouches.log, htouches.locks, fun _ ↦ ?_⟩
    rcases hwrote.removable hdots' (fun h ↦ by cases h) r (hstill.walk hw₁ hwalk) with hthere | hnew
    · obtain ⟨changed, hwalk⟩ := walk_of_directory (p := s.location runId key) hroot hfits hthere
      exact absurd hwalk (hfree _ _)
    · exact hbecomes.removed hr hnew

/-- A snapshot that is taken records what its files hold, and taking it touches nothing outside of
the directory of its run, where it lies from then on. -/
theorem ends_snapshot (s : Store) (hw : w.files.Sound) (hroot : s.root.isAbsolute = true)
    (files : List Path) :
    Ends (s.snapshot runId key files) w
      (fun taken w' ↦ s.Taken runId key files w taken w') fun _ w' ↦ s.Missed runId w w' := by
  have hmissed : s.Missed runId w w := .undisturbed hw (.refl _ w)
  refine ends_snapshot_of (fun _ _ ↦ hmissed) ?_ fun hgrants ↦ ?_
  · exact fun _ r _ cause _ _ ↦ Act.ends_log fun w' hstill ↦ .undisturbed hw hstill.undisturbed
  refine ((ends_writeAll s hw hroot rfl).mono (fun _ _ h ↦ h) fun _ _ h ↦ h.elim).bind ?_
  intro outcome w₁ hwrote
  have hw₁ := (hwrote.touches.files hw).sound
  cases outcome with
  | error e =>
    refine ends_bind.mpr (Act.ends_log fun w₂ hstill ↦ ?_)
    refine ends_bind.mpr ((hwrote.ends_removeTree hstill hw hroot hgrants.names hgrants.free).mono ?_
      fun _ _ h ↦ h.elim)
    exact fun _ _ h ↦ ends_throw.mpr h
  | ok _ =>
    refine ends_bind.mpr (Act.ends_log fun w₂ hstill ↦ ends_pure.mpr ?_)
    constructor
    case store => rfl
    case ofRun => rfl
    case ofKey => rfl
    case unheld => exact hgrants.unheld
    case records => exact hgrants.files.records hw
    case nodup =>
      rw [paths_picture]
      exact nodup_routes _ _ _
    case touches => exact hwrote.touches.trans (hstill.undisturbed.mono fun _ ↦ False.elim)
    case vacant =>
      intro hdots name hne hvacant
      have hdots' := location_no_dots hdots hgrants.names
      exact hstill.vacant hw₁ (hwrote.vacant hdots' rfl name hne hvacant)
    case names => exact hgrants.names
    case location => rfl
    case nul => exact hgrants.nul
    case stored =>
      intro hlog
      obtain ⟨home, hwritten⟩ := hwrote.stored rfl hlog
      exact ⟨home, hwritten.touched hroot hstill.undisturbed fun _ _ _ ↦ id⟩

/-- A snapshot that is a part of another one is held, and nothing is written. -/
theorem ends_record (s : Store) (snapshot : Snapshot) (w : World) :
    Ends (s.record snapshot) w
      (fun s' w' ↦ s' = s.hold snapshot ∧ s.get snapshot.runId snapshot.key = none ∧ w.Still w')
      fun _ w' ↦ w' = w := by
  unfold record
  refine Ends.guard (fun _ ↦ rfl) fun hfresh ↦ ?_
  exact ends_bind.mpr (Act.ends_log fun w' h ↦ ends_pure.mpr ⟨rfl, by simpa using hfresh, h⟩)

end Store

end Remedy
