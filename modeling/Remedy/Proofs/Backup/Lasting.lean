import Mathlib.Logic.Function.Basic
import Remedy.Proofs.Backup.Listing
import Remedy.Proofs.Backup.Undoing

/-!
# Snapshots last

Several stores may share a project and the directory of its backups (`Vault`). Whatever is asked of
them (`Errand`), no file that is in that directory is touched, and a store goes on holding what it
holds until it discards the run (`Errand.ends_perform`). So a snapshot that has been taken lies in
its directory from then on: it is read back, it is listed, and no other one is taken in its place
(`Vault.lasts_of_snapshot`).

That it is read back as it was depends on where its files lie. A path that leads out of a circle of
links by two dots is resolved to a file at which there is a link; when it is read back, that link is
followed, and may lead back into the circle (`Vault.load_of_circle`).
-/

set_option autoImplicit false

namespace Remedy

open FileTree

/-! ### Errands -/

/-- What may be asked of a store. -/
inductive Errand where
  | snapshot (runId key : String) (files : List Path)
  | record (snapshot : Snapshot)
  | discard (runId : String)
  | get (runId key : String)
  | load (runId key : String)
  | runs
  | keys (runId : String)
  | restore (snapshot : Snapshot)

/-- The route is in the directory of a run. -/
def FileTree.Backed (t : FileTree) (root : Path) (r : Route) : Prop :=
  ∃ runId, isBackupName runId = true ∧ t.Below (root.child runId) r

/-- No file that is in the directory of a run is touched. -/
abbrev World.Adds (root : Path) (w w' : World) : Prop :=
  w.Touches (fun r ↦ w.files.Backed root r → w.files.bytes? r = none) w'

theorem World.Still.adds {w w' : World} (h : w.Still w') (root : Path) : w.Adds root w' :=
  h.undisturbed.mono fun _ ↦ False.elim

namespace Errand

/-- The store after an errand. -/
def perform (s : Store) : Errand → Act Store
  | .snapshot runId key files => return (← s.snapshot runId key files).2
  | .record part => s.record part
  | .discard runId => return s.discard runId
  | .get _ _ => return s
  | .load runId key => do
    let _ ← s.load runId key
    return s
  | .runs => do
    let _ ← Act.onFiles s.runs
    return s
  | .keys runId => do
    let _ ← Act.onFiles (s.keys runId)
    return s
  | .restore saved => do
    let _ ← Store.restore saved
    return s

/-- What is restored has each path once, lies outside of the directories of the runs and can be put
back. -/
def Allowed (s : Store) (w : World) : Errand → Prop
  | .restore saved =>
    saved.paths.Nodup ∧ (∀ r ∈ saved.paths, ¬ w.files.Backed s.root r) ∧
      Restorable w.files w.logFile (· ∈ saved.paths)
  | _ => True

end Errand

/-- A store is for the same backups after an errand, and holds what it held unless that was to be
discarded. -/
structure Store.Passes (s : Store) (e : Errand) (s' : Store) : Prop where
  project_eq : s'.project = s.project
  root_eq : s'.root = s.root
  kept : ∀ runId key snapshot, e ≠ .discard runId → s.get runId key = some snapshot →
    s'.get runId key = some snapshot
  single : (s.held.map (·.1)).Nodup → (s'.held.map (·.1)).Nodup

namespace Store

variable {s : Store} {e : Errand}

theorem Passes.refl (s : Store) (e : Errand) : s.Passes e s :=
  ⟨rfl, rfl, fun _ _ _ _ ↦ id, id⟩

theorem passes_hold {snapshot : Snapshot} (h : s.get snapshot.runId snapshot.key = none) :
    s.Passes e (s.hold snapshot) := by
  refine ⟨rfl, rfl, fun runId key held _ hheld ↦ ?_, fun hsingle ↦ ?_⟩
  · rw [get_hold, hheld, Option.some_or]
  · show ((s.held ++ [((snapshot.runId, snapshot.key), snapshot)]).map (·.1)).Nodup
    rw [List.map_append]
    refine List.nodup_append.mpr ⟨hsingle, by simp, fun name hname name' hname' hsame ↦ ?_⟩
    rw [hsame, List.mem_singleton.mp hname'] at hname
    exact find?_eq_none.mp h hname

theorem passes_discard (s : Store) (runId : String) :
    s.Passes (.discard runId) (s.discard runId) := by
  refine ⟨rfl, rfl, fun runId' key held hne hheld ↦ ?_, fun hsingle ↦ ?_⟩
  · rw [get_discard, if_neg, hheld]
    rintro rfl
    exact hne rfl
  · exact hsingle.sublist (List.filter_sublist.map _)

end Store

/-- An errand leaves the files that are backed up as they are, and a store that fails in it is as it
was. -/
theorem Errand.ends_perform {s : Store} {w : World} (e : Errand) (hw : w.files.Sound)
    (hroot : s.root.isAbsolute = true) (hdots : ".." ∉ s.root.names) (h : e.Allowed s w) :
    Ends (e.perform s) w (fun s' w' ↦ w.Adds s.root w' ∧ s.Passes e s')
      fun _ w' ↦ w.Adds s.root w' := by
  have hasks : ∀ {α : Type} {act : Act α}, act.Still →
      Ends (act >>= fun _ ↦ pure s) w (fun s' w' ↦ w.Adds s.root w' ∧ s.Passes e s')
        fun _ w' ↦ w.Adds s.root w' := fun hstill ↦
    ((hstill w).mono (fun _ _ h ↦ h) fun _ _ h ↦ h.adds s.root).bind
      fun _ _ h ↦ ends_pure.mpr ⟨h.adds s.root, .refl s e⟩
  have hlists : ∀ {α : Type} {act : FileAct α},
      Ends act w.files (fun _ t ↦ t = w.files) (fun _ t ↦ t = w.files) →
      Ends (Act.onFiles act >>= fun _ ↦ pure s) w (fun s' w' ↦ w.Adds s.root w' ∧ s.Passes e s')
        fun _ w' ↦ w.Adds s.root w' := by
    intro α act hact
    refine ends_bind.mpr (Act.ends_onFiles.mpr (hact.mono ?_ ?_))
    · rintro _ _ rfl
      exact ends_pure.mpr ⟨.refl _ w, .refl s e⟩
    · rintro _ _ rfl
      exact .refl _ w
  cases e with
  | snapshot runId key files =>
    refine ((s.ends_snapshot hw hroot files).mono (fun _ _ h ↦ h) ?_).bind ?_
    · exact fun _ _ hmissed ↦ (hmissed.touches hdots).mono fun _ hr _ ↦ hr.2
    · intro taken w' htaken
      refine ends_pure.mpr ⟨htaken.touches.mono fun _ hr _ ↦ hr.2, ?_⟩
      rw [htaken.store]
      exact Store.passes_hold (by rw [htaken.ofRun, htaken.ofKey]; exact htaken.unheld)
  | record snapshot =>
    refine (s.ends_record snapshot w).mono ?_ ?_
    · rintro _ w' ⟨rfl, hunheld, hstill⟩
      exact ⟨hstill.adds s.root, Store.passes_hold hunheld⟩
    · rintro _ w' rfl
      exact .refl _ w'
  | discard runId => exact ends_pure.mpr ⟨.refl _ w, s.passes_discard runId⟩
  | get runId key => exact ends_pure.mpr ⟨.refl _ w, .refl s _⟩
  | load runId key => exact hasks (s.still_load runId key)
  | runs => exact hlists ((s.ends_runs w.files).mono (fun _ _ h ↦ h.1) fun _ _ h ↦ h.1)
  | keys runId => exact hlists ((s.ends_keys runId w.files).mono (fun _ _ h ↦ h.1) fun _ _ h ↦ h.1)
  | restore snapshot =>
    obtain ⟨hnodup, houtside, hrestorable⟩ := h
    refine ((Store.ends_restore snapshot hw hrestorable fun entry hentry ↦
      ⟨List.mem_map_of_mem hentry, (Snapshot.recorded_eq hnodup hentry).symm⟩).mono
        (fun _ _ h ↦ h.2.1) fun _ _ h ↦ h.1.mono ?_).bind ?_
    · exact fun r hr hbelow ↦ absurd hbelow (houtside r hr)
    · intro _ w' htouches
      exact ends_pure.mpr ⟨htouches.mono fun r hr hbelow ↦ absurd hbelow (houtside r hr), .refl s _⟩

/-! ### Several stores -/

/-- Stores, and the world in which they work. -/
structure Vault (ι : Type) where
  store : ι → Store
  world : World

namespace Vault

variable {ι : Type} [DecidableEq ι]

/-- The vault after one of the stores has been asked for something. -/
def after (v : Vault ι) (i : ι) (e : Errand) : Vault ι :=
  match e.perform (v.store i) v.world with
  | (.ok s, w) => ⟨Function.update v.store i s, w⟩
  | (.error _, w) => ⟨v.store, w⟩

/-- Errands, each of which is allowed when it is done, lead from one vault to another. -/
inductive Serves : Vault ι → List (ι × Errand) → Vault ι → Prop
  | nil (v : Vault ι) : Serves v [] v
  | cons {v v' : Vault ι} {i : ι} {e : Errand} {rest : List (ι × Errand)}
      (hallowed : e.Allowed (v.store i) v.world) (h : Serves (v.after i e) rest v') :
      Serves v ((i, e) :: rest) v'

/-- The stores are for the same backups, and hold at most one snapshot of each run and key. -/
structure Proper (project : Route) (directory : String) (v : Vault ι) : Prop where
  sound : v.world.files.Sound
  isOf : ∀ i, (v.store i).IsOf project directory
  single : ∀ i, ((v.store i).held.map (·.1)).Nodup

variable {project : Route} {directory : String} {v v' : Vault ι} {i : ι} {e : Errand}

/-- What it comes to when a store is asked for something. -/
theorem Proper.after_eq (hv : v.Proper project directory)
    (hdots : ".." ∉ (Store.ofProject project directory).root.names)
    (hallowed : e.Allowed (v.store i) v.world) :
    ∃ s w, v.after i e = ⟨Function.update v.store i s, w⟩ ∧
      v.world.Adds (Store.ofProject project directory).root w ∧ (v.store i).Passes e s := by
  have hroot := (hv.isOf i).root_eq
  have habsolute : (v.store i).root.isAbsolute = true := by
    rw [hroot]
    exact Path.isAbsolute_join _ _
  have hends := e.ends_perform hv.sound habsolute (hroot ▸ hdots) hallowed
  unfold Ends at hends
  unfold after
  rw [hroot] at hends
  rcases hperform : e.perform (v.store i) v.world with ⟨_ | s, w⟩
  · rw [hperform] at hends
    exact ⟨v.store i, w, by rw [Function.update_eq_self], hends, .refl _ e⟩
  · rw [hperform] at hends
    exact ⟨s, w, rfl, hends⟩

/-- One errand. -/
theorem Proper.after (hv : v.Proper project directory)
    (hdots : ".." ∉ (Store.ofProject project directory).root.names)
    (hallowed : e.Allowed (v.store i) v.world) :
    (v.after i e).Proper project directory ∧
      v.world.Adds (Store.ofProject project directory).root (v.after i e).world ∧
      ∀ j runId key snapshot, (i, e) ≠ (j, .discard runId) →
        (v.store j).get runId key = some snapshot →
          ((v.after i e).store j).get runId key = some snapshot := by
  obtain ⟨s, w, heq, hadds, hpasses⟩ := hv.after_eq hdots hallowed
  rw [heq]
  refine ⟨⟨(hadds.files hv.sound).sound, fun j ↦ ?_, fun j ↦ ?_⟩, hadds,
    fun j runId key snapshot hne hheld ↦ ?_⟩
  all_goals
    dsimp only
    rcases eq_or_ne j i with rfl | hj
  · rw [Function.update_self]
    exact ⟨hpasses.project_eq.trans (hv.isOf j).project_eq,
      hpasses.root_eq.trans (hv.isOf j).root_eq⟩
  · rw [Function.update_of_ne hj]
    exact hv.isOf j
  · rw [Function.update_self]
    exact hpasses.single (hv.single j)
  · rw [Function.update_of_ne hj]
    exact hv.single j
  · rw [Function.update_self]
    exact hpasses.kept runId key snapshot (fun heq ↦ hne (by rw [heq])) hheld
  · rw [Function.update_of_ne hj]
    exact hheld

/-- What each errand keeps is kept by all of them. -/
theorem Serves.keeps {P : Vault ι → Prop} {errands : List (ι × Errand)}
    (h : v.Serves errands v')
    (hdots : ".." ∉ (Store.ofProject project directory).root.names)
    (hv : v.Proper project directory) (hP : P v)
    (hstep : ∀ v, v.Proper project directory → ∀ i e, (i, e) ∈ errands →
      e.Allowed (v.store i) v.world → P v → P (v.after i e)) :
    v'.Proper project directory ∧ P v' := by
  induction h with
  | nil v => exact ⟨hv, hP⟩
  | cons hallowed h ih =>
    refine ih (hv.after hdots hallowed).1 (hstep _ hv _ _ List.mem_cons_self hallowed hP) ?_
    exact fun v hv i e hmem ↦ hstep v hv i e (List.mem_cons_of_mem _ hmem)

/-! ### Snapshots that have been taken -/

/-- The snapshot is in its directory as it was in a world, and every store finds it there. -/
structure Lasts (v : Vault ι) (w : World) (project : Route) (runId key : String)
    (snapshot : Snapshot) : Prop where
  untouched : snapshot.Untouched project w.files v.world.files
  /-- It is read back if no link leads to its files. -/
  loads : (∀ r ∈ snapshot.paths, w.files.Direct r ∧ (Route.path r).hasNul = false) →
    ∀ i, (v.store i).load runId key v.world = (.ok snapshot, v.world)
  /-- Its run is listed, unless a path in the directory of the backups is too long. -/
  runs : ∀ i, Ends (v.store i).runs v.world.files
    (fun names t ↦ t = v.world.files ∧ runId ∈ names)
    fun _ _ ↦ ∃ name, v.world.files.walk ((v.store i).root.child name) = .error .nameTooLong
  /-- Its key is listed, unless a path in the directory of the run is too long. -/
  keys : ∀ i, Ends ((v.store i).keys runId) v.world.files
    (fun names t ↦ t = v.world.files ∧ key ∈ names)
    fun _ _ ↦ ∃ name, v.world.files.walk
      ((((v.store i).root.child runId).child name).child manifestName) = .error .nameTooLong
  /-- No other one is taken for the same run and key. -/
  refused : ∀ i files, Ends ((v.store i).snapshot runId key files) v.world (fun _ _ ↦ False)
    fun e w' ↦ w' = v.world ∧ ∃ cause, e = .backup cause

section Lasting

omit [DecidableEq ι]

variable {w : World} {runId key createdAt : String} {snapshot : Snapshot} {home : Route} {s : Store}

/-- A snapshot is not taken where one lies already. -/
theorem ends_snapshot_of_stored (hdurable : snapshot.Durable createdAt)
    (hlocation : snapshot.location = s.location snapshot.runId snapshot.key)
    (hstored : snapshot.Stored s.project createdAt w.files home) (files : List Path) :
    Ends (s.snapshot snapshot.runId snapshot.key files) w (fun _ _ ↦ False)
      fun e w' ↦ w' = w ∧ ∃ cause, e = .backup cause := by
  have hopens := Store.opens_location hdurable hstored
  obtain ⟨changed, hwalk⟩ := hopens.walk
  rw [hlocation] at hwalk
  have hnot : ¬ s.Admits snapshot.runId snapshot.key w.files := fun h ↦
    h.free (hlocation ▸ hdurable.nul) _ _ hwalk
  refine (s.ends_snapshot_pictured _ _ files w).mono (fun _ _ h ↦ hnot h.1.toAdmits) fun e w' h ↦ ?_
  cases h with
  | rejected h =>
    cases h with
    | names | duplicate | occupied => exact ⟨rfl, _, rfl⟩
    | place hlong => exact nomatch hwalk.symm.trans hlong
    | file hadmits => exact absurd hadmits hnot
    | nul hadmits => exact absurd hadmits hnot
  | unread hadmits => exact absurd hadmits hnot
  | unwritten hgrants => exact absurd hgrants.toAdmits hnot

theorem Proper.lasts (hv : v.Proper project directory) (hdurable : snapshot.Durable createdAt)
    (hlocation : snapshot.location =
      (Store.ofProject project directory).location snapshot.runId snapshot.key)
    (hstored : snapshot.Stored project createdAt v.world.files home)
    (huntouched : snapshot.Untouched project w.files v.world.files)
    (hlinks : ∀ r, v.world.files.link? r = w.files.link? r) :
    v.Lasts w project snapshot.runId snapshot.key snapshot := by
  have hlocated : ∀ i, snapshot.location = (v.store i).location snapshot.runId snapshot.key := by
    intro i
    rw [hlocation, Store.location, Store.location, (hv.isOf i).root_eq]
  have hlies : ∀ i, snapshot.Stored (v.store i).project createdAt v.world.files home := by
    intro i
    rw [(hv.isOf i).project_eq]
    exact hstored
  constructor
  case untouched => exact huntouched
  case loads =>
    intro hdirect i
    have hload := Store.load_of_kept hdurable (hlocated i) (hlies i).kept fun r hr ↦
      ((hdirect r hr).1.congr hlinks).resolve_path (hdirect r hr).2
    rwa [Snapshot.redirected_of_fixed hdurable.nodup fun _ _ ↦ rfl] at hload
  case runs => exact fun i ↦ Store.ends_runs_of_stored hdurable (hlocated i) (hlies i)
  case keys => exact fun i ↦ Store.ends_keys_of_stored hdurable (hlocated i) (hlies i)
  case refused => exact fun i ↦ ends_snapshot_of_stored hdurable (hlocated i) (hlies i)

end Lasting

/-- A store holds one snapshot of each run and key, the first one, until it discards the run. -/
structure Registers (v : Vault ι) (errands : List (ι × Errand)) (v' : Vault ι) : Prop where
  single : ∀ i, ((v'.store i).held.map (·.1)).Nodup
  kept : ∀ i runId key snapshot, (i, .discard runId) ∉ errands →
    (v.store i).get runId key = some snapshot → (v'.store i).get runId key = some snapshot
  /-- Discarding a run next would forget what that store holds of it, and nothing else. -/
  discards : ∀ i j runId runId' key,
    ((v'.after i (.discard runId)).store j).get runId' key =
      if j = i ∧ runId' = runId then none else (v'.store j).get runId' key

theorem Serves.registers {errands : List (ι × Errand)} (h : v.Serves errands v')
    (hdots : ".." ∉ (Store.ofProject project directory).root.names)
    (hv : v.Proper project directory) : v.Registers errands v' := by
  have hkept : ∀ j runId key snapshot, (j, .discard runId) ∉ errands →
      (v.store j).get runId key = some snapshot → v'.Proper project directory ∧
        (v'.store j).get runId key = some snapshot := by
    intro j runId key snapshot hnever hheld
    refine h.keeps (P := fun v ↦ (v.store j).get runId key = some snapshot) hdots hv hheld ?_
    intro v hv i e hmem hallowed
    refine (hv.after hdots hallowed).2.2 j runId key snapshot fun heq ↦ ?_
    exact hnever (heq ▸ hmem)
  constructor
  case single =>
    exact (h.keeps (P := fun _ ↦ True) hdots hv trivial fun _ _ _ _ _ _ _ ↦ trivial).1.single
  case kept => exact fun j runId key snapshot hnever hheld ↦ (hkept j runId key snapshot hnever hheld).2
  case discards =>
    intro i j runId runId' key
    show (Function.update v'.store i ((v'.store i).discard runId) j).get runId' key = _
    rcases eq_or_ne j i with rfl | hj
    · rw [Function.update_self, Store.get_discard]
      simp
    · rw [Function.update_of_ne hj, if_neg fun h ↦ hj h.1]

/-- What lies in the directory of its run goes on lying there, and no link is made or taken away. -/
theorem Serves.secures {errands : List (ι × Errand)} {snapshot : Snapshot} {runId createdAt : String}
    {home : Route} (h : v.Serves errands v')
    (hdots : ".." ∉ (Store.ofProject project directory).root.names)
    (hv : v.Proper project directory) (hrunId : isBackupName runId = true)
    (hsecures : v.world.Secures snapshot project createdAt
      ((Store.ofProject project directory).root.child runId) home) :
    v'.Proper project directory ∧
      v'.world.Secures snapshot project createdAt
        ((Store.ofProject project directory).root.child runId) home ∧
      ∀ r, v'.world.files.link? r = v.world.files.link? r := by
  have habsolute : (Store.ofProject project directory).root.isAbsolute = true :=
    Path.isAbsolute_join _ _
  refine h.keeps (P := fun v' ↦ v'.world.Secures snapshot project createdAt
    ((Store.ofProject project directory).root.child runId) home ∧
      ∀ r, v'.world.files.link? r = v.world.files.link? r) hdots hv ⟨hsecures, fun _ ↦ rfl⟩ ?_
  rintro v' hv' i e - hallowed ⟨hsecures', hlinks⟩
  obtain ⟨-, hadds, -⟩ := hv'.after hdots hallowed
  refine ⟨hsecures'.touched habsolute hadds fun r hr hthere honly ↦ hthere (honly ?_),
    fun r ↦ ((hadds.files hv'.sound).alters.links r).trans (hlinks r)⟩
  obtain ⟨d, hd, hbelow⟩ := hsecures'.below
  exact ⟨runId, hrunId, d, hd, hbelow.trans hr⟩

section Taking

variable {runId key : String} {texts : List String} {taken : Snapshot × Store} {w : World}

theorem after_snapshot {files : List Path}
    (htaken : (v.store i).snapshot runId key files v.world = (.ok taken, w)) :
    v.after i (.snapshot runId key files) = ⟨Function.update v.store i taken.2, w⟩ := by
  have hperform : (Errand.snapshot runId key files).perform (v.store i) v.world =
      (.ok taken.2, w) := by
    show ((v.store i).snapshot runId key files >>= fun taken ↦ pure taken.2) v.world = _
    rw [bind_apply, htaken]
    rfl
  rw [after, hperform]

/-- Whatever the stores of a project are asked for after a snapshot has been taken, it stays as it
was written and can be found by each of them. It is held by the store that took it until that
discards its run. -/
theorem lasts_of_snapshot {errands : List (ι × Errand)} (hproject : Written project)
    (hdots : ".." ∉ (Store.ofProject project directory).root.names)
    (hv : v.Proper project directory) (htick : v.world.files.tick < Calendar.lastMoment)
    (hlog : v.world.LogsOutside ((v.store i).location runId key))
    (htaken : (v.store i).snapshot runId key (texts.map Path.ofString) v.world = (.ok taken, w))
    (hserves : (v.after i (.snapshot runId key (texts.map Path.ofString))).Serves errands v') :
    v'.Lasts w project runId key taken.1 ∧
    ((i, .discard runId) ∉ errands → (v'.store i).get runId key = some taken.1) ∧
    (v.after i (.snapshot runId key (texts.map Path.ofString))).Registers errands v' := by
  obtain ⟨hsnapshot, hdurable⟩ := Store.taken_of_snapshot hproject (hv.isOf i) hv.sound htick htaken
  have hroot := (hv.isOf i).root_eq
  have hproper := (hv.after (e := .snapshot runId key (texts.map Path.ofString)) (i := i) hdots
    trivial).1
  have hregisters := hserves.registers hdots hproper
  rw [after_snapshot htaken] at hserves hproper hregisters ⊢
  obtain ⟨home, hsecures⟩ := hsnapshot.stored hlog
  rw [(hv.isOf i).project_eq, hroot] at hsecures
  obtain ⟨hproper', hsecures', hlinks⟩ :=
    hserves.secures hdots hproper hsnapshot.names.1 hsecures
  have hlasts := hproper'.lasts hdurable ?_ hsecures'.stored
    (hsecures.stored.kept.untouched_of_kept hsecures'.stored.kept) hlinks
  · rw [hsnapshot.ofRun, hsnapshot.ofKey] at hlasts
    refine ⟨hlasts, fun hnever ↦ hregisters.kept i runId key taken.1 hnever ?_, hregisters⟩
    dsimp only
    rw [Function.update_self, hsnapshot.store, Store.get_hold, hsnapshot.unheld, hsnapshot.ofRun,
      hsnapshot.ofKey, if_pos ⟨rfl, rfl⟩, Option.none_or]
  · rw [hsnapshot.location, hsnapshot.ofRun, hsnapshot.ofKey, Store.location, Store.location, hroot]

end Taking

end Vault

/-! ### Two stores -/

namespace Vault

/-- Two stores of the sample project. -/
def sample : Vault Bool := ⟨fun _ ↦ Store.sampleStore, Store.sampleWorld⟩

theorem proper_sample : sample.Proper ["p"] defaultBackupDirectory :=
  ⟨Store.sound_sample, fun _ ↦ Store.isOf_sample, fun _ ↦ List.nodup_nil⟩

/-- The sample files are not in the directory of a run. -/
theorem not_backed_sample {w : World} (h : Store.SampleTaken w) :
    ∀ r ∈ Store.sampleSnapshot.paths, ¬ w.files.Backed Store.sampleStore.root r := by
  rintro r hr ⟨runId, hrunId, d, hd, hbelow⟩
  have hdirect : w.files.Direct ["p", defaultBackupDirectory, runId] := by
    refine ⟨?_, fun q hq ↦ ?_⟩
    · simp [defaultBackupDirectory, (Store.ne_dots_of_isBackupName hrunId).symm]
    · rw [(h.touches.files Store.sound_sample).alters.links, link?, look, node?]
      simp only [Store.sampleWorld, find]
      split_ifs <;> rfl
  obtain rfl : d = _ := Resolved.done.inj (hd.symm.trans (traced_of_direct hdirect))
  have hshort : ∀ r ∈ Store.sampleSnapshot.paths, r.length = 2 := by decide
  have hlength := hbelow.length_le
  rw [hshort r hr] at hlength
  exact absurd hlength (show ¬ 3 ≤ 2 by decide)

/-- After the first store has taken the snapshot, the second one restores it and is asked for it
again, and the first one discards the run. -/
theorem lasts_of_snapshot_sample : ∃ store w,
    Store.sampleStore.snapshot "run-1" "run" (Store.sampleNames.map Path.ofString)
      Store.sampleWorld = (.ok (Store.sampleSnapshot, store), w) ∧
    let errands := [(true, .restore Store.sampleSnapshot), (true, .snapshot "run-1" "run" []),
      (false, .discard "run-1")]
    let first := sample.after false
      (.snapshot "run-1" "run" (Store.sampleNames.map Path.ofString))
    let last := errands.foldl (fun v e ↦ v.after e.1 e.2) first
    last.Lasts w ["p"] "run-1" "run" Store.sampleSnapshot ∧
      ((false, .discard "run-1") ∉ errands →
        (last.store false).get "run-1" "run" = some Store.sampleSnapshot) ∧
      first.Registers errands last := by
  obtain ⟨store, w, htaken, hsample⟩ := Store.taken_sample
  refine ⟨store, w, htaken, ?_⟩
  refine lasts_of_snapshot (v := sample) (i := false) Store.written_sample (by decide) proper_sample
    (by decide) Store.logsOutside_sample htaken ?_
  refine .cons ⟨by decide, ?_, ?_⟩ (.cons trivial (.cons trivial (.nil _)))
  · rw [after_snapshot (v := sample) htaken]
    exact not_backed_sample hsample
  · rw [after_snapshot (v := sample) htaken]
    exact hsample.restorable

/-! ### A path that leads out of a circle -/

/-- A project with a link to itself, and a link that leads back to it through a name that is not
there. -/
def circle : World where
  files := ⟨[(["p"], .directory 0), (["p", "loop"], .link "loop"),
    (["p", "w.ts"], .link "none/../loop/../loop")], 0, ["p"]⟩

/-- What is recorded of the path that leads out of the circle to the second link. -/
def outOfCircle : Snapshot :=
  ⟨"run-1", "run", [(["p", "w.ts"], none)], Store.sampleStore.location "run-1" "run"⟩

/-- A snapshot of such a path is taken, and is not read back, since its path is resolved again. -/
theorem load_of_circle : ∃ store w e,
    Store.sampleStore.snapshot "run-1" "run" (["loop/../w.ts"].map Path.ofString) circle =
      (.ok (outOfCircle, store), w) ∧
    Store.sampleStore.load "run-1" "run" w = (.error e, w) ∧ e.kind = .runtime := by
  obtain ⟨hoption, hresolve⟩ :
      let after := Store.sampleStore.snapshot "run-1" "run"
        (["loop/../w.ts"].map Path.ofString) circle
      after.1.toOption.map (·.1) = some outOfCircle ∧
      (match after.2.files.resolve (Route.path ["p", "w.ts"]) with
        | .error e => decide (e.kind = .runtime)
        | .ok _ => false) = true := by
    simp only [Store.snapshot, mergeSort_le]
    decide +kernel
  rcases htaken : Store.sampleStore.snapshot "run-1" "run"
    (["loop/../w.ts"].map Path.ofString) circle with ⟨e | ⟨snapshot, store⟩, w⟩
  · rw [htaken] at hoption
    cases hoption
  rw [htaken] at hoption hresolve
  obtain rfl : snapshot = outOfCircle := Option.some.inj hoption
  have hsound : circle.files.Sound := sound_of_entries (by decide) (by decide)
  obtain ⟨hsnapshot, hdurable⟩ := Store.taken_of_snapshot Store.written_sample Store.isOf_sample
    hsound (by decide) htaken
  obtain ⟨hlocation, hkept⟩ := hsnapshot.kept Store.isOf_sample Store.isOf_sample
    fun r hr ↦ by cases hr
  dsimp only at hresolve
  split at hresolve
  · rename_i e hunresolved
    exact ⟨store, w, e, rfl, Store.load_of_unresolved hdurable hlocation hkept.manifest rfl
      hunresolved, of_decide_eq_true hresolve⟩
  · cases hresolve

end Vault

end Remedy
