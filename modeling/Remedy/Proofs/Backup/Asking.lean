import Remedy.Proofs.Backup.Listing
import Remedy.Proofs.Tree.Sight

/-!
# What a store is asked

A store answers from what lies in the directory of its backups: which runs there are, which keys a
run has, and what a snapshot holds. Each answer depends on what is found at certain paths and on
nothing else, so that it is the same in two worlds in which the same is found there
(`Store.agrees_runs`, `Store.agrees_keys`, `Store.agrees_load`). A snapshot that is read back depends
on its manifest, on the backup files that are named in it (`Store.Consults`), and on where the paths
in it lead.
-/

set_option autoImplicit false

namespace Remedy

open FileTree

namespace Act

variable {α : Type} {w w' : World}

theorem agrees_tryFiles {act : FileAct α} (h : Agrees act w.files w'.files) :
    Agrees (tryFiles act) w w' := by
  obtain ⟨outcome, hs, hs'⟩ := h
  refine ⟨.ok outcome, ?_, ?_⟩
  · unfold tryFiles
    rw [hs]
  · unfold tryFiles
    rw [hs']

theorem agrees_ofExcept (outcome : Except Fault α) : Agrees (ofExcept outcome) w w' :=
  ⟨outcome, rfl, rfl⟩

theorem ofExcept_eq_ok {outcome : Except Fault α} {a : α} (h : ofExcept outcome w = (.ok a, w)) :
    outcome = .ok a :=
  (Prod.mk.inj h).1

end Act

/-- The path leads to a directory. -/
def FileTree.walksTo (t : FileTree) (p : Path) (d : Route) : Prop :=
  ∃ changed, t.walk p = .ok (.at d (.directory changed))

namespace FileAct

theorem list_eq_ok {t t₁ : FileTree} {p : Path} {names : List String}
    (h : list p t = (.ok names, t₁)) : ∃ d, t.walksTo p d ∧ names = t.children d := by
  have hends : Ends (list p) t (fun names _ ↦ ∃ d, t.walksTo p d ∧ names = t.children d)
      fun _ _ ↦ True := by
    unfold list
    refine ends_bind.mpr (ends_place.mpr ?_)
    split
    · rename_i place hwalk
      rcases place with ⟨d, _ | changed | _⟩ | ⟨d, name⟩
      · exact ends_throw.mpr trivial
      · exact ends_bind.mpr (ends_get.mpr (ends_pure.mpr ⟨d, ⟨changed, hwalk⟩, rfl⟩))
      · exact ends_throw.mpr trivial
      · exact ends_throw.mpr trivial
    · trivial
  rw [Ends, h] at hends
  exact hends

theorem agrees_read {t t' : FileTree} {p : Path} (h : t'.content p = t.content p) :
    Agrees (read p) t t' :=
  ⟨_, read_eq p t, h ▸ read_eq p t'⟩

end FileAct

namespace Store

variable {s : Store} {runId key : String} {w w' : World} {t t' : FileTree}

/-! ### Reading back -/

/-- The entry is among those of the manifest of a snapshot. -/
def Lists (s : Store) (runId key : String) (t : FileTree) (entry : Json) : Prop :=
  ∃ content j entries, t.content ((s.location runId key).child manifestName) = .ok content ∧
    readManifest content = .ok j ∧ manifestEntries j = .ok entries ∧ entry ∈ entries

/-- What is at the path is read when a snapshot is read back: it is the manifest, or the entry of a
file in the manifest names it. -/
inductive Consults (s : Store) (runId key : String) (t : FileTree) : Path → Prop
  | manifest : Consults s runId key t ((s.location runId key).child manifestName)
  | backup {entry : Json} {name : String} (h : s.Lists runId key t entry)
      (hname : (entry.demand "backup" >>= Json.text) = .ok name) :
      Consults s runId key t ((s.location runId key).join (Path.ofString name))

/-- An entry of a manifest gives the path of a file. -/
def Recalls (s : Store) (runId key : String) (t : FileTree) (p : Path) : Prop :=
  ∃ entry path, s.Lists runId key t entry ∧ (entry.demand "path" >>= Json.text) = .ok path ∧
    p = (Route.path s.project).join (Path.ofString path)

/-- An entry comes to the same if its path leads to the same, and its backup file holds the same. -/
theorem agrees_loadEntry {location : Path} {entry : Json}
    (hpath : ∀ path, (entry.demand "path" >>= Json.text) = .ok path →
      w'.files.resolve ((Route.path s.project).join (Path.ofString path)) =
        w.files.resolve ((Route.path s.project).join (Path.ofString path)))
    (hbackup : ∀ name, (entry.demand "backup" >>= Json.text) = .ok name →
      w'.files.content (location.join (Path.ofString name)) =
        w.files.content (location.join (Path.ofString name)))
    (done : List (Route × Option Text.Bytes)) :
    Agrees (s.loadEntry location done entry) w w' := by
  have hfield : ∀ {name value text}, Act.ofExcept (entry.demand name) w = (.ok value, w) →
      Act.ofExcept value.text w = (.ok text, w) →
        (entry.demand name >>= Json.text) = .ok text := by
    intro name value text hvalue htext
    rw [Act.ofExcept_eq_ok hvalue]
    exact Act.ofExcept_eq_ok htext
  unfold loadEntry
  refine (Act.agrees_ofExcept _).bind fun value hvalue ↦ ?_
  refine (Act.agrees_ofExcept _).bind fun path htext ↦ ?_
  have hresolved : Agrees (s.resolve (Path.ofString path)) w w' := by
    refine ⟨w.files.resolve ((Route.path s.project).join (Path.ofString path)), rfl, ?_⟩
    rw [← hpath path (hfield hvalue htext)]
    rfl
  refine hresolved.bind fun route _ ↦ ?_
  refine (Act.agrees_ofExcept _).bind fun stampValue _ ↦ ?_
  refine (Act.agrees_ofExcept _).bind fun stamp _ ↦ ?_
  split
  · exact agrees_throw _
  refine (Act.agrees_ofExcept _).bind fun existed _ ↦ ?_
  dsimp only
  split
  · exact agrees_pure _
  refine (Act.agrees_ofExcept _).bind fun backupValue hbackupValue ↦ ?_
  refine (Act.agrees_ofExcept _).bind fun name hname ↦ ?_
  refine Agrees.guard fun _ ↦ ?_
  refine (Act.agrees_tryFiles (FileAct.agrees_read
    (hbackup name (hfield hbackupValue hname)))).bind fun outcome _ ↦ ?_
  split
  · exact agrees_throw _
  · refine (Act.agrees_ofExcept _).bind fun digest _ ↦ ?_
    split
    · exact agrees_pure _
    · exact agrees_throw _

theorem agrees_checkNames (runId key : String) : Agrees (checkNames runId key) w w' := by
  unfold checkNames
  refine Agrees.guard fun _ ↦ ?_
  split
  · exact agrees_throw _
  · exact agrees_pure _

/-- A snapshot is read back as before if what is consulted holds the same, and what is recalled leads
to the same. -/
theorem agrees_load
    (hconsults : ∀ p, s.Consults runId key w.files p → w'.files.content p = w.files.content p)
    (hrecalls : ∀ p, s.Recalls runId key w.files p → w'.files.resolve p = w.files.resolve p) :
    Agrees (s.load runId key) w w' := by
  unfold load
  refine (agrees_checkNames runId key).bind fun _ _ ↦ ?_
  dsimp only
  refine Agrees.guard fun _ ↦ ?_
  refine (Act.agrees_tryFiles (FileAct.agrees_read (hconsults _ .manifest))).bind
    fun outcome houtcome ↦ ?_
  have hread : outcome = w.files.content ((s.location runId key).child manifestName) := by
    unfold Act.tryFiles at houtcome
    rw [FileAct.read_eq] at houtcome
    exact (Except.ok.inj (Prod.mk.inj houtcome).1).symm
  split
  · refine Agrees.guard fun _ ↦ agrees_throw _
  rename_i content
  split
  · exact agrees_throw _
  rename_i j hj
  refine (Act.agrees_ofExcept _).bind fun entries hentries ↦ ?_
  have hlists : ∀ entry ∈ entries, s.Lists runId key w.files entry := fun entry hentry ↦
    ⟨content, j, entries, hread.symm, hj, Act.ofExcept_eq_ok hentries, hentry⟩
  refine (agrees_foldlM (fun entry hentry done ↦ ?_) []).bind fun files _ ↦ agrees_pure _
  refine agrees_loadEntry (fun path hpath ↦ ?_) (fun name hname ↦ ?_) done
  · exact hrecalls _ ⟨entry, path, hlists entry hentry, hpath, rfl⟩
  · exact hconsults _ (.backup (hlists entry hentry) hname)

/-! ### Listing -/

/-- The keys of a run are the same if there are the same names in its directory, and manifests in the
same of them. -/
theorem agrees_keys {runId : String}
    (hdirectory : Agrees (FileAct.isDirectory (s.root.join (Path.ofString runId))) t t')
    (hlist : Agrees (FileAct.list (s.root.join (Path.ofString runId))) t t')
    (hfile : ∀ d, t.walksTo (s.root.join (Path.ofString runId)) d → ∀ name ∈ t.children d,
      Agrees (FileAct.isFile (((s.root.join (Path.ofString runId)).child name).child manifestName))
        t t') :
    Agrees (s.keys runId) t t' := by
  unfold keys
  refine hdirectory.bind fun there _ ↦ ?_
  split
  · exact agrees_pure _
  · refine hlist.bind fun names hnames ↦ agrees_filterM fun name hname ↦ ?_
    obtain ⟨d, hto, rfl⟩ := FileAct.list_eq_ok hnames
    exact hfile d hto name hname

theorem newer_iff {a b : Int × String} :
    newer a b = true ↔ b.1 < a.1 ∨ a.1 = b.1 ∧ b.2 ≤ a.2 := by
  rw [newer, Bool.or_eq_true, Bool.and_eq_true, decide_eq_true_iff, beq_iff_eq, Bool.not_eq_true',
    decide_eq_false_iff_not, not_lt]

theorem newer_trans (a b c : Int × String) (hab : newer a b = true) (hbc : newer b c = true) :
    newer a c = true := by
  rw [newer_iff] at *
  rcases hab, hbc with ⟨hab | ⟨heq, hab⟩, hbc | ⟨heq', hbc⟩⟩
  · exact .inl (hbc.trans hab)
  · exact .inl (heq' ▸ hab)
  · exact .inl (heq ▸ hbc)
  · exact .inr ⟨heq.trans heq', hbc.trans hab⟩

theorem newer_total (a b : Int × String) : (newer a b || newer b a) = true := by
  rw [Bool.or_eq_true, newer_iff, newer_iff]
  rcases lt_trichotomy a.1 b.1 with hlt | heq | hlt
  · exact .inr (.inl hlt)
  · exact (le_total a.2 b.2).symm.imp (fun h ↦ .inr ⟨heq, h⟩) fun h ↦ .inr ⟨heq.symm, h⟩
  · exact .inl (.inl hlt)

theorem newer_antisymm (a b : Int × String) (hab : newer a b = true) (hba : newer b a = true) :
    a = b := by
  rw [newer_iff] at hab hba
  rcases hab, hba with ⟨hab | ⟨heq, hab⟩, hba | ⟨heq', hba⟩⟩
  · exact absurd hab hba.not_gt
  · exact absurd hab heq'.not_lt
  · exact absurd hba heq.not_lt
  · exact Prod.ext heq (hba.antisymm hab)

section Keys

variable {d : Route} {changed : Int}

theorem keys_absent (h : Absent (t.walk (s.root.join (Path.ofString runId)))) :
    s.keys runId t = (.ok [], t) := by
  unfold keys
  rw [bind_apply, FileAct.isDirectory_absent h]
  rfl

theorem keys_empty
    (h : t.walk (s.root.join (Path.ofString runId)) = .ok (.at d (.directory changed)))
    (hempty : t.children d = []) : s.keys runId t = (.ok [], t) := by
  obtain ⟨there, hthere⟩ := FileAct.isDirectory_at h
  unfold keys
  rw [bind_apply, hthere]
  cases there with
  | false => rfl
  | true =>
    dsimp only
    rw [Bool.not_true, if_neg Bool.false_ne_true, bind_apply, FileAct.list_at h, hempty]
    rfl

end Keys

/-- The names in the directory of the backups, none if it is not there. -/
def names (s : Store) : FileAct (List String) := do
  if ← FileAct.isDirectory s.root then FileAct.list s.root else return []

/-- Whether a name in the directory of the backups is that of a run, and when it was changed. -/
def dated (s : Store) (name : String) : FileAct (Option (Int × String)) := do
  if ← FileAct.isDirectory (s.root.child name) then
    return some (← FileAct.changed (s.root.child name), name)
  else return none

section Runs

variable {d : Route} {node : Node} {found : List String} {name : String}

theorem names_absent (h : Absent (t.walk s.root)) : s.names t = (.ok [], t) := by
  unfold names
  rw [bind_apply, FileAct.isDirectory_absent h]
  rfl

theorem names_at {changed : Int} (h : t.walk s.root = .ok (.at d (.directory changed))) :
    ∃ found, s.names t = (.ok found, t) := by
  obtain ⟨there, hthere⟩ := FileAct.isDirectory_at h
  unfold names
  rw [bind_apply, hthere]
  cases there with
  | false => exact ⟨[], rfl⟩
  | true => exact ⟨t.children d, FileAct.list_at h⟩

theorem mem_names (h : s.names t = (.ok found, t)) (hname : name ∈ found) :
    ∃ d, t.walksTo s.root d ∧ name ∈ t.children d := by
  unfold names at h
  rw [bind_apply, show FileAct.isDirectory s.root t = _ from FileAct.holds_eq _ _ t] at h
  split at h
  · rename_i there t' hthere
    obtain rfl := (Prod.mk.inj hthere).2
    cases there with
    | false =>
      cases h
      cases hname
    | true =>
      obtain ⟨d, hto, rfl⟩ := FileAct.list_eq_ok h
      exact ⟨d, hto, hname⟩
  · cases h

theorem dated_at (h : t.walk (s.root.child name) = .ok (.at d node)) :
    ∃ found, s.dated name t = (.ok found, t) ∧ ∀ a ∈ found, a.2 = name := by
  obtain ⟨there, hthere⟩ := FileAct.isDirectory_at h
  obtain ⟨moment, hmoment⟩ := FileAct.changed_at h
  unfold dated
  rw [bind_apply, hthere]
  cases there with
  | false => exact ⟨none, rfl, nofun⟩
  | true =>
    dsimp only
    rw [if_pos rfl, bind_apply, hmoment]
    exact ⟨some (moment, name), rfl, fun a ha ↦ Option.some.inj ha ▸ rfl⟩

end Runs

theorem runs_eq (s : Store) :
    s.runs = s.names >>= fun names ↦
      (names.filter fun name ↦ !(name.toList.head? == some '.')).filterMapM s.dated >>= fun found ↦
        pure ((found.mergeSort newer).map (·.2)) := by
  funext t
  unfold runs names
  rw [bind_assoc, bind_apply, bind_apply]
  rcases FileAct.isDirectory s.root t with ⟨_ | there, t'⟩
  · rfl
  · cases there with
    | false =>
      dsimp only
      rw [Bool.not_false, if_pos rfl, if_neg Bool.false_ne_true, pure_bind, List.filter_nil,
        List.filterMapM_nil, pure_bind, List.mergeSort_nil]
      rfl
    | true => rfl

theorem agrees_names (hdirectory : Agrees (FileAct.isDirectory s.root) t t')
    (hlist : Agrees (FileAct.list s.root) t t') : Agrees s.names t t' := by
  unfold names
  refine hdirectory.bind fun there _ ↦ ?_
  split
  · exact hlist
  · exact agrees_pure _

theorem agrees_dated {name : String}
    (hdirectory : Agrees (FileAct.isDirectory (s.root.child name)) t t')
    (hchanged : Agrees (FileAct.changed (s.root.child name)) t t') :
    Agrees (s.dated name) t t' := by
  unfold dated
  refine hdirectory.bind fun there _ ↦ ?_
  split
  · exact hchanged.bind fun changed _ ↦ agrees_pure _
  · exact agrees_pure _

theorem agrees_runs (hnames : Agrees s.names t t') (hdated : ∀ name, Agrees (s.dated name) t t') :
    Agrees s.runs t t' := by
  rw [runs_eq]
  refine hnames.bind fun names _ ↦ ?_
  exact (agrees_filterMapM fun name _ ↦ hdated name).bind fun found _ ↦ agrees_pure _

end Store

end Remedy
