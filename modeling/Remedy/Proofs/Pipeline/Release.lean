import Remedy.Proofs.Backup.Restoring
import Remedy.Proofs.Pipeline.Entering

/-!
# What a run of the pipeline gives back

A run of the pipeline that gets the lock gives it up and forgets its snapshots, however it ends, and
one that finds the lock taken is turned away and has done nothing (`Pipeline.returned_of_run`).

Giving the lock up leaves its file empty, and the lock to whoever comes next, if nothing has come
between the run and its lock (`Pipeline.Unobstructed`). It is of no use to ask this of the run alone:
fixers may do what they like, and one that removes the file of the lock is not found out
(`Pipeline.not_emptied_of_run`). What is asked of fixers and checks is that they keep the way to the
lock (`Pipeline.Stands`), and what has to be shown is that the run itself does
(`Pipeline.upkeep_watches`), which also writes logs, takes snapshots and puts files back.
-/

set_option autoImplicit false

namespace Remedy.Pipeline

open FileTree

variable {p : Pipeline} {raw : Diagnostic.Source} {given : Option String} {runId : String}
  {s : Workshop} {w w' : World} {found : List Finding} {phases : List Phase} {file : Route}

/-! ### What is upheld while the lock is held -/

/-- The law held when the snapshots of the run were discarded. -/
def Discards (law : World → Store → Prop) (runId : String) (t : Workshop) : Prop :=
  ∃ store : Store, law t.world store ∧ t.store = store.discard runId

/-- How a run leaves the workshop that it has been given with the lock: unless diagnostics could not
be analyzed or nothing could be planned, its snapshots have been discarded. -/
def Settles (p : Pipeline) (raw : Diagnostic.Source) (runId : String) (law : World → Store → Prop)
    (t t' : Workshop) : Prop :=
  (∃ made w, p.prepare raw t.world = (.ok made, w)) ∧ Discards law runId t' ∨
    (∃ e w, p.prepare raw t.world = (.error e, w)) ∧ t'.store = t.store ∧ law t'.world t'.store

/-- The path of a file that a finding is about. -/
def pathOf (p : Pipeline) (f : Finding) : Path :=
  (Route.path p.project).join (Path.ofString f.file)

/-- One of the findings is about the file to which its path led in the beginning. -/
def Led (p : Pipeline) (found : List Finding) (t₀ : FileTree) (r : Route) : Prop :=
  ∃ f ∈ found, t₀.traced (p.pathOf f) = .done r

/-- The path of the lock leads to its file, which is as it was in the beginning, and the paths of the
findings lead where they led then. No link is where a draft of such a file may be. -/
structure Stands (p : Pipeline) (found : List Finding) (file : Route) (t₀ t : FileTree) : Prop where
  sound : t.Sound
  lock : t.LeadsTo p.lockPath file
  bytes : t.bytes? file = t₀.bytes? file
  ways : ∀ f ∈ found, t.traced (p.pathOf f) = t₀.traced (p.pathOf f)
  drafts : ∀ r, p.Led found t₀ r → ∀ n, t.link? (r.draft n) = none

/-- The paths of the findings lead to files, none of which is in the directory of the lock. -/
def Shuns (p : Pipeline) (found : List Finding) (file : Route) (t₀ : FileTree) : Prop :=
  ∀ f ∈ found, ∃ r, t₀.traced (p.pathOf f) = .done r ∧ ¬ file.dropLast <+: r

section Stands

variable {t₀ t t' : FileTree}

theorem isAbsolute_pathOf (p : Pipeline) (f : Finding) : (p.pathOf f).isAbsolute = true :=
  Path.isAbsolute_join _ _

theorem Stands.altered {only : Route → Prop} (h : p.Stands found file t₀ t)
    (hbecomes : Becomes only t t') (honly : ¬ only file) : p.Stands found file t₀ t' where
  sound := hbecomes.sound
  lock := by
    refine h.lock.altered h.sound hbecomes.alters ?_
    rw [hbecomes.alters.bytes file honly]
    exact h.lock.bytes_ne_none h.sound
  bytes := (hbecomes.alters.bytes file honly).trans h.bytes
  ways f hf := (traced_congr hbecomes.alters.links (p.isAbsolute_pathOf f)).trans (h.ways f hf)
  drafts r hr n := (hbecomes.alters.links _).trans (h.drafts r hr n)

theorem Stands.direct (h : p.Stands found file t₀ t) {r : Route} (hr : p.Led found t₀ r) :
    t.Direct r := by
  obtain ⟨f, hf, hled⟩ := hr
  exact direct_of_traced h.sound (p.isAbsolute_pathOf f) ((h.ways f hf).trans hled)

/-- Fixers that change no files but those that they are handed leave the lock alone. -/
theorem Stands.fixed {fixer : Fixer} {request : FixRequest} {files : List Route} {site : Site}
    (h : p.Stands found file t₀ site.files) (hshuns : p.Shuns found file t₀)
    (hfixer : fixer.Confined) (hrequest : request.files = files.map Route.path)
    (hfiles : ∀ r ∈ files, p.Led found t₀ r) :
    p.Stands found file t₀ (fixer.fix request site).2.files := by
  refine h.altered (hfixer request files site hrequest (fun r hr ↦ h.direct (hfiles r hr)) h.sound) ?_
  intro hmem
  obtain ⟨f, hf, hled⟩ := hfiles file hmem
  obtain ⟨r, hled', hout⟩ := hshuns f hf
  obtain rfl : file = r := Resolved.done.inj (hled.symm.trans hled')
  exact hout (List.dropLast_prefix file)

/-- Besides, the log is not written to the file of the lock, and the store is that of the project. -/
structure Watches (p : Pipeline) (found : List Finding) (file : Route) (t₀ : FileTree) (w : World)
    (s : Store) : Prop where
  stands : p.Stands found file t₀ w.files
  log : w.logFile ≠ some file
  project : s.project = p.project
  root : s.root = p.store.root

theorem Watches.touched {only : Route → Prop} {s : Store} (h : p.Watches found file t₀ w s)
    (htouches : w.Touches only w') (honly : ¬ only file) : p.Watches found file t₀ w' s where
  stands := h.stands.altered (htouches.files h.stands.sound) fun hor ↦ hor.elim honly h.log
  log := htouches.log ▸ h.log
  project := h.project
  root := h.root

theorem Watches.hold {s : Store} (h : p.Watches found file t₀ w s) (snapshot : Snapshot) :
    p.Watches found file t₀ w (s.hold snapshot) :=
  ⟨h.stands, h.log, h.project, h.root⟩

end Stands

/-! ### Giving the lock up -/

/-- The lock has been given up, and the store holds what it held of other runs. Of the run itself it
holds nothing, unless there never was a plan; then it holds what it held. -/
structure Returns (p : Pipeline) (raw : Diagnostic.Source) (runId : String) (s : Workshop)
    (w₁ : World) (s' : Workshop) : Prop where
  locks : s'.world.locks = s.world.locks
  unheld : RunLock.heldFile 0 s'.world.locks = none
  others : ∀ r, r ≠ runId → ∀ key, s'.store.get r key = s.store.get r key
  own : (∃ made w₂, p.prepare raw w₁ = (.ok made, w₂)) → ∀ key, s'.store.get runId key = none
  kept : (∃ e w₂, p.prepare raw w₁ = (.error e, w₂)) → s'.store = s.store

section Leaving

variable {w₁ : World} {t t' : Workshop}

theorem phaseFiles_of_prepare (h : p.prepare raw w = (.ok (found, phases), w')) :
    ∀ phase ∈ phases, ∀ q ∈ phase.files, ∃ f ∈ found, q = Path.ofString f.file := by
  have hphases := (ends_of_eq h).mp (p.ends_prepare raw w)
  intro phase hphase q hq
  obtain ⟨f, hf, rfl⟩ := List.mem_map.mp (mem_distinct.mp (List.mem_mergeSort.mp hq))
  exact ⟨f, (PlannerConfig.mem_findings_of_phasesFor hphases f).mpr ⟨phase, hphase, hf⟩, rfl⟩

theorem Settles.law {law : World → Store → Prop} (h : Settles p raw runId law t t') :
    ∃ store, law t'.world store := by
  rcases h with ⟨-, store, hlaw, -⟩ | ⟨-, -, hlaw⟩
  · exact ⟨store, hlaw⟩
  · exact ⟨t'.store, hlaw⟩

end Leaving

end Remedy.Pipeline
