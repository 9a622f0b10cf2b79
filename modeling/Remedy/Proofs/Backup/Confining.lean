import Remedy.Lock
import Remedy.Proofs.Backup.Listing
import Remedy.Proofs.Backup.Loading
import Remedy.Proofs.Settings
import Remedy.Proofs.Tree.Directories

/-!
# Backups stay inside the project

Two checks keep the backups inside the project: the one of the directory among the settings, and the
one of run ids and keys. What passes the first is a relative path without two dots, whatever slashes
and single dots it is written with; what passes the second is the name of a file. So the path of a
snapshot consists of that of the project, the names of the directory, the run id and the key, and
different pairs have paths neither of which lies above the other (`Store.IsInside`).

Taking a snapshot makes directories at this path and above it, and files in the directory at the
path. Nothing that was there before is taken away, also not when the snapshot fails and what there
is of it is cleared (`World.Confined`). All this is about paths as they are written: where a link
stands on the way, the directory at the path is wherever that link leads.
-/

set_option autoImplicit false

namespace Remedy

open FileTree

/-! ### What is new -/

/-- The route is in the directory at the location, or is that directory or one on the way. -/
def FileTree.StandsAt (t : FileTree) (location : Path) (r : Route) : Prop :=
  (∃ p : Path, p.Above location ∧ t.Names p r ∧ t.HasDirectory r) ∨
    ∃ p, location.Above p ∧ t.Names p r

/-- More closely: the route is a directory at the location or on the way, or lies in the directory
that the path of the location names and leads to. -/
def FileTree.LaidAt (t : FileTree) (location : Path) (r : Route) : Prop :=
  (∃ p : Path, p.Above location ∧ t.Names p r ∧ t.HasDirectory r) ∨
    ∃ home name, t.Names location home ∧
      Walk t true linkLimit [] location.names (.at home (.directory 0)) ∧
      name ≠ ".." ∧ r = home ++ [name]

/-- The route is a directory at the path or on the way to it, and no name up to there is too
long. -/
def FileTree.OnWay (t : FileTree) (p : Path) (r : Route) : Prop :=
  ∃ q : Path, q.Above p ∧ (∀ m ∈ q.names, m.utf8ByteSize ≤ nameLimit) ∧ t.Names q r ∧
    t.HasDirectory r

theorem FileTree.OnWay.laidAt {t : FileTree} {p location : Path} {r : Route} (h : t.OnWay p r)
    (hp : p.Above location) : t.LaidAt location r := by
  obtain ⟨q, hq, -, hnames, hdir⟩ := h
  exact .inl ⟨q, hq.trans hp, hnames, hdir⟩

theorem FileTree.LaidAt.standsAt {t : FileTree} {location : Path} {r : Route}
    (h : t.LaidAt location r) (hp : location.isAbsolute = true) : t.StandsAt location r := by
  rcases h with hway | ⟨home, name, -, hwalk, hname, rfl⟩
  · exact .inl hway
  · exact .inr ⟨location.child name, .child _ _, home, name, reaches_child hp hname hwalk, rfl⟩

/-- What was there is there as it was, the log apart, and what is new stands at the location. -/
structure World.Confined (location : Path) (w w' : World) : Prop where
  kept : w.Touches (fun r ↦ w.files.bytes? r = none) w'
  new : ∀ r, w.files.look r = none → w'.files.look r ≠ none → w'.files.StandsAt location r

namespace FileTree

variable {t t₁ t' t'' : FileTree} {p location : Path} {home r : Route}

theorem Paved.hasDirectory (h : Paved p t t') (hnone : t.look r = none)
    (hsome : t'.look r ≠ none) : t'.HasDirectory r := by
  rcases h.grows.alters.none_or_directory id hnone with hnone' | hdir
  · exact absurd hnone' hsome
  · exact hdir

/-- What was new after directories had been made still stands where it stood. -/
theorem Paved.onWay {only : Route → Prop} (h : Paved p t t₁) (halters : Alters only t₁ t')
    (hnone : t.look r = none) (hsome : t₁.look r ≠ none) : t'.OnWay p r := by
  obtain ⟨q, hq, hfits, hnames⟩ := h.named r hnone hsome
  exact ⟨q, hq, hfits, hnames.altered h.grows.sound halters,
    halters.directories r (h.hasDirectory hnone hsome)⟩

/-- A directory has been made at the location, and nothing else but files in it. -/
structure Furnishes (location : Path) (home : Route) (t t' : FileTree) : Prop where
  named : t.Names location home
  fresh : ∀ q, home <+: q → t.look q = none
  becomes : Becomes (fun _ ↦ True) t t'
  walk : Walk t' true linkLimit [] location.names (.at home (.directory 0))
  filled : ∀ r, t.look r = none → t'.look r ≠ none →
    r = home ∨ ∃ name, name ≠ ".." ∧ r = home ++ [name]

theorem Furnishes.laidAt (h : Furnishes location home t t') (ht : t.Sound)
    (hnone : t.look r = none) (hsome : t'.look r ≠ none) : t'.LaidAt location r := by
  have hnamed := h.named.altered ht h.becomes.alters
  rcases h.filled r hnone hsome with rfl | ⟨name, hname, rfl⟩
  · have ht' := h.becomes.sound
    exact .inl ⟨location, .refl _, hnamed, h.walk.shows ht' ht'.root⟩
  · exact .inr ⟨home, name, hnamed, h.walk, hname, rfl⟩

/-- What is left when the directory is taken away was there before it was made. -/
theorem Furnishes.removed (h : Furnishes location home t t') :
    Becomes (fun _ ↦ True) t (t'.remove home) ∧
      ∀ r, (t'.remove home).look r ≠ none → t.look r ≠ none := by
  have hne : home ≠ [] := by
    obtain ⟨d, name, -, rfl⟩ := h.named
    simp
  refine ⟨h.becomes.removed hne h.fresh, fun r hsome hnone ↦ ?_⟩
  rw [look_remove _ hne] at hsome
  split at hsome
  · exact hsome rfl
  · rename_i hapart
    rcases h.filled r hnone hsome with rfl | ⟨name, -, rfl⟩
    · exact hapart List.prefix_rfl
    · exact hapart (List.prefix_append _ _)

/-- The directory is found where it has been made. -/
theorem Furnishes.walkToLink (h : Furnishes location home t t') (ht : t.Sound)
    (hsize : location.text.utf8ByteSize ≤ pathLimit) :
    ∃ changed, t'.walkToLink location = .ok (.at home (.directory changed)) := by
  have ht' := h.becomes.sound
  have hdir : t'.HasDirectory home := h.walk.shows ht' ht'.root
  obtain ⟨d, name, hreaches, rfl⟩ := h.named.altered ht h.becomes.alters
  obtain ⟨found, hfound, -⟩ := h.walk.walkWithin_eq
  have hfits := hreaches.fits_of_walkWithin ht' hsize hfound
  have hfinds := hreaches.walkToLink_finds ht' hdir.not_link
  generalize t'.walkToLink location = place at hfinds ⊢
  cases hfinds with
  | refused _ hlong => exact absurd hfits hlong
  | free _ hnone => exact absurd hdir (not_hasDirectory_of_none hnone)
  | file _ hfile =>
    rw [HasDirectory, hfile] at hdir
    cases hdir
  | directory => exact ⟨_, rfl⟩

/-- How a tree has become another one when a snapshot was written at a location, or could not be:
the directory above has been made, and its own as well, or the path leads to none. -/
def Lays (location : Path) (t t' : FileTree) : Prop :=
  ∃ t₁, Paved location.parent t t₁ ∧ ((∃ home, Furnishes location home t₁ t') ∨
    Becomes (fun _ ↦ True) t₁ t' ∧ (∀ r, t₁.look r = none → t'.look r = none) ∧
      ∀ d, Walk t' false linkLimit [] location.names (.at d (.directory 0)) →
        Walk t true linkLimit [] location.names (.at d (.directory 0)))

theorem Lays.laidAt (h : Lays location t t') (hnone : t.look r = none)
    (hsome : t'.look r ≠ none) : t'.LaidAt location r := by
  obtain ⟨t₁, hpaved, ⟨home, hfurnishes⟩ | ⟨hbecomes, hfree, -⟩⟩ := h
  · by_cases hbefore : t₁.look r = none
    · exact hfurnishes.laidAt hpaved.grows.sound hbefore hsome
    · exact (hpaved.onWay hfurnishes.becomes.alters hnone hbefore).laidAt (.parent _)
  · refine (hpaved.onWay hbecomes.alters hnone ?_).laidAt (.parent _)
    exact fun hbefore ↦ hsome (hfree r hbefore)

/-- What is left standing if there is no directory at the location to be taken away. -/
theorem Lays.left (h : Lays location t t') (hsize : location.text.utf8ByteSize ≤ pathLimit)
    (hnowhere : ∀ d changed, t'.walkToLink location ≠ .ok (.at d (.directory changed)))
    (hnone : t.look r = none) (hsome : t'.look r ≠ none) : t'.OnWay location.parent r := by
  obtain ⟨t₁, hpaved, ⟨home, hfurnishes⟩ | ⟨hbecomes, hfree, -⟩⟩ := h
  · obtain ⟨changed, hwalk⟩ := hfurnishes.walkToLink hpaved.grows.sound hsize
    exact absurd hwalk (hnowhere home changed)
  · exact hpaved.onWay hbecomes.alters hnone fun hbefore ↦ hsome (hfree r hbefore)

/-- What is left standing after the directory at the location has been taken away. -/
theorem Lays.removed (h : Lays location t t')
    (hvacant : ∀ d, ¬ Walk t true linkLimit [] location.names (.at d (.directory 0))) {d : Route}
    (hwalk : Walk t' false linkLimit [] location.names (.at d (.directory 0)))
    (hnone : t.look r = none) (hsome : (t'.remove d).look r ≠ none) :
    (t'.remove d).OnWay location.parent r := by
  obtain ⟨t₁, hpaved, ⟨home, hfurnishes⟩ | ⟨-, -, hto⟩⟩ := h
  · cases hwalk.whole.functional hfurnishes.walk
    obtain ⟨hbecomes, hthere⟩ := hfurnishes.removed
    exact hpaved.onWay hbecomes.alters hnone (hthere r hsome)
  · exact absurd (hto d hwalk) (hvacant d)

end FileTree

/-- Writing the log makes no difference. -/
theorem World.Still.lays {location : Path} {t : FileTree} {w w' : World} (h : w.Still w')
    (hw : w.files.Sound) (hlays : Lays location t w.files) : Lays location t w'.files := by
  have hbecomes : Becomes (fun _ ↦ True) w.files w'.files :=
    (h.undisturbed.files hw).mono fun _ _ ↦ trivial
  obtain ⟨t₁, hpaved, ⟨home, hfurnishes⟩ | ⟨hrest, hfree, hto⟩⟩ := hlays
  · refine ⟨t₁, hpaved, .inl ⟨home, ?_⟩⟩
    constructor
    case named => exact hfurnishes.named
    case fresh => exact hfurnishes.fresh
    case becomes => exact hfurnishes.becomes.trans hbecomes
    case walk => exact hfurnishes.walk.altered hbecomes.alters hw hw.root
    case filled =>
      exact fun r hnone hsome ↦ hfurnishes.filled r hnone fun hbefore ↦ hsome (h.free r hbefore)
  · refine ⟨t₁, hpaved, .inr ⟨hrest.trans hbecomes, fun r hnone ↦ h.free r (hfree r hnone), ?_⟩⟩
    exact fun d hwalk ↦ hto d (h.walk hw hwalk)

namespace Store

variable {w : World} {runId key : String}

/-! ### Snapshots that are written -/

/-- What is written into a directory with nothing in it is new there, and nothing else is. -/
theorem furnishes_of_edits {location : Path} {home : Route} {t t₁ t' : FileTree}
    {names : List String} (ht : t.Sound) (hp : location.isAbsolute = true)
    (hmade : FileAct.Made location t t₁)
    (hwalk : Walk t₁ true linkLimit [] location.names (.at home (.directory 0)))
    (hfresh : ∀ q, home <+: q → t.look q = none) (hedits : Edits (Among home names) t₁ t')
    (hdots : ".." ∉ names) : Furnishes location home t t' := by
  have hmake := hmade.grows ht
  obtain ⟨d, name, changed, hreaches, rfl, hto⟩ := hmade.reaches ht hp
  cases hwalk.functional hto
  constructor
  case named => exact ⟨d, name, hreaches, rfl⟩
  case fresh => exact hfresh
  case becomes =>
    exact (hmake.mono fun _ ↦ False.elim).trans (hedits.toBecomes.mono fun _ _ ↦ trivial)
  case walk => exact hwalk.altered hedits.alters hmake.sound hmake.sound.root
  case filled =>
    intro r hnone hsome
    by_cases hr : r = d ++ [name]
    · exact .inl hr
    have hbetween : (t.add d name (.directory changed)).look r = none := by
      rw [look_add, if_neg hr]
      exact hnone
    by_cases hamong : Among (d ++ [name]) names r
    · obtain ⟨x, rfl, hx | ⟨final, tag, rfl⟩⟩ := hamong
      · exact .inr ⟨x, fun heq ↦ hdots (heq ▸ hx), rfl⟩
      · exact .inr ⟨_, FileAct.draftName_ne_dots final tag, rfl⟩
    · exact absurd (hedits.look_eq_none hamong hbetween) hsome

/-- How the tree has become what it is when a snapshot was written, or could not be. -/
theorem ends_writeAll_lays (s : Store) {snapshot : Snapshot} (hw : w.files.Sound)
    (hroot : s.root.isAbsolute = true) (hdots : ".." ∉ (s.location runId key).names)
    (hlocation : snapshot.location = s.location runId key) :
    Ends (s.writeAll snapshot) w
      (fun _ w' ↦ Lays (s.location runId key) w.files w'.files) fun _ _ ↦ False := by
  have hp : (s.location runId key).isAbsolute = true := hroot
  unfold writeAll
  refine ends_bind.mpr (ends_get.mpr (ends_bind.mpr (Act.ends_tryFiles.mpr ?_)))
  rw [hlocation]
  refine ((FileAct.ends_makeNewPath_paved hp hw).and
    (FileAct.ends_makeNewPath_sprouts hp hdots hw)).mono ?_ ?_
  case refine_2 =>
    rintro e t ⟨hpaved, -, hor⟩
    refine ends_pure.mpr ⟨t, hpaved, .inr ⟨.refl hpaved.grows.sound, fun _ ↦ id, fun d hwalk ↦ ?_⟩⟩
    rcases hor with rfl | ⟨above, rest, hsplit, hrest, hsprouts⟩
    · exact hwalk.whole
    · rw [hsplit] at hwalk
      exact absurd hwalk (hsprouts.no_walk hpaved.grows.sound hrest
        fun h ↦ hdots (hsplit ▸ List.mem_append_right _ h))
  rintro _ t ⟨⟨t₁, hpaved, hmade⟩, -⟩
  have ht₁ := hpaved.grows.sound
  obtain ⟨home, -, hclean, hfresh⟩ :=
    FileAct.Made.child (p := s.root.child runId) ht₁ hroot hmade
  have hfurnishes : ∀ {names : List String} {t' : FileTree}, ".." ∉ names →
      Edits (Among (home ++ [key]) names) t t' → Lays (s.location runId key) w.files t' := by
    intro names t' hnames hedits
    exact ⟨t₁, hpaved, .inl ⟨_, furnishes_of_edits ht₁ hp hmade hclean.walk hfresh hedits hnames⟩⟩
  dsimp only
  refine (ends_writeContents hclean _ ne_of_mem_entries (pairwise_entries _ _ _)).bind ?_
  rintro outcome w₁ ⟨htouches, hedits, -⟩
  generalize hentries : (snapshot.files.mapIdx fun index file ↦
    (ManifestEntry.ofFile s.project (Calendar.stampText w.files.tick) index file, file.2)) =
      entries at htouches hedits ⊢
  have hnames : ".." ∉ entries.filterMap (·.1.backup) := by
    intro hmem
    obtain ⟨e, he, hname⟩ := List.mem_filterMap.mp hmem
    exact (ne_of_mem_entries e (hentries ▸ he) _ hname).1 rfl
  split
  · exact ends_pure.mpr (hfurnishes hnames (hedits hdots))
  · have hmanifest : manifestName ≠ ".." := by decide
    refine ((hclean.touched htouches).ends_replaceContent hmanifest _).mono ?_ fun _ _ h ↦ h
    rintro outcome w₂ ⟨-, hedited, -⟩
    have hall : ".." ∉ manifestName :: entries.filterMap (·.1.backup) := by
      simpa [hmanifest.symm] using hnames
    have hbackups := (hedits hdots).mono fun r hr ↦ hr.mono (List.subset_cons_self manifestName _)
    exact hfurnishes hall (hbackups.trans ((hedited hdots).mono fun r hr ↦ hr.mono (by simp)))

/-- Taking a snapshot makes things at its location only. When it fails, what is left of them are
directories on the way to that of the run. -/
theorem ends_snapshot_laid (s : Store) (hw : w.files.Sound) (hroot : s.root.isAbsolute = true)
    (hdots : ".." ∉ s.root.names) (files : List Path) :
    Ends (s.snapshot runId key files) w
      (fun _ w' ↦ ∀ r, w.files.look r = none → w'.files.look r ≠ none →
        w'.files.LaidAt (s.location runId key) r)
      fun _ w' ↦ ∀ r, w.files.look r = none → w'.files.look r ≠ none →
        w'.files.OnWay (s.root.child runId) r := by
  have hp : (s.location runId key).isAbsolute = true := hroot
  have hparent : (s.location runId key).parent = s.root.child runId := Path.parent_child _ _
  have hsame : ∀ r, w.files.look r = none → w.files.look r ≠ none →
      w.files.OnWay (s.root.child runId) r := fun _ hnone hsome ↦ absurd hnone hsome
  have hstill : ∀ {w'}, w.Still w' → ∀ r, w.files.look r = none → w'.files.look r ≠ none →
      w'.files.OnWay (s.root.child runId) r := fun h r hnone hsome ↦ absurd (h.free r hnone) hsome
  refine ends_snapshot_of (fun _ _ ↦ hsame) ?_ fun hgrants ↦ ?_
  · exact fun _ _ _ _ _ _ ↦ Act.ends_log fun _ h ↦ hstill h
  have hdots' := location_no_dots hdots hgrants.names
  refine (((ends_writeAll_lays s hw hroot hdots' rfl).and
    (ends_writeAll s hw hroot rfl)).mono (fun _ _ h ↦ h) fun _ _ h ↦ h.1.elim).bind ?_
  rintro outcome w₁ ⟨hlays, hwrote⟩
  have hw₁ := (hwrote.touches.files hw).sound
  cases outcome with
  | ok _ =>
    exact ends_bind.mpr (Act.ends_log fun w₂ h ↦ ends_pure.mpr fun r hnone hsome ↦
      (h.lays hw₁ hlays).laidAt hnone hsome)
  | error e =>
    refine ends_bind.mpr (Act.ends_log fun w₂ hlog ↦ ends_bind.mpr ?_)
    have hlaid := hlog.lays hw₁ hlays
    refine Act.ends_tryFiles.mpr ((ends_removeTree (p := s.location runId key) hp).mono ?_
      fun _ _ h ↦ h.elim)
    rintro _ t (⟨rfl, hnowhere⟩ | ⟨hfits, d, rfl, hwalk⟩)
    · exact ends_throw.mpr fun r hnone hsome ↦
        hparent ▸ hlaid.left hgrants.size_le hnowhere hnone hsome
    · refine ends_throw.mpr fun r hnone hsome ↦
        hparent ▸ hlaid.removed (fun d' hthere ↦ ?_) hwalk hnone hsome
      obtain ⟨changed, hto⟩ := walk_of_directory hp hfits hthere
      exact hgrants.free d' _ hto

/-- Taking a snapshot takes nothing away, and what is new stands at its location. -/
theorem ends_snapshot_confined (s : Store) (hw : w.files.Sound) (hroot : s.root.isAbsolute = true)
    (hdots : ".." ∉ s.root.names) (files : List Path) :
    Ends (s.snapshot runId key files) w (fun _ w' ↦ w.Confined (s.location runId key) w')
      fun _ w' ↦ w.Confined (s.location runId key) w' := by
  have hp : (s.location runId key).isAbsolute = true := hroot
  refine ((s.ends_snapshot hw hroot files).and (s.ends_snapshot_laid hw hroot hdots files)).mono
    ?_ ?_
  · rintro taken w' ⟨htaken, hlaid⟩
    exact ⟨htaken.touches.mono fun _ ↦ And.right,
      fun r hnone hsome ↦ (hlaid r hnone hsome).standsAt hp⟩
  · rintro e w' ⟨hmissed, hlaid⟩
    exact ⟨(hmissed.touches hdots).mono fun _ ↦ And.right, fun r hnone hsome ↦
      ((hlaid r hnone hsome).laidAt (.child _ _)).standsAt hp⟩

end Store

/-! ### Paths of backups -/

/-- Names that lead down from a directory, one after the other. -/
def Descends (names : List String) : Prop := ∀ name ∈ names, IsPathName name ∧ name ≠ ".."

/-- A directory of backups that is accepted is relative and has no two dots in it. -/
theorem strayDirectory?_of_directoryReader {setting : Setting} {directory : String}
    (h : directoryReader setting = .good directory) : strayDirectory? directory = none := by
  cases setting with
  | map entries =>
    rcases Reader.field_eq_good h with rfl | ⟨s, hs⟩
    · decide
    · exact (Checked.ensure_eq_good hs).2
  | _ => cases h

theorem relative_of_directoryReader {setting : Setting} {directory : String}
    (h : directoryReader setting = .good directory) :
    (Path.ofString directory).isAbsolute = false ∧ Descends (Path.ofString directory).names := by
  have hstray := strayDirectory?_of_directoryReader h
  unfold strayDirectory? at hstray
  dsimp only at hstray
  split at hstray
  · cases hstray
  · rename_i hinside
    rw [Bool.or_eq_true, not_or, List.contains_iff_mem] at hinside
    refine ⟨by simpa using hinside.1, fun name hname ↦ ⟨Path.written_ofString _ name hname, ?_⟩⟩
    rintro rfl
    exact hinside.2 hname

theorem descends_of_isBackupName {runId key : String} (hrunId : isBackupName runId = true)
    (hkey : isBackupName key = true) : Descends [runId, key] := by
  have hname : ∀ {name}, isBackupName name = true → IsPathName name ∧ name ≠ ".." :=
    fun h ↦ ⟨isPathName_of_isBackupName h, Store.ne_dots_of_isBackupName h⟩
  intro name hmem
  rcases List.mem_pair.mp hmem with rfl | rfl
  · exact hname hrunId
  · exact hname hkey

namespace Store

/-- The backups of a store lie inside the project, as their paths are written. -/
structure IsInside (project : Route) (directory : String) (s : Store) : Prop where
  /-- The root is the project itself only if the directory is a single dot, however written. -/
  root : ∃ rest, Descends rest ∧ s.root = Route.path (project ++ rest) ∧
    (rest = [] → (Path.ofString directory).text = ".")
  lock : (RunLock.ofProject (Route.path project) directory).path = s.root.child lockName ∧
    Descends [lockName]
  location : ∀ runId key, isBackupName runId = true → isBackupName key = true →
    s.location runId key = ⟨s.root.root, s.root.names ++ [runId, key]⟩ ∧ Descends [runId, key]
  apart : ∀ runId key runId' key', (s.location runId key).Above (s.location runId' key') →
    runId = runId' ∧ key = key'
  confined : ∀ runId key files (w : World), w.files.Sound →
    Ends (s.snapshot runId key files) w (fun _ w' ↦ w.Confined (s.location runId key) w')
      fun _ w' ↦ w.Confined (s.location runId key) w'

/-- Whatever directory the settings accept, the backups of a project stay inside it. The project is
at a resolved path, so there are no two dots in its route. -/
theorem isInside_of_directoryReader {setting : Setting} {directory : String} {project : Route}
    {s : Store} (hdirectory : directoryReader setting = .good directory) (hproject : ".." ∉ project)
    (hs : s.IsOf project directory) : s.IsInside project directory := by
  obtain ⟨hrelative, hnames⟩ := relative_of_directoryReader hdirectory
  have hroot : s.root = Route.path (project ++ (Path.ofString directory).names) := by
    rw [hs.root_eq]
    show Path.join _ _ = _
    rw [Path.join, hrelative]
    rfl
  have hdots : ".." ∉ s.root.names := by
    rw [hroot]
    intro hmem
    rcases List.mem_append.mp hmem with hmem | hmem
    · exact hproject hmem
    · exact (hnames _ hmem).2 rfl
  constructor
  case root =>
    refine ⟨_, hnames, hroot, fun hnil ↦ ?_⟩
    have hnone : (Path.ofString directory).root = .none := by
      simpa [Path.isAbsolute] using hrelative
    rw [Path.text, hnil, hnone]
  case lock =>
    refine ⟨?_, ?_⟩
    · rw [hs.root_eq]
      rfl
    · exact fun name hname ↦ List.mem_singleton.mp hname ▸
        ⟨⟨by decide, by decide, by decide⟩, by decide⟩
  case location =>
    refine fun runId key hrunId hkey ↦ ⟨?_, descends_of_isBackupName hrunId hkey⟩
    simp [location, Path.child]
  case apart =>
    intro runId key runId' key' habove
    have hsame := habove.2.eq_of_length (by simp [location, Path.child])
    simpa [location, Path.child] using hsame
  case confined =>
    exact fun runId key files w hw ↦ s.ends_snapshot_confined hw (hroot ▸ rfl) hdots files

theorem isInside_of_directoryReader_sample :
    directoryReader (.map [(.text "directory", .text "state//./backups/")]) =
        .good "state//./backups/" ∧
      (ofProject ["p"] "state//./backups/").IsInside ["p"] "state//./backups/" := by
  have hread : (Reader.text (.text "state//./backups/")).ensure strayDirectory? =
      .good "state//./backups/" := by
    have hinside : strayDirectory? "state//./backups/" = none := by decide +kernel
    simp [Reader.text, Checked.ensure, Checked.andThen, hinside]
  have haccepts : directoryReader (.map [(.text "directory", .text "state//./backups/")]) =
      .good "state//./backups/" := by
    simp [directoryReader, Reader.record, Reader.field, Setting.field?, Setting.lookup,
      Setting.sameKey_text_iff, hread]
  exact ⟨haccepts, isInside_of_directoryReader haccepts (by decide) ⟨rfl, rfl⟩⟩

end Store

end Remedy
