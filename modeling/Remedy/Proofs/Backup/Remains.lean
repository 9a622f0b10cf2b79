import Remedy.Proofs.Backup.Confining
import Remedy.Proofs.Backup.Foiling
import Remedy.Proofs.Offsite
import Remedy.Proofs.Tree.Sight

/-!
# What is left of a snapshot that could not be taken

If a snapshot is refused before anything of it is written, nothing but the log goes on
(`World.Unmarked`). If it could not be written, everything that was done for it was done along the route
of its directory (`World.Trails`), and what there was of it has been taken away, so that nothing is
left but directories on the way to that of the run (`Store.ends_snapshot_remains`).

This is about backups that are where their path says (`Store.Plain`): there are no links on the way
to their directory or in it.
-/

set_option autoImplicit false

namespace Remedy

open FileTree

/-! ### The log -/

/-- Nothing but the log has gone on. -/
structure World.Unmarked (w w' : World) : Prop where
  log : w'.logFile = w.logFile
  directory : w'.files.directory = w.files.directory
  off : w.files.Off w.logFile (fun _ ↦ false) w'.files

/-- What does not concern the files leaves them as they are. -/
theorem World.Unmarked.of_eq {w w' : World} (hfiles : w'.files = w.files)
    (hlog : w'.logFile = w.logFile) : w.Unmarked w' :=
  ⟨hlog, congrArg FileTree.directory hfiles, by rw [hfiles]; exact .refl w.files⟩

theorem Act.isPassing_unmarked : IsPassing World.Unmarked where
  refl w := .of_eq rfl rfl
  trans w w' w'' h h' :=
    ⟨h'.log.trans h.log, h'.directory.trans h.directory, h.off.trans (h.log ▸ h'.off)⟩
  record event := by
    refine keeps_modify fun w ↦ ?_
    dsimp only
    split
    · rename_i route hroute hprints
      refine ⟨rfl, (alike_append _ _ _).directory, ?_⟩
      rw [show w.logFile = some route from hroute]
      exact off_append _ _ _
    · exact .of_eq rfl rfl
  aside w _ _ _ _ _ := .of_eq rfl rfl

theorem World.Unmarked.alike {w w' : World} (h : w.Unmarked w') : w.files.Alike w'.files :=
  ⟨h.directory, fun r ↦ (h.off.nodes r rfl).like⟩

/-! ### Work along a route -/

/-- Whatever has been done, the log left out, was done along the route, and nothing but directories
has been made or changed on the way to it. -/
structure FileTree.Trails (log : Option Route) (l : Route) (t t' : FileTree) : Prop where
  off : Off log (fun r ↦ decide (Route.Along l r)) t t'
  way : ∀ r, r <+: l → r ≠ l → Built (t.node? r) (t'.node? r)
  bare : t'.Bare l

/-- If there was no link along the route, and the log is not there, then what has been done was done
along the route. -/
structure World.Trails (l : Route) (w w' : World) : Prop where
  log : w'.logFile = w.logFile
  files : w.files.Bare l → (∀ r, w.logFile = some r → ¬ Route.Along l r) →
    w.files.Trails w.logFile l w'.files

theorem World.Unmarked.trails {w w' : World} (h : w.Unmarked w') (l : Route) : w.Trails l w' where
  log := h.log
  files hbare hlog := by
    constructor
    case off => exact h.off.mono fun _ _ ↦ rfl
    case bare => exact fun r hr ↦ (h.alike.links r).trans (hbare r hr)
    case way =>
      intro r hr _
      have hkept := h.off.nodes r rfl
      generalize w.files.node? r = node, w'.files.node? r = node' at hkept
      cases hkept with
      | same => exact .same _
      | log heq => exact absurd (.inl hr) (hlog r heq)

theorem Act.isPassing_trails (l : Route) : IsPassing (World.Trails l) where
  refl w := (isPassing_unmarked.refl w).trails l
  trans w w' w'' h h' := by
    refine ⟨h'.log.trans h.log, fun hbare hlog ↦ ?_⟩
    have hfirst := h.files hbare hlog
    have hthen := h'.files hfirst.bare (h.log ▸ hlog)
    rw [h.log] at hthen
    exact ⟨hfirst.off.trans hthen.off, fun r hr hne ↦ (hfirst.way r hr hne).trans
      (hthen.way r hr hne), hthen.bare⟩
  record event w := (isPassing_unmarked.record event w).mono (fun _ _ h ↦ h.trails l) fun _ _ h ↦
    h.trails l
  aside w _ _ _ _ hinterrupt := (isPassing_unmarked.aside w _ _ _ _ hinterrupt).trails l

namespace Act

variable {α : Type} {l : Route}

theorem trails_tryFiles {act : FileAct α} (h : FileAct.WorksAlong l act) :
    Keeps (World.Trails l) (tryFiles act) := by
  intro w
  have htrails : ∀ {t}, (w.files.Bare l → w.files.Works l t) →
      w.Trails l { w with files := t } := fun hworks ↦
    ⟨rfl, fun hbare _ ↦ ⟨(hworks hbare).off, (hworks hbare).way, (hworks hbare).bare⟩⟩
  have hends : Ends act w.files (fun _ t ↦ w.files.Bare l → w.files.Works l t)
      fun _ t ↦ w.files.Bare l → w.files.Works l t := by
    by_cases hbare : w.files.Bare l
    · exact (h w.files hbare).mono (fun _ _ h _ ↦ h) fun _ _ h _ ↦ h
    · exact ends_of_forall (fun _ _ h ↦ absurd h hbare) fun _ _ h ↦ absurd h hbare
  exact ends_tryFiles.mpr (hends.mono (fun _ _ ↦ htrails) fun _ _ ↦ htrails)

theorem trails_replaceContent {p : Path} (hp : p.isAbsolute = true) (hdots : ".." ∉ p.names)
    (hbelow : l <+: p.parent.names) (hl : l ≠ []) (content : Text.Bytes) :
    Keeps (World.Trails l) (replaceContent p content) := by
  have hdraw : Keeps (World.Trails l) drawName := by
    intro w
    unfold drawName
    have hdrawn : w.Unmarked { w with draws := w.draws + 1 } := .of_eq rfl rfl
    exact ends_bind.mpr (ends_get.mpr (ends_bind.mpr (ends_set.mpr (ends_pure.mpr
      (hdrawn.trails l)))))
  unfold replaceContent
  exact (isPassing_trails l).keeps_bind hdraw fun tag ↦
    trails_tryFiles (FileAct.worksAlong_replaceContent hp hdots hbelow hl content tag)

end Act

/-! ### Directories on the way -/

theorem FileTree.Built.left {log : Option Route} {way r : Route} {node node' : Option Node}
    (h : Built node node') (hr : r <+: way) : Left log way r node node' := by
  cases h with
  | same => exact .kept (.same _)
  | touched => exact .touched hr _ _
  | made => exact .made hr _

/-- What is on the way along a path without links is on the way along its route. -/
theorem FileTree.OnWay.entries {t : FileTree} {p : Path} {r : Route} (h : t.OnWay p r)
    (hlinks : ∀ q, q <+: p.names → t.link? q = none) (hdots : ".." ∉ p.names) :
    r <+: p.names ∧ ∀ name ∈ r, IsEntry name := by
  obtain ⟨q, hq, hfits, ⟨d, name, hreaches, rfl⟩, -⟩ := h
  have hfront : q.names.dropLast <+: p.names := (List.dropLast_prefix _).trans hq.2
  obtain rfl : d = q.names.dropLast := hreaches.walk.route_eq
    (fun r hr ↦ hlinks r (hr.trans hfront)) fun hmem ↦ hdots (hfront.subset hmem)
  rw [← hreaches.names]
  exact ⟨hq.2, fun m hm ↦ ⟨fun hm' ↦ hdots (hq.2.subset (hm' ▸ hm)), hfits m hm⟩⟩

/-- All names in the tree are names that something in a directory can have. -/
def FileTree.Named (t : FileTree) : Prop := ∀ r, t.look r ≠ none → ∀ name ∈ r, IsEntry name

/-- Names that something in a directory can have lead up nowhere. -/
theorem no_dots_of_entries {names : List String} (h : ∀ name ∈ names, IsEntry name) :
    ".." ∉ names := fun hdots ↦ (h _ hdots).ne_dots rfl

namespace Store

variable {s : Store} {runId key : String} {w : World}

/-! ### Snapshots -/

section Writing

variable {location : Path} (hp : location.isAbsolute = true) (hdots : ".." ∉ location.names)
  (hne : location.names ≠ [])

include hp hdots hne

/-- What is written into the directory of a snapshot is written along its route. -/
theorem trails_child {name : String} (hname : name ≠ "..") (content : Text.Bytes) :
    Keeps (World.Trails location.names) (Act.replaceContent (location.child name) content) := by
  refine Act.trails_replaceContent (p := location.child name) hp ?_ ?_ hne content
  · intro hmem
    rcases List.mem_append.mp hmem with hmem | hmem
    · exact hdots hmem
    · exact hname (List.mem_singleton.mp hmem).symm
  · rw [Path.parent_child]

theorem trails_writeContents {entries : List (ManifestEntry × Option Text.Bytes)}
    (hentries : ∀ e ∈ entries, ∀ name, e.1.backup = some name → name ≠ "..") :
    Keeps (World.Trails location.names) (writeContents location entries) := by
  have hR := Act.isPassing_trails location.names
  induction entries with
  | nil => exact hR.keeps_pure _
  | cons e rest ih =>
    obtain ⟨hfirst, hrest⟩ := List.forall_mem_cons.mp hentries
    unfold writeContents
    split
    · rename_i name content hbackup _
      refine hR.keeps_bind (trails_child hp hdots hne (hfirst name hbackup) content) fun outcome ↦ ?_
      split
      · exact ih hrest
      · exact hR.keeps_pure _
    · exact ih hrest

theorem trails_writeAll (s : Store) {snapshot : Snapshot} (hlocation : snapshot.location = location) :
    Keeps (World.Trails location.names) (s.writeAll snapshot) := by
  have hR := Act.isPassing_trails location.names
  subst hlocation
  unfold writeAll
  refine hR.keeps_bind hR.keeps_get fun w ↦ ?_
  refine hR.keeps_bind (Act.trails_tryFiles (FileAct.worksAlong_makePath hp hdots
    (.inl List.prefix_rfl) false)) fun outcome ↦ ?_
  split
  · exact hR.keeps_pure _
  refine hR.keeps_bind (trails_writeContents hp hdots hne fun e he name hname ↦
    (ne_of_mem_entries e he name hname).1) fun outcome ↦ ?_
  split
  · exact hR.keeps_pure _
  · exact trails_child hp hdots hne (by decide) _

end Writing

/-- What is done to take a snapshot is done along the route of its directory. -/
theorem trails_snapshot (hroot : s.root.isAbsolute = true) (hdots : ".." ∉ s.root.names)
    (files : List Path) :
    Keeps (World.Trails (s.location runId key).names) (s.snapshot runId key files) := by
  have hR := Act.isPassing_trails (s.location runId key).names
  refine fun w ↦ ends_snapshot_of (fun _ _ ↦ hR.refl w) ?_ fun hgrants ↦ ?_
  · exact fun _ _ _ _ _ _ ↦ hR.ends_log fun _ h ↦ h
  have hp : (s.location runId key).isAbsolute = true := hroot
  have hdots' := location_no_dots hdots hgrants.names
  have hne : (s.location runId key).names ≠ [] := by simp [location, Path.child]
  refine hR.keeps_bind (trails_writeAll hp hdots' hne s rfl) (fun outcome ↦ ?_) w
  cases outcome with
  | error e =>
    refine hR.keeps_bind (hR.keeps_log _ _ _) fun _ ↦ ?_
    exact hR.keeps_bind (Act.trails_tryFiles (FileAct.worksAlong_removeTree hp hdots'
      List.prefix_rfl hne)) fun _ ↦ hR.keeps_throw _
  | ok _ => exact hR.keeps_bind (hR.keeps_log _ _ _) fun _ ↦ hR.keeps_pure _

/-- A snapshot could not be written that was to be. -/
structure Unwritten (s : Store) (runId key : String) (t : FileTree) (e : Fault) : Prop where
  fault : ∃ cause, e = .backup (.unwritable (s.location runId key).text cause)
  names : isBackupName runId = true ∧ isBackupName key = true
  size : (s.location runId key).text.utf8ByteSize ≤ pathLimit
  free : ∀ r node, t.walk (s.location runId key) ≠ .ok (.at r node)

/-- If a snapshot is not taken, it could not be written, or nothing but the log has gone on. -/
theorem ends_snapshot_unmarked (s : Store) (runId key : String) (files : List Path) (w : World) :
    Ends (s.snapshot runId key files) w (fun _ _ ↦ True)
      fun e w' ↦ w.Unmarked w' ∨ s.Unwritten runId key w.files e := by
  have hR := Act.isPassing_unmarked
  refine ends_snapshot_of (fun _ _ ↦ .inl (hR.refl w)) ?_ fun hgrants ↦ ?_
  · exact fun _ _ _ _ _ _ ↦ hR.ends_log fun _ h ↦ .inl h
  refine (s.raises_writeAll _).thenEnds fun outcome w₁ ↦ (ends_settle s _ outcome w₁).mono
    (fun _ _ _ ↦ trivial) ?_
  rintro _ w₂ ⟨cause, -, rfl⟩
  exact .inr ⟨⟨cause, rfl⟩, hgrants.names, hgrants.size_le, hgrants.free⟩

/-! ### What is left -/

/-- The backups are where their path says: it consists of names, and there are no links on the way
to their directory or in it. The log is somewhere else. -/
structure Plain (s : Store) (w : World) : Prop where
  sound : w.files.Sound
  named : w.files.Named
  absolute : s.root.isAbsolute = true
  entries : ∀ name ∈ s.root.names, IsEntry name
  bare : w.files.Bare s.root.names
  log : ∀ r, w.logFile = some r → ¬ Route.Along s.root.names r

variable {e : Fault}

theorem Plain.no_dots (hs : s.Plain w) : ".." ∉ s.root.names := no_dots_of_entries hs.entries

theorem root_prefix_location (s : Store) (runId key : String) :
    s.root.names <+: (s.location runId key).names :=
  (List.prefix_append s.root.names [runId]).trans (List.prefix_append _ [key])

/-- What is along the route of a snapshot is along that of the backups. -/
theorem along_root {r : Route} (h : Route.Along (s.location runId key).names r) :
    Route.Along s.root.names r := by
  rcases h with h | h
  · exact List.prefix_or_prefix_of_prefix h (root_prefix_location s runId key)
  · exact .inr ((root_prefix_location s runId key).trans h)

/-- A route of a snapshot is no part of that of a run. -/
theorem not_location_prefix (s : Store) (runId key name : String) :
    ¬ (s.location runId key).names <+: (s.root.child name).names := by
  intro h
  have hlength := h.length_le
  simp [location, Path.child] at hlength

/-- There is no link along the route of a snapshot, and the log is not there. -/
theorem Plain.trails {w' : World} (hs : s.Plain w) (h : w.Trails (s.location runId key).names w') :
    w.files.Trails w.logFile (s.location runId key).names w'.files :=
  h.files (fun r hr ↦ hs.bare r (along_root hr)) fun r hr hin ↦ hs.log r hr (along_root hin)

namespace Unwritten

variable (h : s.Unwritten runId key w.files e) (hs : s.Plain w)

include h hs

/-- There is nothing at the place of a snapshot that was to be written. -/
theorem vacant : w.files.look (s.location runId key).names = none := by
  by_contra hlook
  have hdirect : w.files.Direct (s.location runId key).names :=
    ⟨location_no_dots hs.no_dots h.names, fun q hq ↦ hs.bare q (along_root (.inl hq))⟩
  obtain ⟨node, hwalk⟩ := hdirect.walk_at (p := s.location runId key) hs.sound hs.absolute h.size
    (fun n hn ↦ (hs.named _ hlook n hn).fits) hlook
  exact h.free _ _ hwalk

theorem nothing_below {r : Route} (hr : (s.location runId key).names <+: r) :
    w.files.look r = none := by
  have hvacant := h.vacant hs
  by_cases heq : r = (s.location runId key).names
  · exact heq ▸ hvacant
  · exact hs.sound.look_below (not_hasDirectory_of_none hvacant) hr heq

/-- Nothing is left of it but directories on the way to that of the run. -/
theorem leaves {w' : World} (htrails : w.Trails (s.location runId key).names w')
    (hsound : w'.files.Sound) (hlinks : ∀ r, w'.files.link? r = w.files.link? r)
    (hnew : ∀ r, w.files.look r = none → w'.files.look r ≠ none →
      r <+: (s.root.child runId).names) :
    LeavesAlong w.logFile (s.root.child runId).names w.files w'.files := by
  have hfiles := hs.trails htrails
  refine ⟨hs.sound, hsound, hlinks, fun r ↦ ?_⟩
  by_cases habove : r <+: (s.location runId key).names ∧ r ≠ (s.location runId key).names
  · refine (hfiles.way r habove.1 habove.2).left ?_
    exact (List.prefix_concat_iff.mp habove.1).resolve_left habove.2
  by_cases hbelow : (s.location runId key).names <+: r
  · -- There was nothing, and what is new does not go as far.
    have hbefore := h.nothing_below hs hbelow
    have hafter : w'.files.look r = none := by
      by_contra hsome
      exact s.not_location_prefix _ _ _ (hbelow.trans (hnew r hbefore hsome))
    rw [node?_of_look_none hbefore, node?_of_look_none hafter]
    exact .kept (.same none)
  · refine .kept (hfiles.off.nodes r (decide_eq_false ?_))
    rintro (hr | hr)
    · exact habove ⟨hr, fun heq ↦ hbelow (heq ▸ List.prefix_rfl)⟩
    · exact hbelow hr

end Unwritten

/-- What there is after a snapshot could not be written: what is apart from its route is as it was,
and along its route nothing is left but directories on the way to that of the run. -/
structure Remains (s : Store) (runId key : String) (w w' : World) : Prop where
  named : w'.files.Named
  off : w.files.Off w.logFile (fun r ↦ decide (Route.Along (s.location runId key).names r)) w'.files
  leaves : LeavesAlong w.logFile (s.root.child runId).names w.files w'.files

/-- If a snapshot is not taken, nothing but the log has gone on, or it could not be written. -/
theorem ends_snapshot_remains (hs : s.Plain w) (files : List Path) :
    Ends (s.snapshot runId key files) w (fun _ _ ↦ True)
      fun e w' ↦ w.Unmarked w' ∨ s.Unwritten runId key w.files e ∧ s.Remains runId key w w' := by
  refine ((((s.ends_snapshot_unmarked runId key files w).and (trails_snapshot hs.absolute hs.no_dots
    files w)).and (s.ends_snapshot hs.sound hs.absolute files)).and
      (s.ends_snapshot_laid hs.sound hs.absolute hs.no_dots files)).mono (fun _ _ _ ↦ trivial) ?_
  rintro e w' ⟨⟨⟨hunmarked | hunwritten, htrails⟩, hmissed⟩, hlaid⟩
  · exact .inl hunmarked
  have hfiles := (hmissed.touches hs.no_dots).files hs.sound
  have hlinks := hfiles.alters.links
  have hbare : ∀ q, q <+: (s.root.child runId).names → w'.files.link? q = none := fun q hq ↦
    (hlinks q).trans (hs.bare q (along_root (.inl (hq.trans (List.prefix_append _ [key])))))
  have hdots : ".." ∉ (s.root.child runId).names := fun hmem ↦
    location_no_dots hs.no_dots hunwritten.names (List.mem_append_left _ hmem)
  have hnew := fun r hnone hsome ↦ (hlaid r hnone hsome).entries hbare hdots
  refine .inr ⟨hunwritten, ?_⟩
  constructor
  case named =>
    intro r hsome
    by_cases hnone : w.files.look r = none
    · exact (hnew r hnone hsome).2
    · exact hs.named r hnone
  case off => exact (hs.trails htrails).off
  case leaves =>
    exact hunwritten.leaves hs htrails hfiles.sound hlinks fun r hnone hsome ↦
      (hnew r hnone hsome).1

end Store

end Remedy
