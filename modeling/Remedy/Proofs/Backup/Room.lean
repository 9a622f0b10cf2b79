import Remedy.Proofs.Backup.Accepting
import Remedy.Proofs.Backup.Foiling
import Remedy.Proofs.Backup.Listing
import Remedy.Proofs.Tree.Likeness

/-!
# Room for a snapshot

A backup file is not written under its own name at once: its content is gathered in a draft beside
it, whose name is longer by the bytes of what is drawn for it. So a backup file can be written just
if there is room for this longer name (`Path.HasRoom`), and a snapshot of files each of which can be
read or is missing can be taken just if there is room for its manifest and for all its backup files
(`Store.ends_snapshot_room`). The snapshot that is then held is known beforehand: it holds what is
read of each file (`Store.picture`).

It is assumed that the directory of the snapshot can be made (`FileTree.Extensible`). Names of backup
files are made of whole paths, so that there may well be no room for a file far below although it can
be read.
-/

set_option autoImplicit false

namespace Remedy

open FileTree

/-! ### Room for a draft -/

namespace Path

variable {p : Path} {name : String}

/-- There is room beside the path for a draft of what is written there. -/
def HasRoom (p : Path) : Prop :=
  p.text.utf8ByteSize + 14 ≤ pathLimit ∧ p.name.utf8ByteSize + 14 ≤ nameLimit

instance (p : Path) : Decidable p.HasRoom :=
  inferInstanceAs (Decidable (_ ∧ _))

@[simp]
theorem name_child (p : Path) (name : String) : (p.child name).name = name := by
  simp [child, Path.name]

/-- Apart from its last name, the text of a path is the same for all names. -/
theorem exists_size_child (hp : p.isAbsolute = true) :
    ∃ size, ∀ name, (p.child name).text.utf8ByteSize = size + name.utf8ByteSize := by
  obtain ⟨root, names⟩ := p
  have htext : ∀ name, (Path.child ⟨root, names⟩ name).text.utf8ByteSize =
      (PathRoot.text root).utf8ByteSize +
        (String.intercalate "/" (names ++ [name])).utf8ByteSize := by
    intro name
    cases root with
    | none => cases hp
    | _ => exact String.utf8ByteSize_append
  rcases names with _ | ⟨first, rest⟩
  · exact ⟨_, fun name ↦ by rw [htext, List.nil_append, String.intercalate_singleton]⟩
  · refine ⟨(PathRoot.text root).utf8ByteSize +
      ((String.intercalate "/" (first :: rest)).utf8ByteSize + "/".utf8ByteSize), fun name ↦ ?_⟩
    rw [htext, String.intercalate_append_of_ne_nil (List.cons_ne_nil first rest)
      (List.cons_ne_nil _ _)]
    simp only [String.utf8ByteSize_append, String.intercalate_singleton]
    omega

/-- Just if there is room beside a path, its drafts are not too long. -/
theorem fits_draft_iff (hp : p.isAbsolute = true) (n : ℕ) :
    (FileAct.draft (p.child name) (drawnName n)).Fits ↔ (p.child name).HasRoom := by
  obtain ⟨size, hsize⟩ := exists_size_child hp
  have hdraft : FileAct.draft (p.child name) (drawnName n) =
      p.child (FileAct.draftName name (drawnName n)) := by
    rw [FileAct.draft, parent_child, name_child]
    rfl
  have hlength : (FileAct.draftName name (drawnName n)).utf8ByteSize = name.utf8ByteSize + 14 := by
    rw [FileAct.size_draftName, size_drawnName]
  rw [hdraft, Path.Fits, HasRoom, hsize, hsize, name_child, name_child, hlength, Nat.add_assoc]

theorem HasRoom.fits {p : Path} (h : p.HasRoom) : p.Fits :=
  ⟨(Nat.le_add_right _ _).trans h.1, (Nat.le_add_right _ _).trans h.2⟩

end Path

/-! ### Writing where there is room -/

/-- The path leads to a directory in which there is nothing but files, and can be followed. -/
structure Bare (t : FileTree) (p : Path) (h : Route) : Prop extends Cleanly t p h where
  short : p.text.utf8ByteSize ≤ pathLimit
  nul : p.hasNul = false
  flat : ∀ name, ¬ t.HasDirectory (h ++ [name])

section Writing

variable {t : FileTree} {w : World} {p : Path} {h : Route} {name : String}

/-- A directory that has just been made is one of these. -/
theorem bare_of_sprouts {t' : FileTree} (h : Sprouts p.names t t') (ht' : t'.Sound)
    (hp : p.isAbsolute = true) (hshort : p.text.utf8ByteSize ≤ pathLimit)
    (hnul : p.hasNul = false) : ∃ d, Bare t' p d := by
  obtain ⟨d, hwalk, -, hempty⟩ := h
  refine ⟨d, ⟨ht', hp, hwalk, fun name ↦ ?_⟩, hshort, hnul, fun name hdir ↦ ?_⟩
  · rw [link?, hempty]
  · exact not_hasDirectory_of_none (hempty name) hdir

theorem Bare.edited {t' : FileTree} {only : Route → Prop} (hbare : Bare t p h)
    (hedits : Edits only t t') : Bare t' p h where
  sound := hedits.sound
  absolute := hbare.absolute
  walk := hbare.walk.altered hedits.alters hbare.sound hbare.sound.root
  links name := (hedits.alters.links _).trans (hbare.links name)
  short := hbare.short
  nul := hbare.nul
  flat name hdir := hbare.flat name (hedits.flat _ hdir)

/-- A file is written into such a directory just if there is room beside it. -/
theorem Bare.ends_replace (hbare : Bare t p h) (hname : name ≠ "..") (content : Text.Bytes)
    (n : ℕ) :
    Ends (FileAct.replaceContent (p.child name) content (drawnName n)) t
      (fun _ t' ↦ (p.child name).HasRoom ∧ Bare t' p h) fun _ _ ↦ ¬ (p.child name).HasRoom := by
  have hreaches := reaches_child hbare.absolute hname hbare.walk
  have hlink := hbare.links name
  have hdraft := hbare.links (FileAct.draftName name (drawnName n))
  have hmade : Ends (FileAct.makePath (p.child name).parent true) t (fun _ t' ↦ t' = t)
      fun _ _ ↦ False := by
    rw [Path.parent_child]
    exact (ends_of_eq (makePath_of_directory hbare.absolute hbare.short hbare.nul hbare.walk)).mpr rfl
  unfold FileAct.replaceContent
  refine (hmade.mono (fun _ _ h ↦ h) fun _ _ ↦ False.elim).bind ?_
  rintro _ t rfl
  refine (FileAct.ends_replaceReached_edits hbare.sound hreaches hlink hdraft).mono ?_ ?_
  · rintro _ t' ⟨-, hedits, hfits, -⟩
    exact ⟨(Path.fits_draft_iff hbare.absolute n).mp hfits, hbare.edited hedits⟩
  · -- Nothing is in the way but the length of the name.
    rintro e t' ⟨-, hbotched⟩ hroom
    exact hbare.flat _ (hbotched.cause ((Path.fits_draft_iff hbare.absolute n).mpr hroom)
      hroom.fits hlink (hbare.flat name))

theorem Bare.ends_replaceContent (hbare : Bare w.files p h) (hname : name ≠ "..")
    (content : Text.Bytes) :
    Ends (Act.replaceContent (p.child name) content) w
      (fun outcome w' ↦ (outcome = .ok () ↔ (p.child name).HasRoom) ∧
        (outcome = .ok () → Bare w'.files p h))
      fun _ _ ↦ False := by
  unfold Act.replaceContent Act.drawName
  refine ends_bind.mpr (ends_bind.mpr (ends_get.mpr (ends_bind.mpr (ends_set.mpr ?_))))
  refine ends_pure.mpr (Act.ends_tryFiles.mpr ?_)
  refine (hbare.ends_replace hname content (w.draws + 1)).mono ?_ ?_
  · exact fun _ t ⟨hroom, hbare'⟩ ↦ ⟨iff_of_true rfl hroom, fun _ ↦ hbare'⟩
  · exact fun e t hnone ↦ ⟨iff_of_false nofun hnone, nofun⟩

/-- Backup files are written just if there is room for each of them. -/
theorem Bare.ends_writeContents (hbare : Bare w.files p h)
    (entries : List (ManifestEntry × Option Text.Bytes))
    (hnames : ∀ e ∈ entries, ∀ name, e.1.backup = some name → name ≠ "..") :
    Ends (Store.writeContents p entries) w
      (fun outcome w' ↦ (outcome = .ok () ↔ ∀ e ∈ entries, ∀ name content,
          e.1.backup = some name → e.2 = some content → (p.child name).HasRoom) ∧
        (outcome = .ok () → Bare w'.files p h))
      fun _ _ ↦ False := by
  induction entries generalizing w with
  | nil =>
    exact ends_pure.mpr ⟨iff_of_true rfl fun _ he ↦ absurd he List.not_mem_nil, fun _ ↦ hbare⟩
  | cons first rest ih =>
    obtain ⟨entry, content⟩ := first
    obtain ⟨hfirst, hrest⟩ := List.forall_mem_cons.mp hnames
    unfold Store.writeContents
    split
    · rename_i name content hbackup
      refine (hbare.ends_replaceContent (hfirst name hbackup) content).bind ?_
      rintro outcome w₁ ⟨hroom, hbare₁⟩
      split
      · refine (ih (hbare₁ rfl) hrest).mono ?_ fun _ _ ↦ id
        rintro outcome w₂ ⟨hall, hbare₂⟩
        refine ⟨hall.trans ?_, hbare₂⟩
        rw [List.forall_mem_cons, iff_and_self]
        rintro - name' content' hname' -
        obtain rfl := Option.some.inj (hbackup.symm.trans hname')
        exact hroom.mp rfl
      · rename_i cause
        have hfailed : (Except.error cause : Except FileError Unit) ≠ .ok () := by simp
        refine ends_pure.mpr ⟨iff_of_false hfailed fun hall ↦ ?_, fun h ↦ absurd h hfailed⟩
        have himpossible := hroom.mpr (hall _ List.mem_cons_self name content hbackup rfl)
        cases himpossible
    · rename_i hnone
      refine (ih hbare hrest).mono ?_ fun _ _ ↦ id
      rintro outcome w₁ ⟨hall, hbare₁⟩
      refine ⟨hall.trans ?_, hbare₁⟩
      rw [List.forall_mem_cons, iff_and_self]
      exact fun _ name content hname hcontent ↦ absurd hcontent (hnone name content hname)

end Writing

/-! ### Room for a snapshot -/

namespace Snapshot

/-- There is room for the manifest of a snapshot and for its backup files. -/
structure HasRoom (s : Snapshot) (project : Route) : Prop where
  manifest : (s.location.child manifestName).HasRoom
  backups : ∀ (i : ℕ) r content, s.files[i]? = some (r, some content) →
    (s.backup project i r).HasRoom

/-- There is room or not whatever is in the files. -/
theorem HasRoom.congr {s s' : Snapshot} {project : Route} (h : s.HasRoom project)
    (hlocation : s'.location = s.location)
    (hfiles : s'.files.map (fun e ↦ (e.1, e.2.isSome)) = s.files.map fun e ↦ (e.1, e.2.isSome)) :
    s'.HasRoom project where
  manifest := hlocation ▸ h.manifest
  backups i r content hi := by
    have hsame := congrArg (·[i]?) hfiles
    simp only [List.getElem?_map, hi] at hsame
    obtain ⟨⟨r', content'⟩, hi', heq⟩ := Option.map_eq_some_iff.mp hsame.symm
    obtain ⟨rfl, hsome⟩ := Prod.mk.inj heq
    obtain ⟨old, rfl⟩ := Option.isSome_iff_exists.mp hsome
    rw [backup, hlocation]
    exact h.backups i r' old hi'

end Snapshot

namespace Store

variable {w : World} {runId key : String} {files : List Path}

/-- A snapshot is written just if there is room for it. -/
theorem ends_writeAll_iff (s : Store) {snapshot : Snapshot} (hw : w.files.Sound)
    (hplace : w.files.Extensible snapshot.location) (hnul : snapshot.location.hasNul = false) :
    Ends (s.writeAll snapshot) w (fun outcome _ ↦ outcome = .ok () ↔ snapshot.HasRoom s.project)
      fun _ _ ↦ False := by
  unfold writeAll
  refine ends_bind.mpr (ends_get.mpr (ends_bind.mpr (Act.ends_tryFiles.mpr ?_)))
  refine (FileAct.ends_makePath_extensible hplace hw false).mono ?_ fun _ _ ↦ False.elim
  rintro _ t ⟨t₁, hgrows, hmade⟩
  have hmake := hgrows.trans (hmade.grows hgrows.sound)
  obtain ⟨h, hbare⟩ := bare_of_sprouts
    (hmade.sprouts hgrows.sound fun _ ↦ FileAct.look_of_grows hgrows) hmake.sound hplace.absolute
    hplace.short hnul
  dsimp only
  refine (hbare.ends_writeContents _ fun e he name hname ↦ (ne_of_mem_entries e he name hname).1).bind
    ?_
  rintro outcome w₁ ⟨hbackups, hbare₁⟩
  have hall : outcome = .ok () ↔ ∀ (i : ℕ) r content, snapshot.files[i]? = some (r, some content) →
      (snapshot.backup s.project i r).HasRoom := by
    refine hbackups.trans ⟨fun hroom i r content hi ↦ ?_, fun hroom e he name content hname hcontent ↦ ?_⟩
    · obtain ⟨hlength, hfile⟩ := List.getElem?_eq_some_iff.mp hi
      exact hroom _ (List.mem_mapIdx.mpr ⟨i, hlength, rfl⟩)
        (backupName i (Route.shownFrom s.project r)) content
        (by simp [hfile, ManifestEntry.ofFile]) (by rw [hfile])
    · obtain ⟨i, hlength, rfl⟩ := List.mem_mapIdx.mp he
      obtain rfl := backup_ofFile hname
      refine hroom i snapshot.files[i].1 content (List.getElem?_eq_some_iff.mpr ⟨hlength, ?_⟩)
      exact Prod.ext rfl hcontent
  split
  · refine ends_pure.mpr (iff_of_false (by simp) fun hroom ↦ ?_)
    have himpossible := hall.mpr hroom.backups
    cases himpossible
  · refine ((hbare₁ rfl).ends_replaceContent (by decide) _).mono ?_ fun _ _ ↦ id
    rintro outcome w₂ ⟨hmanifest, -⟩
    exact hmanifest.trans ⟨fun hroom ↦ ⟨hroom, hall.mp rfl⟩, fun hroom ↦ hroom.manifest⟩

/-! ### What is taken -/

/-- Only where the paths lead matters. -/
theorem routes_congr {s : Store} {files files' : List Path} {t t' : FileTree}
    (h : ∀ r, (∃ p ∈ files, t.resolve ((Route.path s.project).join p) = .ok r) ↔
      ∃ p ∈ files', t'.resolve ((Route.path s.project).join p) = .ok r) :
    s.routes files t = s.routes files' t' := by
  have hsorted : ∀ (files : List Path) (t : FileTree), (s.routes files t).SortedLE := by
    intro files t
    rw [routes, mergeSort_le]
    exact List.sortedLE_insertionSort
  exact ((List.perm_ext_iff_of_nodup (nodup_routes _ _ _) (nodup_routes _ _ _)).mpr fun r ↦
    mem_routes.trans ((h r).trans mem_routes.symm)).eq_of_sortedLE (hsorted _ _) (hsorted _ _)

theorem picture_singleton {s : Store} {t : FileTree} {p : Path} {r : Route}
    (h : t.resolve ((Route.path s.project).join p) = .ok r) :
    (s.picture runId key [p] t).files = [(r, (t.content (Route.path r)).toOption)] := by
  have hroutes : s.routes [p] t = [r] := by
    rw [routes, mergeSort_le, List.filterMap_cons, h]
    rfl
  rw [picture, hroutes, List.map_singleton]

/-- A snapshot can be taken of the files under names that are not in use, if the directory for it
can be made. -/
structure Receives (s : Store) (runId key : String) (files : List Path) (t : FileTree) : Prop where
  names : isBackupName runId = true ∧ isBackupName key = true
  unheld : s.get runId key = none
  nul : s.root.hasNul = false
  place : t.Extensible (s.location runId key)
  files : s.Recordable files t

/-- What files hold does not matter for that, nor when directories were changed. -/
theorem Receives.alike {s : Store} {t t' : FileTree} (h : s.Receives runId key files t)
    (halike : t.Alike t') (ht : t.Sound) : s.Receives runId key files t' where
  names := h.names
  unheld := h.unheld
  nul := h.nul
  place := halike.extensible ht h.place
  files p hp := by
    obtain ⟨r, hr, hmissing⟩ := h.files p hp
    refine ⟨r, (halike.resolve (Path.isAbsolute_join _ _)).trans hr, fun e he ↦ ?_⟩
    exact hmissing e (halike.content_error.mp he)

/-- There is room for a snapshot of files whatever they hold. -/
theorem picture_hasRoom_alike {s : Store} {t t' : FileTree} (halike : t.Alike t') :
    (s.picture runId key files t').HasRoom s.project ↔
      (s.picture runId key files t).HasRoom s.project := by
  have hroutes : s.routes files t' = s.routes files t := routes_congr fun r ↦
    exists_congr fun p ↦ and_congr_right fun _ ↦ by rw [halike.resolve (Path.isAbsolute_join _ _)]
  have hsome : ∀ p, (t'.content p).toOption.isSome = (t.content p).toOption.isSome := by
    intro p
    cases hcontent : t.content p with
    | error e => rw [halike.content_error.mpr hcontent]
    | ok content =>
      cases hcontent' : t'.content p with
      | ok content' => rfl
      | error e => exact nomatch hcontent.symm.trans (halike.content_error.mp hcontent')
  have hfiles : (s.picture runId key files t').files.map (fun e ↦ (e.1, e.2.isSome)) =
      (s.picture runId key files t).files.map fun e ↦ (e.1, e.2.isSome) := by
    simp only [picture, List.map_map, hroutes]
    exact List.map_congr_left fun r _ ↦ Prod.ext rfl (hsome _)
  exact ⟨fun h ↦ h.congr rfl hfiles.symm, fun h ↦ h.congr rfl hfiles⟩

section Routed

variable {s : Store} {t : FileTree} {routed : List Route}
  (hrouted : ∀ r, r ∈ routed ↔ ∃ p ∈ files, t.resolve ((Route.path s.project).join p) = .ok r)
  (hagain : ∀ r ∈ routed, t.resolve (Route.path r) = .ok r)

include hrouted hagain

/-- It makes no difference if the paths are followed before, as long as where they lead leads to
itself. -/
theorem picture_routed : s.picture runId key (routed.map Route.path) t = s.picture runId key files t := by
  unfold picture
  rw [routes_congr fun r ↦ ⟨?_, fun hr ↦ ?_⟩]
  · rintro ⟨_, hpath, hr⟩
    obtain ⟨q, hq, rfl⟩ := List.mem_map.mp hpath
    obtain rfl : q = r := Except.ok.inj ((hagain q hq).symm.trans hr)
    exact (hrouted q).mp hq
  · have hmem := (hrouted r).mpr hr
    exact ⟨_, List.mem_map_of_mem hmem, hagain r hmem⟩

theorem Receives.of_routed (h : s.Receives runId key files t) :
    s.Receives runId key (routed.map Route.path) t := by
  refine { h with files := fun q hq ↦ ?_ }
  obtain ⟨r, hr, rfl⟩ := List.mem_map.mp hq
  obtain ⟨p, hp, hpr⟩ := (hrouted r).mp hr
  obtain ⟨r', hr', hmissing⟩ := h.files p hp
  obtain rfl : r' = r := Except.ok.inj (hr'.symm.trans hpr)
  exact ⟨r', hagain r' hr, hmissing⟩

end Routed

/-- What can be recorded under names that are not in use is recorded just if there is room for it,
and then the snapshot is held in which each file has the content that is read of it. -/
theorem ends_snapshot_room (s : Store) (hw : w.files.Sound)
    (h : s.Receives runId key files w.files) :
    Ends (s.snapshot runId key files) w
      (fun taken _ ↦ (s.picture runId key files w.files).HasRoom s.project ∧
        taken = (s.picture runId key files w.files, s.hold (s.picture runId key files w.files)))
      fun e _ ↦ ¬ (s.picture runId key files w.files).HasRoom s.project ∧
        ∃ cause, e = .backup (.unwritable (s.location runId key).text cause) := by
  have hnul := hasNul_location h.nul h.names
  refine ends_snapshot_of (fun e hrejects ↦ ?_) (fun _ r hr cause hcause hother ↦ ?_) fun _ ↦ ?_
  · have hwalk := h.place.walk_eq hw
    cases hrejects with
    | names _ _ hnames => exact absurd h.names hnames
    | duplicate hheld => exact absurd h.unheld hheld
    | place hlong => simp [hlong] at hwalk
    | occupied hthere =>
      obtain ⟨-, r, node, hat⟩ := (present_iff hthere).mp rfl
      simp [hat] at hwalk
    | file _ hp he =>
      obtain ⟨r, hr, -⟩ := h.files _ hp
      exact nomatch hr.symm.trans he
    | nul _ _ hyes => exact nomatch hnul.symm.trans hyes
  · exact absurd (h.files.readable hr cause hcause) hother
  refine ((ends_writeAll_iff s hw h.place hnul).mono (fun _ _ h ↦ h) fun _ _ ↦ False.elim).bind ?_
  intro outcome w₁ hroom
  refine (ends_settle s _ outcome w₁).mono ?_ ?_
  · rintro _ w₂ ⟨rfl, rfl⟩
    exact ⟨hroom.mp rfl, rfl⟩
  · rintro _ w₂ ⟨cause, rfl, rfl⟩
    exact ⟨fun hyes ↦ (nomatch hroom.mpr hyes), cause, rfl⟩

end Store

end Remedy
