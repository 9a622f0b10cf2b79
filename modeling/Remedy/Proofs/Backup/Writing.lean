import Remedy.Backup.Store
import Remedy.Proofs.Backup.Naming
import Remedy.Proofs.Quiet

/-!
# Writing snapshots

The directory of a snapshot is new, so no link lies in it, and whatever is written into it stays
there (`Cleanly`). The backup files have different names, none of which is that of a draft or of the
manifest, so each of them is as it was written when all of them are (`Store.ends_writeContents`).

`Snapshot.Kept` says that a snapshot lies in its directory: the manifest and the backup files are
read as they were written. This is so when a snapshot has been written, unless the program writes
its log into the same directory (`Store.ends_writeAll`).
-/

set_option autoImplicit false

namespace Remedy

open FileTree

/-! ### Writing a file -/

/-- The name that the draws of a world lead to. -/
def drawnName (n : Nat) : String := String.ofList (Text.hexPadded 8 n)

theorem Act.ends_replaceContent {w : World} {p : Path} {content : Text.Bytes} {d : Route}
    {name : String} (hw : w.files.Sound) (hp : p.isAbsolute = true)
    (hnames : p.names = p.names.dropLast ++ [name]) (hdots : name ≠ "..")
    (hparent : w.files.traced p.parent = .done d) (hlink : w.files.link? (d ++ [name]) = none)
    (hdrafts : ∀ n, w.files.link? (d ++ [FileAct.draftName name (drawnName n)]) = none) :
    Ends (Act.replaceContent p content) w
      (fun outcome w' ↦ w'.logFile = w.logFile ∧ w'.locks = w.locks ∧
        (∃ n, FileAct.Rewrites d name (drawnName n) w.files w'.files) ∧
        (outcome = .ok () → p.Fits ∧ w'.files.bytes? (d ++ [name]) = some content))
      fun _ _ ↦ False := by
  unfold Act.replaceContent Act.drawName
  refine ends_bind.mpr (ends_bind.mpr (ends_get.mpr (ends_bind.mpr (ends_set.mpr ?_))))
  refine ends_pure.mpr (Act.ends_tryFiles.mpr ?_)
  refine (FileAct.ends_replaceContent hw hp hnames hdots hparent hlink (hdrafts _)).mono ?_ ?_
  · rintro _ t ⟨hrewrites, hcontent⟩
    exact ⟨rfl, rfl, ⟨_, hrewrites⟩, fun _ ↦ hcontent⟩
  · rintro e t hrewrites
    exact ⟨rfl, rfl, ⟨_, hrewrites⟩, fun h ↦ by cases h⟩

/-- In a directory that is there no directory is made. -/
theorem Act.ends_replaceContent_edits {w : World} {p : Path} {content : Text.Bytes} {d : Route}
    {name : String} (hw : w.files.Sound) (hreaches : w.files.Reaches p d name)
    (hdots : ".." ∉ p.parent.names) (hlink : w.files.link? (d ++ [name]) = none)
    (hdrafts : ∀ n, w.files.link? (d ++ [FileAct.draftName name (drawnName n)]) = none) :
    Ends (Act.replaceContent p content) w
      (fun _ w' ↦ ∃ n, Edits (FileAct.Beside d name (drawnName n)) w.files w'.files)
      fun _ _ ↦ False := by
  unfold Act.replaceContent Act.drawName
  refine ends_bind.mpr (ends_bind.mpr (ends_get.mpr (ends_bind.mpr (ends_set.mpr ?_))))
  refine ends_pure.mpr (Act.ends_tryFiles.mpr ?_)
  exact (FileAct.ends_replaceContent_edits hw hreaches hdots hlink (hdrafts _)).mono
    (fun _ _ h ↦ ⟨_, h⟩) fun _ _ h ↦ ⟨_, h⟩

/-! ### A directory of one's own -/

/-- The path leads to a directory in which no link lies. -/
structure Cleanly (t : FileTree) (p : Path) (h : Route) : Prop where
  sound : t.Sound
  absolute : p.isAbsolute = true
  walk : Walk t true linkLimit [] p.names (.at h (.directory 0))
  links : ∀ name, t.link? (h ++ [name]) = none

/-- The directory has a file of that name and content, and the path to it is not too long. -/
def Holds (t : FileTree) (p : Path) (h : Route) (name : String) (content : Text.Bytes) : Prop :=
  (p.child name).Fits ∧ t.bytes? (h ++ [name]) = some content

/-- The files of these names in a directory, and whatever drafts there are. -/
def Among (h : Route) (names : List String) (r : Route) : Prop :=
  ∃ name, r = h ++ [name] ∧ (name ∈ names ∨ ∃ final tag, name = FileAct.draftName final tag)

theorem Among.below {h r : Route} {names : List String} (hr : Among h names r) : h <+: r := by
  obtain ⟨name, rfl, -⟩ := hr
  exact List.prefix_append h [name]

theorem Among.mono {h r : Route} {names names' : List String} (hr : Among h names r)
    (hsub : names ⊆ names') : Among h names' r := by
  obtain ⟨name, hname, hor⟩ := hr
  exact ⟨name, hname, hor.imp_left (hsub ·)⟩

section Directories

variable {t : FileTree} {w w' : World} {p : Path} {h : Route} {name : String}
  {names : List String} {content : Text.Bytes} {only : Route → Prop}

theorem Cleanly.traced (hclean : Cleanly t p h) : t.traced p = .done h :=
  hclean.walk.traced hclean.sound hclean.absolute

theorem Cleanly.touched (hclean : Cleanly w.files p h) (htouches : w.Touches only w') :
    Cleanly w'.files p h where
  sound := (htouches.files hclean.sound).sound
  absolute := hclean.absolute
  walk := hclean.walk.altered (htouches.files hclean.sound).alters hclean.sound hclean.sound.root
  links name := by
    rw [(htouches.files hclean.sound).alters.links]
    exact hclean.links name

/-- A file stays as it is while others are written, if it is not the log. -/
theorem Holds.touched (hholds : Holds w.files p h name content) (hw : w.files.Sound)
    (htouches : w.Touches only w') (honly : ¬ only (h ++ [name]))
    (hlog : w.logFile ≠ some (h ++ [name])) : Holds w'.files p h name content := by
  refine ⟨hholds.1, ?_⟩
  rw [(htouches.files hw).alters.bytes _ fun hor ↦ hor.elim honly hlog]
  exact hholds.2

/-- The path to a file of the directory leads to it. -/
theorem Cleanly.walk_eq (hclean : Cleanly t p h) (hname : name ≠ "..")
    (hholds : Holds t p h name content) :
    ∃ mode, t.walk (p.child name) = .ok (.at (h ++ [name]) (.file content mode)) := by
  obtain ⟨hfits, hbytes⟩ := hholds
  obtain ⟨mode, hlook⟩ := look_of_bytes? hbytes
  have hfinds := (reaches_child hclean.absolute hname hclean.walk).walk_finds hclean.sound
    (hclean.links name)
  generalize t.walk (p.child name) = found at hfinds ⊢
  cases hfinds with
  | refused e hlong => exact absurd hfits hlong
  | free _ hnone =>
    rw [hnone] at hlook
    cases hlook
  | file _ hthere =>
    rw [hthere] at hlook
    cases hlook
    exact ⟨mode, rfl⟩
  | directory _ hdir =>
    rw [hdir] at hlook
    cases hlook

/-- What the directory holds is what is read there. -/
theorem Cleanly.content_eq (hclean : Cleanly t p h) (hname : name ≠ "..")
    (hholds : Holds t p h name content) : t.content (p.child name) = .ok content := by
  obtain ⟨mode, hwalk⟩ := hclean.walk_eq hname hholds
  refine congrArg Prod.fst (run_of_ends (t := t) ?_)
  unfold FileAct.read
  refine ends_bind.mpr (FileAct.ends_place.mpr ?_)
  rw [hwalk]
  exact ends_pure.mpr ⟨rfl, rfl⟩

/-- What is altered beside a file is the file and a draft. -/
theorem among_of_beside {r : Route} {tag : String} (hr : FileAct.Beside h name tag r) :
    Among h [name] r := by
  rcases hr with rfl | rfl
  · exact ⟨_, rfl, .inr ⟨_, _, rfl⟩⟩
  · exact ⟨_, rfl, .inl List.mem_cons_self⟩

/-- A file that is written into such a directory stays in it. -/
theorem Cleanly.ends_replaceContent (hclean : Cleanly w.files p h) (hname : name ≠ "..")
    (content : Text.Bytes) :
    Ends (Act.replaceContent (p.child name) content) w
      (fun outcome w' ↦ w.Touches (Among h [name]) w' ∧
        (".." ∉ p.names → Edits (Among h [name]) w.files w'.files) ∧
        (outcome = .ok () → Holds w'.files p h name content))
      fun _ _ ↦ False := by
  have hparent : (p.child name).parent = p := by
    simp [Path.child, Path.parent]
  have hedits : Ends (Act.replaceContent (p.child name) content) w
      (fun _ w' ↦ ".." ∉ p.names → Edits (Among h [name]) w.files w'.files) fun _ _ ↦ True := by
    by_cases hdots : ".." ∈ p.names
    · exact ends_of_forall (fun _ _ h ↦ absurd hdots h) fun _ _ ↦ trivial
    · refine (Act.ends_replaceContent_edits (p := p.child name) hclean.sound
        (reaches_child hclean.absolute hname hclean.walk) (by rw [hparent]; exact hdots) (hclean.links _)
        fun n ↦ hclean.links _).mono ?_ fun _ _ _ ↦ trivial
      rintro _ w' ⟨n, h⟩ _
      exact h.mono fun r ↦ among_of_beside
  have htraced : w.files.traced (p.child name).parent = .done h := by
    rw [hparent]
    exact hclean.traced
  refine ((Act.ends_replaceContent (p := p.child name) hclean.sound hclean.absolute
    (by simp [Path.child]) hname htraced (hclean.links _) fun n ↦ hclean.links _).and hedits).mono
    ?_ fun _ _ h ↦ h.1
  rintro outcome w' ⟨⟨hlog, hlocks, ⟨n, hrewrites⟩, hcontent⟩, hedits⟩
  have hbecomes := hrewrites.becomes.mono fun r ↦ among_of_beside
  exact ⟨World.touches_of_becomes hlog hlocks hbecomes, hedits, hcontent⟩

end Directories

/-- Where a directory has been made under a name, the path to it leads there. Nothing was below it
before. -/
theorem FileAct.Made.child {t t' : FileTree} {p : Path} {key : String} (ht : t.Sound)
    (hp : p.isAbsolute = true) (h : FileAct.Made (p.child key) t t') :
    ∃ home, t.traced p = .done home ∧ Cleanly t' (p.child key) (home ++ [key]) ∧
      ∀ r, home ++ [key] <+: r → t.look r = none := by
  have hgrows := h.grows ht
  obtain ⟨d, name, changed, hwalk, rfl⟩ := h
  have hnames : (p.child key).names = p.names ++ [key] := rfl
  rw [hnames] at hwalk
  obtain ⟨mid, hmid, hto, hlast⟩ := hwalk.split ht ht.root (List.cons_ne_nil _ _)
  obtain ⟨rfl, rfl, hfree⟩ := free_of_walk_last hlast rfl
  have hnone : ∀ r, mid ++ [key] <+: r → t.look r = none := by
    intro r hr
    by_cases heq : r = mid ++ [key]
    · rw [heq]
      exact hfree
    · refine ht.look_below ?_ hr heq
      rw [HasDirectory, hfree]
      exact fun h ↦ by cases h
  refine ⟨mid, hto.traced ht hp, ⟨hgrows.sound, hp, ?_, fun x ↦ ?_⟩, hnone⟩
  · have hlook : (t.add mid key (.directory changed)).look (mid ++ [key]) =
        some (.directory 0) := by
      rw [look_add, if_pos rfl]
      rfl
    exact hwalk.filled hgrows.alters hlook fun _ h ↦ by cases h
  · rw [hgrows.alters.links, link?, hnone _ (List.prefix_append (mid ++ [key]) [x])]

/-- The log does not get into the files that are made below a path: its file is there already, or
is somewhere else. -/
def World.LogsOutside (w : World) (p : Path) : Prop :=
  ∀ r, w.logFile = some r → w.files.bytes? r = none → ¬ w.files.Below p r

/-- A directory has been made under a name in another one, `d`, to which a path leads, and those
above it if they were missing. -/
structure FileTree.Founds (run : Path) (key : String) (t t' : FileTree) (d : Route) : Prop where
  grows : FileAct.Grows t t'
  grafts : ".." ∉ (run.child key).names → FileAct.Grafts (run.child key) t t'
  parent : t.traced run = .done d
  clean : Cleanly t' (run.child key) (d ++ [key])
  new : ∀ r, d ++ [key] <+: r → t.look r = none

namespace FileTree.Founds

variable {t t' t'' : FileTree} {run : Path} {key : String} {d : Route}
  (h : Founds run key t t' d)

include h

theorem traced (hrun : run.isAbsolute = true) : t.traced (run.child key) = .done (d ++ [key]) := by
  rw [← traced_congr (p := run.child key) h.grows.alters.links hrun]
  exact h.clean.traced

theorem owns {r : Route} (hr : d ++ [key] <+: r) : t.Below run r ∧ t.bytes? r = none :=
  ⟨⟨d, h.parent, (List.prefix_append _ _).trans hr⟩, by rw [bytes?, h.new r hr]⟩

/-- What has been written into the directory is all that is lost with it. -/
theorem removable (hclean : Cleanly t'' (run.child key) (d ++ [key])) {r : Route}
    (hwalk : Walk t'' false linkLimit [] (run.child key).names (.at r (.directory 0))) :
    ∀ q, r <+: q → t.look q = none := by
  cases hwalk.whole.functional hclean.walk
  exact h.new

/-- Whatever is written into the directory, other names beside it are free if they were. -/
theorem vacant (ht : t.Sound) (hrun : run.isAbsolute = true) (hdots : ".." ∉ (run.child key).names)
    (hedits : Edits (d ++ [key] <+: ·) t' t'') {name : String} (hname : name ≠ key)
    (hfree : t.Vacant run name) : t''.Vacant run name := by
  refine ((h.grafts hdots).vacant ht hfree hname).edited hedits fun d' hwalk hbelow ↦ ?_
  have htraced := hwalk.traced h.grows.sound hrun
  rw [traced_congr h.grows.alters.links hrun, h.parent] at htraced
  obtain rfl : d = d' := Resolved.done.inj htraced
  exact hname (by simpa using (hbelow.eq_of_length (by simp)).symm)

end FileTree.Founds

/-- To make the directory either founds it, or leaves no directory there that was not there. -/
theorem FileAct.ends_makePath_founds {t : FileTree} {run : Path} {key : String} (ht : t.Sound)
    (hrun : run.isAbsolute = true) :
    Ends (FileAct.makePath (run.child key) false) t (fun _ t' ↦ ∃ d, Founds run key t t' d)
      fun _ t' ↦ FileAct.Grows t t' ∧ (".." ∉ (run.child key).names → ∀ r,
        Walk t' false linkLimit [] (run.child key).names (.at r (.directory 0)) →
        Walk t true linkLimit [] (run.child key).names (.at r (.directory 0))) := by
  have hsprouts : Ends (FileAct.makePath (run.child key) false) t
      (fun _ t' ↦ ".." ∉ (run.child key).names → FileAct.Grafts (run.child key) t t')
      fun _ t' ↦ ".." ∉ (run.child key).names → FileAct.Grows t t' ∧ (t' = t ∨
        ∃ above rest, (run.child key).names = above ++ rest ∧ rest ≠ [] ∧
          Sprouts above t t') := by
    by_cases hdots : ".." ∈ (run.child key).names
    · exact ends_of_forall (fun _ _ h ↦ absurd hdots h) fun _ _ h ↦ absurd hdots h
    · exact (FileAct.ends_makeNewPath_sprouts (p := run.child key) hrun hdots ht).mono
        (fun _ _ h _ ↦ h) fun _ _ h _ ↦ h
  refine ((FileAct.ends_makeNewPath (p := run.child key) hrun ht).and hsprouts).mono ?_ ?_
  · rintro _ t' ⟨⟨t₁, hbefore, hmade⟩, hgrafts⟩
    obtain ⟨d, hd, hclean, hfresh⟩ := hmade.child hbefore.sound hrun
    refine ⟨d, hbefore.trans (hmade.grows hbefore.sound), hgrafts, ?_, hclean,
      fun r hr ↦ FileAct.look_of_grows hbefore (hfresh r hr)⟩
    rwa [traced_congr hbefore.alters.links hrun] at hd
  · rintro _ t' ⟨hgrown, hfails⟩
    refine ⟨hgrown, fun hdots r hwalk ↦ ?_⟩
    obtain ⟨-, rfl | ⟨above, rest, hsplit, hrest, hsprouts⟩⟩ := hfails hdots
    · exact hwalk.whole
    · rw [hsplit] at hwalk
      exact absurd hwalk (hsprouts.no_walk hgrown.sound hrest
        fun h ↦ hdots (hsplit ▸ List.mem_append_right _ h))

/-! ### Snapshots in their directories -/

namespace Snapshot

/-- What the manifest of a snapshot says of each file. -/
def entries (s : Snapshot) (project : Route) (createdAt : String) : List ManifestEntry :=
  s.files.mapIdx (ManifestEntry.ofFile project createdAt)

/-- The manifest of a snapshot, as it is written. -/
def manifest (s : Snapshot) (project : Route) (createdAt : String) : Text.Bytes :=
  Text.encode (manifestText s.runId s.key (s.entries project createdAt))

/-- The path to the backup file of a file, which is at some place in the snapshot. -/
def backup (s : Snapshot) (project : Route) (index : Nat) (r : Route) : Path :=
  s.location.child (backupName index (Route.shownFrom project r))

/-- The manifest and the backup files of a snapshot are read as they were written. -/
structure Kept (s : Snapshot) (project : Route) (createdAt : String) (t : FileTree) : Prop where
  manifest : t.content (s.location.child manifestName) = .ok (s.manifest project createdAt)
  backups : ∀ (i : Nat) r content, s.files[i]? = some (r, some content) →
    t.content (s.backup project i r) = .ok content

/-- The manifest and the backup files of a snapshot are read as in another tree. -/
structure Untouched (s : Snapshot) (project : Route) (t t' : FileTree) : Prop where
  manifest : t'.content (s.location.child manifestName) =
    t.content (s.location.child manifestName)
  backups : ∀ (i : Nat) r content, s.files[i]? = some (r, some content) →
    t'.content (s.backup project i r) = t.content (s.backup project i r)

/-- The directory of a snapshot holds its manifest and its backup files. -/
structure Stored (s : Snapshot) (project : Route) (createdAt : String) (t : FileTree) (h : Route) :
    Prop where
  clean : Cleanly t s.location h
  manifest : Holds t s.location h manifestName (s.manifest project createdAt)
  backups : ∀ (i : Nat) r content, s.files[i]? = some (r, some content) →
    Holds t s.location h (backupName i (Route.shownFrom project r)) content

variable {s : Snapshot} {project : Route} {createdAt : String} {t : FileTree} {h : Route}

theorem Kept.untouched {t' : FileTree} (hkept : s.Kept project createdAt t)
    (huntouched : s.Untouched project t t') : s.Kept project createdAt t' where
  manifest := huntouched.manifest.trans hkept.manifest
  backups i r content hi := (huntouched.backups i r content hi).trans (hkept.backups i r content hi)

theorem Kept.untouched_of_kept {t' : FileTree} (hkept : s.Kept project createdAt t)
    (hlater : s.Kept project createdAt t') : s.Untouched project t t' where
  manifest := hlater.manifest.trans hkept.manifest.symm
  backups i r content hi :=
    (hlater.backups i r content hi).trans (hkept.backups i r content hi).symm

theorem Stored.kept (hstored : s.Stored project createdAt t h) : s.Kept project createdAt t where
  manifest := hstored.clean.content_eq (by decide) hstored.manifest
  backups i r content hi :=
    hstored.clean.content_eq backupName_ne_dots (hstored.backups i r content hi)

theorem Stored.congr {t' : FileTree} (hstored : s.Stored project createdAt t h) (ht' : t'.Sound)
    (hwalk : Walk t' true linkLimit [] s.location.names (.at h (.directory 0)))
    (hlinks : ∀ r, h <+: r → t'.link? r = t.link? r)
    (hbytes : ∀ r, h <+: r → t.bytes? r ≠ none → t'.bytes? r = t.bytes? r) :
    s.Stored project createdAt t' h := by
  have hname : ∀ {name content}, Holds t s.location h name content →
      Holds t' s.location h name content := fun ⟨hfits, hheld⟩ ↦
    ⟨hfits, (hbytes _ (List.prefix_append h _) (by simp [hheld])).trans hheld⟩
  refine ⟨⟨ht', hstored.clean.absolute, hwalk, fun name ↦ ?_⟩, hname hstored.manifest,
    fun i r content hi ↦ hname (hstored.backups i r content hi)⟩
  rw [hlinks _ (List.prefix_append h _)]
  exact hstored.clean.links name

/-- The directory stays as it is while no file that is in it is touched, if the log is not in it. -/
theorem Stored.touched {w w' : World} {only : Route → Prop}
    (hstored : s.Stored project createdAt w.files h) (htouches : w.Touches only w')
    (hapart : ∀ r, h <+: r → w.files.bytes? r ≠ none → ¬ only r)
    (hlog : ∀ r, w.logFile = some r → ¬ h <+: r) : s.Stored project createdAt w'.files h := by
  have halters := (htouches.files hstored.clean.sound).alters
  refine hstored.congr (hstored.clean.touched htouches).sound (hstored.clean.touched htouches).walk
    (fun r _ ↦ halters.links r) fun r hr hthere ↦ ?_
  exact halters.bytes r fun hor ↦ hor.elim (hapart r hr hthere) fun heq ↦ hlog r heq hr

end Snapshot

/-- The snapshot lies in its directory, which is in that of its run and not where the log is. -/
structure World.Secures (w : World) (snapshot : Snapshot) (project : Route) (createdAt : String)
    (run : Path) (home : Route) : Prop where
  stored : snapshot.Stored project createdAt w.files home
  below : w.files.Below run home
  log : ∀ r, w.logFile = some r → ¬ home <+: r

theorem World.Secures.touched {w w' : World} {snapshot : Snapshot} {project home : Route}
    {createdAt : String} {run : Path} {only : Route → Prop}
    (h : w.Secures snapshot project createdAt run home) (hrun : run.isAbsolute = true)
    (htouches : w.Touches only w')
    (hapart : ∀ r, home <+: r → w.files.bytes? r ≠ none → ¬ only r) :
    w'.Secures snapshot project createdAt run home where
  stored := h.stored.touched htouches hapart h.log
  below := by
    rw [below_congr (htouches.files h.stored.clean.sound).alters.links hrun]
    exact h.below
  log := htouches.log ▸ h.log

namespace Store

variable {w : World} {runId key : String}

/-- Backup files that have different names do not get into each other's way. -/
theorem ends_writeContents {location : Path} {h : Route} (hclean : Cleanly w.files location h)
    (entries : List (ManifestEntry × Option Text.Bytes))
    (hnames : ∀ e ∈ entries, ∀ name, e.1.backup = some name →
      name ≠ ".." ∧ ∀ final tag, name ≠ FileAct.draftName final tag)
    (hdistinct : entries.Pairwise fun e e' ↦
      ∀ name, e.1.backup = some name → e'.1.backup ≠ some name) :
    Ends (writeContents location entries) w
      (fun outcome w' ↦ w.Touches (Among h (entries.filterMap (·.1.backup))) w' ∧
        (".." ∉ location.names → Edits (Among h (entries.filterMap (·.1.backup))) w.files w'.files) ∧
        (outcome = .ok () → (∀ r, w.logFile = some r → ¬ h <+: r) →
          ∀ e ∈ entries, ∀ name content, e.1.backup = some name → e.2 = some content →
            Holds w'.files location h name content))
      fun _ _ ↦ False := by
  induction entries generalizing w with
  | nil => exact ends_pure.mpr ⟨.refl _ w, fun _ ↦ .refl hclean.sound, by simp⟩
  | cons entry rest ih =>
    obtain ⟨entry, old⟩ := entry
    obtain ⟨hentry, hrest⟩ := List.forall_mem_cons.mp hnames
    obtain ⟨hapart, hothers⟩ := List.pairwise_cons.mp hdistinct
    have hsub : rest.filterMap (·.1.backup) ⊆
        ((entry, old) :: rest).filterMap (·.1.backup) :=
      (List.sublist_cons_self _ _ |>.filterMap _).subset
    unfold writeContents
    split
    · rename_i name content hbackup
      obtain ⟨hdots, hdraft⟩ := hentry name hbackup
      refine (hclean.ends_replaceContent hdots content).bind ?_
      rintro outcome w₁ ⟨htouches, hedits, hwritten⟩
      have hamong : ∀ {r}, Among h [name] r →
          Among h (((entry, some content) :: rest).filterMap (·.1.backup)) r :=
        fun hr ↦ hr.mono (by simp [hbackup])
      have hfirst := htouches.mono fun r ↦ hamong
      split
      · refine (ih (hclean.touched htouches) hrest hothers).mono ?_ fun _ _ h ↦ h
        rintro outcome w₂ ⟨htouched, hedited, hholds⟩
        refine ⟨hfirst.trans (htouched.mono fun r hr ↦ hr.mono hsub), fun hdots ↦ ?_,
          fun hok hlog ↦ ?_⟩
        · exact ((hedits hdots).mono fun r ↦ hamong).trans
            ((hedited hdots).mono fun r hr ↦ hr.mono hsub)
        rw [← htouches.log] at hlog
        refine List.forall_mem_cons.mpr ⟨fun name' content' hname' hcontent' ↦ ?_,
          hholds hok hlog⟩
        obtain rfl : name = name' := Option.some.inj (hbackup.symm.trans hname')
        obtain rfl : content = content' := Option.some.inj hcontent'
        -- The files that are written after this one have other names.
        refine (hwritten rfl).touched (hclean.touched htouches).sound htouched ?_
          fun heq ↦ hlog _ heq (List.prefix_append _ _)
        rintro ⟨other, hother, hmem | ⟨final, tag, rfl⟩⟩
        · obtain rfl : name = other := by simpa using hother
          obtain ⟨e, he, hsame⟩ := List.mem_filterMap.mp hmem
          exact hapart e he name hbackup hsame
        · exact hdraft final tag (by simpa using hother)
      · exact ends_pure.mpr ⟨hfirst, fun hdots ↦ (hedits hdots).mono fun r ↦ hamong,
          fun h ↦ by cases h⟩
    · rename_i hnone
      refine (ih hclean hrest hothers).mono ?_ fun _ _ h ↦ h
      rintro outcome w₁ ⟨htouches, hedits, hholds⟩
      refine ⟨htouches.mono fun r hr ↦ hr.mono hsub,
        fun hdots ↦ (hedits hdots).mono fun r hr ↦ hr.mono hsub, fun hok hlog ↦ ?_⟩
      refine List.forall_mem_cons.mpr ⟨fun name content hname hcontent ↦ ?_, hholds hok hlog⟩
      exact absurd hcontent (hnone name content hname)

/-- The backup file of an entry is called after the place of the entry. -/
theorem backup_ofFile {project : Route} {createdAt name : String} {index : Nat}
    {file : Route × Option Text.Bytes}
    (h : (ManifestEntry.ofFile project createdAt index file).backup = some name) :
    name = backupName index (Route.shownFrom project file.1) := by
  obtain ⟨content, -, rfl⟩ := Option.map_eq_some_iff.mp h
  rfl

section Entries

variable {project : Route} {createdAt : String} {files : List (Route × Option Text.Bytes)}

/-- No backup file has the name of a draft, or leads upwards. -/
theorem ne_of_mem_entries : ∀ e ∈ (files.mapIdx fun index file ↦
      (ManifestEntry.ofFile project createdAt index file, file.2)), ∀ name,
    e.1.backup = some name → name ≠ ".." ∧ ∀ final tag, name ≠ FileAct.draftName final tag := by
  intro e he name hname
  obtain ⟨index, hindex, rfl⟩ := List.mem_mapIdx.mp he
  obtain rfl := backup_ofFile hname
  exact ⟨backupName_ne_dots, fun final tag ↦ backupName_ne_draftName final tag⟩

/-- No two backup files have the same name. -/
theorem pairwise_entries (project : Route) (createdAt : String)
    (files : List (Route × Option Text.Bytes)) :
    (files.mapIdx fun index file ↦
      (ManifestEntry.ofFile project createdAt index file, file.2)).Pairwise fun e e' ↦
        ∀ name, e.1.backup = some name → e'.1.backup ≠ some name := by
  refine List.pairwise_iff_getElem.mpr fun i j hi hj hij name hname hname' ↦ ?_
  rw [List.getElem_mapIdx] at hname hname'
  exact hij.ne (backupName_index ((backup_ofFile hname).symm.trans (backup_ofFile hname')))

end Entries

/-- What it comes to when a snapshot is to be written into its directory. -/
structure Wrote (s : Store) (runId key : String) (snapshot : Snapshot) (w : World)
    (outcome : Except FileError Unit) (w' : World) : Prop where
  /-- What is touched was not there, and is below the directory of the run. -/
  touches : w.Touches (fun r ↦ w.files.Below (s.root.child runId) r ∧ w.files.bytes? r = none) w'
  /-- No other name is taken in the directory of the run. -/
  vacant : ".." ∉ (s.location runId key).names → outcome = .ok () → ∀ name, name ≠ key →
    w.files.Vacant (s.root.child runId) name → w'.files.Vacant (s.root.child runId) name
  /-- If there is a directory now, but was none before, nothing was below it. -/
  removable : ".." ∉ (s.location runId key).names → outcome ≠ .ok () → ∀ r,
    Walk w'.files false linkLimit [] (s.location runId key).names (.at r (.directory 0)) →
    Walk w.files true linkLimit [] (s.location runId key).names (.at r (.directory 0)) ∨
      ∀ q, r <+: q → w.files.look q = none
  stored : outcome = .ok () → w.LogsOutside snapshot.location → ∃ home,
    w'.Secures snapshot s.project (Calendar.stampText w.files.tick) (s.root.child runId) home

/-- When the backup files and then the manifest have been written into the new directory, the
snapshot is stored there. -/
theorem stored_of_written {s : Store} {snapshot : Snapshot} {createdAt : String} {h : Route}
    {w₁ w₂ : World}
    (hclean : Cleanly w₁.files snapshot.location h)
    (hholds : ∀ e ∈ (snapshot.files.mapIdx fun index file ↦
        (ManifestEntry.ofFile s.project createdAt index file, file.2)),
      ∀ name content, e.1.backup = some name → e.2 = some content →
        Holds w₁.files snapshot.location h name content)
    (hmanifest : w₁.Touches (Among h [manifestName]) w₂)
    (hdone : Holds w₂.files snapshot.location h manifestName (Text.encode (manifestText
      snapshot.runId snapshot.key ((snapshot.files.mapIdx fun index file ↦
        (ManifestEntry.ofFile s.project createdAt index file, file.2)).map (·.1)))))
    (hlog : ∀ r, w₁.logFile = some r → ¬ h <+: r) :
    snapshot.Stored s.project createdAt w₂.files h := by
  have hentries : (snapshot.files.mapIdx fun index file ↦
      (ManifestEntry.ofFile s.project createdAt index file, file.2)).map (·.1) =
        snapshot.entries s.project createdAt :=
    List.ext_getElem (by simp [Snapshot.entries]) (by simp [Snapshot.entries])
  rw [hentries] at hdone
  refine ⟨hclean.touched hmanifest, hdone, fun i r content hi ↦ ?_⟩
  obtain ⟨hlength, hfile⟩ := List.getElem?_eq_some_iff.mp hi
  have hheld := hholds _ (List.mem_mapIdx.mpr ⟨i, hlength, rfl⟩)
    (backupName i (Route.shownFrom s.project r)) content
    (by simp [hfile, ManifestEntry.ofFile]) (by rw [hfile])
  refine hheld.touched hclean.sound hmanifest ?_ fun heq ↦ hlog _ heq (List.prefix_append _ _)
  rintro ⟨other, hother, hmem | ⟨final, tag, rfl⟩⟩
  · rw [List.mem_singleton.mp hmem] at hother
    exact backupName_ne_manifestName (by simpa using hother)
  · exact backupName_ne_draftName final tag (by simpa using hother)

/-- A snapshot is written into a new directory, and lies there when that has succeeded. -/
theorem ends_writeAll (s : Store) {snapshot : Snapshot} (hw : w.files.Sound)
    (hroot : s.root.isAbsolute = true) (hlocation : snapshot.location = s.location runId key) :
    Ends (s.writeAll snapshot) w (fun outcome w' ↦ s.Wrote runId key snapshot w outcome w')
      fun _ _ ↦ False := by
  have hgrows : ∀ {t}, FileAct.Grows w.files t → w.Touches
      (fun r ↦ w.files.Below (s.root.child runId) r ∧ w.files.bytes? r = none)
      { w with files := t } :=
    fun h ↦ ⟨rfl, rfl, fun _ ↦ h.mono fun _ ↦ False.elim⟩
  have hrun : (s.root.child runId).isAbsolute = true := hroot
  unfold writeAll
  refine ends_bind.mpr (ends_get.mpr (ends_bind.mpr (Act.ends_tryFiles.mpr ?_)))
  rw [hlocation]
  refine (FileAct.ends_makePath_founds hw hrun).mono ?_ ?_
  case refine_2 =>
    rintro e t ⟨hgrown, hfails⟩
    exact ends_pure.mpr ⟨hgrows hgrown, fun _ h ↦ (by cases h),
      fun hdots _ r hwalk ↦ .inl (hfails hdots r hwalk), fun h ↦ (by cases h)⟩
  rintro _ t ⟨d, hfounds⟩
  have hclean : Cleanly t (s.location runId key) (d ++ [key]) := hfounds.clean
  have hapart : w.LogsOutside (s.location runId key) →
      ∀ r, w.logFile = some r → ¬ d ++ [key] <+: r :=
    fun hlog r hr hbelow ↦
      hlog r hr (hfounds.owns hbelow).2 ⟨_, hfounds.traced hrun, hbelow⟩
  dsimp only
  refine (ends_writeContents hclean _ ?names ?distinct).bind fun outcome w₁ hcontents ↦ ?_
  case names => exact ne_of_mem_entries
  case distinct => exact pairwise_entries _ _ _
  obtain ⟨htouches, hedits, hholds⟩ := hcontents
  have hwritten := (hgrows hfounds.grows).trans (htouches.mono fun r hr ↦ hfounds.owns hr.below)
  have hclean₁ := hclean.touched htouches
  split
  · exact ends_pure.mpr ⟨hwritten, fun _ h ↦ (by cases h),
      fun _ _ _ hwalk ↦ .inr (hfounds.removable hclean₁ hwalk), fun h ↦ (by cases h)⟩
  · refine (hclean₁.ends_replaceContent (by decide) _).mono ?_ fun _ _ h ↦ h
    rintro outcome w₂ ⟨hmanifest, hedited, hdone⟩
    have hwritten₂ := hwritten.trans (hmanifest.mono fun r hr ↦ hfounds.owns hr.below)
    constructor
    case touches => exact hwritten₂
    case vacant =>
      refine fun hdots _ name hname hfree ↦ hfounds.vacant hw hrun hdots ?_ hname hfree
      exact ((hedits hdots).mono fun r hr ↦ hr.below).trans
        ((hedited hdots).mono fun r hr ↦ hr.below)
    case removable =>
      exact fun _ _ _ hwalk ↦ .inr (hfounds.removable (hclean₁.touched hmanifest) hwalk)
    case stored =>
      intro hok hlog
      rw [hlocation] at hlog
      have hlog₁ : w₁.logFile = w.logFile := htouches.log
      have hlog₂ : w₂.logFile = w.logFile := hmanifest.log.trans hlog₁
      rw [← hlocation] at hclean₁ hholds hdone
      refine ⟨_, stored_of_written hclean₁ (hholds rfl (hapart hlog)) hmanifest (hdone hok)
        (hlog₁ ▸ hapart hlog), ?_, hlog₂ ▸ hapart hlog⟩
      rw [below_congr (hwritten₂.files hw).alters.links hrun]
      exact (hfounds.owns List.prefix_rfl).1

end Store

end Remedy
