import Remedy.Proofs.Backup.Naming
import Remedy.Proofs.Backup.Reinstating

/-!
# What has been backed up can be put back

A backup file and the draft of it have been written under names that are made of the whole path of
the file, while putting the file back needs the name of its own draft. What a snapshot has accepted
(`Snapshot.Accepted`) shows that the first were short enough. As long as the name of the backup file
has all of the name of the file in it (`Route.KeepsName`), the second is short enough as well, so
nothing but what came to lie there since can be in the way of putting the file back
(`Snapshot.Accepted.recoverable`).

Underscores at the beginning are stripped from the name of a backup file. Where they are those of the
name of the file itself, a file may be backed up that cannot be put back
(`Store.not_restored_of_snapshot`).
-/

set_option autoImplicit false

namespace Remedy

open FileTree

/-! ### Names of backup files -/

/-- A path as one name, before underscores are stripped. -/
def flattened (shown : List Char) : List Char :=
  shown.flatMap fun c ↦ if c = '/' ∨ c = '\\' then ['_', '_'] else [c]

theorem flattened_append (front name : List Char) :
    flattened (front ++ name) = flattened front ++ flattened name :=
  List.flatMap_append

theorem backupName_ofList (index : Nat) (shown : List Char) :
    backupName index (String.ofList shown) = Calendar.padded 4 index ++ "-" ++
      String.ofList ((flattened shown).dropWhile (· = '_')) := by
  rw [backupName, String.toList_ofList]
  rfl

theorem size_le_flattened (cs : List Char) :
    (String.ofList cs).utf8ByteSize ≤ (String.ofList (flattened cs)).utf8ByteSize := by
  induction cs with
  | nil => exact le_rfl
  | cons c rest ih =>
    rw [flattened, List.flatMap_cons, ← flattened, String.ofList_append, ← List.singleton_append,
      String.ofList_append, String.utf8ByteSize_append, String.utf8ByteSize_append]
    refine Nat.add_le_add ?_ ih
    split
    · rename_i hslash
      rcases hslash with rfl | rfl <;> decide
    · exact le_rfl

/-- Nothing is stripped of a name if something else than underscores comes before it, or begins
it. -/
theorem flattened_suffix_dropWhile {front name : List Char} {c : Char}
    (hc : c ∈ front ++ name.take 1) (hplain : c ≠ '_' ∧ c ≠ '/' ∧ c ≠ '\\') :
    flattened name <:+ (flattened (front ++ name)).dropWhile (· = '_') := by
  have hkept : ¬ (c = '/' ∨ c = '\\') := fun h ↦ h.elim hplain.2.1 hplain.2.2
  rw [flattened_append, List.dropWhile_append]
  split
  · rename_i hempty
    have hfront : ∀ x ∈ flattened front, x = '_' := by
      have hnil : (flattened front).dropWhile (· = '_') = [] := List.isEmpty_iff.mp hempty
      simpa using List.dropWhile_eq_nil_iff.mp hnil
    rcases List.mem_append.mp hc with hc | hc
    · refine absurd (hfront c ?_) hplain.1
      exact List.mem_flatMap.mpr ⟨c, hc, by rw [if_neg hkept]; exact List.mem_singleton_self c⟩
    · cases name with
      | nil => cases hc
      | cons first rest =>
        obtain rfl : c = first := by simpa using hc
        rw [flattened, List.flatMap_cons, if_neg hkept, List.singleton_append,
          List.dropWhile_cons_of_neg (by simpa using hplain.1)]
  · exact List.suffix_append _ _

namespace Route

/-- The name of the backup file has all of the name of the file in it: something else than
underscores and slashes comes before the name in the path as it is shown, or begins the name. -/
def KeepsName (project r : Route) : Prop :=
  ∀ d name, r = d ++ [name] → ∃ front, (shownFrom project r).toList = front ++ name.toList ∧
    ∃ c ∈ front ++ name.toList.take 1, c ≠ '_' ∧ c ≠ '/' ∧ c ≠ '\\'

theorem KeepsName.size_le {project d : Route} {name : String} (h : KeepsName project (d ++ [name]))
    (index : Nat) :
    name.utf8ByteSize ≤ (backupName index (shownFrom project (d ++ [name]))).utf8ByteSize := by
  obtain ⟨front, hshown, c, hc, hplain⟩ := h d name rfl
  obtain ⟨stripped, hstripped⟩ := flattened_suffix_dropWhile hc hplain
  rw [← String.ofList_toList (s := shownFrom project (d ++ [name])), hshown, backupName_ofList,
    ← hstripped, String.ofList_append]
  simp only [String.utf8ByteSize_append]
  have hname := size_le_flattened name.toList
  rw [String.ofList_toList] at hname
  omega

/-- A file can be put back there as far as names and paths go. -/
structure Spacious (project r : Route) : Prop where
  nul : (Route.path r).hasNul = false
  path : ∀ m, (Route.path (r.draft m)).text.utf8ByteSize ≤ pathLimit
  name : KeepsName project r ∨
    ∀ d name, r = d ++ [name] → name.utf8ByteSize + 14 ≤ nameLimit

/-- Where one draft has room, all have. -/
theorem Spacious.of_fits {r : Route} (hr : r ≠ []) (hnul : (Route.path r).hasNul = false) {n : ℕ}
    (h : (r.draft n).Fits) (project : Route) : Spacious project r where
  nul := hnul
  path m := (h.draft hr m).1
  name := by
    refine .inr fun d name heq ↦ ?_
    rw [heq, Route.draft_concat] at h
    have hsize := h.2 _ (List.mem_append_right d (List.mem_singleton_self _))
    rw [FileAct.size_draftName, size_drawnName] at hsize
    omega

end Route

/-! ### Writing backup files -/

/-- What is opened has names that are short enough. -/
theorem FileAct.ends_openEmpty_fits (p : Path) (t : FileTree) :
    Ends (openEmpty p) t (fun _ _ ↦ ∀ m ∈ p.names, m.utf8ByteSize ≤ nameLimit)
      fun _ _ ↦ True := by
  unfold openEmpty
  refine ends_bind.mpr (ends_place.mpr ?_)
  split
  · rename_i place hwalk
    have hfits : ∀ m ∈ p.names, m.utf8ByteSize ≤ nameLimit := by
      unfold walk at hwalk
      split at hwalk
      · cases hwalk
      · exact (walk_of_walkWithin hwalk).fits
    split
    · exact ends_bind.mpr (ends_modify.mpr (ends_pure.mpr hfits))
    · exact ends_throw.mpr trivial
    · exact ends_bind.mpr (ends_modify.mpr (ends_pure.mpr hfits))
  · trivial

theorem FileAct.ends_replaceContent_fits (p : Path) (content : Text.Bytes) (tag : String)
    (t : FileTree) :
    Ends (replaceContent p content tag) t
      (fun _ _ ↦ (draftName p.name tag).utf8ByteSize ≤ nameLimit) fun _ _ ↦ True := by
  unfold replaceContent
  refine Ends.bind_any fun _ t ↦ ?_
  have hfill : Ends (fillAndMove p content tag) t
      (fun _ _ ↦ (draftName p.name tag).utf8ByteSize ≤ nameLimit) fun _ _ ↦ True := by
    unfold fillAndMove
    refine (ends_openEmpty_fits _ t).bind fun _ t hfits ↦ ?_
    have hdraft : (draftName p.name tag).utf8ByteSize ≤ nameLimit := hfits _ (by
      rw [FileAct.draft, Path.child]
      exact List.mem_append_right _ (List.mem_singleton_self _))
    exact ends_of_forall (fun _ _ ↦ hdraft) fun _ _ ↦ trivial
  refine ends_bind.mpr (ends_attempt.mpr (hfill.mono ?_ ?_))
  · exact fun _ t h ↦ ends_of_forall (fun _ _ ↦ h) fun _ _ ↦ trivial
  · exact fun e t _ ↦ Ends.bind_any fun _ _ ↦ ends_throw.mpr trivial

theorem Act.ends_replaceContent_fits (p : Path) (content : Text.Bytes) (w : World) :
    Ends (replaceContent p content) w
      (fun outcome _ ↦ outcome = .ok () → p.name.utf8ByteSize + 14 ≤ nameLimit)
      fun _ _ ↦ True := by
  unfold replaceContent drawName
  refine ends_bind.mpr (ends_bind.mpr (ends_get.mpr (ends_bind.mpr (ends_set.mpr ?_))))
  refine ends_pure.mpr (Act.ends_tryFiles.mpr
    ((FileAct.ends_replaceContent_fits p content _ _).mono ?_ ?_))
  · intro _ _ hfits _
    have hsize := size_drawnName (w.draws + 1)
    rw [drawnName] at hsize
    rw [FileAct.size_draftName, hsize] at hfits
    exact hfits
  · exact fun _ _ _ h ↦ by cases h

/-! ### What has been accepted -/

/-- What a snapshot that has been taken is known to be about: its files fit together, and those that
were there have backup files whose drafts have names that are short enough. -/
structure Snapshot.Accepted (project : Route) (files : List (Route × Option Text.Bytes)) : Prop
    extends Snapshot.Coherent files where
  room : ∀ e ∈ files, e.2 ≠ none → ∃ index,
    (backupName index (Route.shownFrom project e.1)).utf8ByteSize + 14 ≤ nameLimit

namespace Store

variable {w : World} {runId key : String}

theorem ends_writeContents_room (location : Path)
    (entries : List (ManifestEntry × Option Text.Bytes)) (w : World) :
    Ends (writeContents location entries) w
      (fun outcome _ ↦ outcome = .ok () → ∀ e ∈ entries, ∀ name, e.1.backup = some name →
        e.2 ≠ none → name.utf8ByteSize + 14 ≤ nameLimit)
      fun _ _ ↦ True := by
  induction entries generalizing w with
  | nil => exact ends_pure.mpr fun _ _ h ↦ by cases h
  | cons first rest ih =>
    obtain ⟨entry, content⟩ := first
    unfold writeContents
    split
    · rename_i name content hbackup
      refine (Act.ends_replaceContent_fits _ content w).bind fun outcome w hfits ↦ ?_
      split
      · refine (ih w).mono (fun outcome _ h hok ↦ ?_) fun _ _ h ↦ h
        refine List.forall_mem_cons.mpr ⟨fun other hother _ ↦ ?_, h hok⟩
        obtain rfl := Option.some.inj (hbackup.symm.trans hother)
        simpa [Path.child, Path.name] using hfits rfl
      · exact ends_pure.mpr fun h ↦ by cases h
    · rename_i hnone
      refine (ih w).mono (fun outcome _ h hok ↦ ?_) fun _ _ h ↦ h
      refine List.forall_mem_cons.mpr ⟨fun name hname hthere ↦ ?_, h hok⟩
      obtain ⟨content, rfl⟩ := Option.ne_none_iff_exists'.mp hthere
      exact absurd rfl (hnone name content hname)

theorem ends_writeAll_room (s : Store) (snapshot : Snapshot) (w : World) :
    Ends (s.writeAll snapshot) w
      (fun outcome _ ↦ outcome = .ok () → ∀ e ∈ snapshot.files, e.2 ≠ none → ∃ index,
        (backupName index (Route.shownFrom s.project e.1)).utf8ByteSize + 14 ≤ nameLimit)
      fun _ _ ↦ True := by
  unfold writeAll
  refine Ends.bind_any fun w₀ w ↦ Ends.bind_any fun made w ↦ ?_
  split
  · exact ends_pure.mpr fun h ↦ by cases h
  dsimp only
  refine (ends_writeContents_room _ _ w).bind fun outcome w hroom ↦ ?_
  split
  · exact ends_pure.mpr fun h ↦ by cases h
  refine ends_of_forall (fun _ _ _ e he hthere ↦ ?_) fun _ _ ↦ trivial
  obtain ⟨index, hindex, rfl⟩ := List.mem_iff_getElem.mp he
  obtain ⟨content, hcontent⟩ := Option.ne_none_iff_exists'.mp hthere
  refine ⟨index, hroom rfl _ (List.mem_mapIdx.mpr ⟨index, hindex, rfl⟩) _ ?_ hthere⟩
  simp [ManifestEntry.ofFile, hcontent]

theorem ends_snapshot_accepted (s : Store) (hw : w.files.Sound) (files : List Path) :
    Ends (s.snapshot runId key files) w
      (fun taken _ ↦ Snapshot.Accepted s.project taken.1.files) fun _ _ ↦ True := by
  have hroom : Ends (s.snapshot runId key files) w (fun taken _ ↦
      ∀ e ∈ taken.1.files, e.2 ≠ none → ∃ index,
        (backupName index (Route.shownFrom s.project e.1)).utf8ByteSize + 14 ≤ nameLimit)
      fun _ _ ↦ True := by
    refine ends_snapshot_of (fun _ _ ↦ trivial) ?_ fun _ ↦ ?_
    · exact fun _ _ _ _ _ _ ↦ Act.ends_log fun _ _ ↦ trivial
    refine (ends_writeAll_room s _ w).bind fun outcome w₁ hroom ↦ ?_
    refine (ends_settle s _ outcome w₁).mono ?_ fun _ _ _ ↦ trivial
    rintro _ w₂ ⟨hwritten, rfl⟩
    exact hroom hwritten
  exact ((ends_snapshot_coherent s hw files).and hroom).mono
    (fun _ _ h ↦ ⟨h.1, h.2⟩) fun _ _ _ ↦ trivial

end Store

namespace Snapshot

variable {t : FileTree} {project : Route} {files : List (Route × Option Text.Bytes)}
  {e : Route × Option Text.Bytes}

theorem Accepted.restrict {s part : Snapshot} {routes : List Route} {key : String}
    (h : Accepted project s.files) (hpart : s.restrict routes key = .ok part) :
    Accepted project part.files :=
  ⟨h.toCoherent.restrict hpart, fun e he ↦ h.room e ((restrict_eq hpart).2.2.2 e he)⟩

/-- The name of the draft of a file that was there is short enough. -/
theorem Accepted.size_le (h : Accepted project files) (he : e ∈ files) (hthere : e.2 ≠ none)
    (hspace : Route.Spacious project e.1) {d : Route} {name : String} (hroute : e.1 = d ++ [name]) :
    name.utf8ByteSize + 14 ≤ nameLimit := by
  rcases hspace.name with hkeeps | hshort
  · obtain ⟨index, hroom⟩ := h.room e he hthere
    rw [hroute] at hkeeps hroom
    have hsize := hkeeps.size_le index
    omega
  · exact hshort d name hroute

/-- A file can be put back if nothing but a file is in its place and its directory is there. -/
theorem Accepted.recoverable (h : Accepted project files) (he : e ∈ files) (ht : t.Sound)
    (hlink : t.link? e.1 = none) (hdir : ¬ t.HasDirectory e.1) (hpass : t.Passable e.1)
    (hthere : e.2 ≠ none → t.HasDirectory e.1.dropLast ∧ Route.Spacious project e.1) :
    Recoverable t e where
  no_link := hlink
  no_directory := hdir
  passable _ := hpass
  parent hsome := (hthere hsome).1
  nul hsome := (hthere hsome).2.nul
  fits hsome := by
    obtain ⟨hparent, hspace⟩ := hthere hsome
    obtain ⟨d, name, hroute⟩ : ∃ d name, e.1 = d ++ [name] :=
      ⟨_, _, (List.dropLast_concat_getLast (h.ne_nil e he)).symm⟩
    have hroom := h.size_le he hsome hspace hroute
    have hpath := hspace.path
    rw [hroute] at hpass hparent hpath ⊢
    rw [List.dropLast_concat] at hparent
    have hnames : ∀ m ∈ d, m.utf8ByteSize ≤ nameLimit := by
      intro m hm
      obtain ⟨before, after, rfl⟩ := List.append_of_mem hm
      have habove : t.HasDirectory before := by
        refine ht.above ?_ (List.prefix_append before (m :: after)) (by simp)
        rw [hparent]
        exact Option.some_ne_none _
      refine hpass.2 before m List.nil_prefix ?_ habove
      exact ⟨after ++ [name], by simp⟩
    refine ⟨⟨hpass.1, fun m hm ↦ ?_⟩, fun m ↦ ⟨hpath m, fun x hx ↦ ?_⟩⟩
    · rcases List.mem_append.mp hm with hm | hm
      · exact hnames m hm
      · rw [List.mem_singleton.mp hm]
        omega
    · rw [Route.draft_concat] at hx
      rcases List.mem_append.mp hx with hx | hx
      · exact hnames x hx
      · rw [List.mem_singleton.mp hx, FileAct.size_draftName, size_drawnName]
        omega

/-- Each path of the snapshot is a regular file or absent, and what is above it is still a
directory; above a file that was not there, there may also be nothing. -/
structure InPlace (s : Snapshot) (t : FileTree) : Prop where
  no_link : ∀ r ∈ s.paths, t.link? r = none
  readable : ∀ r ∈ s.paths, ∃ content, t.Tells (r, content)
  above : ∀ e ∈ s.files, ∀ p, p <+: e.1 → p ≠ e.1 →
    t.HasDirectory p ∨ e.2 = none ∧ t.look p = none

theorem tells_none_of_clear {r : Route} (h : t.Clear r) (ht : t.Sound) (hnone : t.look r = none)
    (hpass : t.Passable r) : t.Tells (r, none) := by
  have hmeets := h.walk_meets ht (by rw [link?, hnone])
  unfold Tells
  dsimp only
  generalize t.walk (Route.path r) = found at hmeets ⊢
  cases hmeets with
  | tooLong hlong => exact absurd hpass hlong
  | missing => exact .inl rfl
  | free => exact .inr ⟨_, _, rfl⟩
  | found _ hlook =>
    rw [hnone] at hlook
    cases hlook

theorem InPlace.clear {s : Snapshot} (h : s.InPlace t) (he : e ∈ s.files) (hdots : ".." ∉ e.1) :
    t.Clear e.1 :=
  ⟨hdots, fun p hp hne ↦ (h.above e he p hp hne).imp_right And.right⟩

theorem Accepted.recoverable_of_inPlace {s : Snapshot} (h : Accepted project s.files)
    (hplace : s.InPlace t) (ht : t.Sound)
    (hspace : ∀ e ∈ s.files, e.2 ≠ none → Route.Spacious project e.1) (he : e ∈ s.files) :
    Recoverable t e := by
  have hmem : e.1 ∈ s.paths := List.mem_map_of_mem he
  have hlink := hplace.no_link e.1 hmem
  obtain ⟨content, htells⟩ := hplace.readable e.1 hmem
  have hmeets := (hplace.clear he (h.no_dots e he)).walk_meets ht hlink
  have hpass : t.Passable e.1 := hmeets.holds (htells.ne_error .nameTooLong nofun)
  refine h.recoverable he ht hlink (fun hdir ↦ ?_) hpass fun hthere ↦ ⟨?_, hspace e he hthere⟩
  · obtain ⟨node, hwalk, hstill⟩ := hmeets.found_of_look hpass hdir
    cases node with
    | directory changed => exact htells.ne_directory changed hwalk
    | file | link => cases hstill
  · refine (hplace.above e he e.1.dropLast (List.dropLast_prefix _) fun heq ↦ ?_).resolve_right
      fun hnone ↦ hthere hnone.1
    have hlength := congrArg List.length heq
    rw [List.length_dropLast] at hlength
    exact absurd (List.length_pos_iff.mpr (h.ne_nil e he)) (by omega)

/-- Nothing is in the way of putting back the files of the snapshot: they are in place, drafts that
are still to be drawn would not meet with anything, and there is room for these. -/
structure Unhindered (s : Snapshot) (project : Route) (w : World) : Prop where
  sound : w.files.Sound
  place : s.InPlace w.files
  drafts : ∀ r ∈ s.paths, ∀ m, w.draws < m → w.files.look (r.draft m) = none ∧
    ∀ q ∈ s.paths, ¬ r.draft m <+: q
  space : ∀ e ∈ s.files, e.2 ≠ none → Route.Spacious project e.1

end Snapshot

namespace Store

variable {w₀ w₁ w : World} {whole s : Snapshot} {store store' : Store} {runId key : String}
  {files : List Path}

/-- What a snapshot has accepted is put back, whole or in part. -/
theorem ends_restore_accepted (haccepted : Snapshot.Accepted store.project s.files)
    (hs : s.Unhindered store.project w) :
    Ends (restore s) w (fun paths w' ↦ paths = s.paths ∧ s.Reinstated [] w w') fun _ _ ↦ False := by
  have hmem : ∀ {e}, e ∈ s.files → e.1 ∈ s.paths := fun he ↦ List.mem_map_of_mem he
  have hdraftable : Snapshot.Draftable s.files w.draws := fun e he m hm e' he' ↦
    (hs.drafts e.1 (hmem he) m hm).2 e'.1 (hmem he')
  have hready : Snapshot.Ready s.files w.draws w.files :=
    ⟨hs.sound, fun e he ↦ hs.place.clear he (haccepted.no_dots e he),
      fun e he m hm ↦ (hs.drafts e.1 (hmem he) m hm).1⟩
  refine (ends_restore_recoverable s haccepted.toCoherent hdraftable hready le_rfl).mono ?_ ?_
  · rintro _ w' ⟨rfl, hleaves, -⟩
    exact ⟨rfl, hleaves.reinstated⟩
  · rintro e w' ⟨failed, -, -, -, hno⟩
    exact hno fun e he ↦ haccepted.recoverable_of_inPlace hs.place hs.sound hs.space he

/-! ### A file that cannot be put back -/

/-- The name of a file with underscores at the beginning, which takes up almost all of the bytes that
a name may have. -/
def underscored : String := String.ofList (List.replicate 250 '_') ++ "a.ts"

def underscoredWorld : World where
  files :=
    ⟨[(["p"], .directory 0), (["p", underscored], .file (Text.encode "old") 0o644)], 0, ["p"]⟩

/-- What is recorded of the file. -/
def underscoredSnapshot : Snapshot :=
  ⟨"run-1", "run", [(["p", underscored], some (Text.encode "old"))],
    sampleStore.location "run-1" "run"⟩

/-- A world in which a file has been deleted. -/
def without (r : Route) (w : World) : World := { w with files := w.files.remove r }

/-- A file is backed up that cannot be put back after it has been deleted. -/
theorem not_restored_of_snapshot :
    ∃ store w₁, sampleStore.snapshot "run-1" "run" [Route.path ["p", underscored]]
        underscoredWorld = (.ok (underscoredSnapshot, store), w₁) ∧
      underscoredSnapshot.InPlace (without ["p", underscored] w₁).files ∧
      ∃ fault w₂, restore underscoredSnapshot (without ["p", underscored] w₁) =
        (.error fault, w₂) ∧ fault.kind = .rollback := by
  obtain ⟨htaken, hnone, hparent, hrestored⟩ :
      let after := sampleStore.snapshot "run-1" "run" [Route.path ["p", underscored]]
        underscoredWorld
      let later := without ["p", underscored] after.2
      after.1.toOption.map (·.1) = some underscoredSnapshot ∧
      later.files.look ["p", underscored] = none ∧
      later.files.look ["p"] = some (.directory 0) ∧
      (match (restore underscoredSnapshot later).1 with
        | .ok _ => none
        | .error fault => some fault.kind) = some .rollback := by
    simp only [Store.snapshot, mergeSort_le]
    decide +kernel
  have hsound : underscoredWorld.files.Sound := sound_of_entries (by decide) (by decide)
  have hfits : Route.Fits ["p", underscored] := by
    unfold Route.Fits
    decide +kernel
  have hdots : ".." ∉ ["p", underscored] := by decide +kernel
  rcases htook : sampleStore.snapshot "run-1" "run" [Route.path ["p", underscored]]
    underscoredWorld with ⟨e | ⟨snapshot, store⟩, w₁⟩
  · rw [htook] at htaken
    cases htaken
  rw [htook] at htaken hnone hparent hrestored
  obtain rfl : snapshot = underscoredSnapshot := Option.some.inj htaken
  refine ⟨store, w₁, rfl, ?_, ?_⟩
  · -- Lean would take the snapshot of the world itself
    generalize underscoredWorld = w at htook hsound
    have hsound₁ : w₁.files.Sound :=
      (((ends_of_eq htook).mp (sampleStore.ends_snapshot hsound rfl _)).touches.files hsound).sound
    have hlater := hsound₁.remove (List.cons_ne_nil "p" [underscored])
    have habove : ∀ p, p <+: ["p", underscored] → p ≠ ["p", underscored] →
        (without ["p", underscored] w₁).files.HasDirectory p := by
      intro p hp hne
      rcases List.prefix_concat_iff.mp (show p <+: ["p"] ++ [underscored] from hp) with heq | hp
      · exact absurd heq hne
      rcases List.prefix_concat_iff.mp (show p <+: [] ++ ["p"] from hp) with rfl | hp
      · exact hparent
      · rw [List.prefix_nil.mp hp]
        exact hlater.root
    have hfile : ∀ r ∈ underscoredSnapshot.paths, r = ["p", underscored] :=
      fun r hr ↦ List.mem_singleton.mp hr
    constructor
    case no_link =>
      intro r hr
      rw [hfile r hr, link?, hnone]
    case readable =>
      intro r hr
      rw [hfile r hr]
      exact ⟨none, Snapshot.tells_none_of_clear ⟨hdots, fun p hp hne ↦ .inl (habove p hp hne)⟩
        hlater hnone (hfits.passable _)⟩
    case above =>
      intro e he p hp hne
      obtain rfl := List.mem_singleton.mp he
      exact .inl (habove p hp hne)
  · rcases hrun : restore underscoredSnapshot (without ["p", underscored] w₁) with ⟨fault | _, w₂⟩
    · rw [hrun] at hrestored
      exact ⟨fault, w₂, rfl, Option.some.inj hrestored⟩
    · rw [hrun] at hrestored
      cases hrestored

end Store

end Remedy
