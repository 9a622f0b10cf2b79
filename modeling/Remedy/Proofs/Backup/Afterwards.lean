import Remedy.Proofs.Backup.Asking
import Remedy.Proofs.Backup.Remains

/-!
# What a store answers afterwards

If a snapshot is refused before anything of it is written, the store answers whatever it is asked as
it did before (`World.Unmarked.answers`).

If it could not be written, what is left of it are directories on the way to that of the run. They
make no difference to what is read back and to the keys that are listed, but the run is listed, and
since its directory has been changed, it is listed first: the runs are the same save for this one
(`Store.Remains.answersBut`).
-/

set_option autoImplicit false

namespace Remedy

open FileTree

namespace FileTree

variable {t t' : FileTree} {p : Path}

/-- A path that leads to an end resolves to the same wherever the links are the same. -/
theorem resolve_of_traced (hlinks : ∀ r, t'.link? r = t.link? r) (hp : p.isAbsolute = true)
    {r : Route} (h : t.traced p = .done r) : t'.resolve p = t.resolve p := by
  have h' := (traced_congr hlinks hp).trans h
  unfold traced at h h'
  unfold resolve
  rw [h, h']

/-- Where there is nothing, nothing is in it. -/
theorem Sound.look_child (ht : t.Sound) {d : Route} (hnone : t.look d = none) (name : String) :
    t.look (d ++ [name]) = none :=
  ht.look_below (not_hasDirectory_of_none hnone) (List.prefix_append _ _) (by simp)

end FileTree

namespace Store

variable {s : Store} {runId key : String} {w w' : World}

/-! ### After a snapshot was refused -/

/-- Whatever the store is asked, it answers the same in both worlds, save what it reads in the log. -/
structure Answers (s : Store) (w w' : World) : Prop where
  load : ∀ runId key, (∀ p, s.Consults runId key w.files p →
    ∀ r node, w.files.walk p = .ok (.at r node) → w.logFile ≠ some r) → Agrees (s.load runId key) w w'
  keys : ∀ runId, Agrees (s.keys runId) w.files w'.files
  runs : Agrees s.runs w.files w'.files

theorem answers_of_unmarked (h : w.Unmarked w') (s : Store) : s.Answers w w' := by
  have hsees := h.off.sees h.alike
  have hchildren : ∀ d, w'.files.children d = w.files.children d := fun _ ↦
    h.off.children_eq fun _ _ ↦ rfl
  have hdirectory : ∀ p, Agrees (FileAct.isDirectory p) w.files w'.files := fun p ↦
    (hsees p).agrees_isDirectory fun _ _ _ ↦ id
  have hlist : ∀ p, Agrees (FileAct.list p) w.files w'.files := fun p ↦
    (hsees p).agrees_list fun r _ _ ↦ ⟨id, hchildren r⟩
  constructor
  case load =>
    intro runId key hlog
    refine agrees_load (fun p hp ↦ ?_) fun p hp ↦ ?_
    · exact (hsees p).content_eq (hlog p hp) fun _ _ _ ↦ id
    · obtain ⟨entry, path, -, -, rfl⟩ := hp
      exact h.alike.resolve (Path.isAbsolute_join _ _)
  case keys =>
    exact fun runId ↦ agrees_keys (hdirectory _) (hlist _) fun _ _ _ _ ↦ (hsees _).agrees_isFile
  case runs =>
    exact agrees_runs (agrees_names (hdirectory _) (hlist _)) fun name ↦
      agrees_dated (hdirectory _) ((hsees _).agrees_changed fun _ _ _ ↦ ⟨id, id⟩)

/-! ### After a snapshot could not be written -/

/-- A snapshot that is read back from its own directory: what is consulted lies there, under names
that can be, and what is recalled is not in a circle of links. -/
structure Orderly (s : Store) (runId key : String) (t : FileTree) : Prop where
  consults : ∀ p, s.Consults runId key t p →
    (s.location runId key).Above p ∧ ∀ name ∈ p.names, IsEntry name
  recalls : ∀ p, s.Recalls runId key t p → ∃ r, t.traced p = .done r

/-- What the store answers is the same in both worlds, save for the place of one run among the runs. -/
structure AnswersBut (s : Store) (runId : String) (w w' : World) : Prop where
  load : ∀ runId' key', s.Orderly runId' key' w.files → Agrees (s.load runId' key') w w'
  keys : ∀ runId', isBackupName runId' = true → runId'.utf8ByteSize ≤ nameLimit →
    Agrees (s.keys runId') w.files w'.files
  runs : AgreeOn (List.filter (· != runId)) s.runs s.runs w.files w'.files

namespace Remains

variable {p : Path} {e : Fault} (hs : s.Plain w) (h : s.Remains runId key w w')

/-- In the directory of the backups there are no links, also not afterwards. -/
theorem bare (hs : s.Plain w) (h : s.Remains runId key w w') : w'.files.Bare s.root.names :=
  fun r hr ↦ (h.leaves.links r).trans (hs.bare r hr)

section Looking

variable (habove : s.root.Above p) (hentries : ∀ name ∈ p.names, IsEntry name)

include hs habove

omit h in
theorem isAbsolute : p.isAbsolute = true := by
  rw [Path.isAbsolute, ← habove.1]
  exact hs.absolute

include hentries

omit h in
/-- A path in the directory of the backups ends where its names say. -/
theorem route_eq {t : FileTree} (ht : t.Bare s.root.names) {place : Place}
    (hwalk : t.walk p = .ok place) : place.route = p.names :=
  ht.lands (isAbsolute hs habove) (no_dots_of_entries hentries) (.inr habove.2) hwalk

include h

theorem sees : Sees w.logFile (· <+: (s.root.child runId).names)
    (fun r ↦ r <+: (s.root.child runId).names ∧ w.files.look r = none)
    (w.files.walk p) (w'.files.walk p) :=
  h.leaves.sees (isAbsolute hs habove)
    (fun _ hq ↦ hs.bare _ (List.prefix_or_prefix_of_prefix hq habove.2))
    (no_dots_of_entries hentries) fun name hname ↦ (hentries name hname).fits

/-- A directory that has been made is one where there was nothing. -/
theorem absent {r : Route} {changed : Int}
    (hwalk : w'.files.walk p = .ok (.at r (.directory changed))) (hnone : w.files.look r = none) :
    Absent (w.files.walk p) := by
  have hp := isAbsolute hs habove
  have hsees := h.sees hs habove hentries
  have hthere : ∀ {node}, w.files.walk p ≠ .ok (.at r node) := by
    intro node hto
    have hshows : w.files.look r = some _ := (walk_ok hs.sound hp hto).2
    rw [hnone] at hshows
    cases hshows
  rw [hwalk] at hsees
  generalize hfound : w.files.walk p = found at hsees
  cases hsees with
  | same => exact absurd hfound hthere
  | touched => exact absurd hfound hthere
  | absent habsent => exact habsent
  | made habsent => exact habsent

end Looking

/-! #### Names in directories -/

section Children

variable (hunwritten : s.Unwritten runId key w.files e)

include hs h hunwritten

theorem vacant : w'.files.look (s.location runId key).names = none := by
  by_contra hsome
  exact s.not_location_prefix _ _ _ (h.leaves.new (hunwritten.vacant hs) hsome)

/-- What is in the directory of a run was there before, and is still there. -/
theorem children_run (runId' : String) :
    w'.files.children (s.root.child runId').names = w.files.children (s.root.child runId').names := by
  refine h.off.children_eq fun name hlook ↦ decide_eq_false fun halong ↦ ?_
  have hlength : ((s.root.child runId').names ++ [name]).length =
      (s.location runId key).names.length := by simp [location, Path.child]
  have hroute : (s.root.child runId').names ++ [name] = (s.location runId key).names := by
    rcases halong with halong | halong
    · exact halong.eq_of_length hlength
    · exact (halong.eq_of_length hlength.symm).symm
  rw [hroute] at hlook
  exact hlook.elim (fun hne ↦ hne (hunwritten.vacant hs)) fun hne ↦ hne (h.vacant hs hunwritten)

omit hs hunwritten in
/-- In the directory of the backups the directory of the run may be new, and nothing else. -/
theorem children_root :
    (w'.files.children s.root.names).filter (· != runId) =
      (w.files.children s.root.names).filter (· != runId) := by
  refine h.off.children fun name hne _ ↦ decide_eq_false fun halong ↦ ?_
  have hleads : s.root.names ++ [name] <+: s.root.names ++ [runId, key] := by
    rcases halong with halong | halong
    · simpa [location, Path.child] using halong
    · exact absurd halong (s.not_location_prefix runId key name)
  rw [List.prefix_append_right_inj, List.cons_prefix_cons] at hleads
  simp [hleads.1] at hne

end Children

/-! #### The answers -/

section Answering

include hs h

/-- What is read back from its own directory is read back as before. -/
theorem agrees_load {runId' key' : String} (horderly : s.Orderly runId' key' w.files) :
    Agrees (s.load runId' key') w w' := by
  refine Store.agrees_load (fun p hp ↦ ?_) fun p hp ↦ ?_
  · obtain ⟨hlocation, hentries⟩ := horderly.consults p hp
    have habove : s.root.Above p :=
      ⟨hlocation.1, (root_prefix_location s runId' key').trans hlocation.2⟩
    refine (h.sees hs habove hentries).content_eq (fun r node hwalk hlog ↦ ?_)
      fun r changed hwalk hmade ↦ ?_
    · obtain rfl : r = p.names := route_eq hs habove hentries hs.bare hwalk
      exact hs.log _ hlog (.inr habove.2)
    · obtain rfl : r = p.names := route_eq hs habove hentries (h.bare hs) hwalk
      exact s.not_location_prefix _ _ _ (hlocation.2.trans hmade.1)
  · obtain ⟨r, htraced⟩ := horderly.recalls p hp
    obtain ⟨entry, path, -, -, rfl⟩ := hp
    exact resolve_of_traced h.leaves.links (Path.isAbsolute_join _ _) htraced

/-- The keys of each run are the same: none, if its directory has just been made. -/
theorem agrees_keys (hunwritten : s.Unwritten runId key w.files e) {runId' : String}
    (hname : isBackupName runId' = true) (hfits : runId'.utf8ByteSize ≤ nameLimit) :
    Agrees (s.keys runId') w.files w'.files := by
  have hdirectory : s.root.join (Path.ofString runId') = s.root.child runId' := by
    rw [Path.ofString_of_isPathName (isPathName_of_isBackupName hname)]
    rfl
  have habove : s.root.Above (s.root.child runId') := .child _ _
  have hentries : ∀ name ∈ (s.root.child runId').names, IsEntry name :=
    List.forall_mem_append.mpr ⟨hs.entries,
      List.forall_mem_singleton.mpr ⟨ne_dots_of_isBackupName hname, hfits⟩⟩
  have hsees := h.sees hs habove hentries
  have hroute : ∀ {t : FileTree} {r node}, t.Bare s.root.names →
      t.walk (s.root.child runId') = .ok (.at r node) → r = (s.root.child runId').names :=
    fun ht hwalk ↦ route_eq hs habove hentries ht hwalk
  have hchildren := h.children_run hs hunwritten runId'
  by_cases hmade : ∃ r changed, w'.files.walk (s.root.child runId') =
      .ok (.at r (.directory changed)) ∧ w.files.look r = none
  · obtain ⟨r, changed, hwalk, hnone⟩ := hmade
    have habsent := h.absent hs habove hentries hwalk hnone
    have hempty : w'.files.children r = [] := by
      rw [hroute (h.bare hs) hwalk] at hnone ⊢
      rw [hchildren, List.eq_nil_iff_forall_not_mem]
      exact fun name hmem ↦ FileTree.mem_children.mp hmem (hs.sound.look_child hnone name)
    rw [← hdirectory] at habsent hwalk
    exact ⟨.ok [], keys_absent habsent, keys_empty hwalk hempty⟩
  · have hnew : ∀ r changed, w'.files.walk (s.root.child runId') =
        .ok (.at r (.directory changed)) →
        ¬ (r <+: (s.root.child runId).names ∧ w.files.look r = none) :=
      fun r changed hwalk hboth ↦ hmade ⟨r, changed, hwalk, hboth.2⟩
    refine Store.agrees_keys ?_ ?_ ?_
    · rw [hdirectory]
      exact hsees.agrees_isDirectory hnew
    · rw [hdirectory]
      refine hsees.agrees_list fun r changed hwalk ↦ ⟨hnew r changed hwalk, ?_⟩
      rw [hroute (h.bare hs) hwalk]
      exact hchildren
    · rw [hdirectory]
      rintro d ⟨changed, hwalk⟩ name hmem
      rw [hroute hs.bare hwalk] at hmem
      have hall := hs.named _ (FileTree.mem_children.mp hmem)
      refine (h.sees hs (habove.trans ((Path.Above.child _ name).trans (.child _ _))) ?_).agrees_isFile
      exact List.forall_mem_append.mpr ⟨hall, List.forall_mem_singleton.mpr ⟨by decide, by decide⟩⟩

/-- The names in the directory of the backups are the same save for that of the run. -/
theorem agreeOn_names :
    AgreeOn (List.filter (· != runId)) s.names s.names w.files w'.files := by
  have habove : s.root.Above s.root := .refl _
  have hsees := h.sees hs habove hs.entries
  by_cases hmade : ∃ r changed, w'.files.walk s.root = .ok (.at r (.directory changed)) ∧
      w.files.look r = none
  · obtain ⟨r, changed, hwalk, hnone⟩ := hmade
    obtain ⟨found, hfound⟩ := names_at hwalk
    obtain rfl : r = s.root.names := route_eq hs habove hs.entries (h.bare hs) hwalk
    refine ⟨.ok [], .ok found, names_absent (h.absent hs habove hs.entries hwalk hnone), hfound,
      congrArg Except.ok (List.filter_eq_nil_iff.mpr fun name hmem hne ↦ ?_)⟩
    obtain ⟨d, ⟨changed', hwalk'⟩, hchild⟩ := mem_names hfound hmem
    obtain rfl : d = s.root.names := route_eq hs habove hs.entries (h.bare hs) hwalk'
    have hbefore : name ∈ (w.files.children s.root.names).filter (· != runId) :=
      h.children_root ▸ List.mem_filter.mpr ⟨hchild, hne⟩
    exact FileTree.mem_children.mp (List.mem_filter.mp hbefore).1 (hs.sound.look_child hnone name)
  · have hnew : ∀ r changed, w'.files.walk s.root = .ok (.at r (.directory changed)) →
        ¬ (r <+: (s.root.child runId).names ∧ w.files.look r = none) :=
      fun r changed hwalk hboth ↦ hmade ⟨r, changed, hwalk, hboth.2⟩
    unfold names
    refine ((hsees.agrees_isDirectory hnew).on id).bind fun there there' _ _ heq ↦ ?_
    obtain rfl : there' = there := heq
    split
    · refine hsees.agreeOn_list fun r changed hwalk ↦ ⟨hnew r changed hwalk, ?_⟩
      obtain rfl : r = s.root.names := route_eq hs habove hs.entries (h.bare hs) hwalk
      exact h.children_root
    · exact agreeOn_pure rfl

/-- Another run is listed as before, with the time at which it was changed. -/
theorem agrees_dated {found : List String} (hfound : s.names w.files = (.ok found, w.files))
    {name : String} (hname : name ∈ found) (hne : name ≠ runId) :
    Agrees (s.dated name) w.files w'.files := by
  obtain ⟨d, ⟨changed, hwalk⟩, hmem⟩ := mem_names hfound hname
  obtain rfl : d = s.root.names := route_eq hs (.refl _) hs.entries hs.bare hwalk
  have hentries := hs.named _ (FileTree.mem_children.mp hmem)
  have habove : s.root.Above (s.root.child name) := .child _ _
  have hsees := h.sees hs habove hentries
  have hapart : ∀ r changed, w'.files.walk (s.root.child name) = .ok (.at r (.directory changed)) →
      ¬ r <+: (s.root.child runId).names := by
    intro r changed hwalk hway
    obtain rfl : r = (s.root.child name).names := route_eq hs habove hentries (h.bare hs) hwalk
    have hleads : s.root.names ++ [name] <+: s.root.names ++ [runId] := hway
    rw [List.prefix_append_right_inj, List.cons_prefix_cons] at hleads
    exact hne hleads.1
  exact Store.agrees_dated (hsees.agrees_isDirectory fun r c hto hboth ↦ hapart r c hto hboth.1)
    (hsees.agrees_changed fun r c hto ↦ ⟨hapart r c hto, fun hboth ↦ hapart r c hto hboth.1⟩)

omit h in
/-- The run itself, if it is there, is not refused. -/
theorem dated_run (hunwritten : s.Unwritten runId key w.files e) {t : FileTree} (ht : t.Sound)
    (hnamed : t.Named) (hbare : t.Bare s.root.names) {found : List String}
    (hfound : s.names t = (.ok found, t)) {name : String} (hname : name ∈ found)
    (heq : (name != runId) = false) :
    ∃ date, s.dated name t = (.ok date, t) ∧ ∀ a ∈ date, (a.2 != runId) = false := by
  obtain rfl : name = runId := by simpa using heq
  obtain ⟨d, ⟨changed, hwalk⟩, hmem⟩ := mem_names hfound hname
  obtain rfl : d = s.root.names := route_eq hs (.refl _) hs.entries hbare hwalk
  have hlook : t.look (s.root.child name).names ≠ none := FileTree.mem_children.mp hmem
  have hentries := hnamed _ hlook
  have hdirect : t.Direct (s.root.child name).names := by
    refine ⟨no_dots_of_entries hentries, fun q hq ↦ hbare q ?_⟩
    exact List.prefix_or_prefix_of_prefix hq (List.prefix_append _ _)
  obtain ⟨node, hto⟩ := hdirect.walk_at (p := s.root.child name) ht hs.absolute
    ((Path.size_le_child (p := s.root.child name) hs.absolute key).trans hunwritten.size)
    (fun n hn ↦ (hentries n hn).fits) hlook
  obtain ⟨date, hdate, hall⟩ := dated_at hto
  exact ⟨date, hdate, fun a ha ↦ by rw [hall a ha]; exact heq⟩

/-- The runs are the same save for the one that the snapshot was for. -/
theorem agreeOn_runs (hunwritten : s.Unwritten runId key w.files e) :
    AgreeOn (List.filter (· != runId)) s.runs s.runs w.files w'.files := by
  rw [runs_eq]
  refine (h.agreeOn_names hs).bind fun found found' hfound hfound' hsame ↦ ?_
  have hvisible : (found'.filter fun name ↦ !(name.toList.head? == some '.')).filter (· != runId) =
      (found.filter fun name ↦ !(name.toList.head? == some '.')).filter (· != runId) := by
    rw [List.filter_comm, hsame, List.filter_comm]
  have hdated : AgreeOn (List.filter fun a : Int × String ↦ a.2 != runId)
      ((found.filter fun name ↦ !(name.toList.head? == some '.')).filterMapM s.dated)
      ((found'.filter fun name ↦ !(name.toList.head? == some '.')).filterMapM s.dated)
      w.files w'.files := by
    refine agreeOn_filterMapM hvisible (fun name hname hne ↦ ?_) (fun name hname ↦ ?_)
      fun name hname ↦ ?_
    · exact h.agrees_dated hs hfound (List.mem_filter.mp hname).1 (by simpa using hne)
    · exact dated_run hs hunwritten hs.sound hs.named hs.bare hfound (List.mem_filter.mp hname).1
    · exact dated_run hs hunwritten h.leaves.sound' h.named (h.bare hs) hfound'
        (List.mem_filter.mp hname).1
  refine hdated.bind fun dates dates' _ _ heq ↦ agreeOn_pure ?_
  rw [List.filter_map, List.filter_map]
  exact congrArg _ (filter_mergeSort newer_trans newer_total newer_antisymm (.of_eq heq))

theorem answersBut (hunwritten : s.Unwritten runId key w.files e) : s.AnswersBut runId w w' where
  load _ _ := h.agrees_load hs
  keys _ := h.agrees_keys hs hunwritten
  runs := h.agreeOn_runs hs hunwritten

end Answering

end Remains

/-- A snapshot that is not taken leaves no trace, unless it could not be written. Then directories
may be left on the way to that of the run, and nothing else, and the store answers as before save
for the place of the run among the runs. -/
theorem ends_snapshot_untraced (s : Store) (runId key : String) (files : List Path) (w : World) :
    Ends (s.snapshot runId key files) w (fun _ _ ↦ True) fun e w' ↦
      w.Unmarked w' ∧ s.Answers w w' ∨
        (∃ cause, e = .backup (.unwritable (s.location runId key).text cause)) ∧
          (s.Plain w → LeavesAlong w.logFile (s.root.child runId).names w.files w'.files ∧
            s.AnswersBut runId w w') := by
  by_cases hs : s.Plain w
  · refine (ends_snapshot_remains hs files).mono (fun _ _ _ ↦ trivial) ?_
    rintro e w' (hunmarked | ⟨hunwritten, hremains⟩)
    · exact .inl ⟨hunmarked, answers_of_unmarked hunmarked s⟩
    · exact .inr ⟨hunwritten.fault, fun _ ↦ ⟨hremains.leaves, hremains.answersBut hs hunwritten⟩⟩
  · refine (ends_snapshot_unmarked s runId key files w).mono (fun _ _ _ ↦ trivial) ?_
    rintro e w' (hunmarked | hunwritten)
    · exact .inl ⟨hunmarked, answers_of_unmarked hunmarked s⟩
    · exact .inr ⟨hunwritten.fault, fun hplain ↦ absurd hplain hs⟩

/-! ### A run that is listed without a backup -/

/-- If other runs are listed after a snapshot was not taken, it could not be written. -/
theorem unwritten_of_runs {files : List Path} {e : Fault}
    (hsnapshot : s.snapshot runId key files w = (.error e, w'))
    (hruns : (s.runs w'.files).1 ≠ (s.runs w.files).1) :
    ∃ cause, e = .backup (.unwritable (s.location runId key).text cause) := by
  have hends := s.ends_snapshot_unmarked runId key files w
  rw [Ends, hsnapshot] at hends
  rcases hends with hunmarked | hunwritten
  · exact absurd (answers_of_unmarked hunmarked s).runs.eq hruns
  · exact hunwritten.fault

/-- Whether backups are where their path says can be seen from the entries of a tree, if there are no
links in it. -/
theorem plain_of_entries (hroot : w.files.HasDirectory [])
    (hentries : ∀ r ∈ w.files.entries.map (·.1), w.files.HasDirectory r.dropLast ∧
      w.files.link? r = none ∧ ∀ name ∈ r, name ≠ ".." ∧ name.utf8ByteSize ≤ nameLimit)
    (habsolute : s.root.isAbsolute = true)
    (hnames : ∀ name ∈ s.root.names, name ≠ ".." ∧ name.utf8ByteSize ≤ nameLimit)
    (hlog : w.logFile = none) : s.Plain w where
  sound := sound_of_entries hroot fun e he ↦ (hentries e.1 (List.mem_map_of_mem he)).1
  named r hr name hname := by
    rcases List.eq_nil_or_concat' r with rfl | ⟨d, last, rfl⟩
    · cases hname
    · obtain ⟨hdots, hfits⟩ := (hentries _ (mem_entries.mpr hr)).2.2 name hname
      exact ⟨hdots, hfits⟩
  absolute := habsolute
  entries name hname := ⟨(hnames name hname).1, (hnames name hname).2⟩
  bare r _ := by
    by_contra hlink
    exact hlink (hentries r (mem_entries_of_link hlink)).2.1
  log r hr := by
    rw [hlog] at hr
    cases hr

/-- A long name, but not too long. -/
def deepName : String := String.ofList (List.replicate 120 'd')

/-- A project with a file two directories below, each of which has a long name. -/
def deepWorld : World where
  files := ⟨[(["p"], .directory 0), (["p", deepName], .directory 0),
    (["p", deepName, deepName], .directory 0),
    (["p", deepName, deepName, "f.ts"], .file (Text.encode "old") 0o644)], 0, ["p"]⟩

/-- There is no room for the backup of the file. That the snapshot cannot be written is not without a
trace: no run was listed before, and afterwards the run is, though there is no backup of it. -/
theorem runs_of_unwritten :
    let after := sampleStore.snapshot "r" "k" [⟨.none, [deepName, deepName, "f.ts"]⟩] deepWorld
    sampleStore.Plain deepWorld ∧
      (∃ cause, after.1 = .error (.backup (.unwritable (sampleStore.location "r" "k").text cause))) ∧
      (sampleStore.runs deepWorld.files).1 = .ok [] ∧
      (sampleStore.runs after.2.files).1 = .ok ["r"] := by
  intro after
  have hplain : sampleStore.Plain deepWorld :=
    plain_of_entries (by decide) (by decide +kernel) (by decide) (by decide) rfl
  obtain ⟨hfails, hbefore, hafter⟩ : after.1.toOption.isNone = true ∧
      (sampleStore.runs deepWorld.files).1.toOption = some [] ∧
      (sampleStore.runs after.2.files).1.toOption = some ["r"] := by
    simp only [after, Store.snapshot, mergeSort_le]
    decide +kernel
  refine ⟨hplain, ?_, eq_ok_of_toOption hbefore, eq_ok_of_toOption hafter⟩
  rcases hsnapshot : after with ⟨e | taken, w⟩ <;> rw [hsnapshot] at hfails hafter
  · obtain ⟨cause, rfl⟩ := unwritten_of_runs hsnapshot fun hsame ↦ by
      rw [hsame, hbefore] at hafter
      cases hafter
    exact ⟨cause, rfl⟩
  · cases hfails

end Store

end Remedy
