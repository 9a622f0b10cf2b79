import Remedy.Proofs.Backup.Loading

/-!
# Listing what has been backed up

The runs are the directories in the directory of the backups, and the keys of a run are the names
of the directories of its snapshots, as far as they have a manifest. Listing them leaves the tree as
it is and is refused only where a path is too long. So a snapshot that lies in its directory is
listed with its run and its key, unless something else in the same directories cannot be asked about
(`Store.ends_runs_of_stored`, `Store.ends_keys_of_stored`).
-/

set_option autoImplicit false

namespace Remedy

open FileTree

/-! ### Directories and the names in them -/

namespace Path

/-- A path is no longer than that to a name in it. -/
theorem size_le_child {p : Path} (hp : p.isAbsolute = true) (name : String) :
    p.text.utf8ByteSize ≤ (p.child name).text.utf8ByteSize := by
  obtain ⟨root, names⟩ := p
  have hnames : (String.intercalate "/" names).utf8ByteSize ≤
      (String.intercalate "/" (names ++ [name])).utf8ByteSize := by
    cases names with
    | nil => simp
    | cons first rest =>
      rw [String.intercalate_append_of_ne_nil (List.cons_ne_nil _ _) (List.cons_ne_nil _ _)]
      simp only [String.utf8ByteSize_append]
      omega
  have htext : ∀ names, text ⟨root, names⟩ =
      PathRoot.text root ++ String.intercalate "/" names := by
    cases root with
    | none => cases hp
    | slash => exact fun _ ↦ rfl
    | twoSlashes => exact fun _ ↦ rfl
  show (text ⟨root, names⟩).utf8ByteSize ≤ (text ⟨root, names ++ [name]⟩).utf8ByteSize
  rw [htext, htext, String.utf8ByteSize_append, String.utf8ByteSize_append]
  omega

end Path

namespace FileTree

variable {t : FileTree}

/-- Where a walk goes on from a directory, it goes on with a name in it. -/
theorem Walk.mem_children (ht : t.Sound) {whole : Bool} {names : List String} {name : String}
    {r : Route} {node : Node} (h : Walk t whole linkLimit [] (names ++ [name]) (.at r node))
    (hname : name ≠ "..") :
    ∃ d, Walk t true linkLimit [] names (.at d (.directory 0)) ∧ name ∈ t.children d := by
  obtain ⟨d, -, hto, hlast⟩ := h.split ht ht.root (List.cons_ne_nil _ _)
  refine ⟨d, hto, FileTree.mem_children.mpr ?_⟩
  cases hlast with
  | up => exact absurd rfl hname
  | file _ hlook => rw [hlook]; exact nofun
  | link _ hlook => rw [hlook]; exact nofun
  | enter _ hlook => rw [hlook]; exact nofun
  | follow _ hlook => rw [hlook]; exact nofun

/-- The path leads to a directory and can be asked about. -/
structure Opens (t : FileTree) (p : Path) (d : Route) : Prop where
  no_nul : p.hasNul = false
  walk : ∃ changed, t.walk p = .ok (.at d (.directory changed))

/-- The path leads to a file and can be asked about. -/
structure Reads (t : FileTree) (p : Path) : Prop where
  no_nul : p.hasNul = false
  walk : ∃ r content mode, t.walk p = .ok (.at r (.file content mode))

section Opened

variable {p : Path} {d d' : Route}

theorem Opens.functional (h : t.Opens p d) (h' : t.Opens p d') : d = d' := by
  obtain ⟨changed, hwalk⟩ := h.walk
  obtain ⟨changed', hwalk'⟩ := h'.walk
  rw [hwalk] at hwalk'
  cases hwalk'
  rfl

theorem Opens.walk_ne_error (h : t.Opens p d) (e : Errno) : t.walk p ≠ .error e := by
  obtain ⟨changed, hwalk⟩ := h.walk
  rw [hwalk]
  exact nofun

/-- What is reached by a name is reached through a directory that has the name. -/
theorem Opens.above (ht : t.Sound) (hp : p.isAbsolute = true) {name : String} (hname : name ≠ "..")
    (h : t.Opens (p.child name) d) : ∃ d', t.Opens p d' ∧ name ∈ t.children d' := by
  obtain ⟨changed, hwalk⟩ := h.walk
  obtain ⟨d', hto, hmem⟩ :=
    (FileAct.walk_of_walk (p := p.child name) hp hwalk).mem_children ht hname
  have hfits : (p.child name).text.utf8ByteSize ≤ pathLimit := by
    by_contra hlong
    rw [FileTree.walk, if_pos (Nat.not_le.mp hlong)] at hwalk
    cases hwalk
  refine ⟨d', ⟨?_, walk_of_directory hp ((p.size_le_child hp name).trans hfits) hto⟩, hmem⟩
  exact Path.hasNul_eq_false.mpr fun other hother ↦
    Path.hasNul_eq_false.mp h.no_nul other (List.mem_append_left _ hother)

end Opened

end FileTree

namespace FileAct

variable {t : FileTree} {p : Path}

theorem ends_isDirectory (p : Path) (t : FileTree) :
    Ends (isDirectory p) t (fun answer t' ↦ t' = t ∧ (answer = true ↔ ∃ d, t.Opens p d))
      fun _ t' ↦ t' = t ∧ t.walk p = .error .nameTooLong := by
  refine (ends_holds p Node.isDirectory t).mono ?_ fun _ _ h ↦ h
  rintro answer t' ⟨rfl, hanswer⟩
  refine ⟨rfl, hanswer.trans ⟨?_, ?_⟩⟩
  · rintro ⟨hnul, d, node, hwalk, hnode⟩
    cases node with
    | directory changed => exact ⟨d, hnul, changed, hwalk⟩
    | _ => cases hnode
  · rintro ⟨d, hnul, changed, hwalk⟩
    exact ⟨hnul, d, _, hwalk, rfl⟩

section Opened

variable {d : Route} {bad : FileError → FileTree → Prop} (h : t.Opens p d)

include h

theorem ends_list : Ends (list p) t (fun names t' ↦ t' = t ∧ names = t.children d) bad := by
  obtain ⟨changed, hwalk⟩ := h.walk
  unfold list
  refine ends_bind.mpr (ends_place.mpr ?_)
  rw [hwalk]
  exact ends_bind.mpr (ends_get.mpr (ends_pure.mpr ⟨rfl, rfl⟩))

theorem ends_changed : Ends (changed p) t (fun _ t' ↦ t' = t) bad := by
  obtain ⟨changed, hwalk⟩ := h.walk
  unfold FileAct.changed
  refine ends_bind.mpr (ends_place.mpr ?_)
  rw [hwalk]
  exact ends_pure.mpr rfl

end Opened

/-- The names in a directory are gone through if the path leads to one. -/
theorem ends_ifDirectory {α : Type} {f : List String → FileAct (List α)}
    {ok : List α → FileTree → Prop} {bad : FileError → FileTree → Prop}
    (hlong : t.walk p = .error .nameTooLong → ∀ e, bad e t)
    (hnone : (∀ d, ¬ t.Opens p d) → ok [] t)
    (hopens : ∀ d, t.Opens p d → Ends (f (t.children d)) t ok bad) :
    Ends (do
      if !(← isDirectory p) then return []
      f (← list p)) t ok bad := by
  refine ((ends_isDirectory p t).mono (fun _ _ h ↦ h) ?_).bind ?_
  · rintro e _ ⟨rfl, hwalk⟩
    exact hlong hwalk e
  rintro answer t ⟨rfl, hanswer⟩
  cases answer with
  | false => exact ends_pure.mpr (hnone fun d h ↦ absurd (hanswer.mpr ⟨d, h⟩) (by decide))
  | true =>
    obtain ⟨d, h⟩ := hanswer.mp rfl
    refine (ends_list h).bind ?_
    rintro _ t ⟨rfl, rfl⟩
    exact hopens d h

end FileAct

/-! ### Runs and keys -/

/-- Names of runs and keys begin with a letter or a digit and go on with such and some others. -/
theorem chars_of_isBackupName {name : String} (h : isBackupName name = true) :
    ∃ c rest, name.toList = c :: rest ∧ isNameStart c = true ∧
      ∀ c' ∈ rest, isNameChar c' = true ∨ c' = '\n' := by
  unfold isBackupName at h
  split at h
  · cases h
  · rename_i c rest hchars
    obtain ⟨hstart, hend⟩ := Bool.and_eq_true_iff.mp h
    refine ⟨c, rest, hchars, hstart, fun c' hc ↦ ?_⟩
    rw [← List.takeWhile_append_dropWhile (p := isNameChar) (l := rest), List.mem_append] at hc
    rcases hc with hc | hc
    · exact .inl (List.mem_takeWhile_imp hc)
    · have hlast : rest.dropWhile isNameChar = [] ∨ rest.dropWhile isNameChar = ['\n'] := by
        simpa using hend
      rcases hlast with hnil | hfeed
      · rw [hnil] at hc
        cases hc
      · rw [hfeed] at hc
        exact .inr (List.mem_singleton.mp hc)

theorem not_mem_of_isBackupName {name : String} (h : isBackupName name = true) {c : Char}
    (hstart : isNameStart c = false) (hchar : isNameChar c = false) (hfeed : c ≠ '\n') :
    c ∉ name.toList := by
  obtain ⟨first, rest, hchars, hfirst, hrest⟩ := chars_of_isBackupName h
  rw [hchars]
  intro hmem
  rcases List.mem_cons.mp hmem with rfl | hmem
  · rw [hstart] at hfirst
    cases hfirst
  · rcases hrest _ hmem with hname | heq
    · rw [hchar] at hname
      cases hname
    · exact hfeed heq

theorem nul_not_mem_of_isBackupName {name : String} (h : isBackupName name = true) :
    '\x00' ∉ name.toList :=
  not_mem_of_isBackupName h (by decide) (by decide) (by decide)

/-- The directory of a snapshot can be named if that of all backups can. -/
theorem Store.hasNul_location {s : Store} {runId key : String} (h : s.root.hasNul = false)
    (hnames : isBackupName runId = true ∧ isBackupName key = true) :
    (s.location runId key).hasNul = false := by
  rw [Path.hasNul_eq_false] at h ⊢
  intro name hname
  rcases List.mem_append.mp hname with hname | hname
  · rcases List.mem_append.mp hname with hname | hname
    · exact h name hname
    · exact List.mem_singleton.mp hname ▸ nul_not_mem_of_isBackupName hnames.1
  · exact List.mem_singleton.mp hname ▸ nul_not_mem_of_isBackupName hnames.2

theorem head_of_isBackupName {name : String} (h : isBackupName name = true) :
    name.toList.head? ≠ some '.' := by
  obtain ⟨c, rest, hchars, hstart, -⟩ := chars_of_isBackupName h
  rw [hchars, List.head?_cons]
  rintro ⟨⟩
  exact absurd hstart (by decide)

theorem isPathName_of_isBackupName {name : String} (h : isBackupName name = true) :
    IsPathName name := by
  constructor
  · rintro rfl
    cases h
  · rintro rfl
    exact absurd h (by decide)
  · exact not_mem_of_isBackupName h (by decide) (by decide) (by decide)

namespace Store

variable {t : FileTree}

/-- The runs are the names in the directory of the backups that lead to a directory and do not
begin with a dot. -/
theorem ends_runs (s : Store) (t : FileTree) :
    Ends s.runs t
      (fun names t' ↦ t' = t ∧ ∀ d name, t.Opens s.root d → name ∈ t.children d →
        name.toList.head? ≠ some '.' → (∃ r, t.Opens (s.root.child name) r) → name ∈ names)
      fun _ t' ↦ t' = t ∧ (t.walk s.root = .error .nameTooLong ∨
        ∃ name, t.walk (s.root.child name) = .error .nameTooLong) := by
  unfold runs
  refine FileAct.ends_ifDirectory (fun hlong _ ↦ ⟨rfl, .inl hlong⟩)
    (fun hnone ↦ ⟨rfl, fun d _ hopens ↦ absurd hopens (hnone d)⟩) fun d hopens ↦ ?_
  refine (ends_filterMapM (Q := fun name found ↦ (∃ r, t.Opens (s.root.child name) r) →
    ∃ moment, found = some (moment, name)) fun name _ ↦ ?_).bind ?_
  · refine ((FileAct.ends_isDirectory (s.root.child name) t).mono (fun _ _ h ↦ h) ?_).bind ?_
    · exact fun _ _ h ↦ ⟨h.1, .inr ⟨name, h.2⟩⟩
    rintro there t ⟨rfl, hthere⟩
    cases there with
    | false => exact ends_pure.mpr ⟨rfl, fun h ↦ absurd (hthere.mpr h) (by decide)⟩
    | true =>
      obtain ⟨r, hopens'⟩ := hthere.mp rfl
      refine (FileAct.ends_changed hopens').bind ?_
      rintro moment t rfl
      exact ends_pure.mpr ⟨rfl, fun _ ↦ ⟨moment, rfl⟩⟩
  rintro dated t ⟨rfl, hdated⟩
  refine ends_pure.mpr ⟨rfl, fun d' name hopens' hmem hhead hto ↦ ?_⟩
  cases hopens.functional hopens'
  obtain ⟨found, hfound, hmem⟩ := hdated name (List.mem_filter.mpr ⟨hmem, by simpa using hhead⟩)
  obtain ⟨changed, rfl⟩ := hfound hto
  exact List.mem_map.mpr ⟨_, List.mem_mergeSort.mpr (hmem _ rfl), rfl⟩

/-- The keys are the names in the directory of the run in which there is a manifest. -/
theorem ends_keys (s : Store) (runId : String) (t : FileTree) :
    Ends (s.keys runId) t
      (fun names t' ↦ t' = t ∧ ∀ d name, t.Opens (s.root.join (Path.ofString runId)) d →
        name ∈ t.children d →
        t.Reads (((s.root.join (Path.ofString runId)).child name).child manifestName) →
          name ∈ names)
      fun _ t' ↦ t' = t ∧ (t.walk (s.root.join (Path.ofString runId)) = .error .nameTooLong ∨
        ∃ name, t.walk (((s.root.join (Path.ofString runId)).child name).child manifestName) =
          .error .nameTooLong) := by
  unfold keys
  dsimp only
  generalize s.root.join (Path.ofString runId) = directory
  refine FileAct.ends_ifDirectory (fun hlong _ ↦ ⟨rfl, .inl hlong⟩)
    (fun hnone ↦ ⟨rfl, fun d _ hopens ↦ absurd hopens (hnone d)⟩) fun d hopens ↦ ?_
  refine (ends_filterM fun name _ ↦ (FileAct.ends_holds _ Node.isFile t).mono (fun _ _ h ↦ h)
    ?_).mono ?_ fun _ _ h ↦ h
  · exact fun _ _ h ↦ ⟨h.1, .inr ⟨name, h.2⟩⟩
  rintro names t ⟨rfl, hnames⟩
  refine ⟨rfl, fun d' name hopens' hmem hfile ↦ ?_⟩
  cases hopens.functional hopens'
  obtain ⟨answer, hanswer, hpasses⟩ := hnames name hmem
  obtain ⟨r, content, mode, hwalk⟩ := hfile.walk
  exact hpasses (hanswer.mpr ⟨hfile.no_nul, r, _, hwalk, rfl⟩)

/-! ### Snapshots in their directories -/

section Lying

variable {s : Store} {snapshot : Snapshot} {createdAt : String} {home : Route}
  (hdurable : snapshot.Durable createdAt)
  (hlocation : snapshot.location = s.location snapshot.runId snapshot.key)
  (hstored : snapshot.Stored s.project createdAt t home)

include hdurable hstored

theorem opens_location : t.Opens snapshot.location home := by
  refine ⟨hdurable.nul, walk_of_directory hstored.clean.absolute ?_ hstored.clean.walk⟩
  exact (Path.size_le_child hstored.clean.absolute manifestName).trans hstored.manifest.1.1

include hlocation

/-- A snapshot lies in the directory of its run, which lies in that of the backups. -/
theorem opens_above : ∃ d d', t.Opens s.root d ∧ snapshot.runId ∈ t.children d ∧
    t.Opens (s.root.child snapshot.runId) d' ∧ snapshot.key ∈ t.children d' := by
  have hopens := opens_location hdurable hstored
  have hroot := hstored.clean.absolute
  rw [hlocation] at hopens hroot
  obtain ⟨d', hopens', hkey⟩ := Opens.above (p := s.root.child snapshot.runId)
    hstored.clean.sound hroot (ne_dots_of_isBackupName hdurable.names.2) hopens
  obtain ⟨d, hopens, hrunId⟩ := Opens.above (p := s.root)
    hstored.clean.sound hroot (ne_dots_of_isBackupName hdurable.names.1) hopens'
  exact ⟨d, d', hopens, hrunId, hopens', hkey⟩

/-- A snapshot in its directory is listed with its run, if no other name there is refused. -/
theorem ends_runs_of_stored :
    Ends s.runs t (fun names t' ↦ t' = t ∧ snapshot.runId ∈ names)
      fun _ _ ↦ ∃ name, t.walk (s.root.child name) = .error .nameTooLong := by
  obtain ⟨d, d', hopens, hrunId, hopens', -⟩ := opens_above hdurable hlocation hstored
  refine (ends_runs s t).mono ?_ ?_
  · rintro names t ⟨rfl, hnames⟩
    exact ⟨rfl, hnames d _ hopens hrunId (head_of_isBackupName hdurable.names.1) ⟨d', hopens'⟩⟩
  · rintro e t ⟨rfl, hlong | hlong⟩
    · exact absurd hlong (hopens.walk_ne_error _)
    · exact hlong

/-- And with its key. -/
theorem ends_keys_of_stored :
    Ends (s.keys snapshot.runId) t (fun names t' ↦ t' = t ∧ snapshot.key ∈ names)
      fun _ _ ↦ ∃ name, t.walk (((s.root.child snapshot.runId).child name).child manifestName) =
        .error .nameTooLong := by
  obtain ⟨-, d', -, -, hopens', hkey⟩ := opens_above hdurable hlocation hstored
  have hdirectory : s.root.join (Path.ofString snapshot.runId) = s.root.child snapshot.runId := by
    rw [Path.ofString_of_isPathName (isPathName_of_isBackupName hdurable.names.1)]
    rfl
  have hreads : t.Reads (((s.root.child snapshot.runId).child snapshot.key).child manifestName) := by
    show t.Reads ((s.location snapshot.runId snapshot.key).child manifestName)
    rw [← hlocation]
    obtain ⟨mode, hwalk⟩ := hstored.clean.walk_eq (by decide) hstored.manifest
    refine ⟨?_, _, _, mode, hwalk⟩
    exact Path.hasNul_eq_false.mpr (List.forall_mem_append.mpr
      ⟨Path.hasNul_eq_false.mp hdurable.nul, by decide⟩)
  have hends := ends_keys s snapshot.runId t
  rw [hdirectory] at hends
  refine hends.mono ?_ ?_
  · rintro names t ⟨rfl, hnames⟩
    exact ⟨rfl, hnames d' _ hopens' hkey hreads⟩
  · rintro e t ⟨rfl, hlong | hlong⟩
    · exact absurd hlong (hopens'.walk_ne_error _)
    · exact hlong

end Lying

end Store

end Remedy
