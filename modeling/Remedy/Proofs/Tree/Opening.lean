import Remedy.Proofs.Tree.Replacement

/-!
# Files that can be opened

`FileTree.LeadsTo t p r` says that the path leads to the regular file at the route and can be named.
Then making the directory that the file is in, and opening the file, change nothing
(`FileTree.LeadsTo.makePath_eq`, `FileTree.LeadsTo.openEnd_eq`). It stays so as long as the file is
there and links and directories are left alone (`FileTree.LeadsTo.altered`).
-/

set_option autoImplicit false

namespace Remedy

namespace FileTree

variable {t t' : FileTree} {whole : Bool} {k : Nat} {d r : Route} {names : List String}
  {only : Route → Prop}

/-- Walks to a regular file lead to it as long as it is there. -/
theorem Walk.altered_file (h : Alters only t t') {content content' : Text.Bytes} {mode mode' : Nat}
    (hlook : t'.look r = some (.file content' mode')) (hd : t.HasDirectory d)
    (hwalk : Walk t whole k d names (.at r (.file content mode))) (ht : t.Sound) :
    Walk t' whole k d names (.at r (.file content' mode')) := by
  generalize hplace : Place.at r (.file content mode) = place at hwalk
  induction hwalk with
  | here k d =>
    rw [hd] at hplace
    cases hplace
  | up hwalk ih => exact .up (ih (ht.dropLast hd) hplace)
  | free hname hlook => cases hplace
  | file hname hthere =>
    cases hplace
    exact .file hname hlook
  | link hname hlook hwhole => cases hplace
  | enter hname hdir hwalk ih =>
    exact .enter hname (h.directories _ hdir) (ih hdir hplace)
  | follow hname hlink hwhole hwalk ih =>
    exact .follow hname (h.look_link hlink) hwhole (ih (ht.base hd _) hplace)

/-- What can be walked to, can be walked to if links at the end are not followed. -/
theorem Walk.toLink {node : Node} (h : Walk t true k d names (.at r node)) :
    ∃ q node', Walk t false k d names (.at q node') := by
  generalize hplace : Place.at r node = place at h
  induction h with
  | here k d => exact ⟨_, _, .here k d⟩
  | up h ih =>
    obtain ⟨q, node', h⟩ := ih hplace
    exact ⟨q, node', .up h⟩
  | free => cases hplace
  | file hname hlook => exact ⟨_, _, .file hname hlook⟩
  | link hname hlook hwhole => cases hwhole
  | enter hname hlook h ih =>
    obtain ⟨q, node', h⟩ := ih hplace
    exact ⟨q, node', .enter hname hlook h⟩
  | @follow k d name target rest place hname hlook hwhole h ih =>
    by_cases hrest : rest = []
    · subst hrest
      exact ⟨_, _, .link hname hlook rfl⟩
    · obtain ⟨q, node', h⟩ := ih hplace
      exact ⟨q, node', .follow hname hlook (.inr hrest) h⟩

/-- Making a directory that is there leaves everything as it is. -/
theorem makePath_of_directory {p : Path} (hp : p.isAbsolute = true)
    (hfits : p.text.utf8ByteSize ≤ pathLimit) (hnul : p.hasNul = false)
    (hto : Walk t true linkLimit [] p.names (.at d (.directory 0))) :
    FileAct.makePath p true t = (.ok (), t) := by
  obtain ⟨changed, hthere⟩ := walk_of_directory hp hfits hto
  have hlink : ∃ q node, t.walkToLink p = .ok (.at q node) := by
    obtain ⟨q, node, hto'⟩ := hto.toLink
    obtain ⟨found, hfound, hstill⟩ := hto'.walkWithin_eq
    rw [walkToLink, if_neg (Nat.not_lt.mpr hfits), start, if_pos hp, hfound]
    cases found with
    | free d name => cases hstill
    | «at» q' node' => exact ⟨q', node', rfl⟩
  -- The directory is not made again, which is no failure, as it may be there.
  have hensure : Ends (FileAct.ensureDirectory p true) t (fun a t' ↦ t' = t ∧ a = ())
      fun _ _ ↦ False := by
    obtain ⟨q, node, hlink⟩ := hlink
    unfold FileAct.ensureDirectory FileAct.makeDirectory
    refine ends_tryCatch.mpr (ends_bind.mpr (FileAct.ends_linkPlace.mpr ?_))
    rw [hlink]
    refine ends_throw.mpr ?_
    rw [if_neg (by simp)]
    refine ((FileAct.ends_holds _ _ _).mono (fun _ _ h ↦ h) ?_).bind ?_
    · rintro _ _ ⟨-, hlong⟩
      rw [hthere] at hlong
      cases hlong
    · rintro answer _ ⟨rfl, hanswer⟩
      rw [if_pos]
      · exact ends_pure.mpr ⟨rfl, rfl⟩
      · exact hanswer.mpr ⟨hnul, _, _, hthere, rfl⟩
  refine run_of_ends ?_
  unfold FileAct.makePath
  cases p.names.length with
  | zero => exact hensure
  | succ depth =>
    unfold FileAct.makeDirectories
    exact ends_tryCatch.mpr (hensure.mono (fun _ _ h ↦ h) fun _ _ ↦ False.elim)

/-- The path leads to a regular file and can be named. -/
structure LeadsTo (t : FileTree) (p : Path) (r : Route) : Prop where
  absolute : p.isAbsolute = true
  fits : p.text.utf8ByteSize ≤ pathLimit
  nul : p.hasNul = false
  walk : ∃ content mode, Walk t true linkLimit [] p.names (.at r (.file content mode))

namespace LeadsTo

variable {p : Path} (h : t.LeadsTo p r)

include h

theorem bytes_ne_none (ht : t.Sound) : t.bytes? r ≠ none := by
  obtain ⟨content, mode, hwalk⟩ := h.walk
  rw [bytes?_of_look (hwalk.shows ht ht.root)]
  exact Option.some_ne_none _

theorem altered (ht : t.Sound) (halters : Alters only t t') (hfile : t'.bytes? r ≠ none) :
    t'.LeadsTo p r := by
  obtain ⟨content', hcontent'⟩ := Option.ne_none_iff_exists'.mp hfile
  obtain ⟨mode', hlook⟩ := look_of_bytes? hcontent'
  obtain ⟨content, mode, hwalk⟩ := h.walk
  exact { h with walk := ⟨content', mode', hwalk.altered_file halters hlook ht.root ht⟩ }

end LeadsTo

/-- A path at which a file has been opened leads to that file. -/
theorem leadsTo_of_openEnd {p : Path} (ht : t.Sound) (hp : p.isAbsolute = true)
    (hnul : p.hasNul = false) (h : FileAct.openEnd p t = (.ok r, t')) : t'.LeadsTo p r := by
  refine (ends_of_eq h).mp (?_ : Ends (FileAct.openEnd p) t (fun r t' ↦ t'.LeadsTo p r)
    fun _ _ ↦ True)
  unfold FileAct.openEnd
  refine ends_bind.mpr (FileAct.ends_place.mpr ?_)
  split
  case h_2 => trivial
  rename_i place hwalk
  have hfits : p.text.utf8ByteSize ≤ pathLimit := by
    by_contra hlong
    rw [FileTree.walk, if_pos (Nat.not_le.mp hlong)] at hwalk
    cases hwalk
  have hto := FileAct.walk_of_walk hp hwalk
  have hshows := hto.shows ht ht.root
  cases place with
  | «at» q node =>
    cases node with
    | file content mode => exact ends_pure.mpr ⟨hp, hfits, hnul, content, mode, hto⟩
    | _ => exact ends_throw.mpr trivial
  | free d name =>
    refine ends_bind.mpr (ends_modify.mpr (ends_pure.mpr ⟨hp, hfits, hnul, [], 0o644, ?_⟩))
    obtain ⟨hd, hfree, -⟩ := hshows
    have hdir : ¬ t.HasDirectory (d ++ [name]) := by
      rw [HasDirectory, hfree]
      exact fun h ↦ by cases h
    have hedits := edits_add_file ht hd hdir (by rw [link?, hfree]) [] 0o644
    refine hto.filled hedits.alters ?_ fun _ h ↦ by cases h
    rw [look_add, if_pos rfl]
    rfl

end FileTree

end Remedy
