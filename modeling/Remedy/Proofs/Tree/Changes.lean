import Remedy.Proofs.Tree.Resolve

/-!
# Changes of a tree

The elementary changes of a tree turn a sound tree into a sound one and alter nothing but what they
are meant to (`FileTree.Becomes`): a file is rewritten, a file or a directory is added to a
directory, a file is taken away.

`FileTree.Reaches` says that a path leads to a name in a directory, whether or not the name is taken
there. As only directories count for that, it stays so when the tree is altered
(`Reaches.altered`), and what a walk along the path finds is what the tree holds at the name
(`Reaches.walk_finds`).
-/

set_option autoImplicit false

namespace Remedy

namespace FileTree

variable {t t' t'' : FileTree} {r d : Route} {name : String} {only only' : Route → Prop}

/-- The tree has become another one, which is sound, by changes of regular files at the routes in
`only` and by new directories. -/
structure Becomes (only : Route → Prop) (t t' : FileTree) : Prop where
  sound : t'.Sound
  alters : Alters only t t'

theorem Becomes.refl (ht : t.Sound) : Becomes only t t :=
  ⟨ht, .refl only t⟩

theorem Becomes.trans (h : Becomes only t t') (h' : Becomes only t' t'') : Becomes only t t'' :=
  ⟨h'.sound, h.alters.trans h'.alters⟩

theorem Becomes.mono (h : Becomes only t t') (hsub : ∀ r, only r → only' r) :
    Becomes only' t t' :=
  ⟨h.sound, h.alters.mono hsub⟩

/-- The tree has become another one by changes of regular files alone, so that no directory is
new. -/
structure Edits (only : Route → Prop) (t t' : FileTree) : Prop extends Becomes only t t' where
  flat : ∀ r, t'.HasDirectory r → t.HasDirectory r

theorem Edits.refl (ht : t.Sound) : Edits only t t :=
  ⟨.refl ht, fun _ ↦ id⟩

theorem Edits.trans (h : Edits only t t') (h' : Edits only t' t'') : Edits only t t'' :=
  ⟨h.toBecomes.trans h'.toBecomes, fun r ↦ h.flat r ∘ h'.flat r⟩

theorem Edits.mono (h : Edits only t t') (hsub : ∀ r, only r → only' r) : Edits only' t t' :=
  ⟨h.toBecomes.mono hsub, h.flat⟩

/-- Nothing is where nothing was and no file may be edited. -/
theorem Edits.look_eq_none (h : Edits only t t') (hr : ¬ only r) (hnone : t.look r = none) :
    t'.look r = none := by
  rcases h.alters.none_or_directory hr hnone with hnone' | hdir
  · exact hnone'
  · have hdir' := h.flat r hdir
    rw [HasDirectory, hnone] at hdir'
    cases hdir'

/-! ### Elementary changes -/

theorem edits_set_file (ht : t.Sound)
    (hr : ∃ content' mode', t.look r = some (.file content' mode')) (content : Text.Bytes)
    (mode : Nat) : Edits (· = r) t (t.set r (.file content mode)) := by
  refine ⟨⟨ht.set_file hr, .of_look (fun q hq ↦ ?_) ?_ ?_⟩, fun q hq ↦ ?_⟩
  · rw [look_set, if_neg hq]
  · rintro _ rfl hdir
    obtain ⟨content', mode', hr⟩ := hr
    rw [hdir] at hr
    cases hr
  · rintro _ rfl
    obtain ⟨content', mode', hr⟩ := hr
    constructor
    · simp [link?, hr]
    · simp [link?, look_set, Node.still]
  · rw [HasDirectory, look_set] at hq
    split at hq
    · cases hq
    · exact hq

theorem edits_add_file (ht : t.Sound) (hd : t.HasDirectory d)
    (hdir : ¬ t.HasDirectory (d ++ [name])) (hlink : t.link? (d ++ [name]) = none)
    (content : Text.Bytes) (mode : Nat) :
    Edits (· = d ++ [name]) t (t.add d name (.file content mode)) := by
  refine ⟨⟨ht.add hd hdir, .of_look (fun q hq ↦ ?_) ?_ ?_⟩, fun q hq ↦ ?_⟩
  · rw [look_add, if_neg hq]
  · rintro _ rfl
    exact hdir
  · rintro _ rfl
    refine ⟨hlink, ?_⟩
    simp [link?, look_add, Node.still]
  · rw [HasDirectory, look_add] at hq
    split at hq
    · cases hq
    · exact hq

theorem becomes_add_directory (ht : t.Sound) (hd : t.HasDirectory d)
    (hfree : t.look (d ++ [name]) = none) (changed : Int) :
    Becomes (fun _ ↦ False) t (t.add d name (.directory changed)) := by
  have hdir : ¬ t.HasDirectory (d ++ [name]) := by
    rw [HasDirectory, hfree]
    exact fun h ↦ by cases h
  refine ⟨ht.add hd hdir, ?_⟩
  constructor
  · intro q
    by_cases hq : q = d ++ [name]
    · subst hq
      simp [link?, look_add, hfree, Node.still]
    · simp [link?, look_add, hq]
  · intro q hq
    have hne : q ≠ d ++ [name] := fun heq ↦ hdir (heq ▸ hq)
    rw [HasDirectory, look_add, if_neg hne]
    exact hq
  · intro q _
    by_cases hq : q = d ++ [name]
    · subst hq
      simp [bytes?, look_add, hfree, Node.still]
    · simp [bytes?, look_add, hq]

/-- Below what is no directory there is nothing. -/
theorem Sound.look_below (ht : t.Sound) {q : Route} (hdir : ¬ t.HasDirectory r) (hq : r <+: q)
    (hne : q ≠ r) : t.look q = none := by
  by_contra hlook
  exact hdir (ht.above hlook hq hne.symm)

theorem edits_remove (ht : t.Sound) (hr : r ≠ []) (hdir : ¬ t.HasDirectory r)
    (hlink : t.link? r = none) : Edits (· = r) t (t.remove r) := by
  refine ⟨⟨ht.remove hr, .of_look (fun q hq ↦ ?_) ?_ ?_⟩, fun q hq ↦ ?_⟩
  · rw [look_remove t hr]
    split
    · exact (ht.look_below hdir ‹_› hq).symm
    · rfl
  · rintro _ rfl
    exact hdir
  · rintro _ rfl
    refine ⟨hlink, ?_⟩
    simp [link?, look_remove t hr]
  · rw [HasDirectory, look_remove t hr] at hq
    split at hq
    · cases hq
    · exact hq

/-- What is below a route at which there was nothing can be taken away: all that was there before is
still there. -/
theorem Becomes.removed (h : Becomes only t t') (hr : r ≠ [])
    (hnew : ∀ q, r <+: q → t.look q = none) : Becomes only t (t'.remove r) := by
  refine ⟨h.sound.remove hr, fun q ↦ ?_, fun q hq ↦ ?_, fun q hq ↦ ?_⟩
  · by_cases hbelow : r <+: q
    · rw [link?, link?, look_remove t' hr, if_pos hbelow, hnew q hbelow]
    · rw [link?, look_remove t' hr, if_neg hbelow]
      exact h.alters.links q
  · rw [HasDirectory, look_remove t' hr, if_neg]
    · exact h.alters.directories q hq
    · intro hbelow
      rw [HasDirectory, hnew q hbelow] at hq
      cases hq
  · by_cases hbelow : r <+: q
    · rw [bytes?, bytes?, look_remove t' hr, if_pos hbelow, hnew q hbelow]
    · rw [bytes?, look_remove t' hr, if_neg hbelow]
      exact h.alters.bytes q hq

/-! ### Names in directories -/

end FileTree

/-- The path and its last name are as long as they may be. -/
def Path.Fits (p : Path) : Prop :=
  p.text.utf8ByteSize ≤ FileTree.pathLimit ∧ p.name.utf8ByteSize ≤ FileTree.nameLimit

namespace FileTree

variable {t t' t'' : FileTree} {r d : Route} {name : String} {only only' : Route → Prop}

/-- The path leads to a name in a directory, which may be free. -/
structure Reaches (t : FileTree) (p : Path) (d : Route) (name : String) : Prop where
  absolute : p.isAbsolute = true
  names : p.names = p.names.dropLast ++ [name]
  ne_dots : name ≠ ".."
  walk : Walk t true linkLimit [] p.names.dropLast (.at d (.directory 0))

/-- What a walk along a path that leads to a route can come to. -/
inductive Finds (t : FileTree) (p : Path) (d : Route) (name : String) : Except Errno Place → Prop
  | refused (e : Errno) (hfits : ¬ p.Fits) : Finds t p d name (.error e)
  | free (hfits : p.Fits) (hlook : t.look (d ++ [name]) = none) :
      Finds t p d name (.ok (.free d name))
  | file {content : Text.Bytes} {mode : Nat} (hfits : p.Fits)
      (hlook : t.look (d ++ [name]) = some (.file content mode)) :
      Finds t p d name (.ok (.at (d ++ [name]) (.file content mode)))
  | directory {changed : Int} (hfits : p.Fits) (hlook : t.HasDirectory (d ++ [name])) :
      Finds t p d name (.ok (.at (d ++ [name]) (.directory changed)))

variable {p : Path}

theorem Reaches.name_eq (h : t.Reaches p d name) : p.name = name := by
  unfold Path.name
  rw [h.names, List.getLast?_concat]
  rfl

theorem Reaches.directory (h : t.Reaches p d name) (ht : t.Sound) : t.HasDirectory d :=
  h.walk.shows ht ht.root

theorem Reaches.altered (h : t.Reaches p d name) (ht : t.Sound) (halters : Alters only t t') :
    t'.Reaches p d name :=
  { h with walk := h.walk.altered halters ht ht.root }

/-- A directory that can be walked to holds its names. -/
theorem reaches_child (hp : p.isAbsolute = true) (hname : name ≠ "..")
    (h : Walk t true linkLimit [] p.names (.at d (.directory 0))) :
    t.Reaches (p.child name) d name where
  absolute := hp
  names := by simp [Path.child]
  ne_dots := hname
  walk := by
    show Walk t true linkLimit [] (p.names ++ [name]).dropLast _
    rw [List.dropLast_concat]
    exact h

/-- If no link has the name, the path resolves to it. -/
theorem Reaches.traced (h : t.Reaches p d name) (ht : t.Sound)
    (hlink : t.link? (d ++ [name]) = none) : t.traced p = .done (d ++ [name]) := by
  have hfront := Walk.resolved ht h.walk ht.root ⟨List.nodup_nil, by simp⟩ t.enough_entries
    (by simp [Blocked])
  rw [resolveWithin_eq] at hfront
  rw [FileTree.traced, start, if_pos h.absolute, h.names, resolveWithin_eq,
    resolveFrom_append hfront, resolveFrom_cons _ _ _ _ h.ne_dots, Place.route, hlink]
  rfl

/-- If a walk along the path comes to an end, the last name is an entry of the directory, and so not
too long. -/
theorem Reaches.fits_of_walkWithin (h : t.Reaches p d name) (ht : t.Sound)
    (hpath : p.text.utf8ByteSize ≤ pathLimit) {whole : Bool} {place : Place}
    (hwalk : t.walkWithin whole linkLimit [] p.names = .ok place) : p.Fits := by
  refine ⟨hpath, ?_⟩
  have hto := walk_of_walkWithin hwalk
  rw [h.names] at hto
  generalize place.still = found at hto
  obtain ⟨mid, -, -, hlast⟩ := hto.split ht ht.root (List.cons_ne_nil _ _)
  rw [h.name_eq]
  cases hlast with
  | up => exact absurd rfl h.ne_dots
  | free hname => exact hname.fits
  | file hname => exact hname.fits
  | link hname => exact hname.fits
  | enter hname => exact hname.fits
  | follow hname => exact hname.fits

theorem Reaches.walkWithin_finds (h : t.Reaches p d name) (ht : t.Sound)
    (hlink : t.link? (d ++ [name]) = none) (hpath : p.text.utf8ByteSize ≤ pathLimit)
    (whole : Bool) : t.Finds p d name (t.walkWithin whole linkLimit [] p.names) := by
  rw [h.names, h.walk.walkWithin_last ht ht.root h.ne_dots fun _ ↦ hlink]
  split
  · rename_i hlong
    apply Finds.refused
    intro hfits
    exact absurd (h.name_eq ▸ hfits.2) (Nat.not_le.mpr hlong)
  · rename_i hshort
    have hfits : p.Fits := ⟨hpath, h.name_eq ▸ Nat.not_lt.mp hshort⟩
    rw [placeAt]
    cases hnode : t.node? (d ++ [name]) with
    | none => exact .free hfits (look_eq_none hnode)
    | some node =>
      have hlook := look_of_node? hnode
      cases node with
      | file content mode => exact .file hfits hlook
      | directory changed => exact .directory hfits hlook
      | link target =>
        rw [link?, hlook] at hlink
        cases hlink

theorem Reaches.walk_finds (h : t.Reaches p d name) (ht : t.Sound)
    (hlink : t.link? (d ++ [name]) = none) : t.Finds p d name (t.walk p) := by
  unfold FileTree.walk start
  rw [if_pos h.absolute]
  split
  · exact .refused _ fun hfits ↦ absurd hfits.1 (Nat.not_le.mpr ‹_›)
  · exact h.walkWithin_finds ht hlink (Nat.not_lt.mp ‹_›) true

theorem Reaches.walkToLink_finds (h : t.Reaches p d name) (ht : t.Sound)
    (hlink : t.link? (d ++ [name]) = none) : t.Finds p d name (t.walkToLink p) := by
  unfold walkToLink start
  rw [if_pos h.absolute]
  split
  · exact .refused _ fun hfits ↦ absurd hfits.1 (Nat.not_le.mpr ‹_›)
  · exact h.walkWithin_finds ht hlink (Nat.not_lt.mp ‹_›) false

/-- A link at the end of the path is found if it is not followed. -/
theorem Reaches.walkToLink_link (h : t.Reaches p d name) {target : String} (hfits : p.Fits)
    (hlook : t.look (d ++ [name]) = some (.link target)) :
    t.walkToLink p = .ok (.at (d ++ [name]) (.link target)) := by
  have hname : IsEntry name := ⟨h.ne_dots, h.name_eq ▸ hfits.2⟩
  have hlast : Walk t false 0 d [name] (.at (d ++ [name]) (.link target)) := .link hname hlook rfl
  have hto : Walk t false linkLimit [] p.names (.at (d ++ [name]) (.link target)) := by
    rw [h.names]
    exact h.walk.append (.inr (List.cons_ne_nil _ _)) hlast
  obtain ⟨found, hfound, hstill⟩ := hto.walkWithin_eq
  rw [walkToLink, if_neg (Nat.not_lt.mpr hfits.1), start, if_pos h.absolute, hfound]
  cases found with
  | free d' name' => cases hstill
  | «at» r node =>
    cases node with
    | directory changed => cases hstill
    | _ => exact congrArg _ hstill

theorem Reaches.fits_of_walkToLink (h : t.Reaches p d name) (ht : t.Sound) {place : Place}
    (hwalk : t.walkToLink p = .ok place) : p.Fits := by
  unfold walkToLink start at hwalk
  rw [if_pos h.absolute] at hwalk
  split at hwalk
  · cases hwalk
  · exact h.fits_of_walkWithin ht (Nat.not_lt.mp ‹_›) hwalk

end FileTree

end Remedy
