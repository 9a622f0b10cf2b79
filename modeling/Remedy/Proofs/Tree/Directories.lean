import Mathlib.Data.String.Basic
import Remedy.Proofs.Tree.Operations

/-!
# Making directories

When a path without two dots is made with what is above it, it leads to a new directory, in which
there is nothing (`FileTree.Sprouts`), and the directory above it was there or is new and empty but
for this one (`FileAct.Grafts`); a path that may lead to a directory already is made only if it does
not. If making it fails, nothing has been made, or the last thing that was made is a new directory
on the way, which is empty, so that nothing is reached through it. So a name that was free in the
directory above stays free if it is another one (`FileAct.Grafts.vacant`).

It does not fail where the path leads to a directory and goes on with names that are free there
(`FileTree.Extensible`, `FileAct.ends_makePath_extensible`).

When a path is made with what is above it, whatever is new is a directory, and stands under the name
of a path that is the path itself or lies above it as it is written (`FileTree.Paved`,
`FileAct.ends_makeNewPath_paved`). This is so whether or not making it succeeds, and it says nothing
of where the links on the way lead.
-/

set_option autoImplicit false

namespace Remedy

namespace FileTree

variable {t t' : FileTree} {names : List String}

/-- From the root, the names lead to a new directory in which there is nothing. -/
def Sprouts (names : List String) (t t' : FileTree) : Prop :=
  ∃ d, Walk t' true linkLimit [] names (.at d (.directory 0)) ∧ t.look d = none ∧
    ∀ name, t'.look (d ++ [name]) = none

/-- Nothing has the name in the directory that the path leads to, if it leads to one. -/
def Vacant (t : FileTree) (p : Path) (name : String) : Prop :=
  ∀ d, Walk t true linkLimit [] p.names (.at d (.directory 0)) → t.look (d ++ [name]) = none

/-- A walk to a directory also leads there in a tree with the same links and no fewer
directories. -/
theorem Walk.flat (hlinks : ∀ r, t'.link? r = t.link? r)
    (hflat : ∀ r, t'.HasDirectory r → t.HasDirectory r) (ht' : t'.Sound) {whole : Bool} {k : Nat}
    {d r : Route} (hd : t'.HasDirectory d)
    (h : Walk t' whole k d names (.at r (.directory 0))) :
    Walk t whole k d names (.at r (.directory 0)) :=
  h.carried hflat (fun q _ hlook ↦ look_of_link?.mp
    ((hlinks q).symm.trans (look_of_link?.mpr hlook))) ht' hd

/-- A walk to a directory does not end at a link. -/
theorem Walk.whole {whole : Bool} {k : Nat} {d r : Route}
    (h : Walk t whole k d names (.at r (.directory 0))) :
    Walk t true k d names (.at r (.directory 0)) := by
  generalize hplace : Place.at r (.directory 0) = place at h
  induction h with
  | here k d => exact .here k d
  | up h ih => exact .up (ih hplace)
  | free => cases hplace
  | file => cases hplace
  | link => cases hplace
  | enter hname hlook h ih => exact .enter hname hlook (ih hplace)
  | follow hname hlook hwhole h ih => exact .follow hname hlook (.inl rfl) (ih hplace)

/-- A free name stays free when other files are changed. -/
theorem Vacant.edited {only : Route → Prop} {p : Path} {name : String} (h : t.Vacant p name)
    (hedits : Edits only t t')
    (honly : ∀ d, Walk t true linkLimit [] p.names (.at d (.directory 0)) → ¬ only (d ++ [name])) :
    t'.Vacant p name := by
  intro d hwalk
  have hbefore := hwalk.flat (fun r ↦ (hedits.alters.links r).symm ▸ rfl) hedits.flat hedits.sound
    hedits.sound.root
  exact hedits.look_eq_none (honly d hbefore) (h d hbefore)

/-- Nothing is reached through a directory with nothing in it. -/
theorem Walk.of_empty {d : Route} {name : String} {rest : List String} {whole : Bool} {k : Nat}
    {r : Route} {node : Node} (hempty : ∀ name, t.look (d ++ [name]) = none) (hname : name ≠ "..") :
    ¬ Walk t whole k d (name :: rest) (.at r node) := by
  intro h
  cases h with
  | up => exact hname rfl
  | file _ hlook =>
    rw [hempty] at hlook
    cases hlook
  | link _ hlook =>
    rw [hempty] at hlook
    cases hlook
  | enter _ hlook =>
    rw [HasDirectory, hempty] at hlook
    cases hlook
  | follow _ hlook =>
    rw [hempty] at hlook
    cases hlook

theorem Sprouts.no_walk (h : Sprouts names t t') (ht' : t'.Sound) {rest : List String}
    (hrest : rest ≠ []) (hdots : ".." ∉ rest) {whole : Bool} {k : Nat} {r : Route} {node : Node} :
    ¬ Walk t' whole k [] (names ++ rest) (.at r node) := by
  intro hwalk
  obtain ⟨d, hto, -, hempty⟩ := h
  obtain ⟨mid, -, hmid, hlast⟩ := hwalk.split ht' ht'.root hrest
  cases hto.functional hmid
  cases rest with
  | nil => exact hrest rfl
  | cons name rest =>
    have hname : name ≠ ".." := fun heq ↦ hdots (heq ▸ List.mem_cons_self)
    exact Walk.of_empty hempty hname hlast

end FileTree

open FileTree

namespace FileAct

variable {t t' : FileTree} {p : Path}

/-- A last name that is free is free in the directory that was reached. -/
theorem free_of_walk_last {whole : Bool} {k : Nat} {mid d : Route} {name name' : String}
    (h : Walk t whole k mid [name] (.free d name')) (hwhole : whole = false) :
    mid = d ∧ name = name' ∧ t.look (d ++ [name']) = none := by
  cases h with
  | up h => cases h
  | free _ hlook => exact ⟨rfl, rfl, hlook⟩
  | enter _ _ h => cases h
  | follow _ _ hgo _ =>
    rcases hgo with h | h
    · rw [hwhole] at h
      cases h
    · exact absurd rfl h

theorem Made.sprouts {t₁ : FileTree} (h : Made p t₁ t') (ht₁ : t₁.Sound)
    (hlook : ∀ r, t₁.look r = none → t.look r = none) : Sprouts p.names t t' := by
  have hgrows := h.grows ht₁
  obtain ⟨d, name, changed, hwalk, rfl⟩ := h
  obtain ⟨hd, hfree, -⟩ := hwalk.shows ht₁ ht₁.root
  have hnew : (t₁.add d name (.directory changed)).look (d ++ [name]) = some (.directory 0) := by
    rw [look_add, if_pos rfl]
    rfl
  refine ⟨d ++ [name], hwalk.filled hgrows.alters hnew nofun, hlook _ hfree, ?_⟩
  intro x
  rw [look_add, if_neg (by simp)]
  refine ht₁.look_below (r := d ++ [name]) ?_ (List.prefix_append _ _) (by simp)
  rw [HasDirectory, hfree]
  exact fun h ↦ by cases h

/-- What a tree does not hold, it did not hold before directories were made. -/
theorem look_of_grows (h : Grows t t') {r : Route} (hr : t'.look r = none) : t.look r = none := by
  rcases t.look_cases r with hnone | hdir | ⟨content, mode, hfile⟩ | ⟨target, hlink⟩
  · exact hnone
  · have hdir' := h.alters.directories r hdir
    rw [HasDirectory, hr] at hdir'
    cases hdir'
  · have hbytes := h.alters.bytes r id
    rw [bytes?_of_look hfile, bytes?, hr] at hbytes
    cases hbytes
  · have hsame := h.alters.links r
    rw [look_of_link?.mpr hlink, link?, hr] at hsame
    cases hsame

/-- A directory has been made at the path, after those above it if the one above was missing. -/
def Grafts (p : Path) (t t' : FileTree) : Prop :=
  ∃ t₁, Grows t t₁ ∧ Made p t₁ t' ∧ (t₁ = t ∨ Sprouts p.parent.names t t₁)

theorem Grafts.grows (h : Grafts p t t') : Grows t t' := by
  obtain ⟨t₁, hgrows, hmade, -⟩ := h
  exact hgrows.trans (hmade.grows hgrows.sound)

theorem Grafts.sprouts (h : Grafts p t t') : Sprouts p.names t t' := by
  obtain ⟨t₁, hgrows, hmade, -⟩ := h
  exact hmade.sprouts hgrows.sound fun _ ↦ look_of_grows hgrows

/-- Making a directory takes no name in the directory above but its own. -/
theorem Grafts.vacant {key name : String} (h : Grafts (p.child key) t t') (ht : t.Sound)
    (hvacant : t.Vacant p name) (hne : name ≠ key) : t'.Vacant p name := by
  obtain ⟨t₁, hgrows, hmade, hor⟩ := h
  have hmake := hmade.grows hgrows.sound
  obtain ⟨d, key', changed, hwalk, rfl⟩ := hmade
  have hnames : (p.child key).names = p.names ++ [key] := rfl
  rw [hnames] at hwalk
  obtain ⟨mid, -, hto, hlast⟩ := hwalk.split hgrows.sound hgrows.sound.root (List.cons_ne_nil _ _)
  obtain ⟨rfl, rfl, -⟩ := free_of_walk_last hlast rfl
  intro d' hwalk'
  cases hwalk'.functional (hto.altered hmake.alters hgrows.sound hgrows.sound.root)
  rw [look_add, if_neg (by simpa using hne)]
  rcases hor with rfl | ⟨d', hto', -, hempty⟩
  · exact hvacant mid hto
  · have hparent : (p.child key).parent.names = p.names := by
      simp [Path.child, Path.parent]
    rw [hparent] at hto'
    cases hto'.functional hto
    exact hempty name

/-- How making a path without two dots ends. -/
theorem ends_makeDirectories_sprouts (mayExist : Bool) (depth : Nat) (hp : p.isAbsolute = true)
    (hdots : ".." ∉ p.names) (ht : t.Sound) :
    Ends (makeDirectories mayExist depth p) t
      (fun _ t' ↦ Grafts p t t' ∨ mayExist = true ∧ t' = t ∧ Enters t p)
      fun _ t' ↦ Grows t t' ∧
        (t' = t ∨ ∃ above rest, p.names = above ++ rest ∧ rest ≠ [] ∧ Sprouts above t t') := by
  have hfirst : ∀ {mayExist : Bool} {p : Path} {t : FileTree}, p.isAbsolute = true → t.Sound →
      Ends (ensureDirectory p mayExist) t
        (fun _ t' ↦ Grafts p t t' ∨ mayExist = true ∧ t' = t ∧ Enters t p)
        fun _ t' ↦ t' = t := by
    intro mayExist p t hp ht
    refine (ends_ensureDirectory hp mayExist).mono ?_ fun _ _ h ↦ h
    rintro _ t' (hmade | hthere)
    · exact .inl ⟨t, .refl ht, hmade, .inl rfl⟩
    · exact .inr hthere
  induction depth generalizing mayExist p t with
  | zero =>
    refine (hfirst hp ht).mono (fun _ _ h ↦ h) ?_
    rintro e _ rfl
    exact ⟨.refl ht, .inl rfl⟩
  | succ depth ih =>
    refine ends_tryCatch.mpr ((hfirst hp ht).mono (fun _ _ h ↦ h) ?_)
    rintro e t rfl
    split
    case isFalse => exact ends_throw.mpr ⟨.refl ht, .inl rfl⟩
    rename_i hcause
    obtain ⟨name, hnames⟩ : ∃ name, p.names = p.parent.names ++ [name] :=
      ⟨_, (List.dropLast_concat_getLast hcause.2.2).symm⟩
    have hparent : ".." ∉ p.parent.names := fun h ↦ hdots (hnames ▸ List.mem_append_left _ h)
    have hname : ".." ∉ [name] := fun h ↦ hdots (hnames ▸ List.mem_append_right _ h)
    refine ((ih (p := p.parent) true hp hparent ht).mono (fun _ _ h ↦ h) ?_).bind ?_
    · rintro e' t' ⟨hgrows, rfl | ⟨above, rest, hsplit, -, hsprouts⟩⟩
      · exact ⟨hgrows, .inl rfl⟩
      · refine ⟨hgrows, .inr ⟨above, rest ++ [name], ?_, by simp, hsprouts⟩⟩
        rw [hnames, hsplit, List.append_assoc]
    rintro _ t' (hgrafts | ⟨-, rfl, -⟩)
    · -- What is above the path is new and empty, so that the path leads nowhere yet.
      have hgrows := hgrafts.grows
      have hsprouts := hgrafts.sprouts
      refine (ends_ensureDirectory hp mayExist).mono ?_ ?_
      · rintro _ t'' (hmade | ⟨-, rfl, d, hwalk⟩)
        · exact .inl ⟨t', hgrows, hmade, .inr hsprouts⟩
        · rw [hnames] at hwalk
          exact absurd hwalk (hsprouts.no_walk hgrows.sound (List.cons_ne_nil _ _) hname)
      · rintro e' t' rfl
        exact ⟨hgrows, .inr ⟨_, [name], hnames, List.cons_ne_nil _ _, hsprouts⟩⟩
    · refine (hfirst hp ht).mono (fun _ _ h ↦ h) ?_
      rintro e' t' rfl
      exact ⟨.refl ht, .inl rfl⟩

/-- Making a directory that is there already makes nothing. -/
theorem ends_makePath_sprouts (hp : p.isAbsolute = true) (hdots : ".." ∉ p.names) (ht : t.Sound) :
    Ends (makePath p true) t (fun _ t' ↦ Grafts p t t' ∨ t' = t ∧ Enters t p)
      fun _ t' ↦ Grows t t' ∧
        (t' = t ∨ ∃ above rest, p.names = above ++ rest ∧ rest ≠ [] ∧ Sprouts above t t') := by
  refine (ends_makeDirectories_sprouts true _ hp hdots ht).mono ?_ fun _ _ h ↦ h
  rintro _ t' (hgrafts | ⟨-, hthere⟩)
  · exact .inl hgrafts
  · exact .inr hthere

theorem ends_makeNewPath_sprouts (hp : p.isAbsolute = true) (hdots : ".." ∉ p.names)
    (ht : t.Sound) :
    Ends (makePath p false) t (fun _ t' ↦ Grafts p t t')
      fun _ t' ↦ Grows t t' ∧
        (t' = t ∨ ∃ above rest, p.names = above ++ rest ∧ rest ≠ [] ∧ Sprouts above t t') := by
  refine (ends_makeDirectories_sprouts false _ hp hdots ht).mono ?_ fun _ _ h ↦ h
  rintro _ t' (hgrafts | ⟨hfalse, -⟩)
  · exact hgrafts
  · cases hfalse

end FileAct

/-! ### Directories that can be made -/

theorem Path.size_text_parent_le {p : Path} (hp : p.isAbsolute = true) :
    p.parent.text.utf8ByteSize ≤ p.text.utf8ByteSize := by
  have htext : ∀ q : Path, q.isAbsolute = true →
      q.text = PathRoot.text q.root ++ String.intercalate "/" q.names := by
    rintro ⟨root, names⟩ hq
    cases root with
    | none => cases hq
    | _ => rfl
  rw [htext p.parent hp, htext p hp, String.utf8ByteSize_append, String.utf8ByteSize_append]
  refine Nat.add_le_add_left ?_ _
  rcases List.eq_nil_or_concat p.names with hnil | ⟨names, name, hnames⟩
  · simp [parent, hnil]
  · rw [List.concat_eq_append] at hnames
    rw [parent, hnames, List.dropLast_concat]
    by_cases hnil : names = []
    · simp [hnil]
    · rw [String.intercalate_append_of_ne_nil hnil (List.cons_ne_nil _ _),
        String.utf8ByteSize_append, String.utf8ByteSize_append, Nat.add_assoc]
      exact Nat.le_add_right _ _

namespace FileTree

variable {t : FileTree} {p : Path}

/-- The path leads through directories that are there, and from some name on nothing is there. These
names can stand for something, and the path is not too long. -/
structure Extensible (t : FileTree) (p : Path) : Prop where
  absolute : p.isAbsolute = true
  short : p.text.utf8ByteSize ≤ pathLimit
  way : ∃ front d name rest, p.names = front ++ name :: rest ∧
    Walk t true linkLimit [] front (.at d (.directory 0)) ∧ t.look (d ++ [name]) = none ∧
    ∀ n ∈ name :: rest, IsEntry n

/-- Where a walk comes to when it goes on from a directory with a name that is free. -/
theorem Walk.walkWithin_free (ht : t.Sound) {front rest : List String} {name : String} {d : Route}
    (hto : Walk t true linkLimit [] front (.at d (.directory 0))) (hname : IsEntry name)
    (hlook : t.look (d ++ [name]) = none) (whole : Bool) :
    t.walkWithin whole linkLimit [] (front ++ name :: rest) =
      if rest.isEmpty then .ok (.free d name) else .error .notFound := by
  obtain ⟨k, hgoes⟩ := hto.walkWithin_append ht ht.root (List.cons_ne_nil name rest) whole
  refine hgoes.trans ?_
  rw [if_pos (show (Node.directory 0).isDirectory = true from rfl), FileTree.walkWithin_eq, walkFrom,
    if_neg hname.ne_dots, if_neg (Nat.not_lt.mpr hname.fits), node?_of_look_none hlook]

/-- Nothing is found at such a path. -/
theorem Extensible.walk_eq (h : t.Extensible p) (ht : t.Sound) :
    t.walk p = .error .notFound ∨ ∃ d name, t.walk p = .ok (.free d name) := by
  obtain ⟨front, d, name, rest, hnames, hto, hlook, hentries⟩ := h.way
  rw [walk, if_neg (Nat.not_lt.mpr h.short), start, if_pos h.absolute, hnames,
    hto.walkWithin_free ht (hentries name List.mem_cons_self) hlook]
  split
  · exact .inr ⟨d, name, rfl⟩
  · exact .inl rfl

end FileTree

namespace FileAct

variable {t : FileTree} {p : Path}

section Extending

variable {front rest : List String} {d : Route} {name : String}
  (hto : Walk t true linkLimit [] front (.at d (.directory 0))) (hlook : t.look (d ++ [name]) = none)

include hto hlook

/-- What comes to a path that leads from a directory to a free name, if the path is followed without
its last link. -/
theorem walkToLink_free (hp : p.isAbsolute = true) (hshort : p.text.utf8ByteSize ≤ pathLimit)
    (ht : t.Sound) (hnames : p.names = front ++ name :: rest) (hname : IsEntry name) :
    t.walkToLink p = if rest.isEmpty then .ok (.free d name) else .error .notFound := by
  rw [walkToLink, if_neg (Nat.not_lt.mpr hshort), start, if_pos hp, hnames,
    hto.walkWithin_free ht hname hlook]

/-- A directory is made at a free name. -/
theorem ends_ensureDirectory_free (mayExist : Bool) (hp : p.isAbsolute = true)
    (hshort : p.text.utf8ByteSize ≤ pathLimit) (ht : t.Sound) (hnames : p.names = front ++ [name])
    (hname : IsEntry name) :
    Ends (ensureDirectory p mayExist) t (fun _ t' ↦ Made p t t') fun _ _ ↦ False := by
  have hwalk := walkToLink_free hto hlook hp hshort ht hnames hname
  unfold ensureDirectory makeDirectory
  refine ends_tryCatch.mpr (ends_bind.mpr (ends_linkPlace.mpr ?_))
  rw [hwalk]
  exact ends_modify.mpr ⟨d, name, _, walk_of_walkToLink hp hwalk, rfl⟩

/-- The directories are made one after the other, each in the one before. -/
theorem ends_makeDirectories_free (mayExist : Bool) (depth : Nat) (hp : p.isAbsolute = true)
    (hshort : p.text.utf8ByteSize ≤ pathLimit) (ht : t.Sound)
    (hnames : p.names = front ++ name :: rest) (hentries : ∀ n ∈ name :: rest, IsEntry n)
    (hdepth : rest.length ≤ depth) :
    Ends (makeDirectories mayExist depth p) t (fun _ t' ↦ ∃ t₁, Grows t t₁ ∧ Made p t₁ t')
      fun _ _ ↦ False := by
  induction depth generalizing mayExist p rest with
  | zero =>
    obtain rfl : rest = [] := List.length_eq_zero_iff.mp (Nat.le_zero.mp hdepth)
    exact (ends_ensureDirectory_free hto hlook mayExist hp hshort ht hnames
      (hentries name List.mem_cons_self)).mono (fun _ _ h ↦ ⟨t, .refl ht, h⟩) fun _ _ h ↦ h
  | succ depth ih =>
    unfold makeDirectories
    rcases List.eq_nil_or_concat rest with rfl | ⟨above, last, rfl⟩
    · exact ends_tryCatch.mpr ((ends_ensureDirectory_free hto hlook mayExist hp hshort ht hnames
        (hentries name List.mem_cons_self)).mono (fun _ _ h ↦ ⟨t, .refl ht, h⟩)
        fun _ _ ↦ False.elim)
    rw [List.concat_eq_append] at hnames hentries hdepth
    have hwalk := walkToLink_free hto hlook hp hshort ht hnames (hentries name List.mem_cons_self)
    have hmissing : Ends (ensureDirectory p mayExist) t (fun _ _ ↦ False)
        fun e t' ↦ e = ⟨.notFound, p.text, none⟩ ∧ t' = t := by
      unfold ensureDirectory makeDirectory
      refine ends_tryCatch.mpr (ends_bind.mpr (ends_linkPlace.mpr ?_))
      rw [hwalk, if_neg (by simp)]
      exact ends_throw.mpr ⟨rfl, rfl⟩
    refine ends_tryCatch.mpr (hmissing.mono (fun _ _ ↦ False.elim) ?_)
    rintro _ _ ⟨rfl, rfl⟩
    rw [if_pos ⟨rfl, rfl, by simp [hnames]⟩]
    have habove : p.parent.names = front ++ name :: above := by
      rw [Path.parent, hnames, ← List.cons_append, ← List.append_assoc, List.dropLast_concat]
    refine (ih true (p := p.parent) hp ((Path.size_text_parent_le hp).trans hshort) habove
      (fun n hn ↦ hentries n (List.mem_append_left [last] hn)) (by simpa using hdepth)).bind ?_
    -- What has been made above is empty, so that the last name is free in it.
    rintro _ t' ⟨t₁, hgrows, hmade⟩
    obtain ⟨d', hto', -, hempty⟩ := hmade.sprouts hgrows.sound fun _ ↦ look_of_grows hgrows
    have hnew := hgrows.trans (hmade.grows hgrows.sound)
    refine (ends_ensureDirectory_free hto' (hempty last) mayExist hp hshort hnew.sound ?_
      (hentries last (by simp))).mono (fun _ _ h ↦ ⟨t', hnew, h⟩) fun _ _ h ↦ h
    rw [habove, hnames, List.append_assoc, List.cons_append]

end Extending

/-- Where directories can be made down to a path, they are made. -/
theorem ends_makePath_extensible (h : t.Extensible p) (ht : t.Sound) (mayExist : Bool) :
    Ends (makePath p mayExist) t (fun _ t' ↦ ∃ t₁, Grows t t₁ ∧ Made p t₁ t') fun _ _ ↦ False := by
  obtain ⟨front, d, name, rest, hnames, hto, hlook, hentries⟩ := h.way
  refine ends_makeDirectories_free hto hlook mayExist _ h.absolute h.short ht hnames hentries ?_
  rw [hnames, List.length_append, List.length_cons]
  omega

end FileAct

/-! ### Names of what is new -/

@[simp]
theorem Path.parent_child (p : Path) (name : String) : (p.child name).parent = p := by
  simp [child, parent]

/-- The one path is the other, or lies above it as it is written. -/
def Path.Above (q p : Path) : Prop := q.root = p.root ∧ q.names <+: p.names

namespace Path.Above

variable {p q q' : Path}

theorem refl (p : Path) : p.Above p :=
  ⟨rfl, List.prefix_rfl⟩

theorem trans (h : q.Above q') (h' : q'.Above p) : q.Above p :=
  ⟨h.1.trans h'.1, h.2.trans h'.2⟩

theorem child (p : Path) (name : String) : p.Above (p.child name) :=
  ⟨rfl, List.prefix_append _ _⟩

theorem parent (p : Path) : p.parent.Above p :=
  ⟨rfl, List.dropLast_prefix _⟩

theorem isAbsolute (h : q.Above p) (hp : p.isAbsolute = true) : q.isAbsolute = true := by
  rw [Path.isAbsolute, h.1]
  exact hp

end Path.Above

namespace FileTree

variable {t t₁ t' : FileTree} {p q : Path}

/-- The route is that of the last name of the path, in the directory that the names before it lead
to. -/
def Names (t : FileTree) (p : Path) (r : Route) : Prop :=
  ∃ d name, t.Reaches p d name ∧ r = d ++ [name]

theorem Names.altered {only : Route → Prop} {r : Route} (h : t.Names p r) (ht : t.Sound)
    (halters : Alters only t t') : t'.Names p r := by
  obtain ⟨d, name, hreaches, rfl⟩ := h
  exact ⟨d, name, hreaches.altered ht halters, rfl⟩

/-- Nothing but directories is new, and each of them stands under the name of the path or of one
above it, in which no name is too long. -/
structure Paved (p : Path) (t t' : FileTree) : Prop where
  grows : FileAct.Grows t t'
  named : ∀ r, t.look r = none → t'.look r ≠ none →
    ∃ q, q.Above p ∧ (∀ m ∈ q.names, m.utf8ByteSize ≤ nameLimit) ∧ t'.Names q r

theorem Paved.refl (ht : t.Sound) : Paved p t t :=
  ⟨.refl ht, fun _ hnone hsome ↦ absurd hnone hsome⟩

theorem Paved.trans (h : Paved q t t₁) (h' : Paved p t₁ t') (hq : q.Above p) : Paved p t t' := by
  refine ⟨h.grows.trans h'.grows, fun r hnone hsome ↦ ?_⟩
  by_cases hbetween : t₁.look r = none
  · exact h'.named r hbetween hsome
  · obtain ⟨q', hq', hfits, hnames⟩ := h.named r hnone hbetween
    exact ⟨q', hq'.trans hq, hfits, hnames.altered h.grows.sound h'.grows.alters⟩

/-- What is named above a path is named above every path below it. -/
theorem Paved.above (h : Paved q t t') (hq : q.Above p) : Paved p t t' :=
  h.trans (.refl h.grows.sound) hq

end FileTree

open FileTree

namespace FileAct

variable {t t' : FileTree} {p : Path}

/-- What a directory is made at is what its path names, and leads to afterwards. -/
theorem Made.reaches (h : Made p t t') (ht : t.Sound) (hp : p.isAbsolute = true) :
    ∃ d name changed, t.Reaches p d name ∧ t' = t.add d name (.directory changed) ∧
      Walk t' true linkLimit [] p.names (.at (d ++ [name]) (.directory 0)) := by
  have hgrows := h.grows ht
  obtain ⟨d, name, changed, hwalk, rfl⟩ := h
  obtain ⟨-, -, hentry⟩ := hwalk.shows ht ht.root
  have hmade : (t.add d name (.directory changed)).look (d ++ [name]) = some (.directory 0) := by
    rw [look_add, if_pos rfl]
    rfl
  have hto := hwalk.filled hgrows.alters hmade fun _ h ↦ by cases h
  have hne : p.names ≠ [] := by
    intro hnil
    rw [hnil] at hwalk
    cases hwalk
  obtain ⟨names, last, hnames⟩ : ∃ names last, p.names = names ++ [last] :=
    ⟨_, _, (List.dropLast_concat_getLast hne).symm⟩
  rw [hnames] at hwalk
  obtain ⟨mid, -, hmid, hlast⟩ := hwalk.split ht ht.root (List.cons_ne_nil _ _)
  obtain ⟨rfl, rfl, -⟩ := free_of_walk_last hlast rfl
  refine ⟨mid, last, changed, ⟨hp, ?_, hentry.ne_dots, ?_⟩, rfl, hto⟩
  · simp [hnames]
  · simpa [hnames] using hmid

theorem Made.paved (h : Made p t t') (ht : t.Sound) (hp : p.isAbsolute = true) :
    Paved p t t' := by
  have hgrows := h.grows ht
  obtain ⟨d, name, changed, hreaches, rfl, hto⟩ := h.reaches ht hp
  refine ⟨hgrows, fun r hnone hsome ↦
    ⟨p, .refl p, hto.fits, d, name, hreaches.altered ht hgrows.alters, ?_⟩⟩
  by_contra hne
  rw [look_add, if_neg hne] at hsome
  exact hsome hnone

/-- What is new after directories have been made, or could not be made: the last one is made when
those above it are there, and nothing is done after that. -/
theorem ends_makeDirectories_paved (mayExist : Bool) (depth : Nat) (hp : p.isAbsolute = true)
    (ht : t.Sound) :
    Ends (makeDirectories mayExist depth p) t
      (fun _ t' ↦ ∃ t₁, Paved p.parent t t₁ ∧ (Made p t₁ t' ∨ mayExist = true ∧ t' = t₁))
      fun _ t' ↦ Paved p.parent t t' := by
  have hfirst : ∀ {mayExist : Bool} {p : Path} {t : FileTree}, p.isAbsolute = true → t.Sound →
      Ends (ensureDirectory p mayExist) t
        (fun _ t' ↦ Made p t t' ∨ mayExist = true ∧ t' = t) fun _ t' ↦ t' = t := by
    intro mayExist p t hp ht
    refine (ends_ensureDirectory hp mayExist).mono ?_ fun _ _ h ↦ h
    rintro _ t' (hmade | ⟨hmayExist, rfl, -⟩)
    · exact .inl hmade
    · exact .inr ⟨hmayExist, rfl⟩
  induction depth generalizing mayExist p t with
  | zero =>
    refine (hfirst hp ht).mono (fun _ t' h ↦ ⟨t, .refl ht, h⟩) ?_
    rintro e t' rfl
    exact .refl ht
  | succ depth ih =>
    refine ends_tryCatch.mpr ((hfirst hp ht).mono (fun _ t' h ↦ ⟨t, .refl ht, h⟩) ?_)
    rintro e t rfl
    split
    case isFalse => exact ends_throw.mpr (.refl ht)
    have hparent : p.parent.isAbsolute = true := hp
    refine ((ih true hparent ht).mono (fun _ _ h ↦ h) fun _ _ h ↦ h.above (.parent _)).bind ?_
    rintro _ t' ⟨t₁, hpaved, hor⟩
    have hup : Paved p.parent t t' := by
      rcases hor with hmade | ⟨-, rfl⟩
      · exact hpaved.trans (hmade.paved hpaved.grows.sound hparent) (.parent _)
      · exact hpaved.above (.parent _)
    refine (hfirst hp hup.grows.sound).mono (fun _ t'' h ↦ ⟨t', hup, h⟩) ?_
    rintro e' t' rfl
    exact hup

/-- A path that must be new is made last. -/
theorem ends_makeNewPath_paved (hp : p.isAbsolute = true) (ht : t.Sound) :
    Ends (makePath p false) t (fun _ t' ↦ ∃ t₁, Paved p.parent t t₁ ∧ Made p t₁ t')
      fun _ t' ↦ Paved p.parent t t' := by
  refine (ends_makeDirectories_paved false _ hp ht).mono ?_ fun _ _ h ↦ h
  rintro _ t' ⟨t₁, hpaved, hmade | ⟨hfalse, -⟩⟩
  · exact ⟨t₁, hpaved, hmade⟩
  · cases hfalse

end FileAct

end Remedy
