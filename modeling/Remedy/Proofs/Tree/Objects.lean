import Remedy.Proofs.Tree.Below
import Remedy.Proofs.Tree.Directories
import Remedy.Proofs.Tree.Opening

/-!
# What is at a path

At a path there is an object or nothing, a link at its end being the object itself
(`FileTree.object?`); where a path leads if this link is followed is its target
(`FileTree.target?`). Unlike the routes of a tree, paths may start from the working directory and may
lead through links.

An object that is no directory has the last name of the path in the directory that the names before
it lead to (`FileTree.Lies`). Objects and targets stay what they are when a tree is changed in other
places (`FileTree.SameBut.object?_eq`), and when directories are made above the path, as long as two
dots stand behind directories only (`FileTree.DotsLead`, `FileTree.object?_of_made`).
-/

set_option autoImplicit false

namespace Remedy

namespace FileTree

variable {t t' : FileTree} {p q : Path} {r d : Route} {name : String} {node : Node}

/-- What a walk has come to. -/
def seen? : Except Errno Place → Option (Route × Node)
  | .ok (.at r node) => some (r, node.still)
  | _ => none

/-- What a path leads to, and where it is; a link at the end is followed if `whole` is true. -/
def led? (t : FileTree) (p : Path) (whole : Bool) : Option (Route × Node) :=
  seen? (if whole then t.walk p else t.walkToLink p)

/-- What is at a path. -/
def object? (t : FileTree) (p : Path) : Option (Route × Node) := t.led? p false

/-- What a path leads to in the end. -/
def target? (t : FileTree) (p : Path) : Option (Route × Node) := t.led? p true

theorem seen?_eq_some {found : Except Errno Place} :
    seen? found = some (r, node) ↔ ∃ place, found = .ok place ∧ place.still = .at r node := by
  constructor
  · intro h
    cases found with
    | error e => cases h
    | ok place =>
      cases place with
      | free d name => cases h
      | «at» r' node' =>
        cases h
        exact ⟨_, rfl, rfl⟩
  · rintro ⟨place, rfl, hstill⟩
    cases place with
    | free d name => cases hstill
    | «at» r' node' =>
      cases hstill
      rfl

/-- A path leads where its names lead, unless it is too long. -/
theorem walk_within_iff {whole : Bool} {still : Place} :
    (∃ place, (if pathLimit < p.text.utf8ByteSize then .error .nameTooLong
      else t.walkWithin whole linkLimit (t.start p) p.names) = .ok place ∧ place.still = still) ↔
      p.text.utf8ByteSize ≤ pathLimit ∧ Walk t whole linkLimit (t.start p) p.names still := by
  split
  · rename_i hlong
    simp [Nat.not_le.mpr hlong]
  · rename_i hshort
    constructor
    · rintro ⟨place, hwalk, rfl⟩
      exact ⟨Nat.not_lt.mp hshort, walk_of_walkWithin hwalk⟩
    · exact fun h ↦ h.2.walkWithin_eq

theorem led?_eq_some {whole : Bool} : t.led? p whole = some (r, node) ↔
    p.text.utf8ByteSize ≤ pathLimit ∧ Walk t whole linkLimit (t.start p) p.names (.at r node) := by
  cases whole with
  | true => exact seen?_eq_some.trans walk_within_iff
  | false => exact seen?_eq_some.trans walk_within_iff

/-- Where there is nothing, nothing is led to. -/
theorem target?_eq_none (h : t.object? p = none) : t.target? p = none := by
  rw [Option.eq_none_iff_forall_ne_some] at h ⊢
  rintro ⟨r, node⟩ htarget
  obtain ⟨hshort, hto⟩ := led?_eq_some.mp htarget
  obtain ⟨r', node', hto'⟩ := hto.toLink
  exact h (r', node') (led?_eq_some.mpr ⟨hshort, hto'⟩)

/-- A path that leads to something does not lead to a free name. -/
theorem walk_ne_free (h : t.target? p ≠ none) : t.walk p ≠ .ok (.free d name) := by
  intro hwalk
  apply h
  rw [target?, led?, if_pos rfl, hwalk]
  rfl

/-! ### Names in directories -/

/-- The path's last name is a name in the directory that the names before it lead to. -/
structure Lies (t : FileTree) (p : Path) (d : Route) (name : String) : Prop where
  names : p.names = p.parent.names ++ [name]
  ne_dots : name ≠ ".."
  walk : Walk t true linkLimit (t.start p) p.parent.names (.at d (.directory 0))

theorem seen?_placeAt (t : FileTree) (d : Route) (name : String) :
    seen? (.ok (t.placeAt d name)) = (t.look (d ++ [name])).map (d ++ [name], ·) := by
  unfold placeAt look
  cases t.node? (d ++ [name]) <;> rfl

namespace Lies

variable (h : t.Lies p d name)

include h

theorem name_eq : p.name = name := by
  rw [Path.name, h.names, List.getLast?_concat, Option.getD_some]

theorem directory (ht : t.Settled) : t.HasDirectory d :=
  h.walk.shows ht.sound (ht.start p)

theorem walkWithin_eq (ht : t.Settled) {whole : Bool}
    (hwhole : whole = true → t.link? (d ++ [name]) = none) :
    t.walkWithin whole linkLimit (t.start p) p.names =
      if nameLimit < name.utf8ByteSize then .error .nameTooLong else .ok (t.placeAt d name) := by
  rw [h.names, h.walk.walkWithin_last ht.sound (ht.start p) h.ne_dots hwhole]

theorem walkToLink_eq (ht : t.Settled) (hfits : p.Fits) :
    t.walkToLink p = .ok (t.placeAt d name) := by
  rw [walkToLink, if_neg (Nat.not_lt.mpr hfits.1), h.walkWithin_eq ht fun hwhole ↦ (by cases hwhole),
    if_neg (Nat.not_lt.mpr (h.name_eq ▸ hfits.2))]

theorem walk_eq (ht : t.Settled) (hfits : p.Fits) (hlink : t.link? (d ++ [name]) = none) :
    t.walk p = .ok (t.placeAt d name) := by
  rw [FileTree.walk, if_neg (Nat.not_lt.mpr hfits.1), h.walkWithin_eq ht fun _ ↦ hlink,
    if_neg (Nat.not_lt.mpr (h.name_eq ▸ hfits.2))]

theorem object?_eq (ht : t.Settled) (hfits : p.Fits) :
    t.object? p = (t.look (d ++ [name])).map (d ++ [name], ·) := by
  rw [← seen?_placeAt, ← h.walkToLink_eq ht hfits]
  rfl

theorem target?_eq (ht : t.Settled) (hfits : p.Fits) (hlink : t.link? (d ++ [name]) = none) :
    t.target? p = (t.look (d ++ [name])).map (d ++ [name], ·) := by
  rw [← seen?_placeAt, ← h.walk_eq ht hfits hlink]
  rfl

/-- Nothing is reached through a name that is free. -/
theorem no_walk (ht : t.Settled) (hfree : t.look (d ++ [name]) = none) {k : Nat} {r : Route}
    {node : Node} : ¬ Walk t true k (t.start p) p.names (.at r node) := by
  intro hwalk
  rw [h.names] at hwalk
  obtain ⟨mid, -, hto, hlast⟩ := hwalk.split ht.sound (ht.start p) (List.cons_ne_nil name [])
  cases h.walk.functional hto
  cases hlast with
  | up => exact h.ne_dots rfl
  | file _ hlook =>
    rw [hfree] at hlook
    cases hlook
  | link _ hlook =>
    rw [hfree] at hlook
    cases hlook
  | enter _ hlook =>
    rw [HasDirectory, hfree] at hlook
    cases hlook
  | follow _ hlook =>
    rw [hfree] at hlook
    cases hlook

end Lies

/-- Whatever is no directory has the last name of the path, and so has a place that is free. -/
theorem lies_of_walk (ht : t.Settled) {place : Place} (hshort : p.text.utf8ByteSize ≤ pathLimit)
    (h : Walk t false linkLimit (t.start p) p.names place)
    (hplace : ∀ r, place ≠ .at r (.directory 0)) :
    ∃ d name, t.Lies p d name ∧ place.route = d ++ [name] ∧ p.Fits ∧
      ¬ t.HasDirectory (d ++ [name]) := by
  have hfits : p.Fits := by
    refine ⟨hshort, ?_⟩
    unfold Path.name
    cases hlast : p.names.getLast? with
    | none => exact Nat.zero_le _
    | some name => exact h.fits name (List.mem_of_getLast? hlast)
  have hstart := ht.start p
  rcases List.eq_nil_or_concat p.names with hnil | ⟨front, name, hnames⟩
  · rw [hnil] at h
    cases h
    rw [hstart] at hplace
    exact absurd rfl (hplace _)
  · rw [List.concat_eq_append] at hnames
    have hparent : p.parent.names = front := by
      rw [Path.parent, hnames, List.dropLast_concat]
    rw [hnames] at h
    obtain ⟨mid, hmid, hto, hlast⟩ := h.split ht.sound hstart (List.cons_ne_nil name [])
    have hlies : name ≠ ".." → t.Lies p mid name := by
      intro hdots
      constructor
      · rw [hparent, hnames]
      · exact hdots
      · rw [hparent]
        exact hto
    refine ⟨mid, name, ?_⟩
    cases hlast with
    | up hlast =>
      cases hlast
      rw [ht.sound.dropLast hmid] at hplace
      exact absurd rfl (hplace _)
    | free hname hlook =>
      exact ⟨hlies hname.ne_dots, rfl, hfits, fun hdir ↦ by cases hdir.symm.trans hlook⟩
    | file hname hlook =>
      exact ⟨hlies hname.ne_dots, rfl, hfits, fun hdir ↦ by cases hdir.symm.trans hlook⟩
    | link hname hlook =>
      exact ⟨hlies hname.ne_dots, rfl, hfits, fun hdir ↦ by cases hdir.symm.trans hlook⟩
    | enter hname hlook hlast =>
      cases hlast
      rw [hlook] at hplace
      exact absurd rfl (hplace _)
    | follow _ _ hwhole =>
      rcases hwhole with hwhole | hwhole
      · cases hwhole
      · exact absurd rfl hwhole

/-- A path that leads to a free name without there being a link at its end has this name itself. -/
theorem lies_of_free (ht : t.Settled) (h : t.walk p = .ok (.free d name))
    (hnone : t.object? p = none) : t.Lies p d name ∧ p.Fits := by
  obtain ⟨hshort, hwalk⟩ := walk_within_iff.mp ⟨_, h, rfl⟩
  have hstart := ht.start p
  suffices hto : Walk t false linkLimit (t.start p) p.names (.free d name) by
    obtain ⟨d', name', hlies, hroute, hfits, -⟩ := lies_of_walk ht hshort hto nofun
    obtain ⟨rfl, heq⟩ := List.append_inj' hroute rfl
    cases heq
    exact ⟨hlies, hfits⟩
  rcases List.eq_nil_or_concat p.names with hnil | ⟨front, last, hnames⟩
  · rw [hnil] at hwalk
    cases hwalk
  · rw [List.concat_eq_append] at hnames
    rw [hnames] at hwalk
    obtain ⟨mid, -, hto, hlast⟩ := hwalk.split ht.sound hstart (List.cons_ne_nil last [])
    have hgoes : ∀ {place}, Walk t false 0 mid [last] place →
        Walk t false linkLimit (t.start p) p.names place := by
      intro place hplace
      rw [hnames]
      exact hto.append (.inr (List.cons_ne_nil _ _)) hplace
    cases hlast with
    | up hlast => cases hlast
    | free hname hlook => exact hgoes (.free hname hlook)
    | enter _ _ hlast => cases hlast
    | follow hname hlook =>
      have hthere : t.object? p = _ := led?_eq_some.mpr ⟨hshort, hgoes (.link hname hlook rfl)⟩
      rw [hnone] at hthere
      cases hthere

/-! ### Trees that hold the same in most places -/

/-- Both trees hold the same but for the routes in `only`. -/
structure SameBut (only : Route → Prop) (t t' : FileTree) : Prop where
  settled : t'.Settled
  directory : t'.directory = t.directory
  look : ∀ q, ¬ only q → t'.look q = t.look q

/-- Nothing has been done but to make directories where nothing was, but for the routes in
`only`. -/
structure Spares (only : Route → Prop) (t t' : FileTree) : Prop where
  settled : t'.Settled
  directory : t'.directory = t.directory
  look : ∀ q, ¬ only q → t'.look q = t.look q ∨ t.look q = none ∧ t'.HasDirectory q

section Comparing

variable {t'' : FileTree} {only : Route → Prop}

theorem Spares.refl (ht : t.Settled) : Spares only t t :=
  ⟨ht, rfl, fun _ _ ↦ .inl rfl⟩

theorem Spares.trans (h : Spares only t t') (h' : Spares only t' t'') : Spares only t t'' := by
  constructor
  · exact h'.settled
  · exact h'.directory.trans h.directory
  · intro q hq
    rcases h'.look q hq with hsame' | ⟨hnone', hdir'⟩
    · rw [hsame', HasDirectory, hsame']
      exact h.look q hq
    · rcases h.look q hq with hsame | ⟨hnone, hdir⟩
      · exact .inr ⟨hsame.symm.trans hnone', hdir'⟩
      · rw [HasDirectory, hnone'] at hdir
        cases hdir

theorem SameBut.spares (h : SameBut only t t') : Spares only t t' :=
  ⟨h.settled, h.directory, fun q hq ↦ .inl (h.look q hq)⟩

theorem Spares.mono {only' : Route → Prop} (h : Spares only t t') (hsub : ∀ q, only q → only' q) :
    Spares only' t t' :=
  ⟨h.settled, h.directory, fun q hq ↦ h.look q fun honly ↦ hq (hsub q honly)⟩

/-- What is there is there still. -/
theorem Spares.look_eq (h : Spares only t t') {q : Route} (hq : ¬ only q)
    (hlook : t.look q = some node) : t'.look q = some node := by
  rcases h.look q hq with hsame | ⟨hnone, -⟩
  · rw [hsame, hlook]
  · rw [hnone] at hlook
    cases hlook

/-- Where no directory was, what is there may be any node. -/
theorem SameBut.of_look (ht : t.Settled) (hsound : t'.Sound) (hdirectory : t'.directory = t.directory)
    (hlook : ∀ q, ¬ only q → t'.look q = t.look q) (hdir : ∀ q, only q → ¬ t.HasDirectory q) :
    SameBut only t t' := by
  refine ⟨⟨hsound, ?_⟩, hdirectory, hlook⟩
  rw [hdirectory, HasDirectory, hlook _ fun honly ↦ hdir _ honly ht.directory]
  exact ht.directory

theorem directory_remove (t : FileTree) (r : Route) : (t.remove r).directory = t.directory := by
  unfold remove touch
  split <;> rfl

theorem start_eq (h : t'.directory = t.directory) (p : Path) : t'.start p = t.start p := by
  unfold start
  rw [h]

/-- A walk that leads elsewhere does not see what is at a route, if that is neither a directory nor
a link. -/
theorem Walk.beside {whole : Bool} {k : Nat} {names : List String} {place : Place}
    (hlook : ∀ q, ¬ only q → t'.look q = t.look q)
    (hplain : ∀ q, only q → ¬ t.HasDirectory q ∧ t.link? q = none) (ht : t.Sound)
    (hd : t.HasDirectory d) (h : Walk t whole k d names place) (hplace : ¬ only place.route) :
    Walk t' whole k d names place := by
  have hlink : ∀ {q target}, t.look q = some (.link target) → t'.look q = some (.link target) := by
    intro q target hq
    rw [hlook, hq]
    intro honly
    have hnone := (hplain q honly).2
    rw [look_of_link?.mpr hq] at hnone
    cases hnone
  induction h with
  | here k d =>
    rw [← hlook d hplace]
    exact .here k d
  | up h ih => exact .up (ih (ht.dropLast hd) hplace)
  | free hname hfree => exact .free hname ((hlook _ hplace).trans hfree)
  | file hname hfile => exact .file hname ((hlook _ hplace).trans hfile)
  | link hname hto hwhole => exact .link hname (hlink hto) hwhole
  | enter hname hdir h ih =>
    apply Walk.enter hname
    · rw [HasDirectory, hlook _ fun honly ↦ (hplain _ honly).1 hdir]
      exact hdir
    · exact ih hdir hplace
  | follow hname hto hwhole h ih =>
    exact .follow hname (hlink hto) hwhole (ih (ht.base hd _) hplace)

/-- A walk to a file that was not there before led to a free name. -/
theorem Walk.emptied {whole : Bool} {k : Nat} {here : Route} {names : List String}
    {content : Text.Bytes} {mode : Nat} (hlook : ∀ q, q ≠ d ++ [name] → t'.look q = t.look q)
    (hfree : t.look (d ++ [name]) = none) (ht' : t'.Sound) (hhere : t'.HasDirectory here)
    (h : Walk t' whole k here names (.at (d ++ [name]) (.file content mode))) :
    Walk t whole k here names (.free d name) := by
  have hfile := h.shows ht' hhere
  have hother : ∀ {q}, t'.look q ≠ some (.file content mode) → t.look q = t'.look q := by
    intro q hq
    apply (hlook q _).symm
    rintro rfl
    exact hq hfile
  generalize hplace : Place.at (d ++ [name]) (.file content mode) = place at h
  induction h with
  | here k here =>
    rw [hhere] at hplace
    cases hplace
  | up h ih => exact .up (ih (ht'.dropLast hhere) hplace)
  | free => cases hplace
  | file hname =>
    obtain ⟨hroute, -⟩ := Place.at.inj hplace
    obtain ⟨rfl, heq⟩ := List.append_inj' hroute rfl
    cases heq
    exact .free hname hfree
  | link => cases (Place.at.inj hplace).2
  | enter hname hdir h ih =>
    apply Walk.enter hname
    · rw [HasDirectory, hother, hdir]
      rw [hdir]
      exact fun h ↦ by cases h
    · exact ih hdir hplace
  | follow hname hto hwhole h ih =>
    apply Walk.follow hname _ hwhole (ih (ht'.base hhere _) hplace)
    rw [hother, hto]
    rw [hto]
    exact fun h ↦ by cases h

/-- What a path leads to is the same if it is led to none of the places where the trees may hold
different files. -/
theorem SameBut.led?_eq (h : SameBut only t t') (ht : t.Settled) {whole : Bool}
    (hplain : ∀ q, only q → ¬ t.HasDirectory q ∧ t.link? q = none)
    (hplain' : ∀ q, only q → ¬ t'.HasDirectory q ∧ t'.link? q = none)
    (hbefore : ∀ r node, t.led? p whole = some (r, node) → ¬ only r)
    (hafter : ∀ r node, t'.led? p whole = some (r, node) → ¬ only r) :
    t'.led? p whole = t.led? p whole := by
  have hstart := start_eq h.directory p
  apply Option.ext
  rintro ⟨r, node⟩
  constructor
  · intro hled
    obtain ⟨hshort, hwalk⟩ := led?_eq_some.mp hled
    refine led?_eq_some.mpr ⟨hshort, ?_⟩
    rw [← hstart]
    exact hwalk.beside (fun q hq ↦ (h.look q hq).symm) hplain' h.settled.sound (h.settled.start p)
      (hafter r node hled)
  · intro hled
    obtain ⟨hshort, hwalk⟩ := led?_eq_some.mp hled
    refine led?_eq_some.mpr ⟨hshort, ?_⟩
    rw [hstart]
    exact hwalk.beside h.look hplain ht.sound (ht.start p) (hbefore r node hled)

theorem SameBut.led?_eq_of_none (h : SameBut (fun _ ↦ False) t t') (ht : t.Settled) {whole : Bool} :
    t'.led? p whole = t.led? p whole :=
  h.led?_eq ht (fun _ ↦ False.elim) (fun _ ↦ False.elim) (fun _ _ _ ↦ id) fun _ _ _ ↦ id

end Comparing

/-! ### Directories that are made on the way -/

/-- Each two dots in a path stand behind names that lead to a directory. -/
def DotsLead (t : FileTree) (p : Path) : Prop :=
  ∀ front rest, p.names = front ++ ".." :: rest →
    ∃ d, Walk t true linkLimit (t.start p) front (.at d (.directory 0))

theorem dotsLead_of_not_mem (t : FileTree) (h : ".." ∉ p.names) : t.DotsLead p := by
  intro front rest hnames
  rw [hnames] at h
  exact absurd (List.mem_append_right _ List.mem_cons_self) h

theorem DotsLead.spares (h : t.DotsLead p) (ht : t.Settled)
    (hspares : Spares (fun _ ↦ False) t t') : t'.DotsLead p := by
  intro front rest hnames
  obtain ⟨d, hto⟩ := h front rest hnames
  refine ⟨d, ?_⟩
  rw [start_eq hspares.directory]
  exact hto.carried (fun _ ↦ hspares.look_eq id) (fun _ _ ↦ hspares.look_eq id) ht.sound (ht.start p)

section Making

variable (ht : t.Settled) (hroot : q.root = p.root) {next : String} {rest : List String}
  (hnames : p.names = q.names ++ next :: rest) (hfree : t.walkToLink q = .ok (.free d name))

include ht hfree in
theorem lies_of_walkToLink :
    t.Lies q d name ∧ IsEntry name ∧ t.look (d ++ [name]) = none := by
  obtain ⟨hshort, hwalk⟩ := walk_within_iff.mp ⟨_, hfree, rfl⟩
  obtain ⟨d', name', hlies, hroute, -⟩ := lies_of_walk ht hshort hwalk nofun
  obtain ⟨rfl, heq⟩ := List.append_inj' hroute rfl
  cases heq
  obtain ⟨-, hnone, hname⟩ := hwalk.shows ht.sound (ht.start q)
  exact ⟨hlies, hname, hnone⟩

include ht hroot hnames hfree in
/-- Nothing is at a path that goes on behind a free name. -/
theorem object?_of_free : t.object? p = none := by
  obtain ⟨hlies, -, hnone⟩ := lies_of_walkToLink ht hfree
  rw [Option.eq_none_iff_forall_ne_some]
  rintro ⟨r, node⟩ hthere
  obtain ⟨-, hwalk⟩ := led?_eq_some.mp hthere
  have hstart : t.start p = t.start q := by
    unfold start Path.isAbsolute
    rw [hroot]
  rw [hnames, hstart] at hwalk
  obtain ⟨mid, -, hto, -⟩ := hwalk.split ht.sound (ht.start q) (List.cons_ne_nil next rest)
  exact hlies.no_walk ht hnone hto

include ht hfree in
theorem spares_of_made (changed : Int) :
    Spares (fun _ ↦ False) t (t.add d name (.directory changed)) := by
  obtain ⟨hlies, -, hnone⟩ := lies_of_walkToLink ht hfree
  constructor
  · exact (ht.adds (hlies.directory ht) hnone _).settled
  · exact directory_add t d name _
  · intro r _
    rw [HasDirectory, look_add]
    split
    · rename_i hr
      rw [hr]
      exact .inr ⟨hnone, rfl⟩
    · exact .inl rfl

include ht hroot hnames hfree in
/-- Nor is anything there when a directory has been made at the free name. -/
theorem object?_of_made (hdots : t.DotsLead p) (changed : Int) :
    (t.add d name (.directory changed)).object? p = none := by
  have hmade := spares_of_made ht hfree changed
  obtain ⟨hlies, hname, hnone⟩ := lies_of_walkToLink ht hfree
  have hstart : t.start p = t.start q := by
    unfold start Path.isAbsolute
    rw [hroot]
  have hnext : next ≠ ".." := by
    rintro rfl
    obtain ⟨d', hto⟩ := hdots _ _ hnames
    rw [hstart] at hto
    exact hlies.no_walk ht hnone hto
  have hempty : ∀ n, (t.add d name (.directory changed)).look (d ++ [name] ++ [n]) = none := by
    intro n
    rw [look_add, if_neg (by simp)]
    exact ht.sound.look_below (not_hasDirectory_of_none hnone) (List.prefix_append _ _) (by simp)
  have hnew : (t.add d name (.directory changed)).look (d ++ [name]) = some (.directory 0) := by
    rw [look_add, if_pos rfl]
    rfl
  have hto : Walk (t.add d name (.directory changed)) true linkLimit (t.start q) q.names
      (.at (d ++ [name]) (.directory 0)) := by
    have hfront : Walk (t.add d name (.directory changed)) true linkLimit (t.start q)
        q.parent.names (.at d (.directory 0)) :=
      hlies.walk.carried (fun _ ↦ hmade.look_eq id) (fun _ _ ↦ hmade.look_eq id) ht.sound
        (ht.start q)
    rw [hlies.names]
    exact hfront.append (.inl rfl) (.enter hname hnew (walk_here true 0 hnew))
  rw [Option.eq_none_iff_forall_ne_some]
  rintro ⟨r, node⟩ hthere
  obtain ⟨-, hwalk⟩ := led?_eq_some.mp hthere
  rw [hnames, start_eq hmade.directory, hstart] at hwalk
  have hhere : (t.add d name (.directory changed)).HasDirectory (t.start q) :=
    hmade.look_eq id (ht.start q)
  obtain ⟨mid, -, hmid, hlast⟩ := hwalk.split hmade.settled.sound hhere (List.cons_ne_nil next rest)
  cases hto.functional hmid
  exact Walk.of_empty hempty hnext hlast

end Making

end FileTree

end Remedy
