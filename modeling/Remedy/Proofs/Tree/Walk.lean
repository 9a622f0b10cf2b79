import Remedy.Proofs.Tree.Nodes

/-!
# Walks through a tree

`Walk t whole k d names place` says, by rules and without the bookkeeping of a recursion, that the
names followed from the directory `d` lead to the place with at most `k` links on the way. It is
what `FileTree.walkWithin` computes when it computes anything (`walk_of_walkWithin`,
`Walk.walkWithin_eq`).

A walk that may follow more links leads to the same place (`Walk.mono`), and no other
(`Walk.functional`). Walks are put together and taken apart at directories (`Walk.append`,
`Walk.split`). When a tree is altered, walks to directories stay as they are (`Walk.altered`).
-/

set_option autoImplicit false

namespace Remedy

/-- The place, the time at which a directory was changed left out. -/
def Place.still : Place → Place
  | .at r node => .at r node.still
  | .free d name => .free d name

/-- The route that is taken at the place, or free. -/
def Place.route : Place → Route
  | .at r _ => r
  | .free d name => d ++ [name]

namespace FileTree

/-- A name that can stand for something in a directory. -/
structure IsEntry (name : String) : Prop where
  ne_dots : name ≠ ".."
  fits : name.utf8ByteSize ≤ nameLimit

/-- Where the target of a link in a directory is followed from. -/
def base (d : Route) (target : String) : Route :=
  if (Path.ofString target).isAbsolute then [] else d

inductive Walk (t : FileTree) (whole : Bool) : Nat → Route → List String → Place → Prop
  | here (k : Nat) (d : Route) : Walk t whole k d [] (.at d ((t.look d).getD (.directory 0)))
  | up {k : Nat} {d : Route} {rest : List String} {place : Place}
      (h : Walk t whole k d.dropLast rest place) : Walk t whole k d (".." :: rest) place
  | free {k : Nat} {d : Route} {name : String} (hname : IsEntry name)
      (hlook : t.look (d ++ [name]) = none) : Walk t whole k d [name] (.free d name)
  | file {k : Nat} {d : Route} {name : String} {content : Text.Bytes} {mode : Nat}
      (hname : IsEntry name) (hlook : t.look (d ++ [name]) = some (.file content mode)) :
      Walk t whole k d [name] (.at (d ++ [name]) (.file content mode))
  | link {k : Nat} {d : Route} {name target : String} (hname : IsEntry name)
      (hlook : t.look (d ++ [name]) = some (.link target)) (hwhole : whole = false) :
      Walk t whole k d [name] (.at (d ++ [name]) (.link target))
  | enter {k : Nat} {d : Route} {name : String} {rest : List String} {place : Place}
      (hname : IsEntry name) (hlook : t.HasDirectory (d ++ [name]))
      (h : Walk t whole k (d ++ [name]) rest place) : Walk t whole k d (name :: rest) place
  | follow {k : Nat} {d : Route} {name target : String} {rest : List String} {place : Place}
      (hname : IsEntry name) (hlook : t.look (d ++ [name]) = some (.link target))
      (hwhole : whole = true ∨ rest ≠ [])
      (h : Walk t whole k (base d target) ((Path.ofString target).names ++ rest) place) :
      Walk t whole (k + 1) d (name :: rest) place

variable {t t' : FileTree} {whole : Bool} {k : Nat} {d : Route} {names : List String}

/-! ### Walks and what is computed -/

theorem look_eq_none {r : Route} (h : t.node? r = none) : t.look r = none := by
  rw [look, h]
  rfl

theorem look_of_node? {r : Route} {node : Node} (h : t.node? r = some node) :
    t.look r = some node.still := by
  rw [look, h]
  rfl

theorem node?_of_look_none {r : Route} (h : t.look r = none) : t.node? r = none := by
  unfold look at h
  exact Option.map_eq_none_iff.mp h

theorem node?_of_look {r : Route} {node : Node} (h : t.look r = some node)
    (hnode : ∀ changed, node ≠ .directory changed) : t.node? r = some node := by
  unfold look at h
  obtain ⟨found, hfound, rfl⟩ := Option.map_eq_some_iff.mp h
  cases found with
  | directory changed => exact absurd rfl (hnode 0)
  | _ => exact hfound

theorem HasDirectory.node? {r : Route} (h : t.HasDirectory r) :
    ∃ changed, t.node? r = some (.directory changed) := by
  unfold HasDirectory look at h
  obtain ⟨found, hfound, hstill⟩ := Option.map_eq_some_iff.mp h
  cases found with
  | directory changed => exact ⟨changed, hfound⟩
  | _ => cases hstill

/-- How links are followed if `k` of them may be. -/
def followWithin (t : FileTree) (whole : Bool) (k : Nat) (d : Route) (target : String)
    (rest : List String) : Except Errno Place :=
  match k with
  | 0 => .error .linkLoop
  | k + 1 => t.walkWithin whole k (base d target) ((Path.ofString target).names ++ rest)

theorem walkWithin_eq (t : FileTree) (whole : Bool) (k : Nat) (d : Route) (names : List String) :
    t.walkWithin whole k d names = t.walkFrom whole (t.followWithin whole k) d names := by
  cases k <;> rfl

theorem walk_of_walkFrom {place : Place}
    (hfollow : ∀ d target rest place, t.followWithin whole k d target rest = .ok place →
      ∃ k', k = k' + 1 ∧
        Walk t whole k' (base d target) ((Path.ofString target).names ++ rest) place.still)
    (h : t.walkFrom whole (t.followWithin whole k) d names = .ok place) :
    Walk t whole k d names place.still := by
  induction names generalizing d with
  | nil =>
    cases h
    have hnode : ((t.node? d).getD (.directory 0)).still =
        (t.look d).getD (.directory 0) := by
      unfold look
      cases t.node? d <;> rfl
    rw [Place.still, hnode]
    exact .here k d
  | cons name rest ih =>
    unfold walkFrom at h
    split at h
    · rename_i hdots
      rw [hdots]
      exact .up (ih h)
    · rename_i hdots
      split at h
      · cases h
      · rename_i hlong
        have hname : IsEntry name := ⟨hdots, Nat.not_lt.mp hlong⟩
        split at h
        · rename_i hnode
          split at h
          · rename_i hrest
            cases h
            rw [List.isEmpty_iff.mp hrest]
            exact .free hname (look_eq_none hnode)
          · cases h
        · rename_i changed hnode
          exact .enter hname (look_of_node? hnode) (ih h)
        · rename_i content mode hnode
          split at h
          · rename_i hrest
            cases h
            rw [List.isEmpty_iff.mp hrest]
            exact .file hname (look_of_node? hnode)
          · cases h
        · rename_i target hnode
          split at h
          · rename_i hstop
            obtain ⟨hrest, hwhole⟩ := Bool.and_eq_true_iff.mp hstop
            cases h
            rw [List.isEmpty_iff.mp hrest]
            exact .link hname (look_of_node? hnode) (by simpa using hwhole)
          · rename_i hgo
            obtain ⟨k', rfl, hwalk⟩ := hfollow _ _ _ _ h
            refine .follow hname (look_of_node? hnode) ?_ hwalk
            cases whole with
            | true => exact .inl rfl
            | false => exact .inr (by simpa using hgo)

theorem walk_of_walkWithin {place : Place} (h : t.walkWithin whole k d names = .ok place) :
    Walk t whole k d names place.still := by
  induction k generalizing d names place with
  | zero =>
    rw [walkWithin_eq] at h
    refine walk_of_walkFrom (fun d target rest place h ↦ ?_) h
    cases h
  | succ k ih =>
    rw [walkWithin_eq] at h
    exact walk_of_walkFrom (fun d target rest place h ↦ ⟨k, rfl, ih h⟩) h

theorem Walk.walkWithin_eq {place : Place} (h : Walk t whole k d names place) :
    ∃ found, t.walkWithin whole k d names = .ok found ∧ found.still = place := by
  simp only [FileTree.walkWithin_eq]
  induction h with
  | here k d =>
    refine ⟨_, rfl, ?_⟩
    unfold look
    cases t.node? d <;> rfl
  | up h ih =>
    unfold walkFrom
    rw [if_pos rfl]
    exact ih
  | free hname hlook =>
    unfold walkFrom
    rw [if_neg hname.ne_dots, if_neg (Nat.not_lt.mpr hname.fits), node?_of_look_none hlook]
    exact ⟨_, rfl, rfl⟩
  | file hname hlook =>
    unfold walkFrom
    rw [if_neg hname.ne_dots, if_neg (Nat.not_lt.mpr hname.fits),
      node?_of_look hlook fun _ h ↦ nomatch h]
    exact ⟨_, rfl, rfl⟩
  | link hname hlook hwhole =>
    unfold walkFrom
    rw [if_neg hname.ne_dots, if_neg (Nat.not_lt.mpr hname.fits),
      node?_of_look hlook fun _ h ↦ nomatch h]
    simp only [hwhole, List.isEmpty_nil, Bool.not_false, Bool.and_self, if_true]
    exact ⟨_, rfl, rfl⟩
  | enter hname hlook h ih =>
    obtain ⟨changed, hnode⟩ := hlook.node?
    unfold walkFrom
    rw [if_neg hname.ne_dots, if_neg (Nat.not_lt.mpr hname.fits), hnode]
    exact ih
  | follow hname hlook hwhole h ih =>
    rename_i rest _
    have hgo : (rest.isEmpty && !whole) = false := by
      rcases hwhole with rfl | hrest
      · simp
      · simp [hrest]
    unfold walkFrom
    rw [if_neg hname.ne_dots, if_neg (Nat.not_lt.mpr hname.fits),
      node?_of_look hlook fun _ h ↦ nomatch h]
    simp only [hgo, Bool.false_eq_true, if_false, followWithin, FileTree.walkWithin_eq]
    exact ih

/-! ### Laws of walks -/

/-- A walk comes upon no name that is too long. -/
theorem Walk.fits {place : Place} (h : Walk t whole k d names place) :
    ∀ m ∈ names, m.utf8ByteSize ≤ nameLimit := by
  induction h with
  | here => simp
  | up h ih => exact List.forall_mem_cons.mpr ⟨by decide, ih⟩
  | free hname => simpa using hname.fits
  | file hname => simpa using hname.fits
  | link hname => simpa using hname.fits
  | enter hname hlook h ih => exact List.forall_mem_cons.mpr ⟨hname.fits, ih⟩
  | follow hname hlook hwhole h ih =>
    exact List.forall_mem_cons.mpr
      ⟨hname.fits, fun m hm ↦ ih m (List.mem_append_right _ hm)⟩

theorem walk_here (whole : Bool) (k : Nat) {node : Node} (hd : t.look d = some node) :
    Walk t whole k d [] (.at d node) := by
  have hnode : (t.look d).getD (.directory 0) = node := by
    rw [hd]
    rfl
  exact hnode ▸ .here k d

theorem Walk.mono {place : Place} (h : Walk t whole k d names place) {k' : Nat} (hk : k ≤ k') :
    Walk t whole k' d names place := by
  induction h generalizing k' with
  | here k d => exact .here k' d
  | up h ih => exact .up (ih hk)
  | free hname hlook => exact .free hname hlook
  | file hname hlook => exact .file hname hlook
  | link hname hlook hwhole => exact .link hname hlook hwhole
  | enter hname hlook h ih => exact .enter hname hlook (ih hk)
  | follow hname hlook hwhole h ih =>
    obtain ⟨k'', rfl⟩ : ∃ k'', k' = k'' + 1 := ⟨k' - 1, by omega⟩
    exact .follow hname hlook hwhole (ih (Nat.le_of_succ_le_succ hk))

/-- Names lead to one place only, however many links may be followed. -/
theorem Walk.functional {k' : Nat} {place place' : Place} (h : Walk t whole k d names place)
    (h' : Walk t whole k' d names place') : place = place' := by
  obtain ⟨found, hfound, rfl⟩ := (h.mono (Nat.le_max_left k k')).walkWithin_eq
  obtain ⟨found', hfound', rfl⟩ := (h'.mono (Nat.le_max_right k k')).walkWithin_eq
  rw [hfound] at hfound'
  cases hfound'
  rfl

/-- A walk that ends at a directory may go on from there. -/
theorem Walk.append {mid : Route} {k' : Nat} {rest : List String} {place : Place}
    (h : Walk t true k d names (.at mid (.directory 0))) (hgo : whole = true ∨ rest ≠ [])
    (h' : Walk t whole k' mid rest place) : Walk t whole (k + k') d (names ++ rest) place := by
  generalize hplace : Place.at mid (.directory 0) = found at h
  induction h with
  | here k d =>
    obtain ⟨rfl, -⟩ := Place.at.inj hplace
    exact h'.mono (Nat.le_add_left k' k)
  | up h ih => exact .up (ih hplace)
  | free hname hlook => cases hplace
  | file hname hlook => cases hplace
  | link hname hlook hwhole => cases hwhole
  | enter hname hlook h ih => exact .enter hname hlook (ih hplace)
  | @follow k d name target rest' _ hname hlook hwhole h ih =>
    have hnext := ih hplace
    rw [List.append_assoc] at hnext
    rw [Nat.add_right_comm]
    refine .follow hname hlook ?_ hnext
    rcases hgo with hwhole | hrest
    · exact .inl hwhole
    · exact .inr (List.append_ne_nil_of_right_ne_nil _ hrest)

theorem Sound.dropLast (ht : t.Sound) (hd : t.HasDirectory d) : t.HasDirectory d.dropLast := by
  rcases List.eq_nil_or_concat d with rfl | ⟨d', name, rfl⟩
  · exact hd
  · rw [List.concat_eq_append] at hd ⊢
    rw [List.dropLast_concat]
    refine ht.parent d' name ?_
    rw [hd]
    exact Option.some_ne_none _

theorem Sound.base (ht : t.Sound) (hd : t.HasDirectory d) (target : String) :
    t.HasDirectory (base d target) := by
  unfold FileTree.base
  split
  · exact ht.root
  · exact hd

/-- A walk leads to a directory before it goes on. -/
theorem Walk.split {xs ys : List String} {place : Place} (ht : t.Sound) (hd : t.HasDirectory d)
    (h : Walk t whole k d (xs ++ ys) place) (hys : ys ≠ []) :
    ∃ mid, t.HasDirectory mid ∧ Walk t true k d xs (.at mid (.directory 0)) ∧
      Walk t whole k mid ys place := by
  generalize hnames : xs ++ ys = names at h
  induction h generalizing xs with
  | here k d => exact absurd (List.append_eq_nil_iff.mp hnames).2 hys
  | @up k d rest place h ih =>
    cases xs with
    | nil =>
      obtain rfl : ys = _ := hnames
      exact ⟨d, hd, walk_here _ _ hd, .up h⟩
    | cons x xs =>
      cases hnames
      obtain ⟨mid, hmid, hto, hfrom⟩ := ih (ht.dropLast hd) rfl
      exact ⟨mid, hmid, .up hto, hfrom⟩
  | @free k d name hname hlook =>
    cases xs with
    | nil =>
      obtain rfl : ys = _ := hnames
      exact ⟨d, hd, walk_here _ _ hd, .free hname hlook⟩
    | cons x xs =>
      obtain ⟨-, hnil⟩ := List.cons.inj hnames
      exact absurd (List.append_eq_nil_iff.mp hnil).2 hys
  | @file k d name content mode hname hlook =>
    cases xs with
    | nil =>
      obtain rfl : ys = _ := hnames
      exact ⟨d, hd, walk_here _ _ hd, .file hname hlook⟩
    | cons x xs =>
      obtain ⟨-, hnil⟩ := List.cons.inj hnames
      exact absurd (List.append_eq_nil_iff.mp hnil).2 hys
  | @link k d name target hname hlook hwhole =>
    cases xs with
    | nil =>
      obtain rfl : ys = _ := hnames
      exact ⟨d, hd, walk_here _ _ hd, .link hname hlook hwhole⟩
    | cons x xs =>
      obtain ⟨-, hnil⟩ := List.cons.inj hnames
      exact absurd (List.append_eq_nil_iff.mp hnil).2 hys
  | @enter k d name rest place hname hlook h ih =>
    cases xs with
    | nil =>
      obtain rfl : ys = _ := hnames
      exact ⟨d, hd, walk_here _ _ hd, .enter hname hlook h⟩
    | cons x xs =>
      cases hnames
      obtain ⟨mid, hmid, hto, hfrom⟩ := ih hlook rfl
      exact ⟨mid, hmid, .enter hname hlook hto, hfrom⟩
  | @follow k d name target rest place hname hlook hwhole h ih =>
    cases xs with
    | nil =>
      obtain rfl : ys = _ := hnames
      exact ⟨d, hd, walk_here _ _ hd, .follow hname hlook hwhole h⟩
    | cons x xs =>
      cases hnames
      obtain ⟨mid, hmid, hto, hfrom⟩ := ih (ht.base hd target)
        (List.append_assoc _ _ _)
      exact ⟨mid, hmid, .follow hname hlook (.inl rfl) hto, hfrom.mono (Nat.le_succ k)⟩

/-- A walk that goes on after what it has led to goes on from there if that is a directory, and ends
there otherwise. -/
theorem Walk.walkWithin_append {xs ys : List String} {q : Route} {node : Node} (ht : t.Sound)
    (hd : t.HasDirectory d) (h : Walk t true k d xs (.at q node)) (hys : ys ≠ []) (whole : Bool) :
    ∃ k', t.walkWithin whole k d (xs ++ ys) =
      if node.isDirectory then t.walkWithin whole k' q ys else .error .notDirectory := by
  generalize hplace : Place.at q node = place at h
  induction h with
  | here k d =>
    rw [hd] at hplace
    cases hplace
    exact ⟨k, rfl⟩
  | @up k d rest place h ih =>
    obtain ⟨k', hgoes⟩ := ih (ht.dropLast hd) hplace
    refine ⟨k', ?_⟩
    rw [FileTree.walkWithin_eq] at hgoes
    rw [List.cons_append, FileTree.walkWithin_eq, walkFrom, if_pos rfl]
    exact hgoes
  | free => cases hplace
  | @file k d name content mode hname hlook =>
    cases hplace
    refine ⟨k, ?_⟩
    rw [List.cons_append, FileTree.walkWithin_eq, walkFrom, if_neg hname.ne_dots,
      if_neg (Nat.not_lt.mpr hname.fits), node?_of_look hlook fun _ h ↦ nomatch h]
    simp [hys, Node.isDirectory]
  | link hname hlook hwhole => cases hwhole
  | @enter k d name rest place hname hlook h ih =>
    obtain ⟨changed, hnode⟩ := hlook.node?
    obtain ⟨k', hgoes⟩ := ih hlook hplace
    refine ⟨k', ?_⟩
    rw [FileTree.walkWithin_eq] at hgoes
    rw [List.cons_append, FileTree.walkWithin_eq, walkFrom, if_neg hname.ne_dots,
      if_neg (Nat.not_lt.mpr hname.fits), hnode]
    exact hgoes
  | @follow k d name target rest place hname hlook hwhole h ih =>
    obtain ⟨k', hgoes⟩ := ih (ht.base hd target) hplace
    refine ⟨k', ?_⟩
    rw [List.append_assoc] at hgoes
    have hrest : (rest ++ ys).isEmpty = false := by simp [hys]
    rw [List.cons_append, FileTree.walkWithin_eq, walkFrom, if_neg hname.ne_dots,
      if_neg (Nat.not_lt.mpr hname.fits), node?_of_look hlook fun _ h ↦ nomatch h]
    simpa [followWithin, hrest] using hgoes

/-- What a directory has under a name. -/
def placeAt (t : FileTree) (d : Route) (name : String) : Place :=
  match t.node? (d ++ [name]) with
  | some node => .at (d ++ [name]) node
  | none => .free d name

/-- A walk that goes on from a directory with one more name finds what is there under this name. -/
theorem Walk.walkWithin_last {mid : Route} {name : String} (ht : t.Sound) (hd : t.HasDirectory d)
    (h : Walk t true k d names (.at mid (.directory 0))) (hname : name ≠ "..") {whole : Bool}
    (hwhole : whole = true → t.link? (mid ++ [name]) = none) :
    t.walkWithin whole k d (names ++ [name]) =
      if nameLimit < name.utf8ByteSize then .error .nameTooLong else .ok (t.placeAt mid name) := by
  obtain ⟨k', hgoes⟩ := h.walkWithin_append ht hd (List.cons_ne_nil name []) whole
  rw [hgoes, if_pos (show (Node.directory 0).isDirectory = true from rfl), FileTree.walkWithin_eq,
    walkFrom, if_neg hname]
  by_cases hlong : nameLimit < name.utf8ByteSize
  · rw [if_pos hlong, if_pos hlong]
  · rw [if_neg hlong, if_neg hlong, placeAt]
    cases hnode : t.node? (mid ++ [name]) with
    | none => rfl
    | some node =>
      cases node with
      | file content mode => rfl
      | link target =>
        cases whole with
        | false => rfl
        | true =>
          have hlook := hwhole rfl
          rw [link?, look_of_node? hnode] at hlook
          cases hlook
      | directory changed =>
        have hthere : t.walkFrom whole (t.followWithin whole k') (mid ++ [name]) [] =
            .ok (.at (mid ++ [name]) (.directory changed)) := by
          rw [walkFrom, hnode]
          rfl
        exact hthere

/-! ### Where walks end -/

/-- No link lies on the way along the route or at its end. -/
structure Direct (t : FileTree) (r : Route) : Prop where
  no_dots : ".." ∉ r
  no_links : ∀ q, q <+: r → t.link? q = none

theorem direct_nil (ht : t.Sound) : t.Direct [] :=
  ⟨List.not_mem_nil, fun q hq ↦ by rw [List.prefix_nil.mp hq]; exact ht.root.not_link⟩

theorem Direct.of_prefix {r q : Route} (h : t.Direct r) (hq : q <+: r) : t.Direct q :=
  ⟨fun hdots ↦ h.no_dots (hq.subset hdots), fun p hp ↦ h.no_links p (hp.trans hq)⟩

theorem Direct.concat (h : t.Direct d) {name : String} (hname : name ≠ "..")
    (hlink : t.link? (d ++ [name]) = none) : t.Direct (d ++ [name]) := by
  refine ⟨?_, fun q hq ↦ ?_⟩
  · simp only [List.mem_append, List.mem_singleton, not_or]
    exact ⟨h.no_dots, hname.symm⟩
  · rcases List.prefix_concat_iff.mp hq with rfl | hq
    · exact hlink
    · exact h.no_links q hq

theorem Direct.congr {r : Route} (h : t.Direct r) (hlinks : ∀ q, t'.link? q = t.link? q) :
    t'.Direct r :=
  ⟨h.no_dots, fun q hq ↦ (hlinks q).trans (h.no_links q hq)⟩

theorem Direct.base (ht : t.Sound) (h : t.Direct d) (target : String) :
    t.Direct (base d target) := by
  unfold FileTree.base
  split
  · exact direct_nil ht
  · exact h

/-- The place is as the tree has it. -/
def Shows (t : FileTree) : Place → Prop
  | .at r node => t.look r = some node
  | .free d name => t.HasDirectory d ∧ t.look (d ++ [name]) = none ∧ IsEntry name

theorem Walk.shows (ht : t.Sound) (hd : t.HasDirectory d) {place : Place}
    (h : Walk t whole k d names place) : t.Shows place := by
  induction h with
  | here k d =>
    rw [Shows, hd]
    rfl
  | up h ih => exact ih (ht.dropLast hd)
  | free hname hlook => exact ⟨hd, hlook, hname⟩
  | file hname hlook => exact hlook
  | link hname hlook hwhole => exact hlook
  | enter hname hlook h ih => exact ih hlook
  | follow hname hlook hwhole h ih => exact ih (ht.base hd _)

/-- A walk that follows every link ends at a route without links. -/
theorem Walk.direct (ht : t.Sound) (hd : t.Direct d) {place : Place}
    (h : Walk t true k d names place) : t.Direct place.route := by
  induction h with
  | here k d => exact hd
  | up h ih => exact ih (hd.of_prefix (List.dropLast_prefix _))
  | free hname hlook => exact hd.concat hname.ne_dots (by simp [link?, hlook])
  | file hname hlook => exact hd.concat hname.ne_dots (by simp [link?, hlook])
  | link hname hlook hwhole => cases hwhole
  | enter hname hlook h ih => exact ih (hd.concat hname.ne_dots hlook.not_link)
  | follow hname hlook hwhole h ih => exact ih (hd.base ht _)

/-- Along a route without links a walk finds what is at its end. -/
theorem walk_of_direct (ht : t.Sound) {r : Route} (hr : t.Direct (d ++ r)) {node : Node}
    (hlook : t.look (d ++ r) = some node) (hd : t.HasDirectory d)
    (hfits : ∀ name ∈ r, name.utf8ByteSize ≤ nameLimit) :
    Walk t whole 0 d r (.at (d ++ r) node) := by
  induction r generalizing d with
  | nil =>
    rw [List.append_nil] at hlook ⊢
    exact walk_here _ _ hlook
  | cons name rest ih =>
    have hname : IsEntry name := by
      refine ⟨fun hdots ↦ hr.no_dots ?_, hfits name List.mem_cons_self⟩
      rw [hdots]
      simp
    rw [List.append_cons] at hr hlook ⊢
    have hlink := hr.no_links (d ++ [name]) (List.prefix_append _ _)
    have habove : rest ≠ [] → t.HasDirectory (d ++ [name]) := by
      intro hrest
      refine ht.above (by rw [hlook]; exact Option.some_ne_none _) (List.prefix_append _ _) ?_
      exact fun h ↦ hrest (List.append_right_eq_self.mp h.symm)
    rcases t.look_cases (d ++ [name]) with hnone | hdir | ⟨content, mode, hfile⟩ | ⟨target, hto⟩
    · cases rest with
      | nil =>
        rw [List.append_nil, hnone] at hlook
        cases hlook
      | cons next rest =>
        rw [habove (List.cons_ne_nil _ _)] at hnone
        cases hnone
    · exact .enter hname hdir (ih hr hlook hdir fun n hn ↦ hfits n (List.mem_cons_of_mem _ hn))
    · cases rest with
      | nil =>
        rw [List.append_nil, hfile] at hlook
        rw [List.append_nil]
        cases hlook
        exact .file hname hfile
      | cons next rest =>
        rw [habove (List.cons_ne_nil _ _)] at hfile
        cases hfile
    · rw [look_of_link?.mpr hto] at hlink
      cases hlink

/-- A walk to a directory leads there in any tree that has the directories and the links. -/
theorem Walk.carried (hdirectories : ∀ q, t.HasDirectory q → t'.HasDirectory q)
    (hlinks : ∀ q target, t.look q = some (.link target) → t'.look q = some (.link target))
    (ht : t.Sound) (hd : t.HasDirectory d) {r : Route}
    (hwalk : Walk t whole k d names (.at r (.directory 0))) :
    Walk t' whole k d names (.at r (.directory 0)) := by
  generalize hplace : Place.at r (.directory 0) = place at hwalk
  induction hwalk with
  | here k d =>
    obtain ⟨rfl, -⟩ := Place.at.inj hplace
    exact hplace ▸ walk_here _ _ (hdirectories r hd)
  | up hwalk ih => exact .up (ih (ht.dropLast hd) hplace)
  | free hname hlook => cases hplace
  | file hname hlook => cases hplace
  | link hname hlook hwhole => cases hplace
  | enter hname hlook hwalk ih => exact .enter hname (hdirectories _ hlook) (ih hlook hplace)
  | follow hname hlook hwhole hwalk ih =>
    exact .follow hname (hlinks _ _ hlook) hwhole (ih (ht.base hd _) hplace)

/-! ### Walks in an altered tree -/

section Altered

variable {only : Route → Prop}

theorem Alters.look_link (h : Alters only t t') {r : Route} {target : String}
    (hlook : t.look r = some (.link target)) : t'.look r = some (.link target) :=
  look_of_link?.mp ((h.links r).trans (look_of_link?.mpr hlook))

/-- Walks to directories stay as they are. -/
theorem Walk.altered (h : Alters only t t') (ht : t.Sound) (hd : t.HasDirectory d) {r : Route}
    (hwalk : Walk t whole k d names (.at r (.directory 0))) :
    Walk t' whole k d names (.at r (.directory 0)) :=
  hwalk.carried h.directories (fun _ _ ↦ h.look_link) ht hd

/-- A walk that ended before a free name ends at what has been put there. -/
theorem Walk.filled (h : Alters only t t') {r : Route} {name : String}
    (hwalk : Walk t whole k d names (.free r name)) {node : Node}
    (hlook : t'.look (r ++ [name]) = some node) (hnode : ∀ target, node ≠ .link target) :
    Walk t' true k d names (.at (r ++ [name]) node) := by
  generalize hplace : Place.free r name = place at hwalk
  induction hwalk with
  | here k d => cases hplace
  | up hwalk ih => exact .up (ih hplace)
  | free hname hfree =>
    cases hplace
    cases node with
    | file content mode => exact .file hname hlook
    | directory changed =>
      obtain rfl := look_changed hlook
      exact .enter hname hlook (walk_here _ _ hlook)
    | link target => exact absurd rfl (hnode target)
  | file hname hlook => cases hplace
  | link hname hlook hwhole => cases hplace
  | enter hname hlook hwalk ih => exact .enter hname (h.directories _ hlook) (ih hplace)
  | follow hname hlook hwhole hwalk ih =>
    exact .follow hname (h.look_link hlook) (.inl rfl) (ih hplace)

end Altered

end FileTree

end Remedy
