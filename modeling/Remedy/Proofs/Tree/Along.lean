import Remedy.Proofs.Tree.Likeness

/-!
# Changes along a route

What is along a route is on the way to it, or is it, or lies below it (`Route.Along`). If there is no
link along a route, a path whose names are along it leads along it as well (`FileTree.Bare.lands`).
So whatever is done with such paths changes the tree there and nowhere else: what lies apart from the
route stays as it is, in the order in which it was there, the times included, and on the way to the
route nothing is done but to make directories (`FileAct.WorksAlong`). Files are to be written and
taken away below the route, so that nothing apart from it goes with them.
-/

set_option autoImplicit false

namespace Remedy

/-- The second route is on the way to the first one, or is it, or lies below it. -/
def Route.Along (l r : Route) : Prop := r <+: l ∨ l <+: r

instance (l r : Route) : Decidable (Route.Along l r) :=
  inferInstanceAs (Decidable (_ ∨ _))

namespace Route

variable {l r q : Route}

theorem Along.of_prefix (h : Along l r) (hq : q <+: r) : Along l q := by
  rcases h with h | h
  · exact .inl (hq.trans h)
  · exact List.prefix_or_prefix_of_prefix hq h

/-- What is on the way to a route is not below it. -/
theorem not_below (hq : q <+: l) (hne : q ≠ l) (hr : l <+: r) : ¬ r <+: q := fun h ↦
  hne (hq.eq_of_length_le (hr.trans h).length_le)

end Route

namespace FileTree

variable {t t' t'' : FileTree} {l r d q : Route} {name : String} {node : Node} {p : Path}

/-! ### Where walks end -/

/-- What the place says is there, is there. -/
def Bears (t : FileTree) : Place → Prop
  | .at r node => node = (t.node? r).getD (.directory 0)
  | .free d name => t.node? (d ++ [name]) = none

section Ends

variable {whole : Bool} {k : Nat} {here : Route} {names : List String}

theorem bears_of_walkFrom
    (hfollow : ∀ d target rest place, t.followWithin whole k d target rest = .ok place → t.Bears place)
    {place : Place} (h : t.walkFrom whole (t.followWithin whole k) here names = .ok place) :
    t.Bears place := by
  induction names generalizing here with
  | nil =>
    cases h
    rfl
  | cons name rest ih =>
    unfold walkFrom at h
    split at h
    · exact ih h
    split at h
    · cases h
    split at h
    · split at h
      · cases h
        assumption
      · cases h
    · exact ih h
    · rename_i hnode
      split at h
      · cases h
        rw [Bears, hnode]
        rfl
      · cases h
    · rename_i hnode
      split at h
      · cases h
        rw [Bears, hnode]
        rfl
      · exact hfollow _ _ _ _ h

theorem bears_of_walkWithin {place : Place} (h : t.walkWithin whole k here names = .ok place) :
    t.Bears place := by
  induction k generalizing here names place with
  | zero =>
    rw [walkWithin_eq] at h
    exact bears_of_walkFrom (fun _ _ _ _ hlink ↦ by cases hlink) h
  | succ k ih =>
    rw [walkWithin_eq] at h
    exact bears_of_walkFrom (fun _ _ _ _ hlink ↦ ih (by exact hlink)) h

/-- What a walk finds is what is there. -/
theorem bears_of_walk {place : Place} (h : t.walk p = .ok place) : t.Bears place := by
  unfold walk at h
  split at h
  · cases h
  · exact bears_of_walkWithin h

theorem bears_of_walkToLink {place : Place} (h : t.walkToLink p = .ok place) : t.Bears place := by
  unfold walkToLink at h
  split at h
  · cases h
  · exact bears_of_walkWithin h

/-- Without links and two dots a walk ends where its names say. -/
theorem route_of_walkFrom {follow : Route → String → List String → Except Errno Place}
    {place : Place} (hlinks : ∀ q, q <+: here ++ names → t.link? q = none) (hdots : ".." ∉ names)
    (h : t.walkFrom whole follow here names = .ok place) : place.route = here ++ names := by
  induction names generalizing here with
  | nil =>
    cases h
    exact (List.append_nil here).symm
  | cons name rest ih =>
    obtain ⟨hname, hrest⟩ := not_or.mp (List.mem_cons.not.mp hdots)
    rw [List.append_cons] at hlinks ⊢
    have hlast : rest.isEmpty = true → here ++ [name] = here ++ [name] ++ rest := by
      intro hnil
      rw [List.isEmpty_iff.mp hnil, List.append_nil]
    unfold walkFrom at h
    rw [if_neg (Ne.symm hname)] at h
    split at h
    · cases h
    split at h
    · split at h
      · cases h
        exact hlast ‹_›
      · cases h
    · exact ih hlinks hrest h
    · split at h
      · cases h
        exact hlast ‹_›
      · cases h
    · rename_i hnode
      have hlink := hlinks (here ++ [name]) (List.prefix_append _ _)
      rw [look_of_link?.mpr (look_of_node? hnode)] at hlink
      cases hlink

/-- The same of a walk that follows no more links than it may. -/
theorem Walk.route_eq {place : Place} (h : Walk t whole linkLimit [] names place)
    (hlinks : ∀ q, q <+: names → t.link? q = none) (hdots : ".." ∉ names) :
    place.route = names := by
  obtain ⟨found, hfound, rfl⟩ := h.walkWithin_eq
  rw [FileTree.walkWithin_eq] at hfound
  have hroute : _ = [] ++ names := route_of_walkFrom hlinks hdots hfound
  cases found <;> exact hroute

/-- What is at the end of a path without links is found, if the path can be walked. -/
theorem Direct.walk_at (h : t.Direct p.names) (ht : t.Sound) (hp : p.isAbsolute = true)
    (hsize : p.text.utf8ByteSize ≤ pathLimit) (hfits : ∀ n ∈ p.names, n.utf8ByteSize ≤ nameLimit)
    (hlook : t.look p.names ≠ none) : ∃ node, t.walk p = .ok (.at p.names node) := by
  obtain ⟨node, hnode⟩ := Option.ne_none_iff_exists'.mp hlook
  have hto : Walk t true 0 [] p.names (.at p.names node) :=
    walk_of_direct (d := []) ht h hnode ht.root hfits
  obtain ⟨found, hfound, hstill⟩ := (hto.mono (Nat.zero_le linkLimit)).walkWithin_eq
  unfold walk start
  rw [if_neg (Nat.not_lt.mpr hsize), if_pos hp, hfound]
  cases found with
  | free d name => cases hstill
  | «at» r node' =>
    cases hstill
    exact ⟨node', rfl⟩

end Ends

/-! ### Trees without links along a route -/

/-- There is no link along the route. -/
def Bare (l : Route) (t : FileTree) : Prop := ∀ r, Route.Along l r → t.link? r = none

theorem Bare.ne_link (ht : t.Bare l) (hr : Route.Along l r) (h : t.Bears (.at r node))
    (target : String) : node ≠ .link target := by
  rintro rfl
  have hlink := ht r hr
  rw [Bears] at h
  cases hsome : t.node? r with
  | none =>
    rw [hsome] at h
    cases h
  | some found =>
    rw [hsome] at h
    obtain rfl : Node.link target = found := h
    rw [look_of_link?.mpr (look_of_node? hsome)] at hlink
    cases hlink

section Landing

variable {place : Place} (ht : t.Bare l) (hp : p.isAbsolute = true) (hdots : ".." ∉ p.names)
  (halong : Route.Along l p.names)

include ht hdots halong

theorem Bare.landsWithin {whole : Bool} {k : Nat}
    (h : t.walkWithin whole k [] p.names = .ok place) : place.route = p.names := by
  rw [walkWithin_eq] at h
  have hlinks : ∀ q, q <+: [] ++ p.names → t.link? q = none := fun q hq ↦
    ht q (halong.of_prefix hq)
  exact route_of_walkFrom hlinks hdots h

include hp

theorem Bare.lands (h : t.walk p = .ok place) : place.route = p.names := by
  unfold walk start at h
  rw [if_pos hp] at h
  split at h
  · cases h
  · exact ht.landsWithin hdots halong h

theorem Bare.landsAtLink (h : t.walkToLink p = .ok place) : place.route = p.names := by
  unfold walkToLink start at h
  rw [if_pos hp] at h
  split at h
  · cases h
  · exact ht.landsWithin hdots halong h

end Landing

theorem Bare.set (ht : t.Bare l) (hnode : ∀ target, node ≠ .link target) : (t.set r node).Bare l := by
  intro q hq
  unfold link?
  rw [look_set]
  by_cases hr : q = r
  · rw [if_pos hr]
    cases node with
    | link target => exact absurd rfl (hnode target)
    | _ => rfl
  · rw [if_neg hr]
    exact ht q hq

theorem Bare.add (ht : t.Bare l) (hnode : ∀ target, node ≠ .link target) :
    (t.add d name node).Bare l := by
  intro q hq
  unfold link?
  rw [look_add]
  by_cases hr : q = d ++ [name]
  · rw [if_pos hr]
    cases node with
    | link target => exact absurd rfl (hnode target)
    | _ => rfl
  · rw [if_neg hr]
    exact ht q hq

theorem Bare.remove (ht : t.Bare l) (hr : r ≠ []) : (t.remove r).Bare l := by
  intro q hq
  unfold link?
  rw [look_remove t hr]
  by_cases hbelow : r <+: q
  · rw [if_pos hbelow]
  · rw [if_neg hbelow]
    exact ht q hq

/-! ### What lies apart -/

/-- What is not in a part of the tree, in the order of the tree. -/
def rest (part : Route → Bool) (t : FileTree) : List (Route × Node) :=
  t.entries.filter fun e ↦ !part e.1

section Rest

variable {part : Route → Bool}

theorem rest_set (hr : part r = true) (node : Node) : (t.set r node).rest part = t.rest part := by
  show (FileTree.store r node t.entries).filter _ = t.entries.filter _
  induction t.entries with
  | nil => simp [FileTree.store, hr]
  | cons entry rest ih =>
    obtain ⟨q, n⟩ := entry
    unfold FileTree.store
    split
    · rename_i hq
      simp [hq, hr]
    · rw [List.filter_cons, List.filter_cons, ih]

theorem rest_touch (hr : part r = true) : (t.touch r).rest part = t.rest part := by
  unfold touch
  split
  · exact rest_set (t := t.later) hr _
  · rfl

theorem rest_add (hd : part d = true) (hname : part (d ++ [name]) = true) (node : Node) :
    (t.add d name node).rest part = t.rest part :=
  (rest_touch hd).trans (rest_set hname node)

theorem rest_remove (hd : part r.dropLast = true) (hbelow : ∀ q, r <+: q → part q = true) :
    (t.remove r).rest part = t.rest part := by
  refine (rest_touch hd).trans ?_
  show (t.entries.filter _).filter _ = t.entries.filter _
  rw [List.filter_filter]
  refine List.filter_congr fun e _ ↦ ?_
  cases hpart : part e.1 with
  | true => rfl
  | false =>
    have hapart : ¬ r <+: e.1 := fun h ↦ by
      rw [hbelow e.1 h] at hpart
      cases hpart
    rw [Bool.eq_false_iff.mpr (mt List.isPrefixOf_iff_prefix.mp hapart)]
    rfl

end Rest

/-! ### What has been built -/

/-- What there is: it is as it was, or it is a directory that has been changed or made. -/
inductive Built : Option Node → Option Node → Prop
  | same (node : Option Node) : Built node node
  | touched (changed changed' : Int) :
      Built (some (.directory changed)) (some (.directory changed'))
  | made (changed : Int) : Built none (some (.directory changed))

theorem Built.trans {node node' node'' : Option Node} (h : Built node node')
    (h' : Built node' node'') : Built node node'' := by
  cases h with
  | same => exact h'
  | touched =>
    cases h' with
    | same => exact .touched _ _
    | touched => exact .touched _ _
  | made =>
    cases h' with
    | same => exact .made _
    | touched => exact .made _

theorem built_touch (t : FileTree) (d r : Route) : Built (t.node? r) ((t.touch d).node? r) := by
  unfold touch
  split
  · rename_i changed hd
    rw [node?_set]
    split
    · rename_i hr
      rw [hr, hd]
      exact .touched _ _
    · exact .same _
  · exact .same _

theorem built_remove (hr : ¬ r <+: q) : Built (t.node? q) ((t.remove r).node? q) := by
  have hkept : FileTree.node? { t with entries := t.entries.filter fun e ↦ !r.isPrefixOf e.1 } q =
      t.node? q := by
    have hleads : r.isPrefixOf q = false :=
      Bool.eq_false_iff.mpr (mt List.isPrefixOf_iff_prefix.mp hr)
    unfold node?
    simp only [find_filter (fun q ↦ !r.isPrefixOf q)]
    split
    · rename_i hq
      rw [← hq, hleads]
      rfl
    · rw [hleads]
      rfl
  exact hkept ▸ built_touch _ _ _

/-- What has been done was done along the route: on the way to it directories have been changed or
made, and no link has been made. -/
structure Works (l : Route) (t t' : FileTree) : Prop where
  rest : t'.rest (fun r ↦ decide (Route.Along l r)) = t.rest fun r ↦ decide (Route.Along l r)
  way : ∀ r, r <+: l → r ≠ l → Built (t.node? r) (t'.node? r)
  bare : t'.Bare l

theorem Works.refl (ht : t.Bare l) : t.Works l t :=
  ⟨rfl, fun _ _ _ ↦ .same _, ht⟩

theorem Works.trans (h : Works l t t') (h' : Works l t' t'') : Works l t t'' :=
  ⟨h'.rest.trans h.rest, fun r hr hne ↦ (h.way r hr hne).trans (h'.way r hr hne), h'.bare⟩

section Primitive

variable (ht : t.Bare l)

include ht

theorem Bare.works_set (hr : l <+: r) (hnode : ∀ target, node ≠ .link target) :
    t.Works l (t.set r node) := by
  refine ⟨rest_set (decide_eq_true (.inr hr)) node, fun q hq hne ↦ ?_, ht.set hnode⟩
  have hqr : q ≠ r := fun h ↦ Route.not_below hq hne hr (h ▸ List.prefix_rfl)
  rw [node?_set, if_neg hqr]
  exact .same _

theorem Bare.works_add (hr : Route.Along l (d ++ [name])) (hnode : ∀ target, node ≠ .link target)
    (hway : ∀ r, r <+: l → r ≠ l → Built (t.node? r) ((t.set (d ++ [name]) node).node? r)) :
    t.Works l (t.add d name node) where
  rest := rest_add (decide_eq_true (hr.of_prefix (List.prefix_append _ _))) (decide_eq_true hr) node
  way q hq hne := (hway q hq hne).trans (built_touch _ _ _)
  bare := ht.add hnode

/-- What is put below the route may be anything but a link. -/
theorem Bare.works_add_below (hr : l <+: d ++ [name]) (hnode : ∀ target, node ≠ .link target) :
    t.Works l (t.add d name node) :=
  ht.works_add (.inr hr) hnode (ht.works_set hr hnode).way

/-- Where nothing is, a directory may be put along the route. -/
theorem Bare.works_add_directory (hr : Route.Along l (d ++ [name]))
    (hfree : t.node? (d ++ [name]) = none) (changed : Int) :
    t.Works l (t.add d name (.directory changed)) := by
  refine ht.works_add hr nofun fun q _ _ ↦ ?_
  rw [node?_set]
  split
  · rename_i hq
    rw [hq, hfree]
    exact .made changed
  · exact .same _

theorem Bare.works_remove (hl : l ≠ []) (hr : l <+: r) : t.Works l (t.remove r) := by
  have hne : r ≠ [] := fun hnil ↦ hl (List.prefix_nil.mp (hnil ▸ hr))
  refine ⟨rest_remove ?_ fun q hq ↦ decide_eq_true (.inr (hr.trans hq)), fun q hq hne' ↦ ?_,
    ht.remove hne⟩
  · exact decide_eq_true (Route.Along.of_prefix (.inr hr) (List.dropLast_prefix r))
  · exact built_remove (Route.not_below hq hne' hr)

end Primitive

end FileTree

open FileTree

/-! ### Operations -/

namespace FileAct

variable {α β : Type} {l : Route} {p q : Path}

/-- Wherever there is no link along the route, the action works along it. -/
def WorksAlong (l : Route) (act : FileAct α) : Prop :=
  ∀ t, t.Bare l → Ends act t (fun _ t' ↦ t.Works l t') fun _ t' ↦ t.Works l t'

theorem WorksAlong.bind {act : FileAct α} {f : α → FileAct β} (h : WorksAlong l act)
    (hnext : ∀ a, WorksAlong l (f a)) : WorksAlong l (act >>= f) := fun t ht ↦
  (h t ht).bind fun a t₁ h₁ ↦
    (hnext a t₁ h₁.bare).mono (fun _ _ ↦ h₁.trans) fun _ _ ↦ h₁.trans

theorem WorksAlong.tryCatch {act : FileAct α} {handler : FileError → FileAct α}
    (h : WorksAlong l act) (hnext : ∀ e, WorksAlong l (handler e)) :
    WorksAlong l (tryCatch act handler) := fun t ht ↦
  ends_tryCatch.mpr ((h t ht).mono (fun _ _ h ↦ h) fun e t₁ h₁ ↦
    (hnext e t₁ h₁.bare).mono (fun _ _ ↦ h₁.trans) fun _ _ ↦ h₁.trans)

theorem worksAlong_pure (a : α) : WorksAlong l (pure a : FileAct α) := fun _ ht ↦ .refl ht

theorem worksAlong_throw (e : FileError) : WorksAlong l (throw e : FileAct α) := fun _ ht ↦ .refl ht

theorem worksAlong_holds (p : Path) (property : Node → Bool) :
    WorksAlong l (holds p property) := by
  intro t ht
  refine (ends_holds p property t).mono ?_ ?_
  · rintro _ _ ⟨rfl, -⟩
    exact .refl ht
  · rintro _ _ ⟨rfl, -⟩
    exact .refl ht

theorem worksAlong_mode (p : Path) : WorksAlong l (mode p) := by
  intro t ht
  unfold mode
  refine ends_bind.mpr (ends_place.mpr ?_)
  split
  · rename_i place _
    rcases place with ⟨r, _ | _ | _⟩ | ⟨d, name⟩ <;> exact .refl ht
  · exact .refl ht

theorem no_dots_draft (tag : String) (hdots : ".." ∉ p.names) : ".." ∉ (draft p tag).names := by
  intro h
  rcases List.mem_append.mp h with h | h
  · exact hdots ((List.dropLast_prefix _).subset h)
  · exact draftName_ne_dots p.name tag (List.mem_singleton.mp h).symm

/-- What is added to an open file is added below the route. -/
theorem worksAlong_append {r : Route} (hr : l <+: r) (content : Text.Bytes) :
    WorksAlong l (append r content) := by
  intro t ht
  refine ends_modify.mpr ?_
  split
  · exact ht.works_set hr nofun
  · exact .refl ht

section Paths

variable (hp : p.isAbsolute = true) (hdots : ".." ∉ p.names) (halong : Route.Along l p.names)

include hp hdots halong

theorem worksAlong_makeDirectory : WorksAlong l (makeDirectory p) := by
  intro t ht
  unfold makeDirectory
  refine ends_bind.mpr (ends_linkPlace.mpr ?_)
  split
  · rename_i place hwalk
    cases place with
    | «at» r node => exact ends_throw.mpr (.refl ht)
    | free d name =>
      have hlands : d ++ [name] = p.names := ht.landsAtLink hp hdots halong hwalk
      exact ends_modify.mpr
        (ht.works_add_directory (hlands ▸ halong) (bears_of_walkToLink hwalk) _)
  · exact .refl ht

theorem worksAlong_ensureDirectory (mayExist : Bool) :
    WorksAlong l (ensureDirectory p mayExist) := by
  unfold ensureDirectory
  refine (worksAlong_makeDirectory hp hdots halong).tryCatch fun e ↦ ?_
  split
  · exact worksAlong_throw _
  · refine (worksAlong_holds _ _).bind fun answer ↦ ?_
    split
    · exact worksAlong_pure _
    · exact worksAlong_throw _

omit hdots halong in
theorem worksAlong_makeDirectories (mayExist : Bool) (depth : Nat) (hdots : ".." ∉ p.names)
    (halong : Route.Along l p.names) : WorksAlong l (makeDirectories mayExist depth p) := by
  induction depth generalizing mayExist p with
  | zero => exact worksAlong_ensureDirectory hp hdots halong mayExist
  | succ depth ih =>
    have hparent : p.parent.names <+: p.names := List.dropLast_prefix _
    refine (worksAlong_ensureDirectory hp hdots halong mayExist).tryCatch fun e ↦ ?_
    split
    · refine (ih (p := p.parent) hp true (fun h ↦ hdots (hparent.subset h))
        (halong.of_prefix hparent)).bind fun _ ↦ ?_
      exact worksAlong_ensureDirectory hp hdots halong mayExist
    · exact worksAlong_throw _

theorem worksAlong_makePath (mayExist : Bool) : WorksAlong l (makePath p mayExist) :=
  worksAlong_makeDirectories hp mayExist _ hdots halong

end Paths

section Below

variable (hp : p.isAbsolute = true) (hdots : ".." ∉ p.names) (hbelow : l <+: p.names)

include hp hdots hbelow

/-- A file is opened below the route. -/
theorem ends_openEmpty_below {t : FileTree} (ht : t.Bare l) :
    Ends (openEmpty p) t (fun r t' ↦ r = p.names ∧ t.Works l t') fun _ t' ↦ t.Works l t' := by
  unfold openEmpty
  refine ends_bind.mpr (ends_place.mpr ?_)
  split
  · rename_i place hwalk
    rcases place with ⟨r, _ | _ | _⟩ | ⟨d, name⟩
    · have hlands : r = p.names := ht.lands hp hdots (.inr hbelow) hwalk
      exact ends_bind.mpr (ends_modify.mpr
        (ends_pure.mpr ⟨hlands, ht.works_set (hlands ▸ hbelow) nofun⟩))
    · exact ends_throw.mpr (.refl ht)
    · exact ends_throw.mpr (.refl ht)
    · have hlands : d ++ [name] = p.names := ht.lands hp hdots (.inr hbelow) hwalk
      exact ends_bind.mpr (ends_modify.mpr
        (ends_pure.mpr ⟨hlands, ht.works_add_below (hlands ▸ hbelow) nofun⟩))
  · exact .refl ht

theorem worksAlong_setMode (mode : Nat) : WorksAlong l (setMode p mode) := by
  intro t ht
  unfold setMode
  refine ends_bind.mpr (ends_place.mpr ?_)
  split
  · rename_i place hwalk
    rcases place with ⟨r, _ | _ | _⟩ | ⟨d, name⟩
    · have hlands : r = p.names := ht.lands hp hdots (.inr hbelow) hwalk
      exact ends_modify.mpr (ht.works_set (hlands ▸ hbelow) nofun)
    · exact ends_pure.mpr (.refl ht)
    · exact ends_pure.mpr (.refl ht)
    · exact ends_throw.mpr (.refl ht)
  · exact .refl ht

variable (hl : l ≠ [])

include hl

theorem worksAlong_unlink : WorksAlong l (unlink p) := by
  intro t ht
  unfold unlink
  refine ends_bind.mpr (ends_linkPlace.mpr ?_)
  split
  · rename_i place hwalk
    rcases place with ⟨r, node⟩ | ⟨d, name⟩
    · have hlands : r = p.names := ht.landsAtLink hp hdots (.inr hbelow) hwalk
      have hremoved := ht.works_remove hl (hlands ▸ hbelow)
      cases node with
      | directory changed => exact ends_throw.mpr (.refl ht)
      | _ => exact ends_modify.mpr hremoved
    · exact ends_throw.mpr (.refl ht)
  · exact .refl ht

theorem worksAlong_unlinkIfThere : WorksAlong l (unlinkIfThere p) := by
  refine (worksAlong_unlink hp hdots hbelow hl).tryCatch fun e ↦ ?_
  split
  · exact worksAlong_pure _
  · exact worksAlong_throw _

theorem worksAlong_removeTree : WorksAlong l (removeTree p) := by
  intro t ht
  unfold removeTree
  refine ends_bind.mpr (ends_get.mpr ?_)
  split
  · rename_i r changed hwalk
    have hlands : r = p.names := ht.landsAtLink hp hdots (.inr hbelow) hwalk
    exact ends_modify.mpr (ht.works_remove hl (hlands ▸ hbelow))
  · exact ends_pure.mpr (.refl ht)

/-- What is moved is taken away in one place and put in another. -/
theorem worksAlong_move (hq : q.isAbsolute = true) (hdots' : ".." ∉ q.names)
    (hbelow' : l <+: q.names) : WorksAlong l (move p q) := by
  intro t ht
  unfold move
  dsimp only
  refine ends_bind.mpr (ends_get.mpr ?_)
  split
  · exact ends_throw.mpr (.refl ht)
  · exact ends_throw.mpr (.refl ht)
  rename_i source node hfrom
  have hsource : source = p.names := ht.landsAtLink hp hdots (.inr hbelow) hfrom
  have hnode := ht.ne_link (.inr (hsource ▸ hbelow)) (bears_of_walkToLink hfrom)
  have hremoved := ht.works_remove hl (hsource ▸ hbelow)
  split
  · exact ends_throw.mpr (.refl ht)
  · exact ends_throw.mpr (.refl ht)
  · rename_i target found hfound hto
    have htarget : target = q.names := ht.landsAtLink hq hdots' (.inr hbelow') hto
    refine ends_set.mpr (hremoved.trans (hremoved.bare.works_add_below ?_ hnode))
    have hne : target ≠ [] := fun hnil ↦ hl (List.prefix_nil.mp (hnil ▸ htarget ▸ hbelow'))
    rw [List.getLast?_eq_some_getLast hne, Option.getD_some, List.dropLast_concat_getLast]
    exact htarget ▸ hbelow'
  · rename_i d name hto
    have htarget : d ++ [name] = q.names := ht.landsAtLink hq hdots' (.inr hbelow') hto
    exact ends_set.mpr
      (hremoved.trans (hremoved.bare.works_add_below (htarget ▸ hbelow') hnode))

end Below

/-! ### Replacing a file -/

section Replacing

variable (hp : p.isAbsolute = true) (hdots : ".." ∉ p.names) (hbelow : l <+: p.parent.names)
  (hl : l ≠ [])

include hp hdots hbelow hl

/-- The file and its draft are below the route. -/
theorem worksAlong_fillAndMove (content : Text.Bytes) (tag : String) :
    WorksAlong l (fillAndMove p content tag) := by
  have hparent : p.parent.names <+: p.names := List.dropLast_prefix _
  have hfile : l <+: p.names := hbelow.trans hparent
  have hdraft : l <+: (draft p tag).names := hbelow.trans (List.prefix_append _ _)
  have hdots' := no_dots_draft tag hdots
  intro t ht
  unfold fillAndMove
  refine (ends_openEmpty_below (p := draft p tag) hp hdots' hdraft ht).bind ?_
  rintro r t₁ ⟨rfl, h₁⟩
  have hrest : WorksAlong l (do
      append (draft p tag).names content
      if ← present p then setMode (draft p tag) (← mode p)
      move (draft p tag) p) := by
    refine (worksAlong_append hdraft content).bind fun _ ↦ ?_
    refine (worksAlong_holds p _).bind fun there ↦ ?_
    have hmove := worksAlong_move (p := draft p tag) hp hdots' hdraft hl hp hdots hfile
    dsimp only
    split
    · exact (worksAlong_mode p).bind fun m ↦
        (worksAlong_setMode (p := draft p tag) hp hdots' hdraft m).bind fun _ ↦ hmove
    · exact hmove
  exact (hrest t₁ h₁.bare).mono (fun _ _ ↦ h₁.trans) fun _ _ ↦ h₁.trans

theorem worksAlong_replaceContent (content : Text.Bytes) (tag : String) :
    WorksAlong l (replaceContent p content tag) := by
  have hparent : p.parent.names <+: p.names := List.dropLast_prefix _
  have hdraft : l <+: (draft p tag).names := hbelow.trans (List.prefix_append _ _)
  unfold replaceContent
  refine (worksAlong_makePath (p := p.parent) hp (fun h ↦ hdots (hparent.subset h))
    (.inr hbelow) true).bind fun _ ↦ ?_
  have hfill : WorksAlong l (attempt (fillAndMove p content tag)) := fun t ht ↦
    ends_attempt.mpr (worksAlong_fillAndMove hp hdots hbelow hl content tag t ht)
  refine hfill.bind fun outcome ↦ ?_
  refine (worksAlong_unlinkIfThere (p := draft p tag) hp (no_dots_draft tag hdots) hdraft
    hl).bind fun _ ↦ ?_
  split
  · exact worksAlong_pure _
  · exact worksAlong_throw _

end Replacing

end FileAct

end Remedy
