import Remedy.FileTree.Operation
import Remedy.Proofs.Actions
import Remedy.Proofs.Tree.Changes

/-!
# Operations on files

What the operations on file trees do to a sound tree, whether they succeed or are refused. Where a
walk ends is where its path leads (`FileTree.walk_ok`). Reading a file whose route has no links
tells what the tree holds there (`FileAct.ends_read`). Making directories makes nothing else
(`FileAct.ends_makePath`).
-/

set_option autoImplicit false

namespace Remedy

namespace FileTree

variable {t t' : FileTree} {r d : Route}

/-- Where nothing is found on the way along a route without links, there is nothing. -/
theorem look_of_walkFrom_notFound (ht : t.Sound) {names : List String} {whole : Bool}
    {follow : Route → String → List String → Except Errno Place} (hd : t.HasDirectory d)
    (hdirect : t.Direct (d ++ names))
    (h : t.walkFrom whole follow d names = .error .notFound) : t.look (d ++ names) = none := by
  induction names generalizing d with
  | nil => cases h
  | cons name rest ih =>
    have hname : name ≠ ".." := by
      rintro rfl
      exact hdirect.no_dots (by simp)
    rw [List.append_cons] at hdirect ⊢
    unfold walkFrom at h
    rw [if_neg hname] at h
    split at h
    · cases h
    · split at h
      · rename_i hnone
        have hlook := look_eq_none hnone
        by_contra hrest
        cases rest with
        | nil =>
          rw [List.append_nil] at hrest
          exact hrest hlook
        | cons next rest =>
          have habove := ht.above hrest (List.prefix_append _ _) (by simp)
          rw [habove] at hlook
          cases hlook
      · rename_i changed hnode
        have hdir : t.HasDirectory (d ++ [name]) := look_of_node? hnode
        exact ih hdir hdirect h
      · split at h
        · cases h
        · cases h
      · rename_i target hnode
        have hlink := hdirect.no_links (d ++ [name]) (List.prefix_append _ _)
        rw [look_of_link?.mpr (look_of_node? hnode)] at hlink
        cases hlink

/-- What a walk tells about where its path leads and what is there. -/
theorem walk_ok (ht : t.Sound) {p : Path} (hp : p.isAbsolute = true) {place : Place}
    (h : t.walk p = .ok place) : t.traced p = .done place.still.route ∧ t.Shows place.still := by
  unfold walk start at h
  rw [if_pos hp] at h
  split at h
  · cases h
  · have hwalk := walk_of_walkWithin h
    exact ⟨hwalk.traced ht hp, hwalk.shows ht ht.root⟩

/-- Where the names of a path lead to a directory, so does the path if it is not too long. -/
theorem walk_of_directory {p : Path} (hp : p.isAbsolute = true)
    (hfits : p.text.utf8ByteSize ≤ pathLimit)
    (h : Walk t true linkLimit [] p.names (.at r (.directory 0))) :
    ∃ changed, t.walk p = .ok (.at r (.directory changed)) := by
  obtain ⟨found, hfound, hstill⟩ := h.walkWithin_eq
  cases found with
  | free d name => cases hstill
  | «at» q node =>
    cases node with
    | directory changed =>
      cases hstill
      refine ⟨changed, ?_⟩
      rw [walk, if_neg (Nat.not_lt.mpr hfits), start, if_pos hp]
      exact hfound
    | _ => cases hstill

/-- What a walk along a route without links tells about what is there. -/
theorem Direct.walk_ok (hr : t.Direct r) (ht : t.Sound) {place : Place}
    (h : t.walk (Route.path r) = .ok place) : place.route = r ∧ t.Shows place.still := by
  obtain ⟨htraced, hshows⟩ := FileTree.walk_ok ht rfl h
  rw [traced_of_direct hr] at htraced
  have hroute : r = place.still.route := Resolved.done.inj htraced
  refine ⟨?_, hshows⟩
  rw [hroute]
  cases place <;> rfl

theorem Direct.walk_notFound (hr : t.Direct r) (ht : t.Sound)
    (h : t.walk (Route.path r) = .error .notFound) : t.look r = none := by
  unfold walk at h
  split at h
  · cases h
  · rw [walkWithin_eq] at h
    exact look_of_walkFrom_notFound ht ht.root hr h

theorem Direct.walkToLink_notFound (hr : t.Direct r) (ht : t.Sound)
    (h : t.walkToLink (Route.path r) = .error .notFound) : t.look r = none := by
  unfold walkToLink at h
  split at h
  · cases h
  · rw [walkWithin_eq] at h
    exact look_of_walkFrom_notFound ht ht.root hr h

/-- A walk along a route without links passes through the directory above. -/
theorem Direct.reaches {name : String} {found : Place} (hr : t.Direct (d ++ [name]))
    (ht : t.Sound) (h : t.walkToLink (Route.path (d ++ [name])) = .ok found) :
    t.Reaches (Route.path (d ++ [name])) d name := by
  unfold walkToLink at h
  split at h
  · cases h
  · obtain ⟨mid, -, hto, -⟩ :=
      (walk_of_walkWithin h).split ht ht.root (List.cons_ne_nil name [])
    have htraced := Walk.traced (p := Route.path d) ht rfl hto
    rw [traced_of_direct (hr.of_prefix (List.prefix_append _ _))] at htraced
    obtain rfl : d = mid := Resolved.done.inj htraced
    exact {
      absolute := rfl
      names := by simp [Route.path]
      ne_dots := fun hdots ↦ hr.no_dots (by simp [hdots])
      walk := by simpa [Route.path] using hto }

/-- What is read at a path. -/
def content (t : FileTree) (p : Path) : Except FileError Text.Bytes := (FileAct.read p t).1

end FileTree

open FileTree

namespace FileAct

variable {t : FileTree} {p : Path} {r d : Route} {name : String}

section Look

variable {ok : Place → FileTree → Prop} {bad : FileError → FileTree → Prop}

theorem ends_place : Ends (place p) t ok bad ↔
    match t.walk p with
    | .ok found => ok found t
    | .error e => bad ⟨e, p.text, none⟩ t := by
  refine ends_bind.trans (ends_get.trans ?_)
  cases t.walk p <;> rfl

theorem ends_linkPlace : Ends (linkPlace p) t ok bad ↔
    match t.walkToLink p with
    | .ok found => ok found t
    | .error e => bad ⟨e, p.text, none⟩ t := by
  refine ends_bind.trans (ends_get.trans ?_)
  cases t.walkToLink p <;> rfl

/-- Asking what is at a path leaves the tree as it is, and is refused only if a name on the way is
too long. -/
theorem ends_holds (p : Path) (property : Node → Bool) (t : FileTree) :
    Ends (holds p property) t
      (fun answer t' ↦ t' = t ∧ (answer = true ↔
        p.hasNul = false ∧ ∃ r node, t.walk p = .ok (.at r node) ∧ property node = true))
      fun _ t' ↦ t' = t ∧ t.walk p = .error .nameTooLong := by
  unfold holds
  split
  · rename_i hnul
    exact ends_pure.mpr ⟨rfl, by simp [hnul]⟩
  rename_i hnul
  have hnul' : p.hasNul = false := by simpa using hnul
  refine ends_bind.mpr (ends_get.mpr ?_)
  split
  · rename_i r node hwalk
    exact ends_pure.mpr ⟨rfl, by simp [hnul', hwalk]⟩
  · rename_i d name hwalk
    exact ends_pure.mpr ⟨rfl, by simp [hwalk]⟩
  · rename_i hwalk
    exact ends_throw.mpr ⟨rfl, hwalk⟩
  · rename_i e _ hwalk
    exact ends_pure.mpr ⟨rfl, by simp [hwalk]⟩

/-- What is said if this is refused. -/
theorem ends_holds_refused (p : Path) (property : Node → Bool) (t : FileTree) :
    Ends (holds p property) t (fun _ _ ↦ True) fun e _ ↦ e = ⟨.nameTooLong, p.text, none⟩ := by
  unfold holds
  split
  · exact ends_pure.mpr trivial
  refine ends_bind.mpr (ends_get.mpr ?_)
  split
  · exact ends_pure.mpr trivial
  · exact ends_pure.mpr trivial
  · exact ends_throw.mpr rfl
  · exact ends_pure.mpr trivial

/-- Where this is answered, the path is no longer than paths may be. -/
theorem ends_holds_size (p : Path) (property : Node → Bool) (t : FileTree) :
    Ends (holds p property) t
      (fun _ _ ↦ p.hasNul = false → p.text.utf8ByteSize ≤ pathLimit) fun _ _ ↦ True := by
  unfold holds
  split
  · rename_i hnul
    exact ends_pure.mpr fun hfalse ↦ by
      rw [hfalse] at hnul
      cases hnul
  by_cases hsize : p.text.utf8ByteSize ≤ pathLimit
  · exact ends_of_forall (fun _ _ _ ↦ hsize) fun _ _ ↦ trivial
  · refine ends_bind.mpr (ends_get.mpr ?_)
    rw [FileTree.walk, if_pos (Nat.not_le.mp hsize)]
    exact ends_throw.mpr trivial

end Look

/-! ### Reading -/

/-- Reading a file leaves the tree as it is and, if no link lies on the way, tells what is there. -/
theorem ends_read (ht : t.Sound) (r : Route) :
    Ends (read (Route.path r)) t
      (fun content t' ↦ t' = t ∧ (t.Direct r → t.bytes? r = some content))
      fun e t' ↦ t' = t ∧ (t.Direct r → e.errno = .notFound → t.look r = none) := by
  unfold read
  refine ends_bind.mpr (ends_place.mpr ?_)
  split
  · rename_i found hwalk
    cases found with
    | «at» q node =>
      cases node with
      | file content mode =>
        refine ends_pure.mpr ⟨rfl, fun hr ↦ ?_⟩
        obtain ⟨rfl, hshows⟩ := hr.walk_ok ht hwalk
        exact bytes?_of_look hshows
      | _ => exact ends_throw.mpr ⟨rfl, fun _ h ↦ by cases h⟩
    | free d name =>
      refine ends_throw.mpr ⟨rfl, fun hr _ ↦ ?_⟩
      obtain ⟨rfl, hshows⟩ := hr.walk_ok ht hwalk
      exact hshows.2.1
  · rename_i e hwalk
    refine ⟨rfl, fun hr hnotFound ↦ ?_⟩
    obtain rfl : e = .notFound := hnotFound
    exact hr.walk_notFound ht hwalk

/-- Reading leaves the tree as it is. -/
theorem read_eq (p : Path) (t : FileTree) : read p t = (t.content p, t) := by
  have hends : Ends (read p) t (fun _ t' ↦ t' = t) fun _ t' ↦ t' = t := by
    unfold read
    refine ends_bind.mpr (ends_place.mpr ?_)
    split
    · rename_i found hwalk
      cases found with
      | «at» q node =>
        cases node with
        | file content mode => exact ends_pure.mpr rfl
        | _ => exact ends_throw.mpr rfl
      | free d name => exact ends_throw.mpr rfl
    · rfl
  exact Prod.ext rfl hends.state

/-! ### Directories -/

/-- The path led to a free name, at which a directory has been made. -/
def Made (p : Path) (t t' : FileTree) : Prop :=
  ∃ d name changed, Walk t false linkLimit [] p.names (.free d name) ∧
    t' = t.add d name (.directory changed)

/-- The path leads to a directory. -/
def Enters (t : FileTree) (p : Path) : Prop :=
  ∃ d, Walk t true linkLimit [] p.names (.at d (.directory 0))

/-- Nothing but directories is new. -/
def Grows (t t' : FileTree) : Prop := Becomes (fun _ ↦ False) t t'

theorem Made.grows {t' : FileTree} (h : Made p t t') (ht : t.Sound) : Grows t t' := by
  obtain ⟨d, name, changed, hwalk, rfl⟩ := h
  obtain ⟨hd, hfree, -⟩ := hwalk.shows ht ht.root
  exact becomes_add_directory ht hd hfree changed

theorem Made.enters {t' : FileTree} (h : Made p t t') (ht : t.Sound) : Enters t' p := by
  have hgrows := h.grows ht
  obtain ⟨d, name, changed, hwalk, rfl⟩ := h
  have hlook : (t.add d name (.directory changed)).look (d ++ [name]) = some (.directory 0) := by
    rw [look_add, if_pos rfl]
    rfl
  exact ⟨d ++ [name], hwalk.filled hgrows.alters hlook fun _ h ↦ by cases h⟩

section Walks

variable (hp : p.isAbsolute = true) {found : Place}

include hp in
theorem walk_of_walk (h : t.walk p = .ok found) : Walk t true linkLimit [] p.names found.still := by
  unfold walk start at h
  rw [if_pos hp] at h
  split at h
  · cases h
  · exact walk_of_walkWithin h

include hp in
theorem walk_of_walkToLink (h : t.walkToLink p = .ok found) :
    Walk t false linkLimit [] p.names found.still := by
  unfold walkToLink start at h
  rw [if_pos hp] at h
  split at h
  · cases h
  · exact walk_of_walkWithin h

include hp in
theorem ends_makeDirectory :
    Ends (makeDirectory p) t (fun _ t' ↦ Made p t t') fun _ t' ↦ t' = t := by
  unfold makeDirectory
  refine ends_bind.mpr (ends_linkPlace.mpr ?_)
  split
  · rename_i found hwalk
    cases found with
    | «at» q node => exact ends_throw.mpr rfl
    | free d name => exact ends_modify.mpr ⟨d, name, _, walk_of_walkToLink hp hwalk, rfl⟩
  · rfl

include hp in
theorem ends_ensureDirectory (mayExist : Bool) :
    Ends (ensureDirectory p mayExist) t
      (fun _ t' ↦ Made p t t' ∨ mayExist = true ∧ t' = t ∧ Enters t p) fun _ t' ↦ t' = t := by
  unfold ensureDirectory
  refine ends_tryCatch.mpr ((ends_makeDirectory hp).mono (fun _ t' h ↦ .inl h) ?_)
  rintro e _ rfl
  split
  · exact ends_throw.mpr rfl
  · refine ((ends_holds p Node.isDirectory _).mono (fun _ _ h ↦ h) fun _ _ h ↦ h.1).bind ?_
    rintro answer _ ⟨rfl, hanswer⟩
    split
    · rename_i hthere
      obtain ⟨hmayExist, hyes⟩ := Bool.and_eq_true_iff.mp hthere
      obtain ⟨-, q, node, hwalk, hnode⟩ := hanswer.mp hyes
      refine ends_pure.mpr (.inr ⟨hmayExist, rfl, q, ?_⟩)
      cases node with
      | directory changed => exact walk_of_walk hp hwalk
      | _ => cases hnode
    · exact ends_throw.mpr rfl

end Walks

theorem ends_makeDirectories (mayExist : Bool) (depth : Nat) (hp : p.isAbsolute = true)
    (ht : t.Sound) :
    Ends (makeDirectories mayExist depth p) t
      (fun _ t' ↦ ∃ t₁, Grows t t₁ ∧ (Made p t₁ t' ∨ mayExist = true ∧ t' = t₁ ∧ Enters t₁ p))
      fun _ t' ↦ Grows t t' := by
  induction depth generalizing mayExist p t with
  | zero =>
    refine (ends_ensureDirectory hp mayExist).mono (fun _ t' h ↦ ⟨t, .refl ht, h⟩) ?_
    rintro e _ rfl
    exact .refl ht
  | succ depth ih =>
    refine ends_tryCatch.mpr ((ends_ensureDirectory hp mayExist).mono
      (fun _ t' h ↦ ⟨t, .refl ht, h⟩) ?_)
    rintro e t rfl
    split
    · refine (ih (p := p.parent) true hp ht).bind fun _ t' hparent ↦ ?_
      have hgrows : Grows t t' := by
        obtain ⟨t₁, hgrows, hmade | ⟨-, rfl, -⟩⟩ := hparent
        · exact hgrows.trans (hmade.grows hgrows.sound)
        · exact hgrows
      refine (ends_ensureDirectory hp mayExist).mono (fun _ t'' h ↦ ⟨t', hgrows, h⟩) ?_
      rintro e' t' rfl
      exact hgrows
    · exact ends_throw.mpr (.refl ht)

/-- After a directory has been made, if it was not there, the path leads to a directory. -/
theorem ends_makePath (hp : p.isAbsolute = true) (ht : t.Sound) :
    Ends (makePath p true) t (fun _ t' ↦ Grows t t' ∧ Enters t' p) fun _ t' ↦ Grows t t' := by
  refine (ends_makeDirectories true _ hp ht).mono ?_ fun _ _ h ↦ h
  rintro _ t' ⟨t₁, hgrows, hmade | ⟨-, rfl, henters⟩⟩
  · exact ⟨hgrows.trans (hmade.grows hgrows.sound), hmade.enters hgrows.sound⟩
  · exact ⟨hgrows, henters⟩

/-- A directory that must not be there is made last. -/
theorem ends_makeNewPath (hp : p.isAbsolute = true) (ht : t.Sound) :
    Ends (makePath p false) t (fun _ t' ↦ ∃ t₁, Grows t t₁ ∧ Made p t₁ t')
      fun _ t' ↦ Grows t t' := by
  refine (ends_makeDirectories false _ hp ht).mono ?_ fun _ _ h ↦ h
  rintro _ t' ⟨t₁, hgrows, hmade | ⟨hfalse, -⟩⟩
  · exact ⟨t₁, hgrows, hmade⟩
  · cases hfalse

end FileAct

end Remedy
