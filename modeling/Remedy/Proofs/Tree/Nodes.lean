import Mathlib.Data.List.Induction
import Remedy.FileTree

/-!
# What a tree holds at a route

`FileTree.look` is what a tree holds at a route, the times at which directories were changed left
out. The changes of a tree are updates of this function: putting a node at a route, adding one to a
directory and taking one away change it there and nowhere else (`look_set`, `look_add`,
`look_remove`).

A tree is sound if every node lies in a directory. `FileTree.Alters` says of two trees that one has
come from the other by changes of regular files at some routes and by new directories; links and the
directories that were there are the same.
-/

set_option autoImplicit false

namespace Remedy

/-- The node, the time at which a directory was changed left out. -/
def Node.still : Node → Node
  | .directory _ => .directory 0
  | node => node

namespace FileTree

variable {t t' t'' : FileTree} {r : Route} {node : Node}

def look (t : FileTree) (r : Route) : Option Node := (t.node? r).map Node.still

/-- The content of the regular file at a route. -/
def bytes? (t : FileTree) (r : Route) : Option Text.Bytes :=
  match t.look r with
  | some (.file content _) => some content
  | _ => none

/-- The target of the link at a route. -/
def link? (t : FileTree) (r : Route) : Option String :=
  match t.look r with
  | some (.link target) => some target
  | _ => none

def HasDirectory (t : FileTree) (r : Route) : Prop := t.look r = some (.directory 0)

/-! ### Changes -/

theorem find_store (r r' : Route) (node : Node) (entries : List (Route × Node)) :
    find r' (FileTree.store r node entries) = if r' = r then some node else find r' entries := by
  induction entries with
  | nil =>
    simp only [FileTree.store, find]
    by_cases h : r = r'
    · rw [if_pos h, if_pos h.symm]
    · rw [if_neg h, if_neg (Ne.symm h)]
  | cons entry rest ih =>
    obtain ⟨q, n⟩ := entry
    simp only [FileTree.store]
    by_cases hq : q = r
    · subst hq
      simp only [if_true, find]
      by_cases h : q = r'
      · rw [if_pos h, if_pos h.symm]
      · rw [if_neg h, if_neg (Ne.symm h), if_neg h]
    · simp only [if_neg hq, find]
      by_cases h : q = r'
      · rw [if_pos h, if_neg (by rw [← h]; exact hq), if_pos h]
      · rw [if_neg h, ih, if_neg h]

theorem node?_set (t : FileTree) (r r' : Route) (node : Node) :
    (t.set r node).node? r' = if r' = r then some node else t.node? r' := by
  unfold node? set
  simp only [find_store]
  by_cases h : r' = []
  · subst h
    by_cases hr : ([] : Route) = r
    · simp [hr]
    · simp [hr]
  · simp only [if_neg h]

theorem look_set (t : FileTree) (r r' : Route) (node : Node) :
    (t.set r node).look r' = if r' = r then some node.still else t.look r' := by
  unfold look
  rw [node?_set]
  split <;> rfl

theorem look_touch (t : FileTree) (d r : Route) : (t.touch d).look r = t.look r := by
  unfold touch
  split
  · rename_i changed hd
    rw [look_set]
    split
    · rename_i hr
      rw [hr]
      simp only [look, hd]
      rfl
    · rfl
  · rfl

theorem look_add (t : FileTree) (d r : Route) (name : String) (node : Node) :
    (t.add d name node).look r = if r = d ++ [name] then some node.still else t.look r := by
  unfold add
  rw [look_touch, look_set]

theorem find_filter (p : Route → Bool) (r : Route) (entries : List (Route × Node)) :
    find r (entries.filter fun e ↦ p e.1) = if p r then find r entries else none := by
  induction entries with
  | nil => simp [find]
  | cons entry rest ih =>
    obtain ⟨q, n⟩ := entry
    by_cases hq : q = r
    · subst hq
      cases hp : p q with
      | true => simp [hp, find]
      | false => simpa [hp] using ih
    · cases hp : p q with
      | true => simp [hp, find, hq, ih]
      | false => simp [hp, find, hq, ih]

theorem look_remove (t : FileTree) {r : Route} (hr : r ≠ []) (r' : Route) :
    (t.remove r).look r' = if r <+: r' then none else t.look r' := by
  unfold remove
  rw [look_touch]
  unfold look node?
  simp only [find_filter (fun q ↦ !r.isPrefixOf q)]
  by_cases hr' : r' = []
  · subst hr'
    have hroot : r.isPrefixOf [] = false := by
      cases r with
      | nil => exact absurd rfl hr
      | cons name rest => rfl
    simp [hroot, hr]
  · simp only [if_neg hr', List.isPrefixOf_iff_prefix, Bool.not_eq_true', Bool.eq_false_iff, ne_eq]
    split <;> simp_all

/-! ### What is there -/

section Observe

theorem bytes?_of_look {content : Text.Bytes} {mode : Nat}
    (h : t.look r = some (.file content mode)) : t.bytes? r = some content := by
  simp only [bytes?, h]

theorem look_of_bytes? {content : Text.Bytes} (h : t.bytes? r = some content) :
    ∃ mode, t.look r = some (.file content mode) := by
  unfold bytes? at h
  split at h
  · rename_i content' mode hlook
    cases h
    exact ⟨mode, hlook⟩
  · cases h

theorem look_of_link? {target : String} :
    t.link? r = some target ↔ t.look r = some (.link target) := by
  unfold link?
  split
  · rename_i target' hlook
    rw [hlook]
    simp
  · rename_i hlook
    exact ⟨fun h ↦ (nomatch h), fun h ↦ absurd h (hlook target)⟩

theorem look_changed {changed : Int} (h : t.look r = some (.directory changed)) : changed = 0 := by
  obtain ⟨node, -, hnode⟩ := Option.map_eq_some_iff.mp h
  cases node with
  | directory changed' =>
    cases hnode
    rfl
  | _ => cases hnode

theorem HasDirectory.not_link (h : t.HasDirectory r) : t.link? r = none := by
  rw [HasDirectory] at h
  simp only [link?, h]

theorem HasDirectory.no_bytes (h : t.HasDirectory r) : t.bytes? r = none := by
  rw [HasDirectory] at h
  simp only [bytes?, h]

/-- At a route there is nothing, a directory, a regular file or a link. -/
theorem look_cases (t : FileTree) (r : Route) :
    t.look r = none ∨ t.HasDirectory r ∨ (∃ content mode, t.look r = some (.file content mode)) ∨
      ∃ target, t.look r = some (.link target) := by
  unfold HasDirectory look
  cases t.node? r with
  | none => exact .inl rfl
  | some node =>
    cases node with
    | file content mode => exact .inr (.inr (.inl ⟨content, mode, rfl⟩))
    | directory changed => exact .inr (.inl rfl)
    | link target => exact .inr (.inr (.inr ⟨target, rfl⟩))

end Observe

/-! ### Soundness -/

/-- Every node lies in a directory. -/
structure Sound (t : FileTree) : Prop where
  root : t.HasDirectory []
  parent : ∀ (d : Route) (name : String), t.look (d ++ [name]) ≠ none → t.HasDirectory d

theorem mem_of_find {entries : List (Route × Node)} (h : find r entries ≠ none) :
    r ∈ entries.map (·.1) := by
  induction entries with
  | nil => exact absurd rfl h
  | cons entry rest ih =>
    obtain ⟨q, node⟩ := entry
    by_cases hq : q = r
    · simp [hq]
    · rw [find, if_neg hq] at h
      exact List.mem_cons_of_mem _ (ih h)

theorem find_ne_none {entries : List (Route × Node)} (h : r ∈ entries.map (·.1)) :
    find r entries ≠ none := by
  induction entries with
  | nil => cases h
  | cons entry rest ih =>
    obtain ⟨q, node⟩ := entry
    unfold find
    split
    · exact Option.some_ne_none _
    · rename_i hq
      exact ih ((List.mem_cons.mp h).resolve_left (Ne.symm hq))

theorem mem_entries {d : Route} {name : String} :
    d ++ [name] ∈ t.entries.map (·.1) ↔ t.look (d ++ [name]) ≠ none := by
  rw [look, node?, if_neg (by simp), Ne, Option.map_eq_none_iff]
  exact ⟨find_ne_none, mem_of_find⟩

/-- The names in a directory are those at which there is something. -/
theorem mem_children {d : Route} {name : String} :
    name ∈ t.children d ↔ t.look (d ++ [name]) ≠ none := by
  rw [← mem_entries, children, List.mem_mergeSort, List.mem_filterMap]
  constructor
  · rintro ⟨e, he, hname⟩
    split at hname
    · rename_i hd
      have hroute : e.1 = d ++ [name] := by
        rw [List.getLast?_eq_some_getLast hd.1] at hname
        rw [← hd.2, ← Option.some.inj hname, List.dropLast_concat_getLast]
      exact List.mem_map.mpr ⟨e, he, hroute⟩
    · cases hname
  · intro hmem
    obtain ⟨e, he, hroute⟩ := List.mem_map.mp hmem
    exact ⟨e, he, by simp [hroute]⟩

instance (t : FileTree) (r : Route) : Decidable (t.HasDirectory r) :=
  inferInstanceAs (Decidable (t.look r = some (.directory 0)))

/-- Whether a tree is sound can be seen from its entries. -/
theorem sound_of_entries (hroot : t.HasDirectory [])
    (h : ∀ e ∈ t.entries, t.HasDirectory e.1.dropLast) : t.Sound := by
  refine ⟨hroot, fun d name hlook ↦ ?_⟩
  have hne : d ++ [name] ≠ [] := by simp
  have hfind : find (d ++ [name]) t.entries ≠ none := by
    intro hnone
    rw [look, node?, if_neg hne, hnone] at hlook
    exact hlook rfl
  obtain ⟨e, he, heq⟩ := List.mem_map.mp (mem_of_find hfind)
  have hd := h e he
  rw [heq, List.dropLast_concat] at hd
  exact hd

/-- What lies below something lies below a directory. -/
theorem Sound.above (h : t.Sound) {r q : Route} (hr : t.look r ≠ none) (hq : q <+: r)
    (hne : q ≠ r) : t.HasDirectory q := by
  induction r using List.reverseRecOn with
  | nil => exact absurd (List.prefix_nil.mp hq) hne
  | append_singleton d name ih =>
    have hd := h.parent d name hr
    rcases List.prefix_concat_iff.mp hq with rfl | hq
    · exact absurd rfl hne
    · by_cases hqd : q = d
      · rw [hqd]
        exact hd
      · exact ih (by rw [hd]; exact Option.some_ne_none _) hq hqd

/-- A node may be put in the place of anything that is there but a directory. -/
theorem Sound.set (h : t.Sound) (hr : t.look r ≠ none) (hnot : ¬ t.HasDirectory r) :
    (t.set r node).Sound := by
  have hdir : ∀ {q}, t.HasDirectory q → (t.set r node).HasDirectory q := by
    intro q hq
    have hne : q ≠ r := by
      rintro rfl
      exact hnot hq
    rw [HasDirectory, look_set, if_neg hne]
    exact hq
  refine ⟨hdir h.root, fun d name hname ↦ hdir (h.parent d name ?_)⟩
  rw [look_set] at hname
  split at hname
  · rename_i heq
    rw [heq]
    exact hr
  · exact hname

theorem Sound.set_file (h : t.Sound) {content : Text.Bytes} {mode : Nat}
    (hr : ∃ content' mode', t.look r = some (.file content' mode')) :
    (t.set r (.file content mode)).Sound := by
  obtain ⟨content', mode', hr⟩ := hr
  apply h.set
  · rw [hr]
    exact Option.some_ne_none _
  · rw [HasDirectory, hr]
    exact nofun

/-- A node may be added to a directory in the place of anything but a directory. -/
theorem Sound.add (h : t.Sound) {d : Route} {name : String} (hd : t.HasDirectory d)
    (hname : ¬ t.HasDirectory (d ++ [name])) : (t.add d name node).Sound := by
  have hdir : ∀ {q}, t.HasDirectory q → (t.add d name node).HasDirectory q := by
    intro q hq
    have hne : q ≠ d ++ [name] := by
      rintro rfl
      exact hname hq
    rw [HasDirectory, look_add, if_neg hne]
    exact hq
  refine ⟨hdir h.root, fun d' name' hname' ↦ hdir ?_⟩
  rw [look_add] at hname'
  split at hname'
  · rename_i heq
    obtain ⟨rfl, -⟩ := List.append_inj' heq rfl
    exact hd
  · exact h.parent d' name' hname'

theorem Sound.remove (h : t.Sound) (hr : r ≠ []) : (t.remove r).Sound := by
  have hkept : ∀ {q}, ¬ r <+: q → (t.remove r).look q = t.look q := by
    intro q hq
    rw [look_remove t hr, if_neg hq]
  refine ⟨?_, fun d name hname ↦ ?_⟩
  · rw [HasDirectory, hkept fun hnil ↦ hr (List.prefix_nil.mp hnil)]
    exact h.root
  · rw [look_remove t hr] at hname
    split at hname
    · exact absurd rfl hname
    · rename_i houtside
      have hd : ¬ r <+: d := fun hbelow ↦ houtside (hbelow.trans (List.prefix_append _ _))
      rw [HasDirectory, hkept hd]
      exact h.parent d name hname

/-! ### Alterations -/

/-- `t'` has come from `t` by changes of regular files at the routes in `only`, and by new
directories. -/
structure Alters (only : Route → Prop) (t t' : FileTree) : Prop where
  links : ∀ r, t'.link? r = t.link? r
  directories : ∀ r, t.HasDirectory r → t'.HasDirectory r
  bytes : ∀ r, ¬ only r → t'.bytes? r = t.bytes? r

section Alterations

variable {only only' : Route → Prop}

theorem Alters.refl (only : Route → Prop) (t : FileTree) : Alters only t t :=
  ⟨fun _ ↦ rfl, fun _ h ↦ h, fun _ _ ↦ rfl⟩

theorem Alters.trans (h : Alters only t t') (h' : Alters only t' t'') : Alters only t t'' where
  links r := (h'.links r).trans (h.links r)
  directories r hr := h'.directories r (h.directories r hr)
  bytes r hr := (h'.bytes r hr).trans (h.bytes r hr)

theorem Alters.mono (h : Alters only t t') (hsub : ∀ r, only r → only' r) : Alters only' t t' where
  links := h.links
  directories := h.directories
  bytes r hr := h.bytes r fun honly ↦ hr (hsub r honly)

/-- Where nothing was and no file may be altered, there is nothing or a new directory. -/
theorem Alters.none_or_directory (h : Alters only t t') (hr : ¬ only r) (hnone : t.look r = none) :
    t'.look r = none ∨ t'.HasDirectory r := by
  rcases t'.look_cases r with hnone' | hdir | ⟨content, mode, hfile⟩ | ⟨target, hlink⟩
  · exact .inl hnone'
  · exact .inr hdir
  · have hbytes := h.bytes r hr
    rw [bytes?_of_look hfile, bytes?, hnone] at hbytes
    cases hbytes
  · have hsame := h.links r
    rw [look_of_link?.mpr hlink, link?, hnone] at hsame
    cases hsame

/-- Nothing counts but what is there. -/
theorem Alters.of_look (h : ∀ r, ¬ only r → t'.look r = t.look r)
    (hdirectories : ∀ r, only r → ¬ t.HasDirectory r)
    (hlinks : ∀ r, only r → t.link? r = none ∧ t'.link? r = none) : Alters only t t' where
  links r := by
    by_cases hr : only r
    · rw [(hlinks r hr).1, (hlinks r hr).2]
    · simp only [link?, h r hr]
  directories r hr := by
    rw [HasDirectory, h r fun honly ↦ hdirectories r honly hr]
    exact hr
  bytes r hr := by simp only [bytes?, h r hr]

end Alterations

end FileTree

end Remedy
