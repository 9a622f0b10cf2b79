import Mathlib.Data.List.Sort
import Mathlib.Data.String.Basic
import Remedy.Proofs.Agreement
import Remedy.Proofs.Tree.Along

/-!
# What is seen of a change

A tree may have been changed in a part of it, and the log may have gone on in its file
(`FileTree.Off`). How much of this is seen by a walk depends on where the walk leads
(`FileTree.Sees`): nothing, or that the log has gone on, or that a directory has been changed, or
that there is a directory where there was nothing. Asking for a file, for a directory and for the
content of a file comes to the same if the walk leads to none of what would make the difference.
-/

set_option autoImplicit false

namespace Remedy

/-- What is sorted is the same if it is the same before it is sorted, also with some left out. -/
theorem filter_mergeSort {α : Type} {le : α → α → Bool} {xs ys : List α} {keep : α → Bool}
    (htrans : ∀ a b c, le a b = true → le b c = true → le a c = true)
    (htotal : ∀ a b, (le a b || le b a) = true)
    (hanti : ∀ a b, le a b = true → le b a = true → a = b)
    (h : (xs.filter keep).Perm (ys.filter keep)) :
    (xs.mergeSort le).filter keep = (ys.mergeSort le).filter keep := by
  have hsorted : ∀ a b, a ∈ (xs.mergeSort le).filter keep → b ∈ (ys.mergeSort le).filter keep →
      le a b = true → le b a = true → a = b := fun a b _ _ ↦ hanti a b
  refine List.Perm.eq_of_pairwise hsorted ?_ ?_ ?_
  · exact (List.pairwise_mergeSort htrans htotal xs).filter _
  · exact (List.pairwise_mergeSort htrans htotal ys).filter _
  · exact ((List.mergeSort_perm xs le).filter _).trans
      (h.trans ((List.mergeSort_perm ys le).filter _).symm)

namespace FileTree

variable {t t' t'' : FileTree} {log : Option Route} {part part' : Route → Bool} {r d l : Route}
  {p : Path} {node node' node'' : Option Node}

/-! ### What is apart from a part -/

/-- What is at the route is the same, or it is the file of the log. -/
inductive Kept (log : Option Route) (r : Route) : Option Node → Option Node → Prop
  | same (node : Option Node) : Kept log r node node
  | log (h : log = some r) (content content' : Text.Bytes) (mode mode' : Nat) :
      Kept log r (some (.file content mode)) (some (.file content' mode'))

theorem Kept.trans (h : Kept log r node node') (h' : Kept log r node' node'') :
    Kept log r node node'' := by
  cases h with
  | same => exact h'
  | log hlog =>
    cases h' with
    | same => exact .log hlog _ _ _ _
    | log => exact .log hlog _ _ _ _

theorem Kept.like (h : Kept log r node node') : LikeNode node node' := by
  cases h with
  | same => exact .refl _
  | log => exact .file _ _ _ _

/-- Except for a part of the tree and the file of the log everything is as it was, in the same
order. -/
structure Off (log : Option Route) (part : Route → Bool) (t t' : FileTree) : Prop where
  names : (t'.entries.map (·.1)).filter (fun r ↦ !part r) =
    (t.entries.map (·.1)).filter fun r ↦ !part r
  nodes : ∀ r, part r = false → Kept log r (t.node? r) (t'.node? r)

namespace Off

theorem refl (t : FileTree) : Off log part t t :=
  ⟨rfl, fun _ _ ↦ .same _⟩

theorem trans (h : Off log part t t') (h' : Off log part t' t'') : Off log part t t'' :=
  ⟨h'.names.trans h.names, fun r hr ↦ (h.nodes r hr).trans (h'.nodes r hr)⟩

theorem mono (h : Off log part t t') (hsub : ∀ r, part' r = false → part r = false) :
    Off log part' t t' := by
  refine ⟨?_, fun r hr ↦ h.nodes r (hsub r hr)⟩
  have hfilter : ∀ rs : List Route, rs.filter (fun r ↦ !part' r) =
      (rs.filter fun r ↦ !part r).filter fun r ↦ !part' r := by
    intro rs
    rw [List.filter_filter]
    refine List.filter_congr fun r _ ↦ ?_
    cases hr : part' r with
    | true => rfl
    | false => rw [hsub r hr]; rfl
  rw [hfilter, h.names, ← hfilter]

end Off

/-- What is done along a route is done off the rest. -/
theorem Works.off (h : Works l t t') : Off log (fun r ↦ decide (Route.Along l r)) t t' := by
  have hnames : ∀ t : FileTree, (t.entries.map (·.1)).filter (fun r ↦ !decide (Route.Along l r)) =
      (t.rest fun r ↦ decide (Route.Along l r)).map (·.1) := fun t ↦ List.filter_map
  have hnodes : ∀ (t : FileTree) (r : Route), decide (Route.Along l r) = false →
      t.node? r = find r (t.rest fun r ↦ decide (Route.Along l r)) := by
    intro t r hr
    have hne : r ≠ [] := by
      rintro rfl
      exact of_decide_eq_false hr (.inl List.nil_prefix)
    rw [node?, if_neg hne]
    show _ = find r (t.entries.filter fun e ↦ !decide (Route.Along l e.1))
    rw [find_filter (fun r ↦ !decide (Route.Along l r)), hr]
    rfl
  refine ⟨by rw [hnames, hnames, h.rest], fun r hr ↦ ?_⟩
  rw [hnodes t r hr, hnodes t' r hr, h.rest]
  exact .same _

/-- What is appended to the log is appended there. -/
theorem off_append (t : FileTree) (r : Route) (content : Text.Bytes) :
    Off (some r) part t (FileAct.append r content t).2 := by
  have happend : Ends (FileAct.append r content) t (fun _ t' ↦ Off (some r) part t t')
      fun _ _ ↦ False := by
    refine ends_modify.mpr ?_
    split
    case h_2 => exact .refl t
    rename_i old mode hnode
    have hmem : ∀ {entries : List (Route × Node)} {node : Node}, r ∈ entries.map (·.1) →
        (FileTree.store r node entries).map (·.1) = entries.map (·.1) := by
      intro entries node hr
      induction entries with
      | nil => cases hr
      | cons entry rest ih =>
        obtain ⟨q, n⟩ := entry
        unfold FileTree.store
        split
        · rfl
        · rename_i hq
          rw [List.map_cons, List.map_cons, ih ((List.mem_cons.mp hr).resolve_left (Ne.symm hq))]
    refine ⟨?_, fun q _ ↦ ?_⟩
    · show ((FileTree.store r _ t.entries).map (·.1)).filter _ = _
      rw [hmem (mem_of_find fun hnone ↦ ?_)]
      unfold node? at hnode
      split at hnode
      · rename_i hroot
        rw [← hroot, hnone] at hnode
        cases hnode
      · rw [hnone] at hnode
        cases hnode
    · rw [node?_set]
      split
      · rename_i hq
        rw [hq, hnode]
        exact .log rfl _ _ _ _
      · exact .same _
  exact happend

/-! ### Names in directories -/

section Names

/-- The names in a directory are the same, as far as they are not in the part. -/
theorem Off.children (h : Off log part t t') {keep : String → Bool}
    (hkeep : ∀ name, keep name = true → t.look (d ++ [name]) ≠ none ∨
      t'.look (d ++ [name]) ≠ none → part (d ++ [name]) = false) :
    (t'.children d).filter keep = (t.children d).filter keep := by
  let named : Route → Option String := fun r ↦
    (if r ≠ [] ∧ r.dropLast = d then r.getLast? else none).filter keep
  have hnamed : ∀ {r name}, named r = some name → r = d ++ [name] ∧ keep name = true := by
    intro r name hname
    obtain ⟨hlast, hkept⟩ := Option.filter_eq_some_iff.mp hname
    split at hlast
    · rename_i hr
      rw [List.getLast?_eq_some_getLast hr.1] at hlast
      refine ⟨?_, hkept⟩
      rw [← hr.2, ← Option.some.inj hlast, List.dropLast_concat_getLast]
    · cases hlast
  have hapart : ∀ {u : FileTree}, (∀ name, keep name = true → u.look (d ++ [name]) ≠ none →
      part (d ++ [name]) = false) →
      (u.entries.filterMap fun e ↦
        if e.1 ≠ [] ∧ e.1.dropLast = d then e.1.getLast? else none).filter keep =
      ((u.entries.map (·.1)).filter fun r ↦ !part r).filterMap named := by
    intro u hu
    rw [List.filter_filterMap, List.filterMap_filter, List.filterMap_map]
    refine List.filterMap_congr fun e he ↦ ?_
    show named e.1 = if (!part e.1) = true then named e.1 else none
    cases hname : named e.1 with
    | none => exact (ite_self none).symm
    | some name =>
      obtain ⟨hr, hkept⟩ := hnamed hname
      rw [hr, hu name hkept]
      · rfl
      · exact mem_entries.mp (hr ▸ List.mem_map_of_mem he)
  have hle : ∀ a b : String, (!decide (b < a)) = true ↔ a ≤ b := by
    intro a b
    rw [Bool.not_eq_true', decide_eq_false_iff_not, not_lt]
  refine filter_mergeSort ?_ ?_ ?_ (.of_eq ?_)
  · exact fun a b c hab hbc ↦ (hle a c).mpr (((hle a b).mp hab).trans ((hle b c).mp hbc))
  · exact fun a b ↦ Bool.or_eq_true_iff.mpr ((le_total a b).imp (hle a b).mpr (hle b a).mpr)
  · exact fun a b hab hba ↦ le_antisymm ((hle a b).mp hab) ((hle b a).mp hba)
  · rw [hapart fun name hname hlook ↦ hkeep name hname (.inr hlook), h.names,
      ← hapart fun name hname hlook ↦ hkeep name hname (.inl hlook)]

/-- The names in a directory are the same, if none of them is in the part. -/
theorem Off.children_eq (h : Off log part t t')
    (hpart : ∀ name, t.look (d ++ [name]) ≠ none ∨ t'.look (d ++ [name]) ≠ none →
      part (d ++ [name]) = false) :
    t'.children d = t.children d := by
  have hsame : (t'.children d).filter (fun _ ↦ true) = (t.children d).filter fun _ ↦ true :=
    h.children fun name _ ↦ hpart name
  rwa [List.filter_true, List.filter_true] at hsame

end Names

/-! ### Walks -/

/-- There is nothing at the end of the walk. -/
def Absent (found : Except Errno Place) : Prop :=
  found = .error .notFound ∨ ∃ d name, found = .ok (.free d name)

/-- What the walks in two trees come to, if the log may have gone on, some directories may have been
touched and others may have been made. -/
inductive Sees (log : Option Route) (touched made : Route → Prop) :
    Except Errno Place → Except Errno Place → Prop
  | same (found : Except Errno Place) : Sees log touched made found found
  | log {r : Route} (h : log = some r) (content content' : Text.Bytes) (mode mode' : Nat) :
      Sees log touched made (.ok (.at r (.file content mode))) (.ok (.at r (.file content' mode')))
  | touched {r : Route} (h : touched r) (changed changed' : Int) :
      Sees log touched made (.ok (.at r (.directory changed))) (.ok (.at r (.directory changed')))
  | absent {found found' : Except Errno Place} (h : Absent found) (h' : Absent found') :
      Sees log touched made found found'
  | made {found : Except Errno Place} (h : Absent found) {r : Route} (hr : made r) (changed : Int) :
      Sees log touched made found (.ok (.at r (.directory changed)))

/-- If nothing but the log has been changed, nothing else is seen. -/
theorem Off.sees (h : Off log (fun _ ↦ false) t t') (halike : Alike t t') (p : Path) :
    Sees log (fun _ ↦ False) (fun _ ↦ False) (t.walk p) (t'.walk p) := by
  have hwalk := halike.walk p
  cases hfound : t.walk p with
  | error e =>
    rw [hfound] at hwalk
    generalize t'.walk p = found' at hwalk
    cases hwalk
    exact .same _
  | ok place =>
    cases place with
    | free d name =>
      rw [hfound] at hwalk
      generalize t'.walk p = found' at hwalk
      cases hwalk
      exact .same _
    | «at» r node =>
      cases hfound' : t'.walk p with
      | error e =>
        rw [hfound, hfound'] at hwalk
        cases hwalk
      | ok place' =>
        rw [hfound, hfound'] at hwalk
        cases hwalk with
        | @«at» _ _ node' hlike =>
          have hnode : node = _ := bears_of_walk hfound
          have hnode' : node' = _ := bears_of_walk hfound'
          have hkept := h.nodes r rfl
          rw [hnode, hnode']
          generalize t.node? r = before, t'.node? r = after at hkept
          cases hkept with
          | same => exact .same _
          | log hlog => exact .log hlog _ _ _ _

/-- What has been left at a route: it is as it was, or on the way a directory has been touched or
made. -/
inductive Left (log : Option Route) (way r : Route) : Option Node → Option Node → Prop
  | kept {node node' : Option Node} (h : Kept log r node node') : Left log way r node node'
  | touched (h : r <+: way) (changed changed' : Int) :
      Left log way r (some (.directory changed)) (some (.directory changed'))
  | made (h : r <+: way) (changed : Int) : Left log way r none (some (.directory changed))

theorem Left.made_of_some {log : Option Route} {way r : Route} {node : Node}
    (h : Left log way r none (some node)) : r <+: way ∧ ∃ changed, node = .directory changed := by
  cases h with
  | kept h => cases h
  | made hway changed => exact ⟨hway, changed, rfl⟩

theorem Left.directory {log : Option Route} {way r : Route} {changed : Int} {after : Option Node}
    (h : Left log way r (some (.directory changed)) after) :
    ∃ changed', after = some (.directory changed') ∧ (changed' = changed ∨ r <+: way) := by
  cases h with
  | kept h =>
    cases h
    exact ⟨changed, rfl, .inl rfl⟩
  | touched hway _ changed' => exact ⟨changed', rfl, .inr hway⟩

theorem Left.file {log : Option Route} {way r : Route} {content : Text.Bytes} {mode : Nat}
    {after : Option Node} (h : Left log way r (some (.file content mode)) after) :
    ∃ content' mode', after = some (.file content' mode') ∧
      (content' = content ∧ mode' = mode ∨ log = some r) := by
  cases h with
  | kept h =>
    cases h with
    | same => exact ⟨content, mode, rfl, .inl ⟨rfl, rfl⟩⟩
    | log hlog content' mode' => exact ⟨_, _, rfl, .inr hlog⟩

/-- Nothing has been left but directories on the way to a route. -/
structure LeavesAlong (log : Option Route) (way : Route) (t t' : FileTree) : Prop where
  sound : t.Sound
  sound' : t'.Sound
  links : ∀ r, t'.link? r = t.link? r
  nodes : ∀ r, Left log way r (t.node? r) (t'.node? r)

section Left

variable {way here : Route} {names : List String} {whole : Bool}
  {follow follow' : Route → String → List String → Except Errno Place}
  (h : LeavesAlong log way t t')

include h

/-- What is new is on the way. -/
theorem LeavesAlong.new (hnone : t.look r = none) (hsome : t'.look r ≠ none) : r <+: way := by
  have hleft := h.nodes r
  rw [node?_of_look_none hnone] at hleft
  cases hnode : t'.node? r with
  | none => exact absurd (look_eq_none hnode) hsome
  | some node =>
    rw [hnode] at hleft
    exact hleft.made_of_some.1

/-- Below a directory that has been made there is nothing else. -/
theorem LeavesAlong.sees_made (hhere : here <+: way) (hnone : ∀ q, here <+: q → t.look q = none)
    {changed : Int} (hdir : t'.node? here = some (.directory changed)) (hdots : ".." ∉ names)
    (hfits : ∀ n ∈ names, n.utf8ByteSize ≤ nameLimit) {found : Except Errno Place}
    (hfound : Absent found) :
    Sees log (· <+: way) (fun r ↦ r <+: way ∧ t.look r = none) found
      (t'.walkFrom whole follow here names) := by
  induction names generalizing here changed with
  | nil =>
    unfold walkFrom
    rw [hdir]
    exact .made hfound ⟨hhere, hnone here List.prefix_rfl⟩ changed
  | cons name rest ih =>
    obtain ⟨hname, hrest⟩ := not_or.mp (List.mem_cons.not.mp hdots)
    obtain ⟨hsize, hsizes⟩ := List.forall_mem_cons.mp hfits
    have hbelow : here <+: here ++ [name] := List.prefix_append _ _
    have hleft := h.nodes (here ++ [name])
    rw [node?_of_look_none (hnone _ hbelow)] at hleft
    unfold walkFrom
    rw [if_neg (Ne.symm hname), if_neg (Nat.not_lt.mpr hsize)]
    cases hnode : t'.node? (here ++ [name]) with
    | none =>
      refine .absent hfound ?_
      dsimp only
      split
      · exact .inr ⟨here, name, rfl⟩
      · exact .inl rfl
    | some node =>
      rw [hnode] at hleft
      obtain ⟨hway, changed, rfl⟩ := hleft.made_of_some
      exact ih hway (fun q hq ↦ hnone q (hbelow.trans hq)) hnode hrest hsizes

/-- What is seen where there is no link. -/
theorem LeavesAlong.sees_walkFrom (hdir : t.HasDirectory here)
    (hlinks : ∀ q, q <+: here ++ names → t.link? q = none) (hdots : ".." ∉ names)
    (hfits : ∀ n ∈ names, n.utf8ByteSize ≤ nameLimit) :
    Sees log (· <+: way) (fun r ↦ r <+: way ∧ t.look r = none) (t.walkFrom whole follow here names)
      (t'.walkFrom whole follow' here names) := by
  induction names generalizing here with
  | nil =>
    obtain ⟨changed, hnode⟩ := hdir.node?
    have hleft := h.nodes here
    rw [hnode] at hleft
    obtain ⟨changed', hnode', hsame⟩ := hleft.directory
    unfold walkFrom
    rw [hnode, hnode']
    rcases hsame with rfl | hway
    · exact .same _
    · refine .touched ?_ changed changed'
      exact hway
  | cons name rest ih =>
    obtain ⟨hname, hrest⟩ := not_or.mp (List.mem_cons.not.mp hdots)
    obtain ⟨hsize, hsizes⟩ := List.forall_mem_cons.mp hfits
    rw [List.append_cons] at hlinks
    have hleft := h.nodes (here ++ [name])
    have hlink := hlinks (here ++ [name]) (List.prefix_append _ _)
    unfold walkFrom
    rw [if_neg (Ne.symm hname), if_neg (Ne.symm hname), if_neg (Nat.not_lt.mpr hsize),
      if_neg (Nat.not_lt.mpr hsize)]
    -- What is at the next name decides, in both trees.
    cases hnode : t.node? (here ++ [name]) with
    | none =>
      rw [hnode] at hleft
      have habsent : Absent (if rest.isEmpty then .ok (.free here name) else .error .notFound) := by
        split
        · exact .inr ⟨here, name, rfl⟩
        · exact .inl rfl
      cases hnode' : t'.node? (here ++ [name]) with
      | none => exact .same _
      | some node =>
        rw [hnode'] at hleft
        obtain ⟨hway, changed, rfl⟩ := hleft.made_of_some
        refine h.sees_made hway (fun q hq ↦ ?_) hnode' hrest hsizes habsent
        by_cases heq : q = here ++ [name]
        · exact heq ▸ look_eq_none hnode
        · exact h.sound.look_below (not_hasDirectory_of_none (look_eq_none hnode)) hq heq
    | some node =>
      rw [hnode] at hleft
      cases node with
      | link target =>
        rw [look_of_link?.mpr (look_of_node? hnode)] at hlink
        cases hlink
      | directory changed =>
        obtain ⟨changed', hnode', -⟩ := hleft.directory
        rw [hnode']
        exact ih (look_of_node? hnode) hlinks hrest hsizes
      | file content mode =>
        obtain ⟨content', mode', hnode', hsame⟩ := hleft.file
        rw [hnode']
        rcases hsame with ⟨rfl, rfl⟩ | hlog
        · exact .same _
        · dsimp only
          split
          · exact .log hlog _ _ _ _
          · exact .same _

/-- What is seen along a path on which there are no links. -/
theorem LeavesAlong.sees (hp : p.isAbsolute = true) (hlinks : ∀ q, q <+: p.names → t.link? q = none)
    (hdots : ".." ∉ p.names) (hfits : ∀ n ∈ p.names, n.utf8ByteSize ≤ nameLimit) :
    Sees log (· <+: way) (fun r ↦ r <+: way ∧ t.look r = none) (t.walk p) (t'.walk p) := by
  unfold walk start
  rw [if_pos hp, if_pos hp]
  split
  · exact .same _
  · rw [walkWithin_eq, walkWithin_eq]
    exact h.sees_walkFrom h.sound.root hlinks hdots hfits

end Left

/-! ### Questions -/

/-- What is answered when it is asked whether something with a property is at a path. -/
def answer (p : Path) (property : Node → Bool) (found : Except Errno Place) : Except FileError Bool :=
  if p.hasNul then .ok false
  else
    match found with
    | .ok (.at _ node) => .ok (property node)
    | .ok (.free _ _) => .ok false
    | .error .nameTooLong => .error ⟨.nameTooLong, p.text, none⟩
    | .error _ => .ok false

theorem Absent.answer_eq {found : Except Errno Place} {property : Node → Bool} (h : Absent found) :
    answer p property found = .ok false := by
  unfold answer
  split
  · rfl
  · obtain rfl | ⟨d, name, rfl⟩ := h <;> rfl

end FileTree

open FileTree

namespace FileAct

variable {t t' : FileTree} {p : Path} {property : Node → Bool}

theorem holds_eq (p : Path) (property : Node → Bool) (t : FileTree) :
    holds p property t = (answer p property (t.walk p), t) := by
  have hends : Ends (holds p property) t
      (fun found t' ↦ t' = t ∧ Except.ok found = answer p property (t.walk p))
      fun e t' ↦ t' = t ∧ Except.error e = answer p property (t.walk p) := by
    unfold holds answer
    split
    · exact ends_pure.mpr ⟨rfl, rfl⟩
    · refine ends_bind.mpr (ends_get.mpr ?_)
      rcases t.walk p with e | place
      · cases e <;> exact ⟨rfl, rfl⟩
      · cases place <;> exact ⟨rfl, rfl⟩
  unfold Ends at hends
  rcases hrun : holds p property t with ⟨e | found, t'⟩ <;> rw [hrun] at hends <;>
    obtain ⟨rfl, heq⟩ := hends <;> rw [heq]

theorem agrees_holds (h : answer p property (t'.walk p) = answer p property (t.walk p)) :
    Agrees (holds p property) t t' :=
  ⟨_, holds_eq p property t, h ▸ holds_eq p property t'⟩

/-- What is done with the place to which a path leads. -/
def atPlace {α : Type} (p : Path) (f : Place → FileAct α) : Except Errno Place → FileAct α
  | .ok found => f found
  | .error e => throw ⟨e, p.text, none⟩

theorem bind_place {α : Type} (p : Path) (f : Place → FileAct α) (t : FileTree) :
    (place p >>= f) t = atPlace p f (t.walk p) t := by
  have hplace : place p t = ((t.walk p).mapError fun e ↦ ⟨e, p.text, none⟩, t) := by
    unfold place
    rw [bind_apply]
    show (match t.walk p with
      | .ok place => pure place
      | .error errno => refuse errno p : FileAct Place) t = _
    cases t.walk p <;> rfl
  rw [bind_apply, hplace]
  cases t.walk p <;> rfl

/-! ### What is answered at a place -/

section Answered

variable {d : Route} {node : Node}

theorem isDirectory_absent (h : Absent (t.walk p)) : isDirectory p t = (.ok false, t) := by
  unfold isDirectory
  rw [holds_eq, h.answer_eq]

theorem isDirectory_at (h : t.walk p = .ok (.at d node)) :
    ∃ there, isDirectory p t = (.ok there, t) := by
  unfold isDirectory
  rw [holds_eq]
  unfold answer
  split
  · exact ⟨false, rfl⟩
  · rw [h]
    exact ⟨node.isDirectory, rfl⟩

theorem list_at {changed : Int} (h : t.walk p = .ok (.at d (.directory changed))) :
    list p t = (.ok (t.children d), t) := by
  unfold list
  rw [bind_place, h]
  rfl

theorem changed_at (h : t.walk p = .ok (.at d node)) : ∃ moment, changed p t = (.ok moment, t) := by
  unfold changed
  rw [bind_place, h]
  cases node <;> exact ⟨_, rfl⟩

end Answered

/-! ### What is answered in two trees -/

theorem agreeOn_place {α β : Type} {f : Place → FileAct α} {g : α → β}
    (h : ∃ outcome outcome', atPlace p f (t.walk p) t = (outcome, t) ∧
      atPlace p f (t'.walk p) t' = (outcome', t') ∧ outcome'.map g = outcome.map g) :
    AgreeOn g (place p >>= f) (place p >>= f) t t' := by
  obtain ⟨outcome, outcome', hs, hs', heq⟩ := h
  exact ⟨outcome, outcome', (bind_place p f t).trans hs, (bind_place p f t').trans hs', heq⟩

theorem agrees_place {α : Type} {f : Place → FileAct α}
    (h : ∃ outcome, atPlace p f (t.walk p) t = (outcome, t) ∧
      atPlace p f (t'.walk p) t' = (outcome, t')) : Agrees (place p >>= f) t t' := by
  obtain ⟨outcome, hs, hs'⟩ := h
  exact ⟨outcome, (bind_place p f t).trans hs, (bind_place p f t').trans hs'⟩

end FileAct

namespace FileTree

variable {t t' : FileTree} {log : Option Route} {p : Path}

section Questions

variable {touched made : Route → Prop} (h : Sees log touched made (t.walk p) (t'.walk p))

include h

/-- What is read is the same, save in the log or where a directory has been made. -/
theorem Sees.content_eq (hlog : ∀ r node, t.walk p = .ok (.at r node) → log ≠ some r)
    (hmade : ∀ r changed, t'.walk p = .ok (.at r (.directory changed)) → ¬ made r) :
    t'.content p = t.content p := by
  rw [FileTree.content_eq, FileTree.content_eq]
  generalize t.walk p = found, t'.walk p = found' at *
  cases h with
  | same => rfl
  | log heq => exact absurd heq (hlog _ _ rfl)
  | touched => rfl
  | absent hnone hnone' =>
    obtain rfl | ⟨d, name, rfl⟩ := hnone <;> obtain rfl | ⟨d', name', rfl⟩ := hnone' <;> rfl
  | made _ hnew => exact absurd hnew (hmade _ _ rfl)

/-- Whether there is a file is the same. -/
theorem Sees.agrees_isFile : Agrees (FileAct.isFile p) t t' := by
  refine FileAct.agrees_holds ?_
  generalize t.walk p = found, t'.walk p = found' at *
  cases h with
  | same => rfl
  | log => rfl
  | touched => rfl
  | absent hnone hnone' => exact hnone'.answer_eq.trans hnone.answer_eq.symm
  | made hnone => obtain rfl | ⟨d, name, rfl⟩ := hnone <;> rfl

theorem Sees.agrees_isDirectory
    (hmade : ∀ r changed, t'.walk p = .ok (.at r (.directory changed)) → ¬ made r) :
    Agrees (FileAct.isDirectory p) t t' := by
  refine FileAct.agrees_holds ?_
  generalize t.walk p = found, t'.walk p = found' at *
  cases h with
  | same => rfl
  | log => rfl
  | touched => rfl
  | absent hnone hnone' => exact hnone'.answer_eq.trans hnone.answer_eq.symm
  | made _ hnew => exact absurd hnew (hmade _ _ rfl)

/-- When a directory was changed is the same, if it has not been touched. -/
theorem Sees.agrees_changed
    (hmade : ∀ r changed, t'.walk p = .ok (.at r (.directory changed)) → ¬ touched r ∧ ¬ made r) :
    Agrees (FileAct.changed p) t t' := by
  refine FileAct.agrees_place ?_
  generalize t.walk p = found, t'.walk p = found' at *
  cases h with
  | same =>
    rcases found with e | ⟨r, _ | _ | _⟩ | ⟨d, name⟩
    all_goals exact ⟨_, rfl, rfl⟩
  | log => exact ⟨_, rfl, rfl⟩
  | touched hr => exact absurd hr (hmade _ _ rfl).1
  | absent hnone hnone' =>
    obtain rfl | ⟨d, name, rfl⟩ := hnone <;> obtain rfl | ⟨d', name', rfl⟩ := hnone' <;>
      exact ⟨_, rfl, rfl⟩
  | made _ hnew => exact absurd hnew (hmade _ _ rfl).2

/-- The names in a directory are the same as far as `f` tells, if those at its route are. -/
theorem Sees.agreeOn_list {β : Type} {f : List String → β}
    (hmade : ∀ r changed, t'.walk p = .ok (.at r (.directory changed)) →
      ¬ made r ∧ f (t'.children r) = f (t.children r)) :
    AgreeOn f (FileAct.list p) (FileAct.list p) t t' := by
  refine FileAct.agreeOn_place ?_
  generalize t.walk p = found, t'.walk p = found' at *
  cases h with
  | same =>
    rcases found with e | ⟨r, _ | _ | _⟩ | ⟨d, name⟩
    case ok.at.directory changed =>
      exact ⟨.ok (t.children r), .ok (t'.children r), rfl, rfl,
        congrArg Except.ok (hmade r changed rfl).2⟩
    all_goals exact ⟨_, _, rfl, rfl, rfl⟩
  | log => exact ⟨_, _, rfl, rfl, rfl⟩
  | @touched r _ changed changed' =>
    exact ⟨.ok (t.children r), .ok (t'.children r), rfl, rfl,
      congrArg Except.ok (hmade r changed' rfl).2⟩
  | absent hnone hnone' =>
    obtain rfl | ⟨d, name, rfl⟩ := hnone <;> obtain rfl | ⟨d', name', rfl⟩ := hnone' <;>
      exact ⟨_, _, rfl, rfl, rfl⟩
  | made _ hnew => exact absurd hnew (hmade _ _ rfl).1

theorem Sees.agrees_list
    (hmade : ∀ r changed, t'.walk p = .ok (.at r (.directory changed)) →
      ¬ made r ∧ t'.children r = t.children r) :
    Agrees (FileAct.list p) t t' :=
  (h.agreeOn_list (f := id) hmade).agrees

end Questions

end FileTree

end Remedy
