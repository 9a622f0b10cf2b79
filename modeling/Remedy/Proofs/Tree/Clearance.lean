import Remedy.Proofs.Tree.Directories
import Remedy.Proofs.Tree.Opening
import Remedy.Proofs.Tree.Replacement

/-!
# Files at routes that are clear

A route is clear if nothing but directories lies above it, as far as anything lies there
(`FileTree.Clear`); a link may lie at the route itself. A walk along such a route is stopped only by
a name that is too long, if it gets so far (`FileTree.Passable`).

Taking away a file at a clear route, and replacing it, does nothing elsewhere but make the
directories above. It succeeds unless a directory is in the place or a name is too long, and if it
does not succeed, the file is as it was (`FileAct.ends_unlinkIfThere_clear`,
`FileAct.ends_replaceContent_clear`).
-/

set_option autoImplicit false

namespace Remedy

namespace FileTree

variable {t t' : FileTree} {log : Option Route} {only made : Route → Prop} {r d p : Route}
  {name : String} {names : List String} {whole : Bool} {c c' : Prop}
  {found : Except Errno Place}

/-- What lies above the route is a directory, or there is nothing. -/
structure Clear (t : FileTree) (r : Route) : Prop where
  no_dots : ".." ∉ r
  above : ∀ p, p <+: r → p ≠ r → t.HasDirectory p ∨ t.look p = none

theorem Clear.direct (h : t.Clear r) (hlink : t.link? r = none) : t.Direct r where
  no_dots := h.no_dots
  no_links q hq := by
    by_cases heq : q = r
    · rw [heq, hlink]
    · rcases h.above q hq heq with hdir | hnone
      · exact hdir.not_link
      · rw [link?, hnone]

theorem Clear.direct_parent (h : t.Clear (d ++ [name])) : t.Direct d where
  no_dots hmem := h.no_dots (List.mem_append_left _ hmem)
  no_links q hq := by
    rcases h.above q (hq.trans (List.prefix_append _ _)) (by
      rintro rfl
      simpa using hq.length_le) with hdir | hnone
    · exact hdir.not_link
    · rw [link?, hnone]

theorem Clear.mended (h : t.Clear r) (hmends : Mends log only made t t')
    (honly : ∀ p, p <+: r → p ≠ r → ¬ only p) : t'.Clear r where
  no_dots := h.no_dots
  above p hp hne := by
    by_cases hdir : t'.HasDirectory p
    · exact .inl hdir
    · refine .inr ?_
      rcases h.above p hp hne with hthere | hnone
      · exact absurd (hmends.kept p hthere) hdir
      · refine look_eq_none_of ?_ ?_ hdir
        · exact (hmends.bytes p (honly p hp hne)).none_iff.mpr (by rw [bytes?, hnone])
        · rw [hmends.links p (honly p hp hne), link?, hnone]

/-- The names that come after a directory on the way from `d` are not too long. -/
def Short (t : FileTree) (d : Route) (names : List String) : Prop :=
  ∀ p m, d <+: p → p ++ [m] <+: d ++ names → t.HasDirectory p → m.utf8ByteSize ≤ nameLimit

/-- A walk along the route comes upon no name that is too long. -/
def Passable (t : FileTree) (r : Route) : Prop :=
  (Route.path r).text.utf8ByteSize ≤ pathLimit ∧ t.Short [] r

theorem short_nil (t : FileTree) (d : Route) : t.Short d [] := by
  intro p m hp hpm _
  have hlength := hp.length_le.trans_lt (Nat.lt_of_succ_le (by simpa using hpm.length_le))
  exact absurd hlength (lt_irrefl _)

theorem Short.cons (hname : name.utf8ByteSize ≤ nameLimit) (ht : t.Sound)
    (h : t.HasDirectory (d ++ [name]) → t.Short (d ++ [name]) names) :
    t.Short d (name :: names) := by
  intro p m hp hpm hdir
  obtain ⟨rest, rfl⟩ := hp
  cases rest with
  | nil =>
    rw [List.append_nil, List.prefix_append_right_inj] at hpm
    rw [(List.cons_prefix_cons.mp hpm).1]
    exact hname
  | cons next rest =>
    rw [List.append_assoc, List.prefix_append_right_inj, List.cons_append] at hpm
    obtain ⟨rfl, htail⟩ := List.cons_prefix_cons.mp hpm
    have hbelow : d ++ [next] <+: d ++ next :: rest := ⟨rest, by simp⟩
    have habove : t.HasDirectory (d ++ [next]) := by
      by_cases heq : d ++ [next] = d ++ next :: rest
      · rwa [heq]
      · refine ht.above ?_ hbelow heq
        rw [hdir]
        exact Option.some_ne_none _
    refine h habove (d ++ next :: rest) m hbelow ?_ hdir
    rw [show d ++ next :: rest ++ [m] = (d ++ [next]) ++ (rest ++ [m]) by simp]
    exact (List.prefix_append_right_inj _).mpr htail

/-- What a walk along a clear route can come to, if `c` says that no name is too long. -/
inductive Meets (t : FileTree) (c : Prop) (r : Route) : Except Errno Place → Prop
  | tooLong (h : ¬ c) : Meets t c r (.error .nameTooLong)
  | missing (h : c) (hlook : t.look r = none) : Meets t c r (.error .notFound)
  | free {d : Route} {name : String} (h : c) (hlook : t.look r = none) :
      Meets t c r (.ok (.free d name))
  | found {node : Node} (h : c) (hlook : t.look r = some node.still) :
      Meets t c r (.ok (.at r node))

theorem Meets.congr (h : t.Meets c r found) (hiff : c ↔ c') : t.Meets c' r found := by
  rwa [← propext hiff]

theorem Meets.holds (h : t.Meets c r found) (hfits : found ≠ .error .nameTooLong) : c := by
  cases h with
  | tooLong => exact absurd rfl hfits
  | missing hc | free hc | found hc => exact hc

/-- The walk comes to what is at the route. -/
theorem Meets.found_of_look {node : Node} (h : t.Meets c r found) (hc : c)
    (hlook : t.look r = some node) : ∃ there, found = .ok (.at r there) ∧ there.still = node := by
  cases h with
  | tooLong hnot => exact absurd hc hnot
  | missing _ hnone | free _ hnone => cases hnone.symm.trans hlook
  | found _ hthere => exact ⟨_, rfl, Option.some.inj (hthere.symm.trans hlook)⟩

theorem Meets.bytes_of_file {q : Route} {content : Text.Bytes} {mode : Nat}
    (h : t.Meets c r (.ok (.at q (.file content mode)))) : t.bytes? r = some content := by
  cases h with
  | found _ hlook => exact bytes?_of_look hlook

/-- What is on a clear route and no directory is at its end. -/
theorem Clear.eq_nil_of_node {name : String} {rest : List String} {node : Node}
    (h : t.Clear (d ++ [name] ++ rest)) (hnode : t.node? (d ++ [name]) = some node)
    (hkind : ∀ changed, node ≠ .directory changed) : rest = [] := by
  by_contra hrest
  rcases h.above (d ++ [name]) (List.prefix_append _ _) (by simpa using Ne.symm hrest) with
    hdir | hnone
  · obtain ⟨changed, hchanged⟩ := hdir.node?
    rw [hchanged] at hnode
    exact hkind changed (Option.some.inj hnode).symm
  · rw [look_of_node? hnode] at hnone
    cases hnone

/-- The walk along a clear route, a link at its end not being followed. -/
theorem Clear.walkFrom_meets {follow : Route → String → List String → Except Errno Place}
    (h : t.Clear (d ++ names)) (ht : t.Sound) (hd : t.HasDirectory d)
    (hlink : whole = false ∨ t.link? (d ++ names) = none) :
    t.Meets (t.Short d names) (d ++ names) (t.walkFrom whole follow d names) := by
  induction names generalizing d with
  | nil =>
    obtain ⟨changed, hnode⟩ := hd.node?
    unfold walkFrom
    rw [List.append_nil, hnode]
    exact .found (short_nil t d) hd
  | cons name rest ih =>
    have hname : name ≠ ".." := by
      rintro rfl
      exact h.no_dots (by simp)
    have hsplit : d ++ name :: rest = (d ++ [name]) ++ rest := List.append_cons d name rest
    unfold walkFrom
    rw [if_neg hname]
    split
    · rename_i hlong
      refine .tooLong fun hshort ↦ absurd ?_ (Nat.not_le.mpr hlong)
      exact hshort d name List.prefix_rfl (hsplit ▸ List.prefix_append _ _) hd
    rename_i hfits
    have hshort : (t.HasDirectory (d ++ [name]) → t.Short (d ++ [name]) rest) →
        t.Short d (name :: rest) := .cons (Nat.not_lt.mp hfits) ht
    split
    · rename_i hnode
      have hnone := look_eq_none hnode
      have hshort := hshort fun hdir ↦ absurd hdir (not_hasDirectory_of_none hnone)
      have hlook : t.look (d ++ name :: rest) = none := by
        rw [hsplit]
        by_cases hrest : rest = []
        · rw [hrest, List.append_nil, hnone]
        · exact ht.look_below (not_hasDirectory_of_none hnone) (List.prefix_append _ _)
            (by simpa using hrest)
      split
      · exact .free hshort hlook
      · exact .missing hshort hlook
    · rename_i changed hnode
      have hdir : t.HasDirectory (d ++ [name]) := look_of_node? hnode
      rw [hsplit] at h hlink ⊢
      refine (ih h hdir hlink).congr ⟨fun hrest ↦ hshort fun _ ↦ hrest, fun hall p m hp hpm ↦ ?_⟩
      exact hall p m ((List.prefix_append _ _).trans hp) (hsplit ▸ hpm)
    · rename_i content mode hnode
      obtain rfl := (hsplit ▸ h).eq_nil_of_node hnode fun _ h ↦ by cases h
      refine .found (hshort fun hdir ↦ ?_) (look_of_node? hnode)
      rw [HasDirectory, look_of_node? hnode] at hdir
      cases hdir
    · rename_i target hnode
      obtain rfl := (hsplit ▸ h).eq_nil_of_node hnode fun _ h ↦ by cases h
      have hwhole : whole = false := hlink.resolve_right fun hnone ↦ by
        rw [look_of_link?.mpr (look_of_node? hnode)] at hnone
        cases hnone
      subst hwhole
      refine .found (hshort fun hdir ↦ ?_) (look_of_node? hnode)
      rw [HasDirectory, look_of_node? hnode] at hdir
      cases hdir

theorem Clear.walkToLink_meets (h : t.Clear r) (ht : t.Sound) :
    t.Meets (t.Passable r) r (t.walkToLink (Route.path r)) := by
  unfold walkToLink
  split
  · rename_i hlong
    exact .tooLong fun hpass ↦ absurd hpass.1 (Nat.not_le.mpr hlong)
  · rename_i hfits
    rw [walkWithin_eq]
    refine (h.walkFrom_meets (d := []) ht ht.root (.inl rfl)).congr ?_
    exact ⟨fun hshort ↦ ⟨Nat.not_lt.mp hfits, hshort⟩, fun hpass ↦ hpass.2⟩

theorem Clear.walk_meets (h : t.Clear r) (ht : t.Sound) (hlink : t.link? r = none) :
    t.Meets (t.Passable r) r (t.walk (Route.path r)) := by
  unfold walk
  split
  · rename_i hlong
    exact .tooLong fun hpass ↦ absurd hpass.1 (Nat.not_le.mpr hlong)
  · rename_i hfits
    rw [walkWithin_eq]
    refine (h.walkFrom_meets (d := []) ht ht.root (.inr hlink)).congr ?_
    exact ⟨fun hshort ↦ ⟨Nat.not_lt.mp hfits, hshort⟩, fun hpass ↦ hpass.2⟩

/-! ### Names that are short enough -/

theorem Short.mended (h : t.Short d names) (hmends : Mends log only made t t')
    (hmade : ∀ p m, made p → p ++ [m] <+: d ++ names → m.utf8ByteSize ≤ nameLimit) :
    t'.Short d names := by
  intro p m hp hpm hdir
  rcases hmends.made p hdir with hthere | hnew
  · exact h p m hp hpm hthere
  · exact hmade p m hnew hpm

theorem Passable.mended (h : t.Passable r) (hmends : Mends log only made t t')
    (hmade : ∀ p m, made p → p ++ [m] <+: r → m.utf8ByteSize ≤ nameLimit) : t'.Passable r :=
  ⟨h.1, h.2.mended hmends hmade⟩

/-- A directory whose names are not too long is where a walk along its route leads. -/
theorem walk_to_directory (ht : t.Sound) (hd : t.HasDirectory d) (hdots : ".." ∉ d)
    (hfits : ∀ m ∈ d, m.utf8ByteSize ≤ nameLimit) :
    Walk t true linkLimit [] d (.at d (.directory 0)) := by
  have hdirect : t.Direct d := by
    refine ⟨hdots, fun q hq ↦ ?_⟩
    by_cases heq : q = d
    · exact (heq ▸ hd).not_link
    · refine (ht.above ?_ hq heq).not_link
      rw [hd]
      exact Option.some_ne_none _
  have hwalk : Walk t true 0 [] d (.at d (.directory 0)) :=
    walk_of_direct (d := []) ht hdirect hd ht.root hfits
  exact hwalk.mono (Nat.zero_le _)

/-- A walk along a route without links leads to this route. -/
theorem Direct.eq_of_walk (h : t.Direct r) (ht : t.Sound) {q : Route} {node : Node}
    (hwalk : Walk t true linkLimit [] r (.at q node)) : q = r := by
  have htraced := Walk.traced (p := Route.path r) ht rfl hwalk
  rw [traced_of_direct h] at htraced
  exact (Resolved.done.inj htraced).symm

end FileTree

/-- The path of the route and all its names are as long as they may be. -/
def Route.Fits (r : Route) : Prop :=
  (Route.path r).text.utf8ByteSize ≤ FileTree.pathLimit ∧
    ∀ m ∈ r, m.utf8ByteSize ≤ FileTree.nameLimit

namespace Route

variable {t : FileTree} {d r : Route} {name : String}

theorem parent_path (d : Route) (name : String) :
    (Route.path (d ++ [name])).parent = Route.path d := by
  simp [Route.path, Path.parent]

theorem name_path (d : Route) (name : String) : (Route.path (d ++ [name])).name = name := by
  simp [Route.path, Path.name]

theorem Fits.parent (h : Fits (d ++ [name])) : Fits d := by
  refine ⟨?_, fun m hm ↦ h.2 m (List.mem_append_left _ hm)⟩
  have hparent := Path.size_text_parent_le (p := Route.path (d ++ [name])) rfl
  rw [parent_path] at hparent
  exact hparent.trans h.1

theorem Fits.path (h : Fits (d ++ [name])) : (Route.path (d ++ [name])).Fits :=
  ⟨h.1, by rw [name_path]; exact h.2 name (by simp)⟩

theorem Fits.concat (hd : ∀ m ∈ d, m.utf8ByteSize ≤ FileTree.nameLimit)
    (h : (Route.path (d ++ [name])).Fits) : Fits (d ++ [name]) := by
  refine ⟨h.1, fun m hm ↦ ?_⟩
  rcases List.mem_append.mp hm with hm | hm
  · exact hd m hm
  · rw [List.mem_singleton.mp hm, ← name_path d name]
    exact h.2

theorem Fits.passable (h : r.Fits) (t : FileTree) : t.Passable r :=
  ⟨h.1, fun p m _ hpm _ ↦ h.2 m (hpm.subset (by simp))⟩

end Route

open FileTree

namespace FileAct

variable {t t' : FileTree} {d r : Route} {name : String}

/-! ### Taking away -/

/-- Taking away what is at a clear route. -/
theorem ends_unlinkIfThere_clear (ht : t.Sound) (hclear : t.Clear r) (hne : r ≠ []) :
    Ends (unlinkIfThere (Route.path r)) t
      (fun _ t' ↦ Mends none (fun q ↦ q = r ∧ t.look r ≠ none ∧ ¬ t.HasDirectory r)
        (fun _ ↦ False) t t' ∧ t'.look r = none ∧ t.Passable r)
      fun _ t' ↦ t' = t ∧ (t.Passable r → t.HasDirectory r) := by
  have hgone : ∀ {node}, t.look r = some node → ¬ t.HasDirectory r →
      Mends none (fun q ↦ q = r ∧ t.look r ≠ none ∧ ¬ t.HasDirectory r) (fun _ ↦ False) t
        (t.remove r) ∧ (t.remove r).look r = none := by
    intro node hlook hdir
    refine ⟨(mends_remove ht hne hdir).mono (fun q hq ↦ ⟨hq, ?_, hdir⟩) fun _ ↦ id, ?_⟩
    · rw [hlook]
      exact Option.some_ne_none _
    · rw [look_remove t hne, if_pos List.prefix_rfl]
  unfold unlinkIfThere unlink
  refine ends_tryCatch.mpr (ends_bind.mpr (ends_linkPlace.mpr ?_))
  have hmeets := hclear.walkToLink_meets ht
  generalize t.walkToLink (Route.path r) = found at hmeets
  cases hmeets with
  | tooLong hlong => exact ends_throw.mpr ⟨rfl, fun h ↦ absurd h hlong⟩
  | missing hpass hnone => exact ends_pure.mpr ⟨.refl ht, hnone, hpass⟩
  | free hpass hnone => exact ends_throw.mpr (ends_pure.mpr ⟨.refl ht, hnone, hpass⟩)
  | @found node hpass hlook =>
    cases node with
    | directory changed => exact ends_throw.mpr (ends_throw.mpr ⟨rfl, fun _ ↦ hlook⟩)
    | file content mode =>
      obtain ⟨hmends, hnone⟩ := hgone hlook (by rw [HasDirectory, hlook]; exact fun h ↦ by cases h)
      exact ends_modify.mpr ⟨hmends, hnone, hpass⟩
    | link target =>
      obtain ⟨hmends, hnone⟩ := hgone hlook (by rw [HasDirectory, hlook]; exact fun h ↦ by cases h)
      exact ends_modify.mpr ⟨hmends, hnone, hpass⟩

end FileAct

namespace FileTree

variable {t t' : FileTree} {d : Route} {name tag : String} {content : Text.Bytes}

/-! ### Directories above -/

/-- What is new lies above the route or at it. -/
theorem Paved.mends (h : Paved (Route.path d) t t') (hdirect : t.Direct d) :
    Mends none (fun _ ↦ False) (· <+: d) t t' where
  sound := h.grows.sound
  links q _ := h.grows.alters.links q
  bytes q _ := h.grows.alters.bytes q id ▸ .refl _ _ _
  kept := h.grows.alters.directories
  made q hq := by
    rcases t.look_cases q with hnone | hdir | ⟨content, mode, hfile⟩ | ⟨target, hto⟩
    · right
      obtain ⟨p, habove, -, d', name', hreaches, rfl⟩ := h.named q hnone (by
        rw [hq]
        exact Option.some_ne_none _)
      have hprefix : p.names <+: d := habove.2
      have hdirect' : t'.Direct p.names.dropLast :=
        (hdirect.of_prefix ((List.dropLast_prefix _).trans hprefix)).congr h.grows.alters.links
      rw [hdirect'.eq_of_walk h.grows.sound hreaches.walk, ← hreaches.names]
      exact hprefix
    · exact .inl hdir
    · have hbytes := h.grows.alters.bytes q id
      rw [hq.no_bytes, bytes?_of_look hfile] at hbytes
      cases hbytes
    · have hlink := h.grows.alters.links q
      rw [hq.not_link, look_of_link?.mpr hto] at hlink
      cases hlink

end FileTree

namespace FileAct

variable {t t' : FileTree} {d r : Route} {name tag : String} {content : Text.Bytes}

theorem ends_makePath_clear (ht : t.Sound) (hdirect : t.Direct d) :
    Ends (makePath (Route.path d) true) t
      (fun _ t' ↦ Mends none (fun _ ↦ False) (· <+: d) t t' ∧
        Walk t' true linkLimit [] d (.at d (.directory 0)))
      fun _ t' ↦ Mends none (fun _ ↦ False) (· <+: d) t t' ∧
        (d.Fits → (Route.path d).hasNul = false → ¬ t.HasDirectory d) := by
  refine (((ends_makePath (p := Route.path d) rfl ht).and (ends_makeDirectories_paved true _ rfl
    ht)).and ends_self).mono ?_ ?_
  · rintro _ t' ⟨⟨⟨hgrows, d', hto⟩, t₁, hpaved, hmade⟩, -⟩
    have hall : Paved (Route.path d) t t' := by
      rcases hmade with hmade | ⟨-, rfl⟩
      · exact hpaved.trans (hmade.paved hpaved.grows.sound rfl) (.parent _)
      · exact hpaved.above (.parent _)
    refine ⟨hall.mends hdirect, ?_⟩
    have hd := (hdirect.congr hgrows.alters.links).eq_of_walk hgrows.sound hto
    rw [hd] at hto
    exact hto
  · rintro e t' ⟨⟨-, hpaved⟩, hfailed⟩
    refine ⟨(hpaved.above (.parent _)).mends hdirect, fun hfits hnul hd ↦ ?_⟩
    have hsame := makePath_of_directory (p := Route.path d) rfl hfits.1 hnul
      (walk_to_directory ht hd hdirect.no_dots hfits.2)
    rw [hsame] at hfailed
    cases hfailed

/-! ### Replacing -/

/-- Replacing what is at a clear route, when nothing is where the draft may be. -/
theorem ends_replaceContent_clear (ht : t.Sound) (hclear : t.Clear (d ++ [name]))
    (hdraft : t.look (d ++ [draftName name tag]) = none) :
    Ends (replaceContent (Route.path (d ++ [name])) content tag) t
      (fun _ t' ↦ Mends none (· = d ++ [name]) (· <+: d) t t' ∧
        t'.bytes? (d ++ [name]) = some content ∧ Route.Fits (d ++ [name]) ∧
        Route.Fits (d ++ [draftName name tag]))
      fun _ t' ↦ Mends none (fun _ ↦ False) (· <+: d) t t' ∧
        (Route.Fits (d ++ [name]) → Route.Fits (d ++ [draftName name tag]) →
          (Route.path (d ++ [name])).hasNul = false → t.HasDirectory d →
          t.link? (d ++ [name]) = none → t.HasDirectory (d ++ [name])) := by
  have hdirect := hclear.direct_parent
  have hname : name ≠ ".." := fun h ↦ hclear.no_dots (by simp [h])
  have hlong : ∀ x, ¬ d ++ [x] <+: d := fun x h ↦ by simpa using h.length_le
  have hdraftPath : FileAct.draft (Route.path (d ++ [name])) tag =
      Route.path (d ++ [draftName name tag]) := by
    unfold FileAct.draft draftName
    rw [Route.parent_path, Route.name_path]
    rfl
  unfold replaceContent
  rw [Route.parent_path]
  refine ((ends_makePath_clear ht hdirect).mono (fun _ _ h ↦ h) ?_).bind ?_
  · rintro e t' ⟨hmends, hcause⟩
    refine ⟨hmends, fun hfits _ hnul hd _ ↦ absurd hd (hcause hfits.parent ?_)⟩
    unfold Path.hasNul Route.path at hnul ⊢
    rw [List.any_append, Bool.or_eq_false_iff] at hnul
    exact hnul.1
  rintro _ t₁ ⟨hmade, hto⟩
  have ht₁ := hmade.sound
  have hunused : t₁.look (d ++ [draftName name tag]) = none :=
    hmade.look_eq_none id (hlong _) hdraft
  have hfitsDir := hto.fits
  have hreaches : ∀ {t'}, Walk t' true linkLimit [] d (.at d (.directory 0)) →
      t'.Reaches (Route.path (d ++ [name])) d name := fun hto ↦
    ⟨rfl, by simp [Route.path], hname, by simpa [Route.path] using hto⟩
  refine (ends_replaceReached ht₁ (hreaches hto) (by rw [link?, hunused]) ?_).mono ?_ ?_
  · intro t' hmends _ _
    refine hreaches (walk_to_directory hmends.sound (hmends.kept d ?_) hdirect.no_dots hfitsDir)
    exact hto.shows ht₁ ht₁.root
  · rintro _ t' ⟨hmends, hnone, hfitsDraft, hfits, hcontent⟩
    have hall := (hmade.mono (fun _ ↦ False.elim) fun _ ↦ id).trans
      (hmends.mono (fun _ ↦ id) fun _ ↦ False.elim)
    refine ⟨hall.drop ?_, hcontent, .concat hfitsDir hfits,
      .concat hfitsDir (hdraftPath ▸ hfitsDraft)⟩
    rintro q (rfl | rfl)
    · exact .inr ⟨hdraft, hnone⟩
    · exact .inl rfl
  · rintro e t' ⟨hbotched, hgone⟩
    have hall := (hmade.mono (fun _ ↦ False.elim) fun _ ↦ id).trans
      (hbotched.edits.mends.mono (fun _ ↦ id) fun _ ↦ id)
    have hnone : t'.look (d ++ [draftName name tag]) = none := by
      refine look_eq_none_of (hgone (by rw [bytes?, hunused])) ?_ fun hdir ↦ ?_
      · rw [hbotched.edits.alters.links, link?, hunused]
      · exact not_hasDirectory_of_none hunused (hbotched.edits.flat _ hdir)
    refine ⟨hall.drop ?_, fun hfits hfitsDraft _ _ hlink ↦ ?_⟩
    · rintro q rfl
      exact .inr ⟨hdraft, hnone⟩
    · by_contra hfree
      refine not_hasDirectory_of_none hunused (hbotched.cause (hdraftPath ▸ hfitsDraft.path)
        hfits.path ((hmade.links _ id).trans hlink) fun hdir ↦ ?_)
      exact (hmade.made _ hdir).elim hfree (hlong name)

end FileAct

end Remedy
