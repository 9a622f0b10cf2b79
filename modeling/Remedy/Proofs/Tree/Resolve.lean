import Mathlib.Data.List.Perm.Subperm
import Mathlib.Data.Nat.Find
import Remedy.FileTree.Resolution
import Remedy.Proofs.Tree.Walk

/-!
# What paths resolve to

Resolution looks at the links of a tree and at nothing else (`resolveWithin_congr`), and its depth
is no bound once it exceeds the number of links (`resolveWithin_enough`), since no link is followed
inside itself. `FileTree.traced` is resolution before the question whether names that were left over
lead in a circle.

A path that resolves without names being left over resolves to a route without links, and such a
route resolves to itself (`direct_of_traced`, `traced_of_direct`). Where a walk along a path ends is
what the path resolves to (`Walk.traced`): a link that is met again inside itself could never be
walked, so the least number of links with which a link can be walked decreases from link to link.

Names that were left over are walked along to find out whether they lead in a circle, so that what a
path resolves to depends on directories after all. But a path that has resolved goes on to do so as
long as no directory is new (`resolve_of_flat`).
-/

set_option autoImplicit false

namespace Remedy.FileTree

variable {t t' : FileTree} {k : Nat} {active : List Route} {d : Route} {names : List String}
  {follow follow' : List Route → Route → String → Resolved}

/-- The targets of links, followed through at most `k` links inside each other. -/
def traceWithin (t : FileTree) (k : Nat) (active : List Route) (d : Route) (target : String) :
    Resolved :=
  match k with
  | 0 => .stuck d
  | k + 1 => t.resolveWithin k active (base d target) (Path.ofString target).names

theorem resolveWithin_eq (t : FileTree) (k : Nat) (active : List Route) (d : Route)
    (names : List String) :
    t.resolveWithin k active d names = t.resolveFrom active (t.traceWithin k) d names := by
  cases k <;> rfl

/-- One step of a resolution in terms of the link that is met, if there is one. -/
theorem resolveFrom_cons (t : FileTree) (active : List Route)
    (follow : List Route → Route → String → Resolved) (d : Route) {name : String}
    (hname : name ≠ "..") (rest : List String) :
    t.resolveFrom active follow d (name :: rest) =
      match t.link? (d ++ [name]) with
      | some target =>
        if active.contains (d ++ [name]) then .stuck (d ++ name :: rest)
        else
          match follow ((d ++ [name]) :: active) d target with
          | .done route => t.resolveFrom active follow route rest
          | .stuck names => .stuck (names ++ rest)
      | none => t.resolveFrom active follow (d ++ [name]) rest := by
  rw [resolveFrom, if_neg hname]
  unfold link? look
  cases t.node? (d ++ [name]) with
  | none => rfl
  | some node => cases node <;> rfl

theorem resolveFrom_up (t : FileTree) (active : List Route)
    (follow : List Route → Route → String → Resolved) (d : Route) (rest : List String) :
    t.resolveFrom active follow d (".." :: rest) = t.resolveFrom active follow d.dropLast rest := by
  rw [resolveFrom, if_pos rfl]

/-- Where names lead to a route, what comes after them is resolved from there. -/
theorem resolveFrom_append {r : Route} (h : t.resolveFrom active follow d names = .done r)
    (rest : List String) :
    t.resolveFrom active follow d (names ++ rest) = t.resolveFrom active follow r rest := by
  induction names generalizing d with
  | nil =>
    cases h
    rfl
  | cons name names ih =>
    rw [List.cons_append]
    by_cases hname : name = ".."
    · subst hname
      rw [resolveFrom_up] at h ⊢
      exact ih h
    · rw [resolveFrom_cons _ _ _ _ hname] at h ⊢
      cases hlink : t.link? (d ++ [name]) with
      | none =>
        rw [hlink] at h
        exact ih h
      | some target =>
        rw [hlink] at h
        dsimp only at h ⊢
        split
        · rename_i hactive
          rw [if_pos hactive] at h
          cases h
        · rename_i hactive
          rw [if_neg hactive] at h
          cases hto : follow ((d ++ [name]) :: active) d target with
          | done route =>
            rw [hto] at h
            exact ih h
          | stuck names =>
            rw [hto] at h
            cases h

/-! ### What a resolution looks at -/

/-- Where there are the same links, two ways of following them that agree on those which are not
active give one result. -/
theorem resolveFrom_congr (hlinks : ∀ r, t'.link? r = t.link? r)
    (hfollow : ∀ l d target, t.link? l = some target → l ∉ active →
      follow' (l :: active) d target = follow (l :: active) d target) :
    t'.resolveFrom active follow' d names = t.resolveFrom active follow d names := by
  induction names generalizing d with
  | nil => rfl
  | cons name rest ih =>
    by_cases hname : name = ".."
    · subst hname
      rw [resolveFrom_up, resolveFrom_up, ih]
    · rw [resolveFrom_cons _ _ _ _ hname, resolveFrom_cons _ _ _ _ hname, hlinks]
      cases hlink : t.link? (d ++ [name]) with
      | none => exact ih
      | some target =>
        dsimp only
        split
        · rfl
        · rename_i hactive
          rw [hfollow _ d target hlink (by simpa using hactive)]
          cases follow ((d ++ [name]) :: active) d target with
          | done route => exact ih
          | stuck names => rfl

theorem resolveWithin_congr (hlinks : ∀ r, t'.link? r = t.link? r) (k : Nat)
    (active : List Route) (d : Route) (names : List String) :
    t'.resolveWithin k active d names = t.resolveWithin k active d names := by
  have htrace : t'.traceWithin k = t.traceWithin k := by
    cases k with
    | zero => rfl
    | succ k =>
      funext active d target
      exact resolveWithin_congr hlinks k active _ _
  rw [resolveWithin_eq, resolveWithin_eq, htrace]
  exact resolveFrom_congr hlinks fun _ _ _ _ _ ↦ rfl

/-- Links without repetition, as they are active inside each other. -/
structure Active (t : FileTree) (active : List Route) : Prop where
  nodup : active.Nodup
  links : ∀ l ∈ active, t.link? l ≠ none

/-- No more links than `k` can be followed inside the active ones. -/
def Enough (t : FileTree) (k : Nat) (active : List Route) : Prop :=
  ∀ ls, t.Active ls → ls.length < active.length + k

theorem Active.cons (h : t.Active active) {l : Route} {target : String}
    (hlink : t.link? l = some target) (hl : l ∉ active) : t.Active (l :: active) := by
  refine ⟨List.nodup_cons.mpr ⟨hl, h.nodup⟩, fun l' hl' ↦ ?_⟩
  rcases List.mem_cons.mp hl' with rfl | hl'
  · rw [hlink]
    exact Option.some_ne_none _
  · exact h.links l' hl'

theorem Enough.succ (h : t.Enough k active) (hactive : t.Active active) :
    ∃ k', k = k' + 1 ∧ ∀ l, t.Enough k' (l :: active) := by
  have hlt := h active hactive
  refine ⟨k - 1, by omega, fun l ls hls ↦ ?_⟩
  have := h ls hls
  simp only [List.length_cons]
  omega

theorem mem_entries_of_link {r : Route} (h : t.link? r ≠ none) : r ∈ t.entries.map (·.1) := by
  refine mem_of_find fun hnone ↦ h ?_
  unfold link? look node?
  by_cases hr : r = []
  · subst hr
    rw [if_pos rfl, hnone]
    rfl
  · rw [if_neg hr, hnone]
    rfl

theorem enough_entries (t : FileTree) : t.Enough (t.entries.length + 1) [] := by
  intro ls hls
  have hsub : ls ⊆ t.entries.map (·.1) := fun l hl ↦ mem_entries_of_link (hls.links l hl)
  have hle := (hls.nodup.subperm hsub).length_le
  rw [List.length_map] at hle
  simp only [List.length_nil]
  omega

/-- The depth is no bound once it is enough. -/
theorem resolveWithin_enough {k k' : Nat} (hactive : t.Active active) (hk : t.Enough k active)
    (hk' : t.Enough k' active) :
    t.resolveWithin k active d names = t.resolveWithin k' active d names := by
  induction k generalizing k' active d names with
  | zero =>
    obtain ⟨_, h, -⟩ := hk.succ hactive
    cases h
  | succ k ih =>
    obtain ⟨_, heq, hk⟩ := hk.succ hactive
    cases heq
    obtain ⟨k'', rfl, hk''⟩ := hk'.succ hactive
    rw [resolveWithin_eq, resolveWithin_eq]
    refine resolveFrom_congr (fun _ ↦ rfl) fun l d target hlink hl ↦ ?_
    exact ih (hactive.cons hlink hl) (hk l) (hk'' l)

/-! ### Traces -/

/-- What a path resolves to, names that are left over included. -/
def traced (t : FileTree) (p : Path) : Resolved :=
  t.resolveWithin (t.entries.length + 1) [] (t.start p) p.names

theorem traced_congr (hlinks : ∀ r, t'.link? r = t.link? r) {p : Path}
    (hp : p.isAbsolute = true) : t'.traced p = t.traced p := by
  have hnil : t.Active [] := ⟨List.nodup_nil, by simp⟩
  have henough : t.Enough (t'.entries.length + 1) [] := by
    intro ls hls
    exact t'.enough_entries ls ⟨hls.nodup, fun l hl ↦ by rw [hlinks]; exact hls.links l hl⟩
  unfold traced start
  rw [if_pos hp, if_pos hp, resolveWithin_congr hlinks]
  exact resolveWithin_enough hnil henough t.enough_entries

/-- The route that names lead to, if they lead to one. -/
def Resolved.route : Resolved → Route
  | .done route => route
  | .stuck names => withoutDots names

theorem route_of_resolve {p : Path} {r : Route} (h : t.resolve p = .ok r) :
    (t.traced p).route = r := by
  unfold resolve at h
  unfold traced
  split at h
  · cases h
  · split at h
    · rename_i r' hdone
      cases h
      rw [hdone]
      rfl
    · rename_i names hstuck
      rw [hstuck]
      dsimp only at h
      split at h
      · cases h
      · cases h
        rfl

theorem direct_of_resolveFrom
    (hfollow : ∀ l d target r, t.Direct d → follow (l :: active) d target = .done r → t.Direct r)
    {r : Route} (hd : t.Direct d) (h : t.resolveFrom active follow d names = .done r) :
    t.Direct r := by
  induction names generalizing d with
  | nil =>
    cases h
    exact hd
  | cons name rest ih =>
    by_cases hname : name = ".."
    · subst hname
      rw [resolveFrom_up] at h
      exact ih (hd.of_prefix (List.dropLast_prefix _)) h
    · rw [resolveFrom_cons _ _ _ _ hname] at h
      cases hlink : t.link? (d ++ [name]) with
      | none =>
        rw [hlink] at h
        exact ih (hd.concat hname hlink) h
      | some target =>
        rw [hlink] at h
        dsimp only at h
        split at h
        · cases h
        · cases hto : follow ((d ++ [name]) :: active) d target with
          | done route =>
            rw [hto] at h
            exact ih (hfollow _ _ _ _ hd hto) h
          | stuck names =>
            rw [hto] at h
            cases h

theorem direct_of_resolveWithin (hroot : t.Direct []) {r : Route} (hd : t.Direct d)
    (h : t.resolveWithin k active d names = .done r) : t.Direct r := by
  induction k generalizing active d names r with
  | zero =>
    rw [resolveWithin_eq] at h
    exact direct_of_resolveFrom (fun _ _ _ _ _ h ↦ by cases h) hd h
  | succ k ih =>
    rw [resolveWithin_eq] at h
    refine direct_of_resolveFrom (fun l d target r hd h ↦ ih ?_ h) hd h
    unfold base
    split
    · exact hroot
    · exact hd

/-- A path that resolves without names being left over resolves to a route without links. -/
theorem direct_of_traced (ht : t.Sound) {p : Path} (hp : p.isAbsolute = true) {r : Route}
    (h : t.traced p = .done r) : t.Direct r := by
  unfold traced start at h
  rw [if_pos hp] at h
  exact direct_of_resolveWithin (direct_nil ht) (direct_nil ht) h

theorem resolveFrom_of_direct (h : t.Direct (d ++ names)) :
    t.resolveFrom active follow d names = .done (d ++ names) := by
  induction names generalizing d with
  | nil =>
    rw [List.append_nil]
    rfl
  | cons name rest ih =>
    have hname : name ≠ ".." := by
      rintro rfl
      exact h.no_dots (by simp)
    rw [List.append_cons] at h ⊢
    rw [resolveFrom_cons _ _ _ _ hname, h.no_links _ (List.prefix_append _ _)]
    exact ih h

/-- A route without links resolves to itself. -/
theorem traced_of_direct {r : Route} (h : t.Direct r) : t.traced (Route.path r) = .done r := by
  unfold traced
  rw [resolveWithin_eq]
  exact resolveFrom_of_direct h

theorem Direct.resolve_path {r : Route} (h : t.Direct r)
    (hnul : (Route.path r).hasNul = false) : t.resolve (Route.path r) = .ok r := by
  have htraced := traced_of_direct h
  unfold traced at htraced
  rw [resolve, if_neg (by simp [hnul]), htraced]

/-- Where a route without links leads to, if it leads anywhere. -/
theorem Direct.resolve_eq {r r' : Route} (h : t.Direct r)
    (hresolve : t.resolve (Route.path r) = .ok r') : r' = r := by
  have hroute := route_of_resolve hresolve
  rw [traced_of_direct h] at hroute
  exact hroute.symm

theorem no_dots_withoutDots (names : List String) : ".." ∉ withoutDots names := by
  have hfold : ∀ done : Route, ".." ∉ done → ".." ∉ names.foldl
      (fun route name ↦ if name = ".." then route.dropLast else route ++ [name]) done := by
    induction names with
    | nil => exact fun _ h ↦ h
    | cons name rest ih =>
      intro done hdone
      rw [List.foldl_cons]
      refine ih _ ?_
      split
      · exact fun h ↦ hdone ((List.dropLast_subset _) h)
      · rename_i hname
        simpa [hdone] using Ne.symm hname
  exact hfold [] List.not_mem_nil

/-- In a resolved route there are no two dots. -/
theorem no_dots_of_resolve (ht : t.Sound) {p : Path} (hp : p.isAbsolute = true) {r : Route}
    (h : t.resolve p = .ok r) : ".." ∉ r := by
  rw [← route_of_resolve h]
  cases htraced : t.traced p with
  | done route => exact (direct_of_traced ht hp htraced).no_dots
  | stuck names => exact no_dots_withoutDots names

/-! ### Walks and traces -/

/-- None of the active links can be walked with `k` links. -/
def Blocked (t : FileTree) (k : Nat) (active : List Route) : Prop :=
  ∀ d name, d ++ [name] ∈ active → ∀ place, ¬ Walk t true k d [name] place

/-- A link that can be walked has a least number of links with which it can. -/
theorem Walk.least {name target : String} {found : Place} (h : Walk t true k d [name] found)
    (hname : name ≠ "..") (hlook : t.look (d ++ [name]) = some (.link target)) :
    ∃ m, m + 1 ≤ k ∧ Walk t true m (base d target) (Path.ofString target).names found ∧
      ∀ place, ¬ Walk t true m d [name] place := by
  classical
  have hex : ∃ m, Walk t true m d [name] found := ⟨k, h⟩
  have hmin := fun m (hm : m < Nat.find hex) ↦ Nat.find_min hex hm
  have hle := Nat.find_min' hex h
  have hleast := Nat.find_spec hex
  revert hmin hle hleast
  generalize Nat.find hex = m
  intro hmin hle hleast
  cases hleast with
  | up => exact absurd rfl hname
  | free hname hnone =>
    rw [hnone] at hlook
    cases hlook
  | file hname hfile =>
    rw [hfile] at hlook
    cases hlook
  | link hname hlink hwhole => cases hwhole
  | enter hname hdir =>
    rw [hdir] at hlook
    cases hlook
  | @follow m _ _ target' _ _ hname hlook' hwhole hwalk =>
    rw [hlook'] at hlook
    cases hlook
    rw [List.append_nil] at hwalk
    refine ⟨m, hle, hwalk, fun place hplace ↦ hmin m (Nat.lt_succ_self m) ?_⟩
    rw [h.functional hplace]
    exact hplace

theorem Walk.resolved (ht : t.Sound) {j : Nat} {place : Place}
    (h : Walk t true k d names place) (hd : t.HasDirectory d) (hactive : t.Active active)
    (henough : t.Enough j active) (hblocked : t.Blocked k active) :
    t.resolveWithin j active d names = .done place.route := by
  induction k using Nat.strongRecOn generalizing d names place active j with
  | ind k ihk =>
  induction names generalizing d with
  | nil =>
    cases h
    rw [resolveWithin_eq]
    rfl
  | cons name rest ih =>
    rw [resolveWithin_eq]
    cases h with
    | up h =>
      rw [resolveFrom_up, ← resolveWithin_eq]
      exact ih h (ht.dropLast hd)
    | free hname hlook =>
      rw [resolveFrom_cons _ _ _ _ hname.ne_dots]
      simp only [link?, hlook]
      rfl
    | file hname hlook =>
      rw [resolveFrom_cons _ _ _ _ hname.ne_dots]
      simp only [link?, hlook]
      rfl
    | link hname hlook hwhole => cases hwhole
    | enter hname hlook h =>
      rw [resolveFrom_cons _ _ _ _ hname.ne_dots, hlook.not_link]
      dsimp only
      rw [← resolveWithin_eq]
      exact ih h hlook
    | @follow k₀ _ _ target _ _ hname hlook hwhole h =>
      have hlink := look_of_link?.mpr hlook
      have hfollow : Walk t true (k₀ + 1) d (name :: rest) place :=
        .follow hname hlook (.inl rfl) h
      -- The link is walked to where it ends, and the names after it from there.
      obtain ⟨found, hone, hrest⟩ : ∃ found, Walk t true (k₀ + 1) d [name] found ∧
          t.resolveFrom active (t.traceWithin j) found.route rest = .done place.route := by
        cases rest with
        | nil => exact ⟨place, hfollow, rfl⟩
        | cons next rest =>
          have hsplit : Walk t true (k₀ + 1) d ([name] ++ next :: rest) place := hfollow
          obtain ⟨mid, hmid, hto, hfrom⟩ := hsplit.split ht hd (List.cons_ne_nil next rest)
          refine ⟨_, hto, ?_⟩
          rw [← resolveWithin_eq]
          exact ih hfrom hmid
      obtain ⟨m, hm, hwalk, hleast⟩ := hone.least hname.ne_dots hlook
      obtain ⟨j, rfl, hinside⟩ := henough.succ hactive
      have hl : d ++ [name] ∉ active := fun hmem ↦ hblocked d name hmem found hone
      have hinner := ihk m (by omega) hwalk (ht.base hd target) (hactive.cons hlink hl)
        (hinside _) ?_
      · rw [resolveFrom_cons _ _ _ _ hname.ne_dots, hlink]
        simp only [List.contains_iff_mem, hl, if_false, traceWithin, hinner]
        exact hrest
      · intro d' name' hmem place' hplace'
        rcases List.mem_cons.mp hmem with heq | hmem
        · obtain ⟨rfl, hnames⟩ := List.append_inj' heq rfl
          cases hnames
          exact hleast place' hplace'
        · exact hblocked d' name' hmem place' (hplace'.mono (by omega))

/-- Where a walk along a path ends is what the path resolves to. -/
theorem Walk.traced (ht : t.Sound) {p : Path} (hp : p.isAbsolute = true) {place : Place}
    (h : Walk t true k [] p.names place) : t.traced p = .done place.route := by
  unfold FileTree.traced start
  rw [if_pos hp]
  exact h.resolved ht ht.root ⟨List.nodup_nil, by simp⟩ t.enough_entries (by simp [Blocked])

/-! ### Directories that paths lead to -/

/-- The route is at or below where the path leads. -/
def Below (t : FileTree) (p : Path) (r : Route) : Prop := ∃ d, t.traced p = .done d ∧ d <+: r

theorem below_congr (hlinks : ∀ r, t'.link? r = t.link? r) {p : Path}
    (hp : p.isAbsolute = true) : t'.Below p = t.Below p := by
  funext r
  unfold Below
  rw [traced_congr hlinks hp]

/-! ### Circles -/

section Circles

variable {whole : Bool} (hlinks : ∀ r, t'.link? r = t.link? r)
  (hflat : ∀ r, t'.HasDirectory r → t.HasDirectory r)

include hlinks hflat

/-- Where links are as they were and no directory is new, a walk that leads in a circle has led in
one before. -/
theorem walkFrom_linkLoop (h : t'.walkFrom whole (t'.followWithin whole k) d names = .error .linkLoop)
    (hfollow : ∀ d target rest, t'.followWithin whole k d target rest = .error .linkLoop →
      t.followWithin whole k d target rest = .error .linkLoop) :
    t.walkFrom whole (t.followWithin whole k) d names = .error .linkLoop := by
  induction names generalizing d with
  | nil => cases h
  | cons name rest ih =>
    unfold walkFrom at h ⊢
    split
    · rename_i hdots
      rw [if_pos hdots] at h
      exact ih h
    rename_i hdots
    rw [if_neg hdots] at h
    split
    · rename_i hlong
      rw [if_pos hlong] at h
      cases h
    rename_i hlong
    rw [if_neg hlong] at h
    split at h
    · split at h <;> cases h
    · rename_i hnode
      obtain ⟨changed, hwas⟩ := (hflat (d ++ [name]) (look_of_node? hnode)).node?
      rw [hwas]
      exact ih h
    · split at h <;> cases h
    · rename_i target hnode
      have hlink := look_of_link?.mpr (look_of_node? hnode)
      rw [hlinks] at hlink
      rw [node?_of_look (look_of_link?.mp hlink) nofun]
      dsimp only
      split
      · rename_i hlast
        rw [if_pos hlast] at h
        cases h
      · rename_i hlast
        rw [if_neg hlast] at h
        exact hfollow _ _ _ h

theorem walkWithin_linkLoop (h : t'.walkWithin whole k d names = .error .linkLoop) :
    t.walkWithin whole k d names = .error .linkLoop := by
  induction k generalizing d names with
  | zero =>
    rw [walkWithin_eq] at h ⊢
    exact walkFrom_linkLoop hlinks hflat h fun _ _ _ _ ↦ rfl
  | succ k ih =>
    rw [walkWithin_eq] at h ⊢
    exact walkFrom_linkLoop hlinks hflat h fun _ _ _ ↦ ih

/-- What has resolved resolves to the same then. -/
theorem resolve_of_flat {p : Path} (hp : p.isAbsolute = true) {r : Route} (h : t.resolve p = .ok r) :
    t'.resolve p = .ok r := by
  have htraced : t'.resolveWithin (t'.entries.length + 1) [] (t'.start p) p.names =
      t.resolveWithin (t.entries.length + 1) [] (t.start p) p.names := traced_congr hlinks hp
  have hcircle : ∀ route, t'.walk (Route.path route) = .error .linkLoop →
      t.walk (Route.path route) = .error .linkLoop := by
    intro route hwalk
    unfold walk at hwalk ⊢
    split
    · rename_i hlong
      rw [if_pos hlong] at hwalk
      cases hwalk
    · rename_i hlong
      rw [if_neg hlong] at hwalk
      exact walkWithin_linkLoop hlinks hflat hwalk
  unfold resolve at h ⊢
  rw [htraced]
  split
  · rename_i hnul
    rw [if_pos hnul] at h
    cases h
  rename_i hnul
  rw [if_neg hnul] at h
  split at h
  · exact h
  · dsimp only at h ⊢
    split
    · rename_i hloop
      rw [hcircle _ hloop] at h
      cases h
    · split at h
      · cases h
      · exact h

end Circles

end Remedy.FileTree
