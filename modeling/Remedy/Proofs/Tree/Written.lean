import Remedy.Proofs.Tree.Resolve

/-!
# Paths that are written and read again

A path is read as its names, and a name that is read has no slash in it and is neither empty nor a
single dot (`Path.written_ofString`). Names of that kind are what is read again when they are
written, from the root directory on or from another one (`Path.ofString_text`).

The route that such a path resolves to has names of that kind only (`FileTree.written_of_resolve`),
whatever links it leads through, since the target of a link is read as a path too.
-/

set_option autoImplicit false

namespace Remedy

/-! ### Pieces -/

namespace Text

variable {mark : Char} {cs piece rest : List Char}

theorem pieces_cons (mark c : Char) (cs : List Char) :
    pieces mark (c :: cs) =
      if c = mark then [] :: pieces mark cs
      else
        match pieces mark cs with
        | [] => [[c]]
        | piece :: rest => (c :: piece) :: rest :=
  rfl

theorem pieces_of_not_mem (h : mark ∉ cs) : pieces mark cs = [cs] := by
  induction cs with
  | nil => rfl
  | cons c cs ih =>
    obtain ⟨hc, hcs⟩ := not_or.mp (mt List.mem_cons.mpr h)
    rw [pieces_cons, if_neg (Ne.symm hc), ih hcs]

theorem pieces_append (h : mark ∉ cs) (rest : List Char) :
    pieces mark (cs ++ mark :: rest) = cs :: pieces mark rest := by
  induction cs with
  | nil => rw [List.nil_append, pieces_cons, if_pos rfl]
  | cons c cs ih =>
    obtain ⟨hc, hcs⟩ := not_or.mp (mt List.mem_cons.mpr h)
    rw [List.cons_append, pieces_cons, if_neg (Ne.symm hc), ih hcs]

theorem not_mem_pieces (h : piece ∈ pieces mark cs) : mark ∉ piece := by
  induction cs generalizing piece with
  | nil =>
    rw [List.mem_singleton.mp h]
    exact List.not_mem_nil
  | cons c cs ih =>
    rw [pieces_cons] at h
    split at h
    · rcases List.mem_cons.mp h with rfl | h
      · exact List.not_mem_nil
      · exact ih h
    · rename_i hc
      split at h
      · rw [List.mem_singleton.mp h]
        simpa using Ne.symm hc
      · rename_i first others hpieces
        have hfirst : mark ∉ first := ih (hpieces ▸ List.mem_cons_self)
        rcases List.mem_cons.mp h with rfl | h
        · exact fun hmem ↦ (List.mem_cons.mp hmem).elim (fun heq ↦ hc heq.symm) hfirst
        · exact ih (hpieces ▸ List.mem_cons_of_mem _ h)

theorem pieces_intercalate {names : List (List Char)} (hne : names ≠ [])
    (h : ∀ name ∈ names, mark ∉ name) : pieces mark ([mark].intercalate names) = names := by
  induction names with
  | nil => exact absurd rfl hne
  | cons name names ih =>
    obtain ⟨hname, hnames⟩ := List.forall_mem_cons.mp h
    cases names with
    | nil => simpa [List.intercalate] using pieces_of_not_mem hname
    | cons next names =>
      have hrest := ih (List.cons_ne_nil _ _) hnames
      have hsplit : [mark].intercalate (name :: next :: names) =
          name ++ mark :: [mark].intercalate (next :: names) := by
        simp [List.intercalate]
      rw [hsplit, pieces_append hname, hrest]

end Text

/-! ### Names -/

/-- A name as it stands between the slashes of a path. -/
structure IsPathName (name : String) : Prop where
  ne_empty : name ≠ ""
  ne_dot : name ≠ "."
  no_slash : '/' ∉ name.toList

/-- The names are such as a path has that was written. -/
def Written (names : List String) : Prop := ∀ name ∈ names, IsPathName name

theorem Written.append {names names' : List String} (h : Written names) (h' : Written names') :
    Written (names ++ names') :=
  List.forall_mem_append.mpr ⟨h, h'⟩

theorem Written.sublist {names names' : List String} (h : Written names) (hsub : names' ⊆ names) :
    Written names' :=
  fun name hname ↦ h name (hsub hname)

namespace Path

theorem isAbsolute_join (r : Route) (p : Path) : ((Route.path r).join p).isAbsolute = true := by
  unfold join
  split
  · assumption
  · rfl

theorem written_join {r : Route} {p : Path} (hr : Written r) (hp : Written p.names) :
    Written ((Route.path r).join p).names := by
  unfold join
  split
  · exact hp
  · exact hr.append hp

theorem isName_toList {name : String} (h : IsPathName name) : isName name.toList = true := by
  have hempty : name.toList ≠ [] := fun heq ↦ h.ne_empty (by simpa using heq)
  have hdot : name.toList ≠ ['.'] := by
    intro heq
    refine h.ne_dot ?_
    rw [← String.ofList_toList (s := name), heq]
  simp [isName, hempty, hdot]

theorem written_ofString (s : String) : Written (ofString s).names := by
  intro name hname
  obtain ⟨piece, hpiece, rfl⟩ := List.mem_map.mp hname
  obtain ⟨hmem, hisName⟩ := List.mem_filter.mp hpiece
  obtain ⟨hempty, hdot⟩ : piece ≠ [] ∧ piece ≠ ['.'] := by simpa [isName] using hisName
  refine ⟨fun heq ↦ hempty ?_, fun heq ↦ hdot ?_, ?_⟩
  · simpa using congrArg String.toList heq
  · simpa using congrArg String.toList heq
  · rw [String.toList_ofList]
    exact Text.not_mem_pieces hmem

theorem map_filter_pieces {names : List String} (h : Written names) :
    (((names.map String.toList).filter isName).map String.ofList) = names := by
  have hall : (names.map String.toList).filter isName = names.map String.toList :=
    List.filter_eq_self.mpr (List.forall_mem_map.mpr fun name hname ↦ isName_toList (h name hname))
  rw [hall, List.map_map]
  exact (List.map_congr_left fun _ _ ↦ String.ofList_toList).trans (List.map_id _)

theorem pieces_intercalate {names : List String} (hne : names ≠ []) (h : Written names) :
    Text.pieces '/' (String.intercalate "/" names).toList = names.map String.toList := by
  rw [String.toList_intercalate]
  refine Text.pieces_intercalate (by simpa using hne) ?_
  exact List.forall_mem_map.mpr fun name hname ↦ (h name hname).no_slash

/-- What is written of names begins with the first of them. -/
theorem intercalate_eq_cons {names : List String} (hne : names ≠ []) (h : Written names) :
    ∃ c cs, (String.intercalate "/" names).toList = c :: cs ∧ c ≠ '/' := by
  cases names with
  | nil => exact absurd rfl hne
  | cons name rest =>
    have hname := h name List.mem_cons_self
    obtain ⟨c, cs, hcs⟩ : ∃ c cs, name.toList = c :: cs :=
      List.exists_cons_of_ne_nil fun heq ↦ hname.ne_empty (by simpa using heq)
    have hc : c ≠ '/' := by
      rintro rfl
      exact hname.no_slash (hcs ▸ List.mem_cons_self)
    cases rest with
    | nil => exact ⟨c, cs, by simpa using hcs, hc⟩
    | cons next rest =>
      refine ⟨c, cs ++ ("/" ++ String.intercalate "/" (next :: rest)).toList, ?_, hc⟩
      rw [String.intercalate_cons_cons]
      simp [hcs]

/-- Names that are written from another directory on are read again. -/
theorem ofString_relative {names : List String} (h : Written names) :
    ofString (text ⟨.none, names⟩) = ⟨.none, names⟩ := by
  by_cases hne : names = []
  · subst hne
    rfl
  · obtain ⟨c, cs, hcs, hc⟩ := intercalate_eq_cons hne h
    have htext : (text ⟨.none, names⟩).toList = c :: cs := by
      cases names with
      | nil => exact absurd rfl hne
      | cons name rest => simpa [text, PathRoot.text] using hcs
    have hpieces := pieces_intercalate hne h
    rw [hcs] at hpieces
    unfold ofString ofChars
    rw [htext, hpieces, map_filter_pieces h]
    simp [hc]

/-- A name is read as that one name. -/
theorem ofString_of_isPathName {name : String} (h : IsPathName name) :
    ofString name = ⟨.none, [name]⟩ := by
  have hwritten : Written [name] := by simpa [Written] using h
  have hread := ofString_relative hwritten
  have htext : text ⟨.none, [name]⟩ = name := by
    simp [text, PathRoot.text]
  rwa [htext] at hread

/-- Names that are written from the root directory on are read again. -/
theorem ofString_absolute {r : Route} (h : Written r) : ofString (Route.text r) = Route.path r := by
  by_cases hne : r = []
  · subst hne
    rfl
  · obtain ⟨c, cs, hcs, hc⟩ := intercalate_eq_cons hne h
    have htext : (Route.text r).toList = '/' :: c :: cs := by
      simp [Route.text, Route.path, text, PathRoot.text, hcs]
    have hpieces := pieces_intercalate hne h
    rw [hcs] at hpieces
    unfold ofString ofChars
    rw [htext, Text.pieces_cons, if_pos rfl, hpieces, List.filter_cons_of_neg (by decide),
      map_filter_pieces h]
    simp [hc, Route.path]

end Path

/-! ### Resolving -/

namespace FileTree

/-- The names that are found, whether or not names are left over. -/
def Resolved.names : Resolved → List String
  | .done route => route
  | .stuck names => names

variable {t : FileTree} {k : Nat} {active : List Route} {d : Route} {names : List String}
  {follow : List Route → Route → String → Resolved}

theorem written_resolveFrom
    (hfollow : ∀ active d target, Written d → Written (follow active d target).names)
    (hd : Written d) (hnames : Written names) :
    Written (t.resolveFrom active follow d names).names := by
  induction names generalizing d with
  | nil => exact hd
  | cons name rest ih =>
    obtain ⟨hname, hrest⟩ := List.forall_mem_cons.mp hnames
    by_cases hdots : name = ".."
    · subst hdots
      rw [resolveFrom_up]
      exact ih (hd.sublist (List.dropLast_subset d)) hrest
    · rw [resolveFrom_cons _ _ _ _ hdots]
      split
      · rename_i target _
        split
        · exact hd.append hnames
        · have htarget := hfollow ((d ++ [name]) :: active) d target hd
          split
          · rename_i route hdone
            rw [hdone] at htarget
            exact ih htarget hrest
          · rename_i left hstuck
            rw [hstuck] at htarget
            exact Written.append htarget hrest
      · exact ih (hd.append (by simpa [Written] using hname)) hrest

theorem written_resolveWithin (hd : Written d) (hnames : Written names) :
    Written (t.resolveWithin k active d names).names := by
  induction k generalizing active d names with
  | zero =>
    rw [resolveWithin_eq]
    exact written_resolveFrom (fun _ _ _ h ↦ h) hd hnames
  | succ k ih =>
    rw [resolveWithin_eq]
    refine written_resolveFrom (fun active d target hd ↦ ih ?_ (Path.written_ofString target)) hd
      hnames
    unfold base
    split
    · simp [Written]
    · exact hd

theorem written_withoutDots (h : Written names) : Written (withoutDots names) := by
  have hfold : ∀ (names : List String) (done : Route), Written done → Written names →
      Written (names.foldl
        (fun route name ↦ if name = ".." then route.dropLast else route ++ [name]) done) := by
    intro names
    induction names with
    | nil => exact fun _ hdone _ ↦ hdone
    | cons name rest ih =>
      intro done hdone hnames
      obtain ⟨hname, hrest⟩ := List.forall_mem_cons.mp hnames
      rw [List.foldl_cons]
      refine ih _ ?_ hrest
      split
      · exact hdone.sublist (List.dropLast_subset done)
      · exact hdone.append (by simpa [Written] using hname)
  exact hfold names [] (by simp [Written]) h

/-- A path that was written resolves to a route that can be written. -/
theorem written_of_resolve {p : Path} (hp : p.isAbsolute = true) (hnames : Written p.names)
    {r : Route} (h : t.resolve p = .ok r) : Written r := by
  rw [← route_of_resolve h]
  have hfound : Written (t.traced p).names := by
    unfold traced start
    rw [if_pos hp]
    exact written_resolveWithin (by simp [Written]) hnames
  cases hto : t.traced p with
  | done route =>
    rw [hto] at hfound
    exact hfound
  | stuck names =>
    rw [hto] at hfound
    exact written_withoutDots hfound

end FileTree

end Remedy
