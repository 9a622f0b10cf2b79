import Remedy.Proofs.Tree.Rewriting

/-!
# Replacing a file is all or nothing

At every point of a replacement there is at the path what was there before, or a file with the new
content as a whole. If the replacement returns, it is the new content, with the mode of what the path
led to before; if it fails, it is what was there. Either way no draft is left, and nothing else has
been done but to make directories (`Replacing.all_or_nothing`). The proof goes along the steps: each
of them leads from what holds at its stage to what holds at the next one (`Replacing.Standing.step`).

What is asked of the tree is that the name of the draft is not in use, and that the path does not
depend on what is done at it (`Replacing.Ready`). If the way to a link leads through this link, the
draft is out of reach as soon as it has been moved over the link, so that a replacement fails that
has taken place (`Replacing.not_all_or_nothing_of_link`).
-/

set_option autoImplicit false

namespace Remedy

open FileTree

namespace Replacing

variable {c : Replacing} {t t₁ t' t'' : FileTree} {d : Route} {name : String}

/-! ### What is asked of a tree -/

/-- The name of the draft is not in use, two dots stand behind directories only, and if there is a
link at the path, the way to it does not lead through itself. -/
structure Ready (c : Replacing) (t : FileTree) : Prop where
  settled : t.Settled
  unused : t.object? c.draft = none
  unled : ∀ d, t.walk c.path ≠ .ok (.free d c.draftName)
  dots : t.DotsLead c.path
  /-- With a file in the place of the link, the names before the last one lead to a directory. -/
  apart : ∀ r target, t.object? c.path = some (r, .link target) →
    ∃ d, Walk (t.set r (.file [] 0)) true linkLimit (t.start c.path) c.path.parent.names
      (.at d (.directory 0))

/-- At the path there is what was there, and it leads where it led. -/
structure Old (c : Replacing) (t t' : FileTree) : Prop where
  object : t'.object? c.path = t.object? c.path
  target : t'.target? c.path = t.target? c.path

/-- At the path there is a file with the new content and the mode of what the path led to, and
nothing else has been changed. -/
structure New (c : Replacing) (t t' : FileTree) (r : Route) : Prop where
  object : t'.object? c.path = some (r, .file c.content (t.modeAt c.path))
  target : t'.target? c.path = some (r, .file c.content (t.modeAt c.path))
  spares : Spares (· = r) t t'
  unused : t'.object? c.draft = none

/-- Nothing has been done but to make directories. -/
structure Intact (c : Replacing) (t t' : FileTree) : Prop extends Old c t t' where
  spares : Spares (fun _ ↦ False) t t'
  unused : t'.object? c.draft = none

/-- Nothing has been done but to make directories, and the name of the draft is not in use. -/
structure Prepared (c : Replacing) (t t' : FileTree) : Prop extends Intact c t t' where
  unled : ∀ d, t'.walk c.path ≠ .ok (.free d c.draftName)

theorem Ready.prepared (h : c.Ready t) : c.Prepared t t :=
  ⟨⟨⟨rfl, rfl⟩, .refl h.settled, h.unused⟩, h.unled⟩

theorem Prepared.same (h : c.Prepared t t') (hsame : SameBut (fun _ ↦ False) t' t'') :
    c.Prepared t t'' := by
  have hsettled := h.spares.settled
  constructor
  · constructor
    · constructor
      · exact (hsame.led?_eq_of_none hsettled).trans h.object
      · exact (hsame.led?_eq_of_none hsettled).trans h.target
    · exact h.spares.trans hsame.spares
    · exact (hsame.led?_eq_of_none hsettled).trans h.unused
  · intro d hwalk
    obtain ⟨hshort, hto⟩ := walk_within_iff.mp ⟨_, hwalk, rfl⟩
    have hto' := hto.beside (fun q _ ↦ (hsame.look q id).symm) (fun _ ↦ False.elim)
      hsame.settled.sound (hsame.settled.start c.path) id
    rw [start_eq hsame.directory] at hto'
    obtain ⟨place, hfree, hstill⟩ := walk_within_iff.mpr ⟨hshort, hto'⟩
    cases place with
    | «at» r node => cases hstill
    | free d' name =>
      cases hstill
      exact h.unled d hfree

/-! ### Drafts and their names -/

theorem draft_names (c : Replacing) : c.draft.names = c.path.parent.names ++ [c.draftName] := rfl

theorem parent_draft (c : Replacing) : c.draft.parent = c.path.parent :=
  Path.parent_child _ _

theorem name_draft (c : Replacing) : c.draft.name = c.draftName := by
  rw [Path.name, draft_names, List.getLast?_concat, Option.getD_some]

theorem name_ne (c : Replacing) : c.path.name ≠ c.draftName :=
  (FileAct.draftName_ne _ _).symm

/-- The draft is in the directory of the path. -/
theorem lies_draft (h : Walk t true linkLimit (t.start c.path) c.path.parent.names
    (.at d (.directory 0))) : t.Lies c.draft d c.draftName := by
  constructor
  · rw [parent_draft, draft_names]
  · exact FileAct.draftName_ne_dots _ _
  · rw [parent_draft]
    exact h

/-- A path that is not its own parent goes on from there with a name. -/
theorem path_names (hne : c.path.parent.names ≠ []) :
    c.path.names = c.path.parent.names ++ [c.path.name] := by
  unfold Path.parent Path.name at *
  rcases List.eq_nil_or_concat c.path.names with hnil | ⟨front, last, hnames⟩
  · rw [hnil] at hne
    exact absurd rfl hne
  · rw [List.concat_eq_append] at hnames
    rw [hnames]
    simp

theorem dotsLead_draft (h : t.DotsLead c.path) : t.DotsLead c.draft := by
  intro front rest hnames
  rw [draft_names] at hnames
  rcases List.eq_nil_or_concat rest with rfl | ⟨between, last, rfl⟩
  · obtain ⟨-, hlast⟩ := List.append_inj' hnames rfl
    exact absurd (List.cons.inj hlast).1 (FileAct.draftName_ne_dots _ _)
  · rw [List.concat_eq_append, ← List.cons_append, ← List.append_assoc] at hnames
    obtain ⟨hparent, -⟩ := List.append_inj' hnames rfl
    apply h front (between ++ [c.path.name])
    rw [path_names, hparent]
    · simp
    · rw [hparent]
      simp

/-- Where a directory is made on the way, there is nothing at the path or the draft, neither before
nor afterwards. -/
theorem Prepared.made (hready : c.Ready t) (h : c.Prepared t t') {q : Path}
    (hq : q.Above c.path.parent) (hfree : t'.walkToLink q = .ok (.free d name)) (changed : Int) :
    c.Prepared t (t'.add d name (.directory changed)) := by
  have hsettled := h.spares.settled
  obtain ⟨hlies, -⟩ := lies_of_walkToLink hsettled hfree
  obtain ⟨rest, hrest⟩ := hq.2
  have hnext : ∀ last, ∃ next after, c.path.parent.names ++ [last] = q.names ++ next :: after := by
    intro last
    rw [← hrest, List.append_assoc]
    cases rest with
    | nil => exact ⟨last, [], rfl⟩
    | cons next after => exact ⟨next, after ++ [last], rfl⟩
  have hparent : c.path.parent.names ≠ [] := by
    rw [← hrest, hlies.names]
    simp
  have hdots : t'.DotsLead c.path := hready.dots.spares hready.settled h.spares
  obtain ⟨next, after, hnames⟩ := hnext c.path.name
  rw [← path_names hparent] at hnames
  obtain ⟨next', after', hnames'⟩ := hnext c.draftName
  rw [← draft_names] at hnames'
  have hroot : q.root = c.path.root := hq.1
  have hroot' : q.root = c.draft.root := hq.1
  have hnone := object?_of_free hsettled hroot hnames hfree
  have hmade := object?_of_made hsettled hroot hnames hfree hdots changed
  have hspares := spares_of_made hsettled hfree changed
  constructor
  · constructor
    · constructor
      · rw [hmade, ← hnone, h.object]
      · rw [target?_eq_none hmade, ← target?_eq_none hnone, h.target]
    · exact h.spares.trans hspares
    · exact object?_of_made hsettled hroot' hnames' hfree (dotsLead_draft hdots) changed
  · intro d' hwalk
    obtain ⟨hlies', -⟩ := lies_of_free hspares.settled hwalk hmade
    exact c.name_ne hlies'.name_eq

/-- The way to a directory that does not lead through a link leads there wherever all but this link
is there. -/
theorem Prepared.carried (hready : c.Ready t) (h : c.Prepared t t₁) {r : Route} {target : String}
    (hthere : t.look r = some (.link target))
    (hto : Walk (t.set r (.file [] 0)) true linkLimit (t.start c.path) c.path.parent.names
      (.at d (.directory 0)))
    (hkept : ∀ q node, q ≠ r → t₁.look q = some node → t'.look q = some node) :
    Walk t' true linkLimit (t.start c.path) c.path.parent.names (.at d (.directory 0)) := by
  have hset : ∀ q node, node.isFile = false → (t.set r (.file [] 0)).look q = some node →
      t'.look q = some node := by
    intro q node hnode hlook
    rw [look_set] at hlook
    split at hlook
    · cases hlook
      cases hnode
    · exact hkept q node ‹_› (h.spares.look_eq id hlook)
  have hdir : ¬ t.HasDirectory r := by
    rw [HasDirectory, hthere]
    exact fun h ↦ by cases h
  apply hto.carried
  · exact fun q ↦ hset q _ rfl
  · exact fun q other ↦ hset q _ rfl
  · apply hready.settled.sound.set _ hdir
    rw [hthere]
    exact Option.some_ne_none _
  · have hstart := hready.settled.start c.path
    rw [HasDirectory, look_set, if_neg]
    · exact hstart
    · rintro rfl
      exact hdir hstart

/-- A path leads to its directory also when a file has come to be where it ends, a link that was
there not being on the way. -/
theorem Prepared.reaches (hready : c.Ready t) (h : c.Prepared t t₁)
    (hlies : t₁.Lies c.path d name) (hfits : c.path.Fits) (hdir : ¬ t₁.HasDirectory (d ++ [name]))
    (hsame : SameBut (· = d ++ [name]) t₁ t') : t'.Lies c.path d name := by
  have hsettled := h.spares.settled
  refine ⟨hlies.names, hlies.ne_dots, ?_⟩
  rw [start_eq hsame.directory]
  cases hlink : t₁.link? (d ++ [name]) with
  | none =>
    apply hlies.walk.carried _ _ hsettled.sound (hsettled.start _)
    · intro q hq
      rw [HasDirectory, hsame.look]
      · exact hq
      · rintro rfl
        exact hdir hq
    · intro q target hlook
      rw [hsame.look, hlook]
      rintro rfl
      rw [look_of_link?.mpr hlook] at hlink
      cases hlink
  | some target =>
    have hobject := hlies.object?_eq hsettled hfits
    rw [look_of_link?.mp hlink, h.object] at hobject
    obtain ⟨d', hto⟩ := hready.apart _ _ hobject
    obtain ⟨-, hwalk⟩ := led?_eq_some.mp hobject
    have hthere : t.look (d ++ [name]) = some (.link target) :=
      hwalk.shows hready.settled.sound (hready.settled.start _)
    have hbefore := h.carried hready hthere hto fun _ _ _ hlook ↦ hlook
    rw [← start_eq h.spares.directory] at hbefore
    cases hbefore.functional hlies.walk
    rw [start_eq h.spares.directory]
    apply h.carried hready hthere hto
    intro q node hq hlook
    rw [hsame.look q hq, hlook]

/-- Where there is no draft, clearing it away may be refused, but it changes nothing. -/
theorem Prepared.cleared (h : c.Prepared t t') {outcome : Except FileError Unit}
    (hcleared : FileAct.unlinkIfThere c.draft t' = (outcome, t'')) (e : FileError) :
    ∃ e', (outcome >>= fun _ ↦ (.error e : Except FileError Unit)) = .error e' ∧
      c.Prepared t t'' := by
  have hends := FileAct.ends_unlinkIfThere_of_none h.unused
  cases outcome with
  | ok =>
    obtain rfl := (ends_of_eq hcleared).mp hends
    exact ⟨e, rfl, h⟩
  | error e' =>
    obtain rfl := (ends_of_error hcleared).mp hends
    exact ⟨e', rfl, h⟩

/-! ### Trees with a draft -/

/-- From a tree in which nothing has been done but to make directories, this one has come by putting
a draft into the directory of the path. -/
structure Drafted (c : Replacing) (t t₁ t' : FileTree) (d : Route) (written : Text.Bytes)
    (mode : Nat) : Prop where
  prepared : c.Prepared t t₁
  walk : Walk t₁ true linkLimit (t₁.start c.path) c.path.parent.names (.at d (.directory 0))
  fits : c.draft.Fits
  same : SameBut (· = d ++ [c.draftName]) t₁ t'
  look : t'.look (d ++ [c.draftName]) = some (.file written mode)

/-- A draft that is opened is put where nothing was. -/
theorem Prepared.opened (h : c.Prepared t t₁) {route : Route}
    (hopened : FileAct.openEmpty c.draft t₁ = (.ok route, t')) :
    ∃ d, route = d ++ [c.draftName] ∧ c.Drafted t t₁ t' d [] 0o644 := by
  have hsettled := h.spares.settled
  rcases (ends_of_eq hopened).mp FileAct.ends_openEmpty_found with
    htaken | ⟨d, name, hwalk, rfl, rfl⟩
  · exact absurd (target?_eq_none h.unused) htaken
  · obtain ⟨hlies, hfits⟩ := lies_of_free hsettled hwalk h.unused
    have hname : c.draftName = name := by
      rw [← name_draft, hlies.name_eq]
    have hfree : t₁.look (d ++ [name]) = none := by
      have hobject := hlies.object?_eq hsettled hfits
      rw [h.unused] at hobject
      exact Option.map_eq_none_iff.mp hobject.symm
    have hdir : ¬ t₁.HasDirectory (d ++ [name]) := not_hasDirectory_of_none hfree
    refine ⟨d, by rw [hname], h, ?_, hfits, ?_, ?_⟩
    · have hto := hlies.walk
      rw [parent_draft] at hto
      exact hto
    · rw [hname]
      apply SameBut.of_look hsettled
      · exact hsettled.sound.add (hlies.directory hsettled) hdir
      · exact directory_add t₁ d name _
      · intro q hq
        rw [look_add, if_neg hq]
      · rintro _ rfl
        exact hdir
    · rw [hname, look_add, if_pos rfl]
      rfl

namespace Drafted

variable {written : Text.Bytes} {mode : Nat} (h : c.Drafted t t₁ t' d written mode)

include h

theorem settled : t₁.Settled := h.prepared.spares.settled

/-- There was nothing where the draft is. -/
theorem free : t₁.look (d ++ [c.draftName]) = none := by
  have hobject := (lies_draft h.walk).object?_eq h.settled h.fits
  rw [h.prepared.unused] at hobject
  exact Option.map_eq_none_iff.mp hobject.symm

theorem plain : ∀ q, q = d ++ [c.draftName] → ¬ t₁.HasDirectory q ∧ t₁.link? q = none := by
  rintro _ rfl
  constructor
  · exact not_hasDirectory_of_none h.free
  · rw [link?, h.free]

theorem plain' : ∀ q, q = d ++ [c.draftName] → ¬ t'.HasDirectory q ∧ t'.link? q = none := by
  rintro _ rfl
  constructor
  · rw [HasDirectory, h.look]
    exact fun h ↦ by cases h
  · rw [link?, h.look]

theorem walk' :
    Walk t' true linkLimit (t'.start c.path) c.path.parent.names (.at d (.directory 0)) := by
  rw [start_eq h.same.directory]
  apply h.walk.beside h.same.look h.plain h.settled.sound (h.settled.start _)
  intro hroute
  have hdir := h.walk.shows h.settled.sound (h.settled.start _)
  rw [Place.route] at hroute
  rw [Shows, hroute, h.free] at hdir
  cases hdir

theorem placeAt_draft : t'.placeAt d c.draftName = .at (d ++ [c.draftName]) (.file written mode) := by
  rw [placeAt, node?_of_look h.look fun _ h ↦ by cases h]

theorem walkToLink_draft :
    t'.walkToLink c.draft = .ok (.at (d ++ [c.draftName]) (.file written mode)) := by
  rw [(lies_draft h.walk').walkToLink_eq h.same.settled h.fits, h.placeAt_draft]

theorem walk_draft : t'.walk c.draft = .ok (.at (d ++ [c.draftName]) (.file written mode)) := by
  rw [(lies_draft h.walk').walk_eq h.same.settled h.fits (h.plain' _ rfl).2,
    h.placeAt_draft]

/-- At the path there is what was there, and it does not lead to the draft. -/
theorem old : c.Old t t' := by
  have hbefore : ∀ {whole r node}, t₁.led? c.path whole = some (r, node) →
      r ≠ d ++ [c.draftName] := by
    rintro whole r node hled rfl
    obtain ⟨-, hwalk⟩ := led?_eq_some.mp hled
    have hthere := hwalk.shows h.settled.sound (h.settled.start _)
    rw [Shows, h.free] at hthere
    cases hthere
  have hfile : ∀ {whole node}, t'.led? c.path whole = some (d ++ [c.draftName], node) →
      node = .file written mode := by
    intro whole node hled
    obtain ⟨-, hwalk⟩ := led?_eq_some.mp hled
    have hthere := hwalk.shows h.same.settled.sound (h.same.settled.start _)
    rw [Shows, h.look] at hthere
    cases hthere
    rfl
  constructor
  · rw [← h.prepared.object]
    apply h.same.led?_eq h.settled h.plain h.plain' (fun _ _ ↦ hbefore)
    rintro r node hled rfl
    cases hfile hled
    obtain ⟨hshort, hwalk⟩ := led?_eq_some.mp hled
    obtain ⟨d', name, hlies, hroute, -⟩ := lies_of_walk h.same.settled hshort hwalk
      fun _ h ↦ by cases h
    obtain ⟨-, hname⟩ := List.append_inj' hroute rfl
    exact c.name_ne (hlies.name_eq.trans (List.cons.inj hname).1.symm)
  · rw [← h.prepared.target]
    apply h.same.led?_eq h.settled h.plain h.plain' (fun _ _ ↦ hbefore)
    rintro r node hled rfl
    cases hfile hled
    obtain ⟨hshort, hwalk⟩ := led?_eq_some.mp hled
    have hto := hwalk.emptied h.same.look h.free h.same.settled.sound (h.same.settled.start _)
    rw [start_eq h.same.directory] at hto
    obtain ⟨place, hfree, hstill⟩ := walk_within_iff.mpr ⟨hshort, hto⟩
    cases place with
    | «at» r node => cases hstill
    | free d' name =>
      cases hstill
      exact h.prepared.unled d hfree

/-- Whatever is written to the draft, the rest stays the same. -/
theorem filled (written' : Text.Bytes) (mode' : Nat) :
    c.Drafted t t₁ (t'.set (d ++ [c.draftName]) (.file written' mode')) d written' mode' := by
  have hsound : (t'.set (d ++ [c.draftName]) (.file written' mode')).Sound :=
    h.same.settled.sound.set_file ⟨written, mode, h.look⟩
  refine ⟨h.prepared, h.walk, h.fits, ?_, ?_⟩
  · apply SameBut.of_look h.settled hsound h.same.directory
    · intro q hq
      rw [look_set, if_neg hq]
      exact h.same.look q hq
    · exact fun q hq ↦ (h.plain q hq).1
  · rw [look_set, if_pos rfl]
    rfl

/-- A draft with the mode of a new file is given the mode of what the path leads to. -/
theorem copied (hmode : mode = 0o644) (hcopied : FileAct.copyMode c.path c.draft t' = (.ok (), t'')) :
    c.Drafted t t₁ t'' d written (t.modeAt c.path) := by
  subst hmode
  have hsame : t'.modeAt c.path = t.modeAt c.path := by
    unfold modeAt
    rw [h.old.target]
  rcases (ends_of_eq hcopied).mp FileAct.ends_copyMode _ _ h.walk_draft with rfl | ⟨heq, rfl⟩
  · rw [hsame]
    exact h.filled _ _
  · rw [hsame] at heq
    exact heq ▸ h

/-- When the draft has been taken away, everything is as it was before it was opened. -/
theorem same_removed :
    SameBut (fun _ ↦ False) t₁ (t'.remove (d ++ [c.draftName])) := by
  have hne : d ++ [c.draftName] ≠ [] := by simp
  apply SameBut.of_look h.settled (h.same.settled.sound.remove hne)
  · rw [directory_remove, h.same.directory]
  · intro q _
    rw [look_remove t' hne]
    split
    · rename_i hbelow
      by_cases hq : q = d ++ [c.draftName]
      · rw [hq, h.free]
      · rw [← h.same.look q hq]
        exact (h.same.settled.sound.look_below (h.plain' _ rfl).1 hbelow hq).symm
    · rename_i hbelow
      apply h.same.look
      rintro rfl
      exact hbelow List.prefix_rfl
  · exact fun _ ↦ False.elim

/-- A draft that is cleared away is gone, and that does not fail. -/
theorem cleared {outcome : Except FileError Unit}
    (hcleared : FileAct.unlinkIfThere c.draft t' = (outcome, t'')) :
    outcome = .ok () ∧ c.Prepared t t'' := by
  rw [FileAct.unlinkIfThere_of_file h.walkToLink_draft] at hcleared
  cases hcleared
  exact ⟨rfl, h.prepared.same h.same_removed⟩

/-- When the draft has been moved over what was at the path, nothing else has been changed, and the
name of the draft is free. -/
theorem moved (hready : c.Ready t) (hwritten : written = c.content)
    (hmode : mode = t.modeAt c.path)
    (hmoved : FileAct.move c.draft c.path t' = (.ok (), t'')) :
    ∃ r, c.New t t'' r ∧ t''.walkToLink c.draft = .ok (.free d c.draftName) := by
  have hsettled := h.same.settled
  obtain ⟨source, node, place, hsource, htarget, hplace, rfl⟩ :=
    (ends_of_eq hmoved).mp FileAct.ends_move_found
  rw [h.walkToLink_draft] at hsource
  cases hsource
  obtain ⟨hshort, hwalk⟩ := walk_within_iff.mp ⟨place, htarget, rfl⟩
  obtain ⟨d', name, hlies', hroute, hfits, hdir'⟩ := lies_of_walk hsettled hshort hwalk hplace
  obtain rfl : d = d' := by
    cases hlies'.walk.functional h.walk'
    rfl
  have hroute' : place.route = d ++ [name] := by
    rw [← hroute]
    cases place <;> rfl
  have hlast : (d ++ [name]).getLast?.getD "" = name := by simp
  rw [hroute', List.dropLast_concat, hlast]
  have hne : d ++ [name] ≠ d ++ [c.draftName] := by
    intro heq
    obtain ⟨-, hname⟩ := List.append_inj' heq rfl
    exact c.name_ne (hlies'.name_eq.trans (List.cons.inj hname).1)
  have hlies : t₁.Lies c.path d name := ⟨hlies'.names, hlies'.ne_dots, h.walk⟩
  have hdir : ¬ t₁.HasDirectory (d ++ [name]) := by
    rw [HasDirectory, ← h.same.look _ hne]
    exact hdir'
  have hremoved := h.same_removed
  have hsame : SameBut (· = d ++ [name]) t₁
      ((t'.remove (d ++ [c.draftName])).add d name (.file written mode)) := by
    apply SameBut.of_look h.settled
    · apply hremoved.settled.sound.add
      · rw [HasDirectory, hremoved.look _ id]
        exact hlies.directory h.settled
      · rw [HasDirectory, hremoved.look _ id]
        exact hdir
    · rw [directory_add, hremoved.directory]
    · intro q hq
      rw [look_add, if_neg hq, hremoved.look _ id]
    · rintro _ rfl
      exact hdir
  have hto := h.prepared.reaches hready hlies hfits hdir hsame
  have hlook : ((t'.remove (d ++ [c.draftName])).add d name (.file written mode)).look
      (d ++ [name]) = some (.file c.content (t.modeAt c.path)) := by
    rw [look_add, if_pos rfl, hwritten, hmode]
    rfl
  have hgone : ((t'.remove (d ++ [c.draftName])).add d name (.file written mode)).look
      (d ++ [c.draftName]) = none := by
    rw [hsame.look _ hne.symm, h.free]
  have hdraft := lies_draft hto.walk
  refine ⟨d ++ [name], ⟨?_, ?_, ?_, ?_⟩, ?_⟩
  · rw [hto.object?_eq hsame.settled hfits, hlook, Option.map_some]
  · rw [hto.target?_eq hsame.settled hfits, hlook, Option.map_some]
    rw [link?, hlook]
  · exact (h.prepared.spares.mono fun _ ↦ False.elim).trans hsame.spares
  · rw [hdraft.object?_eq hsame.settled h.fits, hgone, Option.map_none]
  · rw [hdraft.walkToLink_eq hsame.settled h.fits, placeAt, node?_of_look_none hgone]

end Drafted

/-! ### Stages and what holds at them -/

/-- What holds at a stage. -/
inductive Standing (c : Replacing) (t : FileTree) : Stage → FileTree → Prop
  | making {t' : FileTree} (h : c.Prepared t t') : Standing c t .making t'
  | opening {t' : FileTree} (h : c.Prepared t t') : Standing c t .opening t'
  | writing {t₁ t' : FileTree} {d : Route} {written rest : Text.Bytes}
      (h : c.Drafted t t₁ t' d written 0o644) (hcontent : c.content = written ++ rest) :
      Standing c t (.writing (d ++ [c.draftName]) rest) t'
  | copying {t₁ t' : FileTree} {d : Route} (h : c.Drafted t t₁ t' d c.content 0o644) :
      Standing c t .copying t'
  | moving {t₁ t' : FileTree} {d : Route}
      (h : c.Drafted t t₁ t' d c.content (t.modeAt c.path)) : Standing c t .moving t'
  | unopened {t' : FileTree} (h : c.Prepared t t') (e : FileError) :
      Standing c t (.clearing (.error e)) t'
  | failed {t₁ t' : FileTree} {d : Route} {written : Text.Bytes} {mode : Nat}
      (h : c.Drafted t t₁ t' d written mode) (e : FileError) :
      Standing c t (.clearing (.error e)) t'
  | moved {t' : FileTree} {r d : Route} (h : c.New t t' r)
      (hfree : t'.walkToLink c.draft = .ok (.free d c.draftName)) :
      Standing c t (.clearing (.ok ())) t'
  | raised {t' : FileTree} (h : c.Prepared t t') (e : FileError) :
      Standing c t (.ended (.error e)) t'
  | returned {t' : FileTree} {r : Route} (h : c.New t t' r) : Standing c t (.ended (.ok ())) t'

/-- Each step leads to what holds at the next stage. -/
theorem Standing.step (hready : c.Ready t) {stage stage' : Stage} (h : c.Standing t stage t')
    (hstep : c.Step stage t' stage' t'') : c.Standing t stage' t'' := by
  cases hstep with
  | make hq hmade =>
    cases h with
    | making h =>
      obtain ⟨d, name, hfree, rfl⟩ := (ends_of_eq hmade).mp FileAct.ends_makeDirectory_free
      exact .making (h.made hready hq hfree _)
  | made =>
    cases h with
    | making h => exact .opening h
  | giveUp _ e =>
    cases h with
    | making h => exact .raised h e
  | «open» hopened =>
    cases h with
    | opening h =>
      obtain ⟨d, rfl, hdrafted⟩ := h.opened hopened
      exact .writing hdrafted rfl
  | write happended =>
    cases h with
    | writing h hcontent =>
      rw [FileAct.append_of_look h.look] at happended
      cases happended
      apply Standing.writing (h.filled _ _)
      rw [hcontent, List.append_assoc]
  | sync =>
    cases h with
    | writing h hcontent =>
      rw [List.append_nil] at hcontent
      exact .copying (hcontent ▸ h)
  | copy hcopied =>
    cases h with
    | copying h => exact .moving (h.copied rfl hcopied)
  | move hmoved =>
    cases h with
    | moving h =>
      obtain ⟨r, hnew, hfree⟩ := h.moved hready rfl rfl hmoved
      exact .moved hnew hfree
  | fail _ htried _ e =>
    cases h with
    | making => exact htried.elim
    | opening h => exact .unopened h e
    | writing h => exact .failed h e
    | copying h => exact .failed h e
    | moving h => exact .failed h e
    | unopened => exact htried.elim
    | failed => exact htried.elim
    | moved => exact htried.elim
    | raised => exact htried.elim
    | returned => exact htried.elim
  | clear hcleared =>
    cases h with
    | unopened h e =>
      obtain ⟨e', houtcome, hprepared⟩ := h.cleared hcleared e
      rw [houtcome]
      exact .raised hprepared e'
    | failed h e =>
      obtain ⟨rfl, hprepared⟩ := h.cleared hcleared
      exact .raised hprepared e
    | moved h hfree =>
      rw [FileAct.unlinkIfThere_of_free hfree] at hcleared
      cases hcleared
      exact .returned h

theorem Run.standing (hready : c.Ready t) {stage : Stage} (h : c.Run t stage t') :
    c.Standing t stage t' := by
  induction h with
  | start => exact .making hready.prepared
  | step _ hstep ih => exact ih.step hready hstep

/-- What is to be seen of a replacement at a stage. -/
structure AllOrNothing (c : Replacing) (t : FileTree) (stage : Stage) (t' : FileTree) : Prop where
  always : c.Old t t' ∨ ∃ r, c.New t t' r
  returned : stage = .ended (.ok ()) → ∃ r, c.New t t' r
  raised : ∀ e, stage = .ended (.error e) → c.Intact t t'

theorem Standing.allOrNothing {stage : Stage} (h : c.Standing t stage t') :
    c.AllOrNothing t stage t' := by
  cases h with
  | making h => exact ⟨.inl h.toOld, nofun, nofun⟩
  | opening h => exact ⟨.inl h.toOld, nofun, nofun⟩
  | writing h => exact ⟨.inl h.old, nofun, nofun⟩
  | copying h => exact ⟨.inl h.old, nofun, nofun⟩
  | moving h => exact ⟨.inl h.old, nofun, nofun⟩
  | unopened h => exact ⟨.inl h.toOld, nofun, nofun⟩
  | failed h => exact ⟨.inl h.old, nofun, nofun⟩
  | moved h => exact ⟨.inr ⟨_, h⟩, nofun, nofun⟩
  | raised h => exact ⟨.inl h.toOld, nofun, fun _ _ ↦ h.toIntact⟩
  | returned h => exact ⟨.inr ⟨_, h⟩, fun _ ↦ ⟨_, h⟩, nofun⟩

/-- Replacing a file is all or nothing, whichever step fails, and what the operations do as a program
is such a replacement. -/
theorem all_or_nothing (c : Replacing) (t : FileTree) (hready : c.Ready t) :
    (∀ stage t', c.Run t stage t' → c.AllOrNothing t stage t') ∧
      c.Run t (.ended (FileAct.replaceContent c.path c.content c.tag t).1)
        (FileAct.replaceContent c.path c.content c.tag t).2 :=
  ⟨fun _ _ h ↦ (h.standing hready).allOrNothing, c.run_replaceContent t⟩

/-! ### Three trees -/

/-- A script that is to be replaced. -/
def script : Replacing := ⟨⟨.slash, ["bin", "run"]⟩, [110, 101, 119], "0"⟩

def scriptTree : FileTree :=
  ⟨[(["bin"], .directory 0), (["bin", "run"], .file [111, 108, 100] 0o755)], 0, []⟩

theorem ready_script : script.Ready scriptTree where
  settled := ⟨sound_of_entries (by decide) (by decide), by decide⟩
  unused := by decide +kernel
  unled _ := walk_ne_free (by decide +kernel)
  dots := dotsLead_of_not_mem _ (by decide)
  apart r target hobject := by
    have hfile : scriptTree.object? script.path =
        some (["bin", "run"], .file [111, 108, 100] 0o755) := by decide +kernel
    rw [hfile] at hobject
    cases hobject

/-- The script is replaced, and it may still be executed. -/
theorem all_or_nothing_script :
    script.Ready scriptTree ∧ scriptTree.modeAt script.path = 0o755 ∧
      ∃ r, script.New scriptTree
        (FileAct.replaceContent script.path script.content script.tag scriptTree).2 r := by
  obtain ⟨hruns, hrun⟩ := all_or_nothing script scriptTree ready_script
  have hok : (FileAct.replaceContent script.path script.content script.tag scriptTree).1 =
      .ok () := by
    rfl
  refine ⟨ready_script, by decide +kernel, (hruns _ _ hrun).returned ?_⟩
  rw [hok]

/-- If it fails, what is at a path is the same afterwards. -/
theorem AllOrNothing.object?_eq {outcome : Except FileError Unit}
    (h : c.AllOrNothing t (.ended outcome) t') (hfailed : outcome.isOk = false) :
    t'.object? c.path = t.object? c.path := by
  cases outcome with
  | ok => cases hfailed
  | error e => exact (h.raised e rfl).object

/-- A path that leads through the link it ends at is replaced, and the draft cannot be cleared away
through the file that is there now. -/
theorem not_all_or_nothing_of_link :
    let c : Replacing := ⟨⟨.slash, ["d", "d"]⟩, [110, 101, 119], "0"⟩
    let t : FileTree := ⟨[(["d"], .link ".")], 0, []⟩
    let run := FileAct.replaceContent c.path c.content c.tag t
    t.Settled ∧ t.object? c.draft = none ∧ t.look ["d"] = some (.link ".") ∧
      run.1.isOk = false ∧ run.2.bytes? ["d"] = some [110, 101, 119] ∧
      ¬ c.AllOrNothing t (.ended run.1) run.2 := by
  refine ⟨⟨sound_of_entries (by decide) (by decide), by decide⟩, by decide +kernel,
    by decide, by decide +kernel, by decide +kernel, ?_⟩
  intro h
  have hsame := h.object?_eq (by decide +kernel)
  revert hsame
  decide +kernel

/-- A directory that is made for two dots to stand behind it may be in the way. -/
example :
    let c : Replacing := ⟨⟨.slash, ["a", "..", "a"]⟩, [110, 101, 119], "0"⟩
    let t : FileTree := ⟨[], 0, []⟩
    let run := FileAct.replaceContent c.path c.content c.tag t
    run.1.isOk = false ∧ t.object? c.path = none ∧
      run.2.object? c.path = some (["a"], .directory 0) := by
  decide +kernel

end Replacing

end Remedy
