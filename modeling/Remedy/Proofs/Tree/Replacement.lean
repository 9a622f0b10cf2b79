import Remedy.Proofs.Tree.Directories
import Remedy.Proofs.Tree.Mending

/-!
# Writing, replacing and taking away files

Writing in place alters at most the file that the path leads to (`FileAct.ends_write`).
Replacing the content of a file works through a draft beside it. Whatever becomes of the attempt,
nothing but the file and its draft is altered, no draft is left if there was none, and if it
succeeds, the file has the new content (`FileAct.ends_replaceContent`). Taking a file away alters
that file only, and if it succeeds, there is no file any more (`FileAct.ends_unlinkIfThere`).
-/

set_option autoImplicit false

namespace Remedy

open FileTree

namespace FileAct

variable {t : FileTree} {p : Path} {r d : Route} {name : String}

theorem ends_append (ht : t.Sound) (r : Route) (content : Text.Bytes) :
    Ends (append r content) t
      (fun _ t' ↦ Edits (· = r) t t' ∧
        ∀ old, t.bytes? r = some old → t'.bytes? r = some (old ++ content))
      fun _ _ ↦ False := by
  refine ends_modify.mpr ?_
  split
  · rename_i old mode hnode
    have hlook := look_of_node? hnode
    refine ⟨edits_set_file ht ⟨old, mode, hlook⟩ _ _, fun old' hold ↦ ?_⟩
    rw [bytes?_of_look hlook] at hold
    cases hold
    exact bytes?_of_look (by rw [look_set, if_pos rfl]; rfl)
  · rename_i hnode
    refine ⟨.refl ht, fun old hold ↦ ?_⟩
    obtain ⟨mode, hlook⟩ := look_of_bytes? hold
    exact absurd (node?_of_look hlook fun _ h ↦ by cases h) (hnode old mode)

/-- Writing a file in place alters at most the file that the path leads to. -/
theorem ends_write (ht : t.Sound) (hp : p.isAbsolute = true) (content : Text.Bytes) :
    Ends (write p content) t
      (fun _ t' ↦ ∃ r, t.traced p = .done r ∧ Edits (· = r) t t')
      fun _ t' ↦ t' = t := by
  unfold write openEmpty
  refine ends_bind.mpr (ends_bind.mpr (ends_place.mpr ?_))
  have happend : ∀ {t' r}, t.traced p = .done r → Edits (· = r) t t' →
      Ends (append r content) t' (fun _ t'' ↦ ∃ r, t.traced p = .done r ∧ Edits (· = r) t t'')
        fun _ t'' ↦ t'' = t := fun htraced hopened ↦
    (ends_append hopened.sound _ content).mono
      (fun _ _ h ↦ ⟨_, htraced, hopened.trans h.1⟩) fun _ _ h ↦ h.elim
  cases hwalk : t.walk p with
  | error e => rfl
  | ok place =>
    obtain ⟨htraced, hshows⟩ := walk_ok ht hp hwalk
    cases place with
    | «at» r node =>
      cases node with
      | file old mode =>
        refine ends_bind.mpr (ends_modify.mpr (ends_pure.mpr (happend htraced ?_)))
        exact edits_set_file ht ⟨old, mode, hshows⟩ _ _
      | directory changed => exact ends_throw.mpr rfl
      | link target => exact ends_throw.mpr rfl
    | free d name =>
      obtain ⟨hd, hfree, -⟩ := hshows
      refine ends_bind.mpr (ends_modify.mpr (ends_pure.mpr (happend htraced ?_)))
      refine edits_add_file ht hd ?_ ?_ _ _
      · rw [HasDirectory, hfree]
        exact fun h ↦ by cases h
      · rw [link?, hfree]

section Files

variable (ht : t.Sound) (hreaches : t.Reaches p d name) (hlink : t.link? (d ++ [name]) = none)

include ht hreaches hlink in
theorem ends_openEmpty :
    Ends (openEmpty p) t
      (fun r t' ↦ r = d ++ [name] ∧ p.Fits ∧ Edits (· = d ++ [name]) t t' ∧
        t'.bytes? (d ++ [name]) = some [])
      fun _ t' ↦ t' = t ∧ (p.Fits → t.HasDirectory (d ++ [name])) := by
  unfold openEmpty
  refine ends_bind.mpr (ends_place.mpr ?_)
  have hfinds := hreaches.walk_finds ht hlink
  generalize t.walk p = found at hfinds
  cases hfinds with
  | refused e hfits => exact ⟨rfl, fun h ↦ absurd h hfits⟩
  | free hfits hlook =>
    refine ends_bind.mpr (ends_modify.mpr (ends_pure.mpr ⟨rfl, hfits, ?_, ?_⟩))
    · refine edits_add_file ht (hreaches.directory ht) ?_ hlink _ _
      rw [HasDirectory, hlook]
      exact fun h ↦ by cases h
    · exact bytes?_of_look (by rw [look_add, if_pos rfl]; rfl)
  | @file content mode hfits hlook =>
    refine ends_bind.mpr (ends_modify.mpr (ends_pure.mpr ⟨rfl, hfits, ?_, ?_⟩))
    · exact edits_set_file ht ⟨content, mode, hlook⟩ _ _
    · exact bytes?_of_look (by rw [look_set, if_pos rfl]; rfl)
  | directory hfits hlook => exact ends_throw.mpr ⟨rfl, fun _ ↦ hlook⟩

include ht hreaches hlink in
theorem ends_setMode (mode : Nat) :
    Ends (setMode p mode) t
      (fun _ t' ↦ Edits (· = d ++ [name]) t t' ∧
        t'.bytes? (d ++ [name]) = t.bytes? (d ++ [name]))
      fun _ t' ↦ t' = t ∧ (p.Fits → t.look (d ++ [name]) = none) := by
  unfold setMode
  refine ends_bind.mpr (ends_place.mpr ?_)
  have hfinds := hreaches.walk_finds ht hlink
  generalize t.walk p = found at hfinds
  cases hfinds with
  | refused e hfits => exact ⟨rfl, fun h ↦ absurd h hfits⟩
  | free hfits hlook => exact ends_throw.mpr ⟨rfl, fun _ ↦ hlook⟩
  | @file content mode' hfits hlook =>
    refine ends_modify.mpr ⟨edits_set_file ht ⟨content, mode', hlook⟩ _ _, ?_⟩
    rw [bytes?_of_look hlook]
    exact bytes?_of_look (by rw [look_set, if_pos rfl]; rfl)
  | directory hfits hlook => exact ends_pure.mpr ⟨.refl ht, rfl⟩

/-- What a path leads to is gone, unless it could not be named. -/
def Cleared (p : Path) (r : Route) (t t' : FileTree) : Prop :=
  Edits (· = r) t t' ∧ (p.Fits → t'.bytes? r = none) ∧ (¬ p.Fits → t' = t)

include ht hreaches hlink in
theorem ends_unlinkReached :
    Ends (unlinkIfThere p) t (fun _ t' ↦ Cleared p (d ++ [name]) t t')
      fun _ t' ↦ Cleared p (d ++ [name]) t t' ∧ (p.Fits → t.HasDirectory (d ++ [name])) := by
  have hsame : (p.Fits → t.bytes? (d ++ [name]) = none) → Cleared p (d ++ [name]) t t :=
    fun hnone ↦ ⟨.refl ht, hnone, fun _ ↦ rfl⟩
  unfold unlinkIfThere unlink
  refine ends_tryCatch.mpr (ends_bind.mpr (ends_linkPlace.mpr ?_))
  have hfinds := hreaches.walkToLink_finds ht hlink
  generalize t.walkToLink p = found at hfinds
  cases hfinds with
  | refused e hfits =>
    dsimp only
    split
    · exact ends_pure.mpr (hsame fun h ↦ absurd h hfits)
    · exact ends_throw.mpr ⟨hsame fun h ↦ absurd h hfits, fun h ↦ absurd h hfits⟩
  | free hfits hlook =>
    refine ends_throw.mpr (ends_pure.mpr (hsame fun _ ↦ ?_))
    rw [bytes?, hlook]
  | @file content mode hfits hlook =>
    have hne : d ++ [name] ≠ [] := by simp
    refine ends_modify.mpr ⟨edits_remove ht hne ?_ hlink, fun _ ↦ ?_, fun h ↦ absurd hfits h⟩
    · rw [HasDirectory, hlook]
      exact fun h ↦ by cases h
    · simp [bytes?, look_remove t hne]
  | directory hfits hlook =>
    exact ends_throw.mpr ⟨hsame fun _ ↦ hlook.no_bytes, fun _ ↦ hlook⟩

end Files

/-- Taking away a file whose route has no links alters that file only. -/
theorem ends_unlinkIfThere (ht : t.Sound) (hr : t.Direct r) (hne : r ≠ []) :
    Ends (unlinkIfThere (Route.path r)) t
      (fun _ t' ↦ Edits (· = r) t t' ∧ t'.bytes? r = none) fun _ t' ↦ Edits (· = r) t t' := by
  obtain ⟨d, name, rfl⟩ : ∃ d name, r = d ++ [name] :=
    ⟨r.dropLast, r.getLast hne, (List.dropLast_concat_getLast hne).symm⟩
  cases hwalk : t.walkToLink (Route.path (d ++ [name])) with
  | error e =>
    unfold unlinkIfThere unlink
    refine ends_tryCatch.mpr (ends_bind.mpr (ends_linkPlace.mpr ?_))
    rw [hwalk]
    dsimp only
    split
    · rename_i hnotFound
      have hlook := hr.walkToLink_notFound ht (hnotFound ▸ hwalk)
      exact ends_pure.mpr ⟨.refl ht, by rw [bytes?, hlook]⟩
    · exact ends_throw.mpr (.refl ht)
  | ok found =>
    have hreaches := hr.reaches ht hwalk
    have hlink := hr.no_links _ List.prefix_rfl
    have hfits : (Route.path (d ++ [name])).Fits := by
      have hfinds := hreaches.walkToLink_finds ht hlink
      rw [hwalk] at hfinds
      cases hfinds <;> assumption
    exact (ends_unlinkReached ht hreaches hlink).mono (fun _ _ h ↦ ⟨h.1, h.2.1 hfits⟩)
      fun _ _ h ↦ h.1.1

/-! ### Drafts -/

def draftName (name tag : String) : String := s!".{name}.{tag}.tmp"

theorem length_draftName (name tag : String) :
    (draftName name tag).length = name.length + tag.length + 6 := by
  have hdot : ".".length = 1 := rfl
  have htmp : ".tmp".length = 4 := rfl
  simp only [draftName, toString, String.length_append, hdot, htmp]
  omega

theorem draftName_ne_of_length_le {name other : String} (h : other.length ≤ name.length)
    (tag : String) : draftName name tag ≠ other := by
  rintro rfl
  rw [length_draftName] at h
  omega

theorem draftName_ne (name tag : String) : draftName name tag ≠ name :=
  draftName_ne_of_length_le le_rfl tag

theorem draftName_ne_dots (name tag : String) : draftName name tag ≠ ".." := by
  intro h
  have hlength := length_draftName name tag
  have hdots : "..".length = 2 := rfl
  rw [h, hdots] at hlength
  omega

theorem reaches_draft (h : t.Reaches p d name) (tag : String) :
    t.Reaches (draft p tag) d (draftName name tag) := by
  unfold FileAct.draft
  rw [h.name_eq]
  exact reaches_child h.absolute (draftName_ne_dots name tag) h.walk

/-- Whatever a file is moved over, it is there afterwards, and nothing is where it was. -/
theorem mends_moved {source target : String} (ht : t.Sound) (hd : t.HasDirectory d)
    (hne : source ≠ target) (hsource : ¬ t.HasDirectory (d ++ [source]))
    (htarget : ¬ t.HasDirectory (d ++ [target])) (content : Text.Bytes) (mode : Nat) :
    Mends none (fun r ↦ r = d ++ [source] ∨ r = d ++ [target]) (fun _ ↦ False) t
        ((t.remove (d ++ [source])).add d target (.file content mode)) ∧
      ((t.remove (d ++ [source])).add d target (.file content mode)).look (d ++ [source]) = none ∧
      ((t.remove (d ++ [source])).add d target (.file content mode)).bytes? (d ++ [target]) =
        some content := by
  have hroutes : d ++ [target] ≠ d ++ [source] := fun h ↦ hne (by simpa using h.symm)
  have hbelow : ¬ d ++ [source] <+: d ++ [target] := fun h ↦
    hroutes (h.eq_of_length (by simp)).symm
  have hroot : d ++ [source] ≠ [] := by simp
  have hremoved : Mends none (· = d ++ [source]) (fun _ ↦ False) t (t.remove (d ++ [source])) :=
    mends_remove ht hroot hsource
  refine ⟨?_, ?_, ?_⟩
  · refine (hremoved.mono (fun _ ↦ .inl) fun _ ↦ id).trans ((mends_add_file hremoved.sound
      (hremoved.kept d hd) ?_ _ _).mono (fun _ ↦ .inr) fun _ ↦ id)
    rw [HasDirectory, look_remove t hroot, if_neg hbelow]
    exact htarget
  · simp [look_add, look_remove t hroot, hroutes.symm]
  · simp [bytes?, look_add, Node.still]

/-- Moving a file over another name of its directory, in the place of whatever is no directory. -/
theorem ends_move {p q : Path} {source target : String} {content : Text.Bytes} (ht : t.Sound)
    (hp : t.Reaches p d source) (hq : t.Reaches q d target) (hne : source ≠ target)
    (hfile : t.bytes? (d ++ [source]) = some content) (hfits : p.Fits) :
    Ends (move p q) t
      (fun _ t' ↦ q.Fits ∧
        Mends none (fun r ↦ r = d ++ [source] ∨ r = d ++ [target]) (fun _ ↦ False) t t' ∧
        t'.look (d ++ [source]) = none ∧ t'.bytes? (d ++ [target]) = some content)
      fun _ t' ↦ t' = t ∧ (q.Fits → t.HasDirectory (d ++ [target])) := by
  obtain ⟨mode, hlook⟩ := look_of_bytes? hfile
  have hsource : t.link? (d ++ [source]) = none := by simp [link?, hlook]
  have hdir : ¬ t.HasDirectory (d ++ [source]) :=
    not_hasDirectory_of_bytes (by rw [hfile]; exact Option.some_ne_none _)
  unfold move
  refine ends_bind.mpr (ends_get.mpr ?_)
  have hfinds := hp.walkToLink_finds ht hsource
  generalize t.walkToLink p = found at hfinds
  cases hfinds with
  | refused e hlong => exact absurd hfits hlong
  | free _ hnone =>
    rw [hnone] at hlook
    cases hlook
  | directory _ hdirectory => exact absurd hdirectory hdir
  | file _ hthere =>
    rw [hthere] at hlook
    cases hlook
    have hlast : (d ++ [target]).getLast?.getD "" = target := by simp
    have hover : q.Fits → ¬ t.HasDirectory (d ++ [target]) → Ends
        (set ((t.remove (d ++ [source])).add (d ++ [target]).dropLast
          ((d ++ [target]).getLast?.getD "") (.file content mode)) : FileAct Unit) t
        (fun _ t' ↦ q.Fits ∧
          Mends none (fun r ↦ r = d ++ [source] ∨ r = d ++ [target]) (fun _ ↦ False) t t' ∧
          t'.look (d ++ [source]) = none ∧ t'.bytes? (d ++ [target]) = some content)
        fun _ t' ↦ t' = t ∧ (q.Fits → t.HasDirectory (d ++ [target])) := by
      intro hfits' hfree
      rw [hlast, List.dropLast_concat]
      exact ends_set.mpr ⟨hfits', mends_moved ht (hp.directory ht) hne hdir hfree content _⟩
    dsimp only
    cases hlink : t.link? (d ++ [target]) with
    | some other =>
      have hto := look_of_link?.mp hlink
      have hfree : ¬ t.HasDirectory (d ++ [target]) := by
        rw [HasDirectory, hto]
        exact fun h ↦ by cases h
      by_cases hfits' : q.Fits
      · rw [hq.walkToLink_link hfits' hto]
        exact hover hfits' hfree
      · cases hwalk : t.walkToLink q with
        | error e => exact ends_throw.mpr ⟨rfl, fun h ↦ absurd h hfits'⟩
        | ok found => exact absurd (hq.fits_of_walkToLink ht hwalk) hfits'
    | none =>
      have hfinds' := hq.walkToLink_finds ht hlink
      generalize t.walkToLink q = found' at hfinds'
      cases hfinds' with
      | refused e hlong => exact ends_throw.mpr ⟨rfl, fun h ↦ absurd h hlong⟩
      | free hfits' hnone =>
        exact ends_set.mpr ⟨hfits', mends_moved ht (hp.directory ht) hne hdir
          (not_hasDirectory_of_none hnone) content _⟩
      | directory _ hdirectory => exact ends_throw.mpr ⟨rfl, fun _ ↦ hdirectory⟩
      | file hfits' hthere' =>
        refine hover hfits' ?_
        rw [HasDirectory, hthere']
        exact fun h ↦ by cases h

/-! ### Replacing -/

section Replacing

variable {content : Text.Bytes} {tag : String}

/-- The file at a route and the draft of its new content. -/
def Beside (d : Route) (name tag : String) (r : Route) : Prop :=
  r = d ++ [draftName name tag] ∨ r = d ++ [name]

/-- Nothing but the draft has been edited, and that only if it can be named. If both can be named,
this comes to pass only where a directory is in the way, or a link. -/
structure Botched (p : Path) (d : Route) (name tag : String) (t t' : FileTree) : Prop where
  edits : Edits (· = d ++ [draftName name tag]) t t'
  fits : (draft p tag).Fits ∨ t' = t
  cause : (draft p tag).Fits → p.Fits → t.link? (d ++ [name]) = none →
    ¬ t.HasDirectory (d ++ [name]) → t.HasDirectory (d ++ [draftName name tag])

/-- Where only the draft has been edited, a directory at the path was there before. -/
theorem botched_of_edits {t' : FileTree} (hfits : (draft p tag).Fits)
    (hedits : Edits (· = d ++ [draftName name tag]) t t')
    (hdir : p.Fits → t'.link? (d ++ [name]) = none → t'.HasDirectory (d ++ [name])) :
    Botched p d name tag t t' := by
  refine ⟨hedits, .inl hfits, fun _ hfits' hlink hfree ↦ absurd (hedits.flat _ ?_) hfree⟩
  exact hdir hfits' ((hedits.alters.links _).trans hlink)

/-- A draft that has the new content is moved over the file. -/
theorem ends_move_filled {t' : FileTree} (hp : t.Reaches p d name) (ht : t.Sound)
    (hfits : (draft p tag).Fits)
    (hedits : Edits (· = d ++ [draftName name tag]) t t')
    (hcontent : t'.bytes? (d ++ [draftName name tag]) = some content) :
    Ends (move (draft p tag) p) t'
      (fun _ t'' ↦ Mends none (Beside d name tag) (fun _ ↦ False) t t'' ∧ (draft p tag).Fits ∧
        p.Fits ∧ t''.look (d ++ [draftName name tag]) = none ∧
        t''.bytes? (d ++ [name]) = some content)
      fun _ t'' ↦ Botched p d name tag t t'' := by
  refine (ends_move hedits.sound ((reaches_draft hp tag).altered ht hedits.alters)
    (hp.altered ht hedits.alters) (draftName_ne name tag) hcontent hfits).mono ?_ ?_
  · rintro _ t'' ⟨hfits', hmoved, hgone, hthere⟩
    exact ⟨(hedits.mends.mono (fun _ ↦ .inl) fun _ ↦ id).trans hmoved, hfits, hfits', hgone,
      hthere⟩
  · rintro e _ ⟨rfl, hdir⟩
    exact botched_of_edits hfits hedits fun hfits' _ ↦ hdir hfits'

/-- Filling the draft and moving it over the file, in the place of a link if one is there. -/
theorem ends_fillAndMove (ht : t.Sound) (hp : t.Reaches p d name)
    (hdraft : t.link? (d ++ [draftName name tag]) = none) :
    Ends (fillAndMove p content tag) t
      (fun _ t' ↦ Mends none (Beside d name tag) (fun _ ↦ False) t t' ∧ (draft p tag).Fits ∧
        p.Fits ∧ t'.look (d ++ [draftName name tag]) = none ∧
        t'.bytes? (d ++ [name]) = some content)
      fun _ t' ↦ Botched p d name tag t t' := by
  unfold fillAndMove
  refine ((ends_openEmpty ht (reaches_draft hp tag) hdraft).mono (fun _ _ h ↦ h) ?_).bind ?_
  · rintro e _ ⟨rfl, hdir⟩
    exact ⟨.refl ht, .inr rfl, fun hfits _ _ _ ↦ hdir hfits⟩
  rintro _ t₁ ⟨rfl, hfits, hopened, hempty⟩
  refine ((ends_append hopened.sound _ content).mono (fun _ _ h ↦ h) fun _ _ h ↦ h.elim).bind ?_
  rintro _ t₂ ⟨happended, hcontent⟩
  have hedits := hopened.trans happended
  have hdone := hcontent [] hempty
  rw [List.nil_append] at hdone
  refine ((ends_holds p _ t₂).mono (fun _ _ h ↦ h) ?_).bind ?_
  · -- Where no link is, a name that fits is not refused.
    rintro e t₂ ⟨rfl, hlong⟩
    refine botched_of_edits hfits hedits fun hfits' hlink ↦ ?_
    have hfinds := (hp.altered ht hedits.alters).walk_finds hedits.sound hlink
    rw [hlong] at hfinds
    cases hfinds with
    | refused e h => exact absurd hfits' h
  rintro there t₂ ⟨rfl, hthere⟩
  dsimp only
  split
  · rename_i hyes
    obtain ⟨-, r, node, hwalk, -⟩ := hthere.mp hyes
    refine Ends.bind (Q := fun _ t' ↦ t' = t₂) ?_ ?_
    · unfold mode
      refine ends_bind.mpr (ends_place.mpr ?_)
      rw [hwalk]
      dsimp only
      split
      · exact ends_pure.mpr rfl
      · exact ends_pure.mpr rfl
      · cases ‹Place.at r node = _›
    · rintro m t₂ rfl
      refine ((ends_setMode hedits.sound ((reaches_draft hp tag).altered ht hedits.alters)
        ?_ m).mono (fun _ _ h ↦ h) ?_).bind ?_
      · rw [hedits.alters.links]
        exact hdraft
      · rintro e _ ⟨rfl, hnone⟩
        rw [bytes?, hnone hfits] at hdone
        cases hdone
      · rintro _ t₃ ⟨hset, hsame⟩
        exact ends_move_filled hp ht hfits (hedits.trans hset) (hsame.trans hdone)
  · exact ends_move_filled hp ht hfits hedits hdone

theorem ends_attempt {α : Type} {act : FileAct α} {ok : Except FileError α → FileTree → Prop}
    {bad : FileError → FileTree → Prop} :
    Ends (attempt act) t ok bad ↔
      Ends act t (fun a t' ↦ ok (.ok a) t') (fun e t' ↦ ok (.error e) t') := by
  unfold Ends attempt
  rcases act t with ⟨_ | _, t'⟩ <;> rfl

/-- Nothing but a file and its draft has been altered, and no draft is left if there was none. -/
structure Rewrites (d : Route) (name tag : String) (t t' : FileTree) : Prop where
  becomes : Becomes (Beside d name tag) t t'
  draft : t.bytes? (d ++ [draftName name tag]) = none →
    t'.bytes? (d ++ [draftName name tag]) = none

/-- If there was no draft, nothing but the file has been altered. -/
theorem Rewrites.alone {t' : FileTree} (h : Rewrites d name tag t t')
    (hunused : t.bytes? (d ++ [draftName name tag]) = none) : Becomes (· = d ++ [name]) t t' := by
  refine ⟨h.becomes.sound, h.becomes.alters.links, h.becomes.alters.directories, fun r hr ↦ ?_⟩
  by_cases hdraft : r = d ++ [draftName name tag]
  · rw [hdraft, h.draft hunused, hunused]
  · exact h.becomes.alters.bytes r fun hor ↦ hor.elim hdraft hr

/-- Replacing the content of a file in a directory that is there, which ends with clearing away the
draft. The path has to lead there still when the file has been replaced. -/
theorem ends_replaceReached (ht : t.Sound) (hreaches : t.Reaches p d name)
    (hdraft : t.link? (d ++ [draftName name tag]) = none)
    (hstays : ∀ t', Mends none (Beside d name tag) (fun _ ↦ False) t t' →
      t'.look (d ++ [draftName name tag]) = none → t'.link? (d ++ [name]) = none →
      t'.Reaches p d name) :
    Ends (do
        let outcome ← attempt (fillAndMove p content tag)
        unlinkIfThere (FileAct.draft p tag)
        match outcome with
        | .ok () => return ()
        | .error e => throw e) t
      (fun _ t' ↦ Mends none (Beside d name tag) (fun _ ↦ False) t t' ∧
        t'.look (d ++ [draftName name tag]) = none ∧ (draft p tag).Fits ∧ p.Fits ∧
        t'.bytes? (d ++ [name]) = some content)
      fun _ t' ↦ Botched p d name tag t t' ∧ (t.bytes? (d ++ [draftName name tag]) = none →
        t'.bytes? (d ++ [draftName name tag]) = none) := by
  refine ends_bind.mpr (ends_attempt.mpr ((ends_fillAndMove ht hreaches hdraft).mono ?_ ?_))
  · rintro _ t₂ ⟨hmends, hfits, hfits', hnone, hcontent⟩
    obtain ⟨mode, hlook⟩ := look_of_bytes? hcontent
    have hto := hstays t₂ hmends hnone (by rw [link?, hlook])
    refine ((ends_unlinkReached hmends.sound (reaches_draft hto tag) (by rw [link?, hnone])).mono
      (fun _ _ h ↦ h) fun _ _ h ↦ absurd (h.2 hfits) (not_hasDirectory_of_none hnone)).bind ?_
    rintro _ t₃ ⟨hedits, hgone, -⟩
    refine ends_pure.mpr ⟨?_, ?_, hfits, hfits', ?_⟩
    · exact hmends.trans (hedits.mends.mono (fun _ ↦ .inl) fun _ ↦ id)
    · refine look_eq_none_of (hgone hfits) ?_ fun hdir ↦ ?_
      · rw [hedits.alters.links, link?, hnone]
      · exact not_hasDirectory_of_none hnone (hedits.flat _ hdir)
    · rw [hedits.alters.bytes _ fun heq ↦ draftName_ne name tag (by simpa using heq.symm)]
      exact hcontent
  · intro e t₂ hbotched
    have hto := (reaches_draft hreaches tag).altered ht hbotched.edits.alters
    have hlink : t₂.link? (d ++ [draftName name tag]) = none := by
      rw [hbotched.edits.alters.links]
      exact hdraft
    have hcleared : ∀ {t₃}, Cleared (draft p tag) (d ++ [draftName name tag]) t₂ t₃ →
        Botched p d name tag t t₃ ∧ (t.bytes? (d ++ [draftName name tag]) = none →
          t₃.bytes? (d ++ [draftName name tag]) = none) := by
      rintro t₃ ⟨hedits, hgone, hsame⟩
      have hall := hbotched.edits.trans hedits
      by_cases hfits : (draft p tag).Fits
      · exact ⟨⟨hall, .inl hfits, hbotched.cause⟩, fun _ ↦ hgone hfits⟩
      · obtain rfl := hbotched.fits.resolve_left hfits
        rw [hsame hfits] at hall ⊢
        exact ⟨⟨hall, .inr rfl, hbotched.cause⟩, id⟩
    refine ((ends_unlinkReached hbotched.edits.sound hto hlink).mono (fun _ _ h ↦ h)
      fun _ _ h ↦ hcleared h.1).bind fun _ t₃ h ↦ ends_throw.mpr (hcleared h)

/-- Where no link leads to the file, it and its draft are edited. -/
theorem ends_replaceReached_edits (ht : t.Sound) (hreaches : t.Reaches p d name)
    (hlink : t.link? (d ++ [name]) = none) (hdraft : t.link? (d ++ [draftName name tag]) = none) :
    Ends (do
        let outcome ← attempt (fillAndMove p content tag)
        unlinkIfThere (FileAct.draft p tag)
        match outcome with
        | .ok () => return ()
        | .error e => throw e) t
      (fun _ t' ↦ Rewrites d name tag t t' ∧ Edits (Beside d name tag) t t' ∧ (draft p tag).Fits ∧
        p.Fits ∧ t'.bytes? (d ++ [name]) = some content)
      fun _ t' ↦ Rewrites d name tag t t' ∧ Botched p d name tag t t' := by
  have hedits : ∀ {t'}, Mends none (Beside d name tag) (fun _ ↦ False) t t' →
      t'.look (d ++ [draftName name tag]) = none → t'.link? (d ++ [name]) = none →
      Edits (Beside d name tag) t t' := by
    intro t' hmends hnone hlink'
    refine hmends.edits ?_
    rintro _ (rfl | rfl)
    · exact ⟨hdraft, by rw [link?, hnone]⟩
    · exact ⟨hlink, hlink'⟩
  refine (ends_replaceReached ht hreaches hdraft fun t' hmends hnone hlink' ↦
    hreaches.altered ht (hedits hmends hnone hlink').alters).mono ?_ ?_
  · rintro _ t' ⟨hmends, hnone, hfits, hfits', hcontent⟩
    obtain ⟨mode, hlook⟩ := look_of_bytes? hcontent
    have hall := hedits hmends hnone (by rw [link?, hlook])
    exact ⟨⟨hall.toBecomes, fun _ ↦ by rw [bytes?, hnone]⟩, hall, hfits, hfits', hcontent⟩
  · rintro e t' ⟨hbotched, hunused⟩
    have hall : Edits (Beside d name tag) t t' := hbotched.edits.mono fun _ ↦ .inl
    exact ⟨⟨hall.toBecomes, hunused⟩, hbotched⟩

/-- The content of a file is replaced, or it is not, and no draft is left. -/
theorem ends_replaceContent (ht : t.Sound) (hp : p.isAbsolute = true)
    (hnames : p.names = p.names.dropLast ++ [name]) (hdots : name ≠ "..")
    (hparent : t.traced p.parent = .done d) (hlink : t.link? (d ++ [name]) = none)
    (hdraft : t.link? (d ++ [draftName name tag]) = none) :
    Ends (replaceContent p content tag) t
      (fun _ t' ↦ Rewrites d name tag t t' ∧ p.Fits ∧ t'.bytes? (d ++ [name]) = some content)
      fun _ t' ↦ Rewrites d name tag t t' := by
  unfold replaceContent
  refine ((ends_makePath (p := p.parent) hp ht).mono (fun _ _ h ↦ h) ?_).bind ?_
  · intro _ t₁ hgrows
    exact ⟨hgrows.mono fun _ ↦ False.elim, fun h ↦ (hgrows.alters.bytes _ id).trans h⟩
  rintro _ t₁ ⟨hgrows, d', hto⟩
  have htraced := Walk.traced (p := p.parent) hgrows.sound hp hto
  rw [traced_congr (p := p.parent) hgrows.alters.links hp, hparent] at htraced
  obtain rfl : d = d' := Resolved.done.inj htraced
  have hgrown : ∀ {t'}, Rewrites d name tag t₁ t' → Rewrites d name tag t t' := fun h ↦
    ⟨(hgrows.mono fun _ ↦ False.elim).trans h.becomes,
      fun hunused ↦ h.draft ((hgrows.alters.bytes _ id).trans hunused)⟩
  refine (ends_replaceReached_edits hgrows.sound ⟨hp, hnames, hdots, hto⟩ ?_ ?_).mono ?_ ?_
  · rw [hgrows.alters.links]
    exact hlink
  · rw [hgrows.alters.links]
    exact hdraft
  · exact fun _ _ ⟨hrewrites, _, _, hcontent⟩ ↦ ⟨hgrown hrewrites, hcontent⟩
  · exact fun _ _ h ↦ hgrown h.1

/-- In a directory that is there no directory is made. -/
theorem ends_replaceContent_edits (ht : t.Sound) (hreaches : t.Reaches p d name)
    (hdots : ".." ∉ p.parent.names) (hlink : t.link? (d ++ [name]) = none)
    (hdraft : t.link? (d ++ [draftName name tag]) = none) :
    Ends (replaceContent p content tag) t (fun _ t' ↦ Edits (Beside d name tag) t t')
      fun _ t' ↦ Edits (Beside d name tag) t t' := by
  have hto : Walk t true linkLimit [] p.parent.names (.at d (.directory 0)) := hreaches.walk
  have hhere : ∀ {t₁}, ¬ Grafts p.parent t t₁ := by
    intro t₁ hgrafts
    obtain ⟨d', hnew, hnone, -⟩ := hgrafts.sprouts
    cases hnew.functional (hto.altered hgrafts.grows.alters ht ht.root)
    rw [hreaches.directory ht] at hnone
    cases hnone
  unfold replaceContent
  refine ((ends_makePath_sprouts (p := p.parent) hreaches.absolute hdots ht).mono
    (fun _ _ h ↦ h) ?_).bind ?_
  · rintro e t₁ ⟨hgrows, rfl | ⟨above, rest, hsplit, hrest, hsprouts⟩⟩
    · exact .refl ht
    · have hwalk := hto.altered hgrows.alters ht ht.root
      rw [hsplit] at hwalk
      exact absurd hwalk (hsprouts.no_walk hgrows.sound hrest
        fun h ↦ hdots (hsplit ▸ List.mem_append_right _ h))
  · rintro _ t₁ (hgrafts | ⟨rfl, -⟩)
    · exact absurd hgrafts hhere
    · exact (ends_replaceReached_edits ht hreaches hlink hdraft).mono (fun _ _ h ↦ h.2.1)
        fun _ _ h ↦ h.2.edits.mono fun _ ↦ .inl

end Replacing

end FileAct

end Remedy
