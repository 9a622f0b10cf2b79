import Mathlib.Data.List.Infix
import Remedy.Proofs.Backup.Coherence
import Remedy.Proofs.Backup.Undoing
import Remedy.Proofs.Tree.Clearance

/-!
# Putting files back, whatever has become of them

A snapshot is restored into a tree in which anything may lie at its paths: other files, nothing,
directories, or links to files elsewhere. It is only assumed that what lies above the paths are
directories, as far as anything lies there, and that nothing has the names that are drawn for
drafts.

What makes the loop over the files work is that they fit together (`Snapshot.Coherent`): putting
one of them back leaves alone those that have been put back before, and leaves the others within
reach (`Snapshot.Ready.mended`, `Snapshot.Restored.mended`). A file is either put back or as it was,
and a file with nothing in its way can be put back (`Store.ends_restoreFile_clear`), as one can that
is as the snapshot says (`Snapshot.Restored.recoverable`).
So all files are put back or those that are not are named, no other file is touched, and when all
have been put back, doing it again changes nothing (`Store.reinstated_of_snapshot`).

The log goes on being written meanwhile: where it is a file, its own content is only known to begin
with what is said here (`FileTree.Grown`).
-/

set_option autoImplicit false

namespace Remedy

open FileTree

/-! ### Names of drafts -/

theorem size_drawnName (n : ℕ) : (drawnName n).utf8ByteSize = 8 := by
  have hpadded : ∀ places n,
      (String.ofList (Text.hexPadded places n)).utf8ByteSize = places := by
    intro places
    induction places with
    | zero => exact fun _ ↦ rfl
    | succ places ih =>
      intro n
      have hdigit : ∀ d < 16, (String.ofList [Text.hexDigit d]).utf8ByteSize = 1 := by decide
      rw [Text.hexPadded, String.ofList_append, String.utf8ByteSize_append, ih,
        hdigit _ (Nat.mod_lt _ (by decide))]
  exact hpadded 8 n

theorem FileAct.size_draftName (name tag : String) :
    (FileAct.draftName name tag).utf8ByteSize = name.utf8ByteSize + tag.utf8ByteSize + 6 := by
  have hdot : ".".utf8ByteSize = 1 := rfl
  have htmp : ".tmp".utf8ByteSize = 4 := rfl
  simp only [FileAct.draftName, toString, String.utf8ByteSize_append, hdot, htmp]
  omega

namespace Route

variable {d : Route} {name name' : String}

theorem Fits.of_size (h : Fits (d ++ [name])) (hsize : name'.utf8ByteSize = name.utf8ByteSize) :
    Fits (d ++ [name']) := by
  have htext : ∀ name : String, (Route.path (d ++ [name])).text.utf8ByteSize =
      1 + ((String.intercalate "/" (d ++ [name]))).utf8ByteSize := by
    intro name
    rw [Route.path, Path.text]
    exact String.utf8ByteSize_append
  refine ⟨le_of_eq_of_le ?_ h.1, fun m hm ↦ ?_⟩
  · rw [htext, htext]
    rcases d with _ | ⟨first, rest⟩
    · simpa using hsize
    · simp only [String.intercalate_append_of_ne_nil (List.cons_ne_nil first rest)
        (List.cons_ne_nil _ _), String.utf8ByteSize_append]
      simpa using hsize
  · rcases List.mem_append.mp hm with hm | hm
    · exact h.2 m (List.mem_append_left _ hm)
    · rw [List.mem_singleton.mp hm, hsize]
      exact h.2 name (by simp)

theorem Fits.draft {r : Route} (hr : r ≠ []) {n : ℕ} (h : (r.draft n).Fits) (m : ℕ) :
    (r.draft m).Fits := by
  obtain ⟨d, name, rfl⟩ : ∃ d name, r = d ++ [name] :=
    ⟨r.dropLast, r.getLast hr, (List.dropLast_concat_getLast hr).symm⟩
  rw [Route.draft_concat] at h ⊢
  refine h.of_size ?_
  rw [FileAct.size_draftName, FileAct.size_draftName, size_drawnName, size_drawnName]

end Route

/-! ### The log -/

/-- The log has been written to, and nothing else is different. -/
structure World.Logs (w w' : World) : Prop where
  log : w'.logFile = w.logFile
  draws : w'.draws = w.draws
  mends : w.files.Sound → Mends w.logFile (fun _ ↦ False) (fun _ ↦ False) w.files w'.files

theorem World.Logs.refl (w : World) : w.Logs w :=
  ⟨rfl, rfl, .refl⟩

theorem World.Logs.trans {w w' w'' : World} (h : w.Logs w') (h' : w'.Logs w'') : w.Logs w'' where
  log := h'.log.trans h.log
  draws := h'.draws.trans h.draws
  mends hw := (h.mends hw).trans (h.log ▸ h'.mends (h.mends hw).sound)

theorem FileAct.ends_append_bytes (t : FileTree) (r : Route) (content : Text.Bytes) :
    Ends (FileAct.append r content) t
      (fun _ t' ↦ t'.bytes? r = (t.bytes? r).map (· ++ content)) fun _ _ ↦ False := by
  refine ends_modify.mpr ?_
  split
  · rename_i old mode hnode
    simp [bytes?, look_set, look_of_node? hnode, Node.still]
  · rename_i hnode
    cases hbytes : t.bytes? r with
    | none => rfl
    | some old =>
      obtain ⟨mode, hlook⟩ := look_of_bytes? hbytes
      exact absurd (node?_of_look hlook fun _ h ↦ by cases h) (hnode old mode)

/-- What is appended to a file can be read as what has been logged there. -/
theorem FileAct.ends_append_mends {t : FileTree} (ht : t.Sound) (r : Route)
    (content : Text.Bytes) :
    Ends (FileAct.append r content) t
      (fun _ t' ↦ Mends (some r) (fun _ ↦ False) (fun _ ↦ False) t t') fun _ _ ↦ False := by
  refine ((FileAct.ends_append ht r content).and (FileAct.ends_append_bytes t r content)).mono ?_
    fun _ _ h ↦ h.1
  rintro _ t' ⟨⟨hedits, -⟩, hbytes⟩
  refine ⟨hedits.sound, fun q _ ↦ hedits.alters.links q, fun q _ ↦ ?_, hedits.alters.directories,
    fun q hq ↦ .inl (hedits.flat q hq)⟩
  by_cases hq : q = r
  · subst hq
    exact ⟨content, hbytes, fun hne ↦ absurd rfl hne⟩
  · rw [hedits.alters.bytes q hq]
    exact .refl _ _ _

namespace Act

theorem logs_record (event : Event) : Keeps World.Logs (record event) := by
  refine keeps_modify fun w ↦ ?_
  dsimp only
  split
  · rename_i route hroute hprints
    refine ⟨rfl, rfl, fun hw ↦ ?_⟩
    rw [show w.logFile = some route from hroute]
    exact ends_modify.mp (FileAct.ends_append_mends hw route _)
  · exact ⟨rfl, rfl, .refl⟩

theorem ends_log_logs {level : LogLevel} {name : String} {fields : List (String × Json)}
    {w : World} {ok : Unit → World → Prop} {bad : Fault → World → Prop}
    (h : ∀ w', w.Logs w' → ok () w') : Ends (log level name fields) w ok bad :=
  ends_modify.mpr (h _ (logs_record _ w))

end Act

/-! ### One file after the other -/

namespace Snapshot

variable {files : List (Route × Option Text.Bytes)} {e : Route × Option Text.Bytes} {n : ℕ}
  {t t' : FileTree} {log : Option Route} {only : Route → Prop}

/-- The route lies above a file that was there. -/
def Above (files : List (Route × Option Text.Bytes)) (q : Route) : Prop :=
  ∃ e ∈ files, e.2 ≠ none ∧ q <+: e.1 ∧ q ≠ e.1

/-- No file of the snapshot is at or below a draft that is still to be drawn. -/
def Draftable (files : List (Route × Option Text.Bytes)) (n : ℕ) : Prop :=
  ∀ e ∈ files, ∀ m, n < m → ∀ e' ∈ files, ¬ e.1.draft m <+: e'.1

/-- The files can be got at, and nothing is where drafts are still to be drawn. -/
structure Ready (files : List (Route × Option Text.Bytes)) (n : ℕ) (t : FileTree) : Prop where
  sound : t.Sound
  clear : ∀ e ∈ files, t.Clear e.1
  unused : ∀ e ∈ files, ∀ m, n < m → t.look (e.1.draft m) = none

/-- It stays so when no file is touched that stands where a directory belongs. -/
theorem Ready.mended (h : Ready files n t) (hdrafts : Draftable files n)
    (hmends : Mends log only (Above files) t t') (honly : ∀ q, only q → ∃ e ∈ files, q = e.1)
    (hleaf : ∀ q, only q → ∀ e ∈ files, q <+: e.1 → q = e.1) : Ready files n t' where
  sound := hmends.sound
  clear e he := (h.clear e he).mended hmends fun p hp hne hp' ↦ hne (hleaf p hp' e he hp)
  unused e he m hm := by
    refine hmends.look_eq_none (fun hq ↦ ?_) ?_ (h.unused e he m hm)
    · obtain ⟨e', he', heq⟩ := honly _ hq
      exact hdrafts e he m hm e' he' (heq ▸ List.prefix_rfl)
    · rintro ⟨e', he', -, habove, -⟩
      exact hdrafts e he m hm e' he' habove

/-- A file is as the snapshot says, and it could be put back once more. -/
structure Restored (log : Option Route) (t : FileTree) (e : Route × Option Text.Bytes) : Prop where
  bytes : Grown log e.1 e.2 (t.bytes? e.1)
  gone : e.2 = none → t.look e.1 = none ∧ t.Passable e.1
  fits : e.2 ≠ none → e.1.Fits ∧ ∀ m, (e.1.draft m).Fits

theorem Restored.logged (h : Restored none t e) : Restored log t e :=
  { h with bytes := h.bytes.of_none }

theorem Restored.link_eq_none (h : Restored log t e) : t.link? e.1 = none := by
  by_cases hthere : e.2 = none
  · rw [link?, (h.gone hthere).1]
  · obtain ⟨content, hcontent⟩ := Option.ne_none_iff_exists'.mp fun hnone ↦
      hthere (h.bytes.none_iff.mp hnone)
    obtain ⟨mode, hlook⟩ := look_of_bytes? hcontent
    rw [link?, hlook]

theorem Restored.passable (h : Restored log t e) : t.Passable e.1 := by
  by_cases hthere : e.2 = none
  · exact (h.gone hthere).2
  · exact (h.fits hthere).1.passable t

theorem Restored.mended (h : Restored log t e) (hfiles : Coherent files) (he : e ∈ files)
    (hmends : Mends log only (Above files) t t') (honly : ¬ only e.1) : Restored log t' e where
  bytes := h.bytes.trans (hmends.bytes e.1 honly)
  gone hnone := by
    obtain ⟨hlook, hpass⟩ := h.gone hnone
    refine ⟨hmends.look_eq_none honly ?_ hlook, hpass.mended hmends ?_⟩
    · rintro ⟨e', he', hthere, habove, hne⟩
      exact hne (hfiles.apart e' he' hthere e he (.inr habove))
    · rintro p m ⟨e', he', hthere, habove, hne⟩ hpm
      exact hfiles.short e' he' hthere e he p m habove hne hpm
  fits := h.fits

/-- What is a file of the snapshot can be named as one. -/
def NulFree (e : Route × Option Text.Bytes) : Prop :=
  e.2 ≠ none → (Route.path e.1).hasNul = false

/-- A file can be put back: nothing but a file is in its place, if anything is, and it can be named
there. If it was there, so can its drafts, and the directory of both is there. -/
structure Recoverable (t : FileTree) (e : Route × Option Text.Bytes) : Prop where
  no_link : t.link? e.1 = none
  no_directory : ¬ t.HasDirectory e.1
  passable : e.2 = none → t.Passable e.1
  fits : e.2 ≠ none → e.1.Fits ∧ ∀ m, (e.1.draft m).Fits
  parent : e.2 ≠ none → t.HasDirectory e.1.dropLast
  nul : NulFree e

theorem Restored.recoverable (h : Restored log t e) (ht : t.Sound) (hne : e.1 ≠ [])
    (hnul : NulFree e) : Recoverable t e where
  no_link := h.link_eq_none
  no_directory := by
    by_cases hthere : e.2 = none
    · exact not_hasDirectory_of_none (h.gone hthere).1
    · exact not_hasDirectory_of_bytes fun hnone ↦ hthere (h.bytes.none_iff.mp hnone)
  passable hnone := (h.gone hnone).2
  fits := h.fits
  parent hthere := by
    refine ht.above (fun hnone ↦ hthere (h.bytes.none_iff.mp ?_)) (List.dropLast_prefix _)
      fun heq ↦ ?_
    · rw [bytes?, hnone]
    · have hlength := congrArg List.length heq
      rw [List.length_dropLast] at hlength
      exact absurd (List.length_pos_iff.mpr hne) (by omega)
  nul := hnul

theorem Recoverable.mended (h : Recoverable t e) (hfiles : Coherent files) (he : e ∈ files)
    (hmends : Mends log only (Above files) t t') (honly : ¬ only e.1) : Recoverable t' e where
  no_link := (hmends.links e.1 honly).trans h.no_link
  no_directory hdir := by
    rcases hmends.made e.1 hdir with hthere | ⟨e', he', hthere, habove, hne⟩
    · exact h.no_directory hthere
    · exact hne (hfiles.apart e' he' hthere e he (.inr habove))
  passable hnone := by
    refine (h.passable hnone).mended hmends ?_
    rintro p m ⟨e', he', hthere, habove, hne⟩ hpm
    exact hfiles.short e' he' hthere e he p m habove hne hpm
  fits := h.fits
  parent hthere := hmends.kept _ (h.parent hthere)
  nul := h.nul

end Snapshot

open Snapshot

namespace Store

variable {files : List (Route × Option Text.Bytes)} {e : Route × Option Text.Bytes} {n : ℕ}
  {w : World}

/-- Where a file is put back, nothing else gets in the way of the files. If it was not there, what is
taken away is no directory. -/
theorem ready_of_mends {r : Route} {content : Option Text.Bytes} {only : Route → Prop}
    {t : FileTree} (hfiles : Coherent files) (hdrafts : Draftable files n)
    (he : (r, content) ∈ files) (hready : Ready files n w.files)
    (hmends : Mends none only (Above files) w.files t)
    (honly : ∀ q, only q → q = r ∧
      (content = none → w.files.look q ≠ none ∧ ¬ w.files.HasDirectory q)) : Ready files n t := by
  refine hready.mended hdrafts hmends (fun q hq ↦ ⟨_, he, (honly q hq).1⟩) ?_
  intro q hq e' he' hprefix
  obtain ⟨rfl, hthere⟩ := honly q hq
  by_contra hproper
  cases content with
  | some content =>
    exact hproper (hfiles.apart _ he (Option.some_ne_none _) e' he' (.inl hprefix)).symm
  | none =>
    obtain ⟨hlook, hdir⟩ := hthere rfl
    exact ((hready.clear e' he').above q hprefix hproper).elim hdir hlook

/-- What putting back one file leaves: the file as it should be, or an error and the file as it was.
There is no error if nothing was in the way. -/
structure Reinstates (files : List (Route × Option Text.Bytes)) (n : ℕ)
    (e : Route × Option Text.Bytes) (w : World) (outcome : Except FileError Unit) (w' : World) :
    Prop where
  logFile : w'.logFile = w.logFile
  drawn : n ≤ w'.draws
  ready : Ready files n w'.files
  mends : Mends none (· = e.1) (Above files) w.files w'.files
  restored : outcome = .ok () → Restored none w'.files e
  succeeds : Recoverable w.files e → outcome = .ok ()

/-- A file that there was not is removed. -/
theorem ends_restoreFile_missing {r : Route} (hfiles : Coherent files) (hdrafts : Draftable files n)
    (he : (r, none) ∈ files) (hready : Ready files n w.files) (hn : n ≤ w.draws) :
    Ends (restoreFile r none) w (Reinstates files n (r, none) w) fun _ _ ↦ False := by
  unfold restoreFile
  refine Act.ends_tryFiles.mpr ((FileAct.ends_unlinkIfThere_clear hready.sound (hready.clear _ he)
    (hfiles.ne_nil _ he)).mono ?_ ?_)
  · rintro _ t ⟨hmends, hnone, hpass⟩
    have hbytes : t.bytes? r = none := by rw [bytes?, hnone]
    refine ⟨rfl, hn, ready_of_mends hfiles hdrafts he hready
      (hmends.mono (fun _ ↦ id) fun _ ↦ False.elim) ?_,
      hmends.mono (fun _ h ↦ h.1) fun _ ↦ False.elim, fun _ ↦ ⟨?_, ?_, ?_⟩, fun _ ↦ rfl⟩
    · rintro _ ⟨rfl, hlook, hdir⟩
      exact ⟨rfl, fun _ ↦ ⟨hlook, hdir⟩⟩
    · show Grown none r none (t.bytes? r)
      rw [hbytes]
      exact .refl _ _ _
    · exact fun _ ↦ ⟨hnone, hpass.mended hmends fun _ _ ↦ False.elim⟩
    · exact fun h ↦ absurd rfl h
  · rintro cause t ⟨rfl, hdir⟩
    refine ⟨rfl, hn, hready, .refl hready.sound, by simp, fun h ↦ ?_⟩
    exact absurd (hdir (h.passable rfl)) h.no_directory

/-- A file that there was is written, through a draft beside it. -/
theorem ends_restoreFile_present {r : Route} {content : Text.Bytes} (hfiles : Coherent files)
    (hdrafts : Draftable files n) (he : (r, some content) ∈ files)
    (hready : Ready files n w.files) (hn : n ≤ w.draws) :
    Ends (restoreFile r (some content)) w (Reinstates files n (r, some content) w)
      fun _ _ ↦ False := by
  have hne := hfiles.ne_nil _ he
  obtain ⟨d, name, rfl⟩ : ∃ d name, r = d ++ [name] :=
    ⟨r.dropLast, r.getLast hne, (List.dropLast_concat_getLast hne).symm⟩
  have hunused := hready.unused _ he (w.draws + 1) (Nat.lt_succ_of_le hn)
  rw [Route.draft_concat] at hunused
  have habove : ∀ q, q <+: d → Above files q := fun q hq ↦
    ⟨_, he, Option.some_ne_none _, hq.trans (List.prefix_append _ _), by
      rintro rfl
      simpa using hq.length_le⟩
  unfold restoreFile Act.replaceContent Act.drawName
  refine ends_bind.mpr (ends_bind.mpr (ends_get.mpr (ends_bind.mpr (ends_set.mpr ?_))))
  refine ends_pure.mpr (Act.ends_tryFiles.mpr ?_)
  refine (FileAct.ends_replaceContent_clear hready.sound (hready.clear _ he) hunused).mono ?_ ?_
  · rintro _ t ⟨hmends, hbytes, hfits, hdraft⟩
    have hmends := hmends.mono (fun _ ↦ id) habove
    refine ⟨rfl, Nat.le_succ_of_le hn, ready_of_mends hfiles hdrafts he hready hmends ?_, hmends,
      fun _ ↦ ⟨?_, fun h ↦ absurd h (Option.some_ne_none _), fun _ ↦ ⟨hfits, ?_⟩⟩, fun _ ↦ rfl⟩
    · rintro _ rfl
      exact ⟨rfl, fun h ↦ absurd h (Option.some_ne_none _)⟩
    · show Grown none _ (some content) (t.bytes? (d ++ [name]))
      rw [hbytes]
      exact .refl _ _ _
    · exact Route.Fits.draft hne (n := w.draws + 1) (by rwa [Route.draft_concat])
  · rintro cause t ⟨hmends, hcause⟩
    have hmends := hmends.mono (fun _ ↦ id) habove
    refine ⟨rfl, Nat.le_succ_of_le hn,
      ready_of_mends hfiles hdrafts he hready hmends (fun _ ↦ False.elim),
      hmends.mono (fun _ ↦ False.elim) fun _ ↦ id, nofun, fun h ↦ ?_⟩
    obtain ⟨hfits, hdrafts⟩ := h.fits (Option.some_ne_none _)
    have hdraft := hdrafts (w.draws + 1)
    have hparent := h.parent (Option.some_ne_none _)
    rw [Route.draft_concat] at hdraft
    rw [List.dropLast_concat] at hparent
    exact absurd (hcause hfits hdraft (h.nul (Option.some_ne_none _)) hparent h.no_link)
      h.no_directory

/-- Putting one file back either succeeds or leaves it as it was. It succeeds if nothing is in the
way. -/
theorem ends_restoreFile_clear (hfiles : Coherent files) (hdrafts : Draftable files n)
    (he : e ∈ files) (hready : Ready files n w.files) (hn : n ≤ w.draws) :
    Ends (restoreFile e.1 e.2) w (Reinstates files n e w) fun _ _ ↦ False := by
  obtain ⟨r, content⟩ := e
  cases content with
  | none => exact ends_restoreFile_missing hfiles hdrafts he hready hn
  | some content => exact ends_restoreFile_present hfiles hdrafts he hready hn

/-- What putting back some files of a snapshot leaves, those in `failed` having failed. -/
structure Leaves (files : List (Route × Option Text.Bytes)) (n : ℕ) (log : Option Route)
    (entries : List (Route × Option Text.Bytes)) (failed : List Route) (w w' : World) : Prop where
  logFile : w'.logFile = w.logFile
  drawn : n ≤ w'.draws
  ready : Ready files n w'.files
  mends : Mends log (· ∈ entries.map (·.1)) (Above files) w.files w'.files
  named : ∀ r ∈ failed, r ∈ entries.map (·.1)
  restored : ∀ e ∈ entries, e.1 ∉ failed → Restored log w'.files e

/-- What the first file leaves goes before what the others leave. -/
theorem Leaves.cons {log : Option Route} {entries : List (Route × Option Text.Bytes)}
    {failed failed' : List Route} {w₁ w' : World} (h : Leaves files n log entries failed w₁ w')
    (hlog : w₁.logFile = w.logFile)
    (hfirst : Mends log (· = e.1) (Above files) w.files w₁.files)
    (hnamed : ∀ r ∈ failed', r = e.1 ∨ r ∈ failed) (hsub : failed ⊆ failed')
    (hrestored : e.1 ∉ failed' → Restored log w'.files e) :
    Leaves files n log (e :: entries) failed' w w' where
  logFile := h.logFile.trans hlog
  drawn := h.drawn
  ready := h.ready
  mends := (hfirst.mono (fun _ hq ↦ List.mem_cons.mpr (.inl hq)) fun _ ↦ id).trans
    (h.mends.mono (fun _ hq ↦ List.mem_cons.mpr (.inr hq)) fun _ ↦ id)
  named r hr := List.mem_cons.mpr ((hnamed r hr).imp_right (h.named r))
  restored := List.forall_mem_cons.mpr
    ⟨hrestored, fun e' he' hnot ↦ h.restored e' he' fun hmem ↦ hnot (hsub hmem)⟩

/-- Every file is put back, or is named. Nothing is logged if none is. -/
theorem ends_restoreFiles_clear (hfiles : Coherent files) (hdrafts : Draftable files n)
    (entries : List (Route × Option Text.Bytes)) (hsub : ∀ e ∈ entries, e ∈ files)
    (hnodup : (entries.map (·.1)).Nodup) (hready : Ready files n w.files) (hn : n ≤ w.draws) :
    Ends (restoreFiles entries) w
      (fun failed w' ↦ Leaves files n w.logFile entries failed w w' ∧
        (failed = [] → Leaves files n none entries failed w w') ∧
        ((∀ e ∈ entries, Recoverable w.files e) → failed = []))
      fun _ _ ↦ False := by
  induction entries generalizing w with
  | nil =>
    have hleaves : ∀ log, Leaves files n log [] [] w w := fun log ↦
      ⟨rfl, hn, hready, .refl hready.sound, by simp, by simp⟩
    exact ends_pure.mpr ⟨hleaves _, fun _ ↦ hleaves _, fun _ ↦ rfl⟩
  | cons e rest ih =>
    obtain ⟨he, hrest⟩ := List.forall_mem_cons.mp hsub
    obtain ⟨hnew, hnodup⟩ := List.nodup_cons.mp hnodup
    refine (ends_restoreFile_clear hfiles hdrafts he hready hn).bind ?_
    rintro outcome w₁ ⟨hlog, hn₁, hready₁, hmends, hrestored, hsucceeds⟩
    cases outcome with
    | ok _ =>
      refine (ih hrest hnodup hready₁ hn₁).mono ?_ fun _ _ h ↦ h
      rintro failed w₂ ⟨hall, hquiet, hagain⟩
      have hleaves : ∀ {log}, Leaves files n log rest failed w₁ w₂ →
          Leaves files n log (e :: rest) failed w w₂ := fun h ↦
        h.cons hlog hmends.logged (fun _ ↦ .inr) (List.Subset.refl _) fun _ ↦
          (hrestored rfl).logged.mended hfiles he h.mends hnew
      rw [hlog] at hall
      refine ⟨hleaves hall, fun hnone ↦ hleaves (hquiet hnone), fun hbefore ↦ hagain ?_⟩
      intro e' he'
      refine (hbefore e' (List.mem_cons_of_mem _ he')).mended hfiles (hrest e' he') hmends
        fun heq ↦ hnew ?_
      exact List.mem_map.mpr ⟨e', he', heq⟩
    | error cause =>
      refine ends_bind.mpr (Act.ends_log_logs fun w₂ hlogs ↦ ?_)
      have hlogged := hlogs.mends hready₁.sound
      have hready₂ := hready₁.mended hdrafts (hlogged.mono (fun _ ↦ id) fun _ ↦ False.elim)
        (fun _ ↦ False.elim) fun _ ↦ False.elim
      refine (ih hrest hnodup hready₂ (hlogs.draws ▸ hn₁)).bind ?_
      rintro failed w₃ ⟨hall, -, -⟩
      rw [hlogs.log, hlog] at hall
      rw [hlog] at hlogged
      refine ends_pure.mpr ⟨?_, (fun h ↦ by cases h), fun hbefore ↦ ?_⟩
      · exact hall.cons (hlogs.log.trans hlog)
          (hmends.logged.trans (hlogged.mono (fun _ ↦ False.elim) fun _ ↦ False.elim))
          (fun _ ↦ List.mem_cons.mp) (List.subset_cons_self _ _)
          fun h ↦ absurd List.mem_cons_self h
      · cases hsucceeds (hbefore e List.mem_cons_self)

/-! ### Checking -/

/-- The digest that is found where these bytes are, none if the file cannot be named. -/
def foundDigest (r : Route) (content : Option Text.Bytes) : Option String :=
  if (Route.path r).hasNul then none else Digest.ofContent content

theorem nulFree_of_foundDigest {content : Option Text.Bytes}
    (h : foundDigest e.1 content = Digest.ofContent e.2) : NulFree e := by
  intro hthere
  by_contra hnul
  rw [foundDigest, if_pos (by simpa using hnul)] at h
  exact hthere (Option.map_eq_none_iff.mp h.symm)

theorem NulFree.foundDigest_eq (h : NulFree e) :
    foundDigest e.1 e.2 = Digest.ofContent e.2 := by
  unfold foundDigest
  split
  · rename_i hnul
    by_cases hthere : e.2 = none
    · rw [hthere]
      rfl
    · rw [h hthere] at hnul
      cases hnul
  · rfl

/-- The digest of a file at a clear route, none if it cannot be named. -/
theorem ends_currentDigest_clear {r : Route} (hw : w.files.Sound) (hclear : w.files.Clear r)
    (hlink : w.files.link? r = none) (hpass : w.files.Passable r) :
    Ends (currentDigest r) w
      (fun digest w' ↦ w' = w ∧ digest = foundDigest r (w.files.bytes? r)) fun _ _ ↦ False := by
  have hmeets := hclear.walk_meets hw hlink
  unfold currentDigest
  refine ends_bind.mpr (Act.ends_onFiles.mpr ((FileAct.ends_holds _ _ _).mono ?_ ?_))
  · rintro there t ⟨rfl, hthere⟩
    split
    · rename_i hyes
      obtain ⟨hnul, q, node, hwalk, hfile⟩ := hthere.mp hyes
      rw [hwalk] at hmeets
      cases node with
      | file content mode =>
        unfold FileAct.read
        refine ends_bind.mpr (Act.ends_onFiles.mpr (ends_bind.mpr (FileAct.ends_place.mpr ?_)))
        dsimp only
        rw [hwalk]
        refine ends_pure.mpr (ends_pure.mpr ⟨rfl, ?_⟩)
        rw [foundDigest, if_neg (by simp [hnul]), hmeets.bytes_of_file]
        rfl
      | _ => cases hfile
    · rename_i hno
      refine ends_pure.mpr ⟨rfl, ?_⟩
      unfold foundDigest
      split
      · rfl
      · rename_i hnul
        cases hbytes : w.files.bytes? r with
        | none => rfl
        | some content =>
          obtain ⟨mode, hlook⟩ := look_of_bytes? hbytes
          obtain ⟨node, hwalk, hstill⟩ := hmeets.found_of_look hpass hlook
          refine absurd (hthere.mpr ⟨by simpa using hnul, r, node, hwalk, ?_⟩) hno
          cases node with
          | file => rfl
          | _ => cases hstill
  · rintro e t ⟨rfl, hlong⟩
    rw [hlong] at hmeets
    cases hmeets with
    | tooLong h => exact h hpass

/-- What is found of files that are checked: those that are not as they should be, which a file that
is and that can be named is not among. Nothing is logged if there are none. -/
structure Verifies (failed : List Route) (entries : List (Route × Option Text.Bytes)) (w : World)
    (altered : List Route) (w' : World) : Prop where
  logs : w.Logs w'
  named : ∀ r ∈ altered, r ∈ entries.map (·.1)
  quiet : altered = [] → w' = w ∧ ∀ e ∈ entries, e.1 ∉ failed → NulFree e
  none : (∀ e ∈ entries, e.1 ∉ failed → Restored none w.files e ∧ NulFree e) → altered = []

/-- A file that failed before, or is as it should be, goes before what is found of the others. -/
theorem Verifies.cons {failed altered : List Route} {entries : List (Route × Option Text.Bytes)}
    {w' : World} (h : Verifies failed entries w altered w') (he : e.1 ∉ failed → NulFree e) :
    Verifies failed (e :: entries) w altered w' where
  logs := h.logs
  named r hr := List.mem_cons_of_mem _ (h.named r hr)
  quiet hnone := ⟨(h.quiet hnone).1, List.forall_mem_cons.mpr ⟨he, (h.quiet hnone).2⟩⟩
  none hbefore := h.none fun e' he' ↦ hbefore e' (List.mem_cons_of_mem _ he')

/-- A file that is not as it should be is named before those that are found afterwards. -/
theorem Verifies.cons_altered {failed altered : List Route}
    {entries : List (Route × Option Text.Bytes)} {w₁ w' : World}
    (h : Verifies failed entries w₁ altered w') (hlogs : w.Logs w₁) (hfailed : e.1 ∉ failed)
    (he : ¬ (Restored Option.none w.files e ∧ NulFree e)) :
    Verifies failed (e :: entries) w (e.1 :: altered) w' where
  logs := hlogs.trans h.logs
  named := List.forall_mem_cons.mpr
    ⟨List.mem_cons_self, fun r hr ↦ List.mem_cons_of_mem _ (h.named r hr)⟩
  quiet h := absurd h (List.cons_ne_nil _ _)
  none hbefore := absurd (hbefore e List.mem_cons_self hfailed) he

/-- Files that have been put back are found to be as they should, unless they cannot be named. -/
theorem ends_findAltered_clear (hfiles : Coherent files) (failed : List Route)
    (entries : List (Route × Option Text.Bytes)) (hsub : ∀ e ∈ entries, e ∈ files)
    (hw : w.files.Sound) (hclear : ∀ e ∈ entries, w.files.Clear e.1)
    (hrestored : ∀ e ∈ entries, e.1 ∉ failed → Restored w.logFile w.files e) :
    Ends (findAltered failed (entries.map fun e ↦ (e.1, Digest.ofContent e.2))) w
      (Verifies failed entries w) fun _ _ ↦ False := by
  induction entries generalizing w with
  | nil => exact ends_pure.mpr ⟨.refl w, by simp, by simp, fun _ ↦ rfl⟩
  | cons e rest ih =>
    obtain ⟨he, hrest⟩ := List.forall_mem_cons.mp hsub
    obtain ⟨hclearHead, hclear⟩ := List.forall_mem_cons.mp hclear
    obtain ⟨hfirst, hrestored⟩ := List.forall_mem_cons.mp hrestored
    rw [List.map_cons]
    unfold findAltered
    split
    case isTrue hfailed =>
      have hfailed : e.1 ∈ failed := by simpa using hfailed
      exact (ih hrest hw hclear hrestored).mono (fun _ _ h ↦ h.cons (absurd hfailed))
        fun _ _ h ↦ h
    case isFalse hfailed =>
      have hfailed : e.1 ∉ failed := by simpa using hfailed
      have hthere := hfirst hfailed
      refine (ends_currentDigest_clear hw hclearHead hthere.link_eq_none hthere.passable).bind ?_
      rintro digest w' ⟨rfl, hdigest⟩
      split
      case isTrue hsame =>
        have hnul : NulFree e := nulFree_of_foundDigest (hdigest.symm.trans hsame)
        exact (ih hrest hw hclear hrestored).mono (fun _ _ h ↦ h.cons fun _ ↦ hnul)
          fun _ _ h ↦ h
      case isFalse hother =>
        refine ends_bind.mpr (Act.ends_log_logs fun w₁ hlogs ↦ ?_)
        have hlogged := hlogs.mends hw
        have habove : Mends w'.logFile (fun _ ↦ False) (Above files) w'.files w₁.files :=
          hlogged.mono (fun _ ↦ id) fun _ ↦ False.elim
        have hstill : ∀ e' ∈ rest, e'.1 ∉ failed → Restored w₁.logFile w₁.files e' := by
          intro e' he' h
          rw [hlogs.log]
          exact (hrestored e' he' h).mended hfiles (hrest e' he') habove id
        refine (ih hrest hlogged.sound
          (fun e' he' ↦ (hclear e' he').mended hlogged fun _ _ _ ↦ id) hstill).bind ?_
        intro altered w₂ h
        refine ends_pure.mpr (h.cons_altered hlogs hfailed fun hsame ↦ hother ?_)
        obtain ⟨hexact, hnul⟩ := hsame
        rw [hdigest, hexact.bytes.eq (fun h ↦ by cases h)]
        exact NulFree.foundDigest_eq hnul

/-! ### Restoring -/

theorem Leaves.begun {entries : List (Route × Option Text.Bytes)} {failed : List Route}
    {w₁ w' : World} (hw : w.files.Sound) (hlogs : w.Logs w₁)
    (h : Leaves files n w₁.logFile entries failed w₁ w') :
    Leaves files n w.logFile entries failed w w' := by
  rw [hlogs.log] at h
  refine { h with
    logFile := h.logFile.trans hlogs.log
    mends := ?_ }
  exact ((hlogs.mends hw).mono (fun _ ↦ False.elim) fun _ ↦ False.elim).trans h.mends

theorem Leaves.ended {entries : List (Route × Option Text.Bytes)} {failed altered : List Route}
    {w' w'' : World} (h : Leaves files n w.logFile entries failed w w')
    (hfiles : Coherent files) (hdrafts : Draftable files n) (hsub : ∀ e ∈ entries, e ∈ files)
    (hlogs : w'.Logs w'') (hnamed : ∀ r ∈ altered, r ∈ entries.map (·.1)) :
    Leaves files n w.logFile entries (failed ++ altered) w w'' := by
  have hlogged := hlogs.mends h.ready.sound
  rw [h.logFile] at hlogged
  have habove : Mends w.logFile (fun _ ↦ False) (Above files) w'.files w''.files :=
    hlogged.mono (fun _ ↦ id) fun _ ↦ False.elim
  constructor
  case logFile => exact hlogs.log.trans h.logFile
  case drawn => exact hlogs.draws ▸ h.drawn
  case ready => exact h.ready.mended hdrafts habove (fun _ ↦ False.elim) fun _ ↦ False.elim
  case mends => exact h.mends.trans (habove.mono (fun _ ↦ False.elim) fun _ ↦ id)
  case named => exact List.forall_mem_append.mpr ⟨h.named, hnamed⟩
  case restored =>
    intro e he hfailed
    exact (h.restored e he fun hmem ↦ hfailed (List.mem_append_left _ hmem)).mended hfiles
      (hsub e he) habove id

/-- Putting back files that are as the snapshot says changes nothing but the log. -/
theorem Leaves.idle {log : Option Route} {w' : World} (h : Leaves files n log files [] w w')
    (hw : w.files.Sound) (hbefore : ∀ e ∈ files, Restored log w.files e) :
    Mends log (log = some ·) (fun _ ↦ False) w.files w'.files where
  sound := h.ready.sound
  links q hq := by
    by_cases hmem : q ∈ files.map (·.1)
    · obtain ⟨e, he, rfl⟩ := List.mem_map.mp hmem
      rw [(hbefore e he).link_eq_none, (h.restored e he List.not_mem_nil).link_eq_none]
    · exact h.mends.links q hmem
  bytes q hq := by
    by_cases hmem : q ∈ files.map (·.1)
    · obtain ⟨e, he, rfl⟩ := List.mem_map.mp hmem
      rw [(hbefore e he).bytes.eq hq, (h.restored e he List.not_mem_nil).bytes.eq hq]
      exact .refl _ _ _
    · exact h.mends.bytes q hmem
  kept := h.mends.kept
  made q hq := by
    rcases h.mends.made q hq with hdir | ⟨e, he, hthere, habove, hne⟩
    · exact .inl hdir
    · refine .inl (hw.above (fun hnone ↦ ?_) habove hne)
      exact hthere ((hbefore e he).bytes.none_iff.mp (by rw [bytes?, hnone]))

/-- All files are put back, or those that are not are named; the latter happens only if something
was in the way of one. -/
theorem ends_restore_recoverable (s : Snapshot) (hfiles : Coherent s.files)
    (hdrafts : Draftable s.files n) (hready : Ready s.files n w.files) (hn : n ≤ w.draws) :
    Ends (restore s) w
      (fun paths w' ↦ paths = s.paths ∧ Leaves s.files n w.logFile s.files [] w w' ∧
        ∀ e ∈ s.files, NulFree e)
      fun e w' ↦ ∃ failed, e = .rollback (failed.map Route.text) s.fileCount ∧ failed ≠ [] ∧
        Leaves s.files n w.logFile s.files failed w w' ∧
        ¬ ∀ e ∈ s.files, Recoverable w.files e := by
  unfold restore
  refine ends_bind.mpr (Act.ends_log_logs fun w₁ hbegun ↦ ?_)
  have hlogged : Mends w.logFile (fun _ ↦ False) (Above s.files) w.files w₁.files :=
    (hbegun.mends hready.sound).mono (fun _ ↦ id) fun _ ↦ False.elim
  have hready₁ := hready.mended hdrafts hlogged (fun _ ↦ False.elim) fun _ ↦ False.elim
  refine ((ends_restoreFiles_clear hfiles hdrafts s.files (fun _ ↦ id) hfiles.nodup hready₁
    (hbegun.draws ▸ hn)).mono (fun _ _ h ↦ h) fun _ _ ↦ False.elim).bind ?_
  rintro failed w₂ ⟨hall, hquiet, hagain⟩
  refine ((ends_findAltered_clear hfiles failed s.files (fun _ ↦ id) hall.ready.sound
    hall.ready.clear fun e he hfailed ↦ hall.logFile ▸ hall.restored e he hfailed).mono
    (fun _ _ h ↦ h) fun _ _ ↦ False.elim).bind ?_
  rintro altered w₃ ⟨hlogs, hnamed, hnone, hexact⟩
  have hended := (hall.begun hready.sound hbegun).ended hfiles hdrafts (fun _ ↦ id) hlogs hnamed
  refine Ends.guard (fun hsome ↦ ⟨failed ++ altered, rfl, ?_, hended, fun hbefore ↦ ?_⟩)
    fun hno ↦ ?_
  · simpa using hsome
  · have hfailed : failed = [] := hagain fun e he ↦ (hbefore e he).mended hfiles he hlogged id
    have haltered : altered = [] := hexact fun e he h ↦
      ⟨(hquiet hfailed).restored e he h, (hbefore e he).nul⟩
    simp [hfailed, haltered] at hsome
  · obtain ⟨rfl, rfl⟩ : failed = [] ∧ altered = [] := by simpa using hno
    refine ends_bind.mpr (Act.ends_log_logs fun w₄ hdone ↦ ends_pure.mpr ⟨rfl, ?_, ?_⟩)
    · exact hended.ended hfiles hdrafts (fun _ ↦ id) hdone (List.forall_mem_nil _)
    · exact fun e he ↦ (hnone rfl).2 e he List.not_mem_nil

/-- Nothing is in the way of files that are as the snapshot says. -/
theorem ends_restore_clear (s : Snapshot) (hfiles : Coherent s.files)
    (hdrafts : Draftable s.files n) (hready : Ready s.files n w.files) (hn : n ≤ w.draws) :
    Ends (restore s) w
      (fun paths w' ↦ paths = s.paths ∧ Leaves s.files n w.logFile s.files [] w w' ∧
        ∀ e ∈ s.files, NulFree e)
      fun e w' ↦ ∃ failed, e = .rollback (failed.map Route.text) s.fileCount ∧ failed ≠ [] ∧
        Leaves s.files n w.logFile s.files failed w w' ∧
        ¬ ∀ e ∈ s.files, Restored w.logFile w.files e ∧ NulFree e := by
  refine (ends_restore_recoverable s hfiles hdrafts hready hn).mono (fun _ _ h ↦ h) ?_
  rintro e w' ⟨failed, he, hne, hleaves, hno⟩
  refine ⟨failed, he, hne, hleaves, fun hbefore ↦ hno fun e he ↦ ?_⟩
  obtain ⟨hrestored, hnul⟩ := hbefore e he
  exact hrestored.recoverable hready.sound (hfiles.ne_nil e he) hnul

end Store

namespace Snapshot

/-- The files of the snapshot other than those in `failed` are as it says, the log's own file being
followed by what has been logged. No other file has been changed, links included, no draft is there
that was not, and nothing is new but directories above files that were there. -/
structure Reinstated (s : Snapshot) (failed : List Route) (w w' : World) : Prop where
  agrees : ∀ e ∈ s.files, e.1 ∉ failed → Grown w.logFile e.1 e.2 (w'.files.bytes? e.1) ∧
    (e.2 = none → w'.files.look e.1 = none)
  others : Mends w.logFile (· ∈ s.paths) (Above s.files) w.files w'.files
  drafts : ∀ r ∈ s.paths, ∀ m, w.draws < m → w'.files.look (r.draft m) = none

end Snapshot

namespace Store

variable {w w₀ w₁ : World} {whole s : Snapshot} {store store' : Store} {runId key : String}
  {files : List Path}

theorem Leaves.reinstated {failed : List Route} {w' : World}
    (h : Leaves s.files w.draws w.logFile s.files failed w w') : s.Reinstated failed w w' where
  agrees e he hfailed := by
    have hrestored := h.restored e he hfailed
    exact ⟨hrestored.bytes, fun hnone ↦ (hrestored.gone hnone).1⟩
  others := h.mends
  drafts := by
    rintro _ hr m hm
    obtain ⟨e, he, rfl⟩ := List.mem_map.mp hr
    exact h.ready.unused e he m hm

theorem reinstated_of_snapshot (hw₀ : w₀.files.Sound)
    (htaken : store.snapshot runId key files w₀ = (.ok (whole, store'), w₁))
    (hpart : s = whole ∨ ∃ routes key', whole.restrict routes key' = .ok s)
    (hw : w.files.Sound)
    (habove : ∀ r ∈ s.paths, ∀ p, p <+: r → p ≠ r →
      w.files.HasDirectory p ∨ w.files.look p = none)
    (hdrafts : ∀ r ∈ s.paths, ∀ m, w.draws < m → w.files.look (r.draft m) = none ∧
      ∀ q ∈ s.paths, ¬ r.draft m <+: q) :
    Ends (restore s) w
      (fun paths w' ↦ paths = s.paths ∧ s.Reinstated [] w w' ∧
        Ends (restore s) w' (fun paths w'' ↦ paths = s.paths ∧
          Mends w.logFile (w.logFile = some ·) (fun _ ↦ False) w'.files w''.files)
          fun _ _ ↦ False)
      fun e w' ↦ ∃ failed, e = .rollback (failed.map Route.text) s.fileCount ∧ failed ≠ [] ∧
        (∀ r ∈ failed, r ∈ s.paths) ∧ s.Reinstated failed w w' := by
  have hfiles : Coherent s.files := by
    have hwhole := (ends_of_eq htaken).mp (ends_snapshot_coherent store hw₀ files)
    rcases hpart with rfl | ⟨routes, key', hpart⟩
    · exact hwhole
    · exact hwhole.restrict hpart
  have hmem : ∀ {e}, e ∈ s.files → e.1 ∈ s.paths := fun he ↦ List.mem_map_of_mem he
  have hdraftable : Draftable s.files w.draws := fun e he m hm e' he' ↦
    (hdrafts e.1 (hmem he) m hm).2 e'.1 (hmem he')
  have hready : Ready s.files w.draws w.files :=
    ⟨hw, fun e he ↦ ⟨hfiles.no_dots e he, habove e.1 (hmem he)⟩,
      fun e he m hm ↦ (hdrafts e.1 (hmem he) m hm).1⟩
  refine (ends_restore_clear s hfiles hdraftable hready le_rfl).mono ?_ ?_
  · rintro _ w' ⟨rfl, hleaves, hnul⟩
    refine ⟨rfl, hleaves.reinstated, ?_⟩
    have hrestored : ∀ e ∈ s.files, Restored w.logFile w'.files e :=
      fun e he ↦ hleaves.restored e he List.not_mem_nil
    refine (ends_restore_clear s hfiles hdraftable hleaves.ready hleaves.drawn).mono ?_ ?_
    · rintro _ w'' ⟨rfl, hagain, -⟩
      rw [hleaves.logFile] at hagain
      exact ⟨rfl, hagain.idle hleaves.ready.sound hrestored⟩
    · rintro e w'' ⟨failed, -, -, -, hno⟩
      exact hno fun e he ↦ ⟨hleaves.logFile ▸ hrestored e he, hnul e he⟩
  · rintro e w' ⟨failed, rfl, hne, hleaves, -⟩
    exact ⟨failed, rfl, hne, hleaves.named, hleaves.reinstated⟩

/-! ### A link that came to stand at a path -/

/-- The sample project after one file has been replaced by a link to a file elsewhere, and the other
one has been made. -/
def strayed : World where
  files := ⟨[(["p"], .directory 0), (["p", "a.ts"], .link "/q"),
    (["p", "b.ts"], .file (Text.encode "new") 0o644), (["q"], .file (Text.encode "other") 0o644)],
    0, ["p"]⟩

theorem unused_strayed : ∀ r ∈ sampleSnapshot.paths, ∀ m, strayed.draws < m →
    strayed.files.look (r.draft m) = none ∧ ∀ q ∈ sampleSnapshot.paths, ¬ r.draft m <+: q := by
  intro r hr m _
  obtain ⟨name, heq, hname, hname'⟩ := draft_sample hr m
  rw [heq]
  refine ⟨by simp [strayed, look, node?, find, Ne.symm hname, Ne.symm hname'], ?_⟩
  intro q hq hprefix
  have hpaths : ∀ q ∈ sampleSnapshot.paths, q = ["p", "a.ts"] ∨ q = ["p", "b.ts"] := by decide
  rcases hpaths q hq with rfl | rfl
  · simp [hname] at hprefix
  · simp [hname'] at hprefix

theorem reinstated_of_strayed :
    ∃ store w₁ w', sampleStore.snapshot "run-1" "run" (sampleNames.map Path.ofString) sampleWorld =
        (.ok (sampleSnapshot, store), w₁) ∧
      restore sampleSnapshot strayed = (.ok sampleSnapshot.paths, w') ∧
      w'.files.bytes? ["p", "a.ts"] = some (Text.encode "old") ∧
      w'.files.look ["p", "b.ts"] = none ∧
      w'.files.bytes? ["q"] = some (Text.encode "other") := by
  obtain ⟨store, w₁, htaken, -⟩ := taken_sample
  have hpaths : (restore sampleSnapshot strayed).1.toOption = some sampleSnapshot.paths := by
    decide +kernel
  rcases hrun : restore sampleSnapshot strayed with ⟨outcome, w'⟩
  rw [hrun] at hpaths
  obtain rfl := eq_ok_of_toOption hpaths
  have hsound : strayed.files.Sound := sound_of_entries (by decide) (by decide)
  have habove : ∀ r ∈ sampleSnapshot.paths, ∀ p ∈ r.inits, p ≠ r →
      strayed.files.HasDirectory p ∨ strayed.files.look p = none := by decide
  have hdrafts := unused_strayed
  have hlog : strayed.logFile = none := rfl
  have hother : strayed.files.bytes? ["q"] = some (Text.encode "other") := rfl
  refine ⟨store, w₁, w', htaken, rfl, ?_⟩
  -- Lean would run `restore` on the world itself
  generalize strayed = w at *
  have hreinstated := (ends_of_eq hrun).mp (reinstated_of_snapshot sound_sample htaken (.inl rfl)
    hsound (fun r hr p hp ↦ habove r hr p ((List.mem_inits p r).mpr hp)) hdrafts)
  obtain ⟨-, ⟨hagrees, hothers, -⟩, -⟩ := hreinstated
  rw [hlog] at hagrees hothers
  have hfirst := hagrees _ (List.mem_cons_self) List.not_mem_nil
  have hsecond := hagrees _ (List.mem_cons_of_mem _ List.mem_cons_self) List.not_mem_nil
  refine ⟨hfirst.1.eq nofun, hsecond.2 rfl, ?_⟩
  exact ((hothers.bytes ["q"] (by decide)).eq nofun).trans hother

end Store

end Remedy
