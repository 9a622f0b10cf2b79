import Remedy.Proofs.Backup.Loading
import Remedy.Proofs.Faults

/-!
# When the store cannot follow a path

The store answers for what it cannot do: a snapshot that cannot be taken is one of its own faults,
and so are files that cannot be put back. There is one exception. A path that cannot be followed is a
fault of its own (`Fault.Unfollowed`): that of the directory for the snapshot, those of the files to
be recorded, or of the files that are checked after they have been put back
(`Store.ends_snapshot_foiled`, `Store.ends_restore_foiled`).
-/

set_option autoImplicit false

namespace Remedy

open FileTree

/-- A path could not be followed: a name is too long, or the path itself, or links lead in a circle,
or it holds what no path may hold. -/
inductive Fault.Unfollowed : Fault → Prop
  | tooLong (path : String) : Unfollowed (.file ⟨.nameTooLong, path, none⟩)
  | linkLoop (path : String) : Unfollowed (.linkLoop path)
  | nul : Unfollowed (.invalid .nul)

namespace FileTree

variable {t : FileTree} {p : Path} {e : Fault}

theorem unfollowed_of_resolve (h : t.resolve p = .error e) : e.Unfollowed := by
  unfold resolve at h
  split at h
  · cases h
    exact .nul
  · split at h
    · cases h
    · dsimp only at h
      split at h
      · cases h
        exact .linkLoop _
      · cases h

end FileTree

namespace Store

variable {s : Store} {runId key : String} {files : List Path} {w : World}

/-! ### Snapshots -/

/-- Of the files to which the paths lead, each can be read or is missing. -/
def Readable (s : Store) (files : List Path) (t : FileTree) : Prop :=
  ∀ p ∈ files, ∀ r, t.resolve ((Route.path s.project).join p) = .ok r →
    ∀ e, t.content (Route.path r) = .error e → e.errno = .notFound

/-- Why a snapshot may not be taken without this being a finding of the store. -/
inductive Foiled (s : Store) (runId key : String) (files : List Path) (t : FileTree) :
    Fault → Prop
  | place (hwalk : t.walk (s.location runId key) = .error .nameTooLong) :
      Foiled s runId key files t (.file ⟨.nameTooLong, (s.location runId key).text, none⟩)
  | file {p : Path} {e : Fault} (hp : p ∈ files)
      (hresolve : t.resolve ((Route.path s.project).join p) = .error e) :
      Foiled s runId key files t e
  | nul (hreadable : s.Readable files t) (hnul : (s.location runId key).hasNul = true) :
      Foiled s runId key files t (.invalid .nul)

theorem Foiled.unfollowed {t : FileTree} {e : Fault} (h : s.Foiled runId key files t e) :
    e.Unfollowed := by
  cases h with
  | place _ => exact .tooLong _
  | file _ hresolve => exact unfollowed_of_resolve hresolve
  | nul _ _ => exact .nul

theorem Recordable.readable_all {t : FileTree} (h : s.Recordable files t) : s.Readable files t :=
  fun _ hp _ hr ↦ h.readable (mem_routes.mpr ⟨_, hp, hr⟩)

/-- A snapshot is taken only if every file can be read or is missing, and otherwise nothing but the
log is changed. If that it is not taken is no finding of the store, nothing has been done, and there
is a path that cannot be followed. -/
theorem ends_snapshot_foiled (s : Store) (runId key : String) (files : List Path) (w : World) :
    Ends (s.snapshot runId key files) w (fun _ _ ↦ s.Readable files w.files)
      fun e w' ↦ e.isA .backup = true ∧ (w.Still w' ∨ s.Readable files w.files) ∨
        w' = w ∧ s.Foiled runId key files w.files e := by
  refine (s.ends_snapshot_pictured runId key files w).mono ?_ fun e w' h ↦ ?_
  · exact fun _ _ h ↦ h.1.files.readable_all
  cases h with
  | rejected h =>
    cases h with
    | names | duplicate | occupied => exact .inl ⟨rfl, .inl (.refl w)⟩
    | place hwalk => exact .inr ⟨rfl, .place hwalk⟩
    | file _ hp hresolve => exact .inr ⟨rfl, .file hp hresolve⟩
    | nul _ hfiles hnul => exact .inr ⟨rfl, .nul hfiles.readable_all hnul⟩
  | unread _ _ _ hstill => exact .inl ⟨rfl, .inl hstill⟩
  | unwritten hgrants => exact .inl ⟨rfl, .inr hgrants.files.readable_all⟩

theorem raises_record (s : Store) (snapshot : Snapshot) :
    Raises (fun e ↦ e.isA .backup = true) (s.record snapshot) := by
  unfold record
  exact Raises.guard rfl ((Act.raises_log _ _ _).bind fun _ ↦ raises_pure _)

/-! ### Putting files back -/

/-- Whether a file is as it was recorded can be told, unless its path is too long to be followed. -/
theorem ends_currentDigest_foiled (r : Route) (w : World) :
    Ends (currentDigest r) w (fun _ w' ↦ w' = w)
      fun e w' ↦ e = .file ⟨.nameTooLong, Route.text r, none⟩ ∧
        w'.files.walk (Route.path r) = .error .nameTooLong := by
  unfold currentDigest
  refine ends_bind.mpr (Act.ends_onFiles.mpr (((FileAct.ends_holds _ _ _).and
    (FileAct.ends_holds_refused _ _ _)).mono ?_ ?_))
  · rintro there t ⟨⟨rfl, hthere⟩, -⟩
    split
    · obtain ⟨-, q, node, hwalk, hfile⟩ := hthere.mp ‹_›
      cases node with
      | file content mode =>
        refine ends_bind.mpr (Act.ends_onFiles.mpr ?_)
        unfold FileAct.read
        refine ends_bind.mpr (FileAct.ends_place.mpr ?_)
        rw [hwalk]
        exact ends_pure.mpr (ends_pure.mpr rfl)
      | _ => cases hfile
    · exact ends_pure.mpr rfl
  · rintro _ t ⟨⟨rfl, hwalk⟩, rfl⟩
    exact ⟨rfl, hwalk⟩

theorem ends_findAltered_foiled (failed : List Route) (expected : List (Route × Option String))
    (w : World) :
    Ends (findAltered failed expected) w (fun _ _ ↦ True)
      fun e w' ↦ ∃ r ∈ expected.map (·.1), e = .file ⟨.nameTooLong, Route.text r, none⟩ ∧
        w'.files.walk (Route.path r) = .error .nameTooLong := by
  induction expected generalizing w with
  | nil => exact ends_pure.mpr trivial
  | cons entry rest ih =>
    obtain ⟨r, digest⟩ := entry
    have hrest : ∀ w, Ends (findAltered failed rest) w (fun _ _ ↦ True)
        fun e w' ↦ ∃ q ∈ ((r, digest) :: rest).map (·.1),
          e = .file ⟨.nameTooLong, Route.text q, none⟩ ∧
            w'.files.walk (Route.path q) = .error .nameTooLong := fun w ↦
      (ih w).mono (fun _ _ h ↦ h) fun _ _ ⟨q, hq, h⟩ ↦ ⟨q, List.mem_cons_of_mem _ hq, h⟩
    unfold findAltered
    split
    · exact hrest w
    · refine ((ends_currentDigest_foiled r w).mono (fun _ _ h ↦ h) ?_).bind ?_
      · exact fun _ _ h ↦ ⟨r, List.mem_cons_self, h⟩
      rintro found w' rfl
      split
      · exact hrest w'
      · refine ends_bind.mpr (Act.ends_log fun w₁ _ ↦ ?_)
        exact (hrest w₁).bind fun _ _ _ ↦ ends_pure.mpr trivial

/-- Putting files back fails with the list of those that are not back, unless the path of one of
them is too long to be followed when it is checked. -/
theorem ends_restore_foiled (snapshot : Snapshot) (w : World) :
    Ends (restore snapshot) w (fun _ _ ↦ True)
      fun e w' ↦ (∃ failed total, e = .rollback failed total) ∨
        ∃ r ∈ snapshot.paths, e = .file ⟨.nameTooLong, Route.text r, none⟩ ∧
          w'.files.walk (Route.path r) = .error .nameTooLong := by
  unfold restore
  refine ends_bind.mpr (Act.ends_log fun w₁ _ ↦ ?_)
  refine (raises_restoreFiles _).thenEnds fun failed w₂ ↦ ?_
  refine ((ends_findAltered_foiled failed snapshot.digests w₂).mono (fun _ _ h ↦ h) ?_).bind ?_
  · rintro e w' ⟨r, hr, h⟩
    refine .inr ⟨r, ?_, h⟩
    simpa [Snapshot.digests, Snapshot.paths] using hr
  intro altered w₃ _
  refine Ends.guard (fun _ ↦ .inl ⟨_, _, rfl⟩) fun _ ↦ ?_
  exact (Act.raises_log _ _ _).thenEnds fun _ _ ↦ ends_pure.mpr trivial

end Store

end Remedy
