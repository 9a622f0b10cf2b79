import Remedy.Proofs.Offsite
import Remedy.Proofs.Run.Upkeep

/-!
# What a run holds

However a run ends, it has taken no lock and given none up, and the store holds what it held of the
other runs (`RunAct.ends_run_holds`). What fixers and probes do has no part in this.
-/

set_option autoImplicit false

namespace Remedy

/-- The stores are for the same backups, and hold the same snapshots of all runs but one. -/
structure Store.SameBut (runId : String) (s s' : Store) : Prop where
  project : s'.project = s.project
  root : s'.root = s.root
  others : ∀ r, r ≠ runId → ∀ key, s'.get r key = s.get r key

namespace Store.SameBut

variable {runId : String} {s s' s'' : Store}

theorem refl (runId : String) (s : Store) : SameBut runId s s :=
  ⟨rfl, rfl, fun _ _ _ ↦ rfl⟩

theorem trans (h : SameBut runId s s') (h' : SameBut runId s' s'') : SameBut runId s s'' where
  project := h'.project.trans h.project
  root := h'.root.trans h.root
  others r hr key := (h'.others r hr key).trans (h.others r hr key)

theorem hold (s : Store) {snapshot : Snapshot} (h : snapshot.runId = runId) :
    SameBut runId s (s.hold snapshot) := by
  refine ⟨rfl, rfl, fun r hr key ↦ ?_⟩
  rw [get_hold, if_neg fun heq ↦ hr (heq.1.symm.trans h), Option.or_none]

theorem discard (s : Store) (runId : String) : SameBut runId s (s.discard runId) := by
  refine ⟨rfl, rfl, fun r hr key ↦ ?_⟩
  rw [get_discard, if_neg hr]

end Store.SameBut

/-- What is taken is held, and nothing else. -/
theorem Store.ends_snapshot_holds (s : Store) (runId key : String) (files : List Path)
    (w : World) :
    Ends (s.snapshot runId key files) w
      (fun taken _ ↦ taken.2 = s.hold taken.1 ∧ taken.1.runId = runId) fun _ _ ↦ True := by
  refine (s.ends_snapshot_pictured runId key files w).mono ?_ fun _ _ _ ↦ trivial
  rintro _ w' ⟨-, rfl⟩
  exact ⟨rfl, rfl⟩

/-- What has to do with files has nothing to do with locks. -/
theorem isOffsite_locks (locks : List (Route × Nat)) :
    Act.IsOffsite (Upholds fun w : World ↦ w.locks = locks) where
  refl := upholds_refl
  trans := upholds_trans
  record event w := (Act.still_record event w).mono
    (fun _ _ h hw ↦ h.undisturbed.locks.trans hw) fun _ _ h hw ↦ h.undisturbed.locks.trans hw
  aside _ _ _ _ _ _ hw := hw
  site _ _ hw := hw
  draws _ _ hw := hw

variable {crew : Crew} {phases : List Phase} {project : Route} {runId : String}

theorem upkeep_holds (locks : List (Route × Nat)) (s₀ : Store) :
    Upkeep crew phases project runId (fun w s ↦ w.locks = locks ∧ s₀.SameBut runId s)
      (fun _ ↦ True) fun snapshot ↦ snapshot.runId = runId where
  quiet h hquiet := ⟨hquiet.locks.trans h.1, h.2⟩
  fixes _ _ _ _ _ _ _ h := h
  probes _ _ _ _ h := h
  leads _ _ _ _ _ _ _ := trivial
  takes {w s} h key files _ := by
    have hkept := keeps_upholds.mp
      (Store.keeps_snapshot (isOffsite_locks locks) s runId key (files.map Route.path)) w h.1
    refine (hkept.and (s.ends_snapshot_holds runId key _ w)).mono ?_ fun _ _ hbad ↦ ⟨hbad.1, h.2⟩
    rintro ⟨snapshot, s'⟩ w' ⟨hlocks, hheld, hrunId⟩
    obtain rfl : s' = s.hold snapshot := hheld
    exact ⟨⟨hlocks, h.2.trans (.hold s hrunId)⟩, hrunId⟩
  parts {w s} h whole part files key hwhole hrestrict := by
    have hrunId := (Snapshot.restrict_eq hrestrict).1.trans hwhole
    exact ⟨⟨h.1, h.2.trans (.hold s hrunId)⟩, hrunId⟩
  restores {w s} h snapshot _ :=
    (keeps_upholds.mp (Store.keeps_restore (isOffsite_locks locks) snapshot) w h.1).mono
      (fun _ _ hlocks ↦ ⟨hlocks, h.2⟩) fun _ _ hlocks ↦ ⟨hlocks, h.2⟩

theorem RunAct.ends_run_holds (b : Bench) :
    Ends (RunAct.run crew phases) b
      (fun _ b' ↦ b'.world.locks = b.world.locks ∧ b.store.SameBut b.context.runId b'.store)
      fun _ b' ↦ b'.world.locks = b.world.locks ∧ b.store.SameBut b.context.runId b'.store :=
  ((upkeep_holds b.world.locks b.store).lawful_run.ends
    ⟨rfl, rfl, rfl, .refl b.context.runId b.store⟩).mono (fun _ _ h ↦ h.law) fun _ _ h ↦ h.law

end Remedy
