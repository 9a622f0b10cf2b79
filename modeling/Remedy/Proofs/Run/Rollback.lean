import Remedy.Proofs.Run.Snapshots

/-!
# What rollback and undoing bring back

A run that is rolled back leaves every regular file as it was when the phase that failed was begun,
and one that is aborted leaves every file as it was before the run. If rollback fails, the files
that are not named as left are back (`Scenario.rollback_of_run`). This is about tame scenarios:
fixers keep to the files that they are handed, and no links lead to these.

Where a link leads to such a file, it may happen that the snapshot names the link. Putting the file
back then replaces the link, and the file that the fixer has written to through the link stays as it
is (`Scenario.rolledBack_with_change`).

As long as the snapshot of all files is saved, it can be read back from the disk, and restoring it
puts the files of the phases back as they were before the run, and no others
(`Scenario.Saved.load_eq`, `Scenario.Saved.ends_restore`).

This is about tame scenarios, too. Where a link leads to a file of a phase, the snapshot may have
the file that the link leads to, and not the one that the phase has
(`Scenario.restored_of_twoLinks`).
-/

set_option autoImplicit false

namespace Remedy.Scenario

open FileTree

/-- No links lead to the files of the phases if the resolution of no path of theirs is stuck. -/
theorem direct_of_done {x : Scenario} (hx : x.Proper)
    (h : ∀ phase ∈ x.phases, ∀ p ∈ phase.files, ∃ r, x.world.files.traced (x.path p) = .done r) :
    ∀ r, x.IsPhaseFile r → x.world.files.Direct r := by
  rintro r ⟨phase, hphase, p, hp, rfl⟩
  obtain ⟨r, hr⟩ := h phase hphase p hp
  rw [hr]
  exact direct_of_traced hx.sound (isAbsolute_path p) hr

/-- How a run in a tame scenario leaves the files if it is rolled back, aborted, or stuck in
between. -/
theorem rollback_of_run (x : Scenario) (hx : x.Proper) (htame : x.Tame) :
    Ends (RunAct.run x.crew x.phases) x.bench (fun _ b ↦ x.Fate b) fun _ _ ↦ True :=
  (ends_run hx).mono (fun _ _ h ↦ h.fate htame) fun _ _ _ ↦ trivial

theorem isPhaseFile_oneFile {r : Route} (h : oneFile.IsPhaseFile r) : r = ["p", "a.ts"] := by
  obtain ⟨phase, hphase, p, hp, rfl⟩ := h
  obtain rfl := List.mem_singleton.mp hphase
  have hfiles : (Phase.sample .syntactic ["a.ts"]).files = [Path.ofString "a.ts"] := by
    decide +kernel
  rw [hfiles] at hp
  obtain rfl := List.mem_singleton.mp hp
  decide

theorem tame_oneFile : oneFile.Tame := by
  have hhome : oneFile.world.files.traced oneFile.home =
      .done ["p", defaultBackupDirectory, "run-1"] := by decide
  constructor
  case confined =>
    intro ref fixer h
    rw [fixer_of_sample h]
    exact Fixer.confined_overwriting _
  case direct =>
    intro r hr
    obtain rfl := isPhaseFile_oneFile hr
    exact direct_of_traced (p := Route.path ["p", "a.ts"]) proper_oneFile.sound rfl (by decide)
  case outside =>
    intro r hr
    obtain rfl := isPhaseFile_oneFile hr
    exact not_reserved_sample hhome (by decide)
  case drafts =>
    intro r hr n
    obtain rfl := isPhaseFile_oneFile hr
    have hdraft : Route.draft ["p", "a.ts"] n = ["p", FileAct.draftName "a.ts" (drawnName n)] :=
      Route.draft_concat ["p"] "a.ts" n
    have hne : FileAct.draftName "a.ts" (drawnName n) ≠ "a.ts" := FileAct.draftName_ne _ _
    rw [hdraft]
    refine ⟨?_, fun hfile ↦ ?_, not_reserved_sample hhome fun hbelow ↦ ?_⟩
    · simp [oneFile, sample, look, node?, find, hne.symm]
    · exact hne (by simpa using isPhaseFile_oneFile hfile)
    · exact absurd hbelow.length_le (by simp)

theorem rollback_of_oneFile : oneFile.Proper ∧ oneFile.Tame ∧
    (RunAct.run oneFile.crew oneFile.phases oneFile.bench).2.context.state = .rolledBack ∧
    Ends (RunAct.run oneFile.crew oneFile.phases) oneFile.bench (fun _ b ↦ oneFile.Fate b)
      fun _ _ ↦ True :=
  ⟨proper_oneFile, tame_oneFile, by decide +kernel,
    rollback_of_run oneFile proper_oneFile tame_oneFile⟩

/-- A project like `oneLink`, with a link that leads to nothing and whose resolution is stuck at the
other one. The file of the second phase resolves to the first link, and thus resolves once more to
the second. -/
def twoLinks : Scenario :=
  sample [(["p", "loop"], .link "loop"), (["p", "w.ts"], .link "none/../loop/../x.ts"),
      (["p", "x.ts"], .link "y.ts"), (["p", "y.ts"], .file (Text.encode "old") 0o644)]
    [.sample .syntactic ["loop/../x.ts"], .sample .imports ["loop/../w.ts"]]

/-- A run is rolled back, but a file that the fixer of the phase has changed stays changed. -/
theorem rolledBack_with_change :
    twoLinks.Proper ∧
    (∀ r ∈ [["p", "x.ts"], ["p", "w.ts"]], ¬ twoLinks.Reserved twoLinks.world.files r) ∧
    let b := (RunAct.run twoLinks.crew twoLinks.phases twoLinks.bench).2
    b.context.state = .rolledBack ∧
      (begun? b.progress.account).map (·.files.bytes? ["p", "y.ts"]) =
        some (some (Text.encode "old")) ∧
      b.world.files.bytes? ["p", "y.ts"] = some (Text.encode "new") := by
  refine ⟨proper_sample (sound_of_entries (by decide) (by decide)), ?_, ?_⟩
  · have hhome : twoLinks.world.files.traced twoLinks.home =
        .done ["p", defaultBackupDirectory, "run-1"] := by decide
    intro r hr
    refine not_reserved_sample hhome ?_
    revert r
    decide
  · have hsorted : (twoLinks.phases.mergeSort fun p q ↦ p.priority ≤ q.priority) =
        twoLinks.phases := List.mergeSort_of_pairwise (by decide)
    unfold RunAct.run
    rw [hsorted]
    -- The kernel evaluates insertion sort, but not merge sort.
    simp only [RunAct.execute, RunAct.recordAll, RunAct.takeSnapshot, Store.snapshot, mergeSort_le]
    decide +kernel

end Remedy.Scenario

namespace Remedy.Scenario

open FileTree

/-- The snapshot of all files, if the run takes it. -/
def whole? (x : Scenario) : Option Snapshot :=
  Json.lookup runKey (RunAct.run x.crew x.phases x.bench).2.context.snapshots

variable {x : Scenario} {only : Route → Prop} {s : Snapshot} {w : World}

/-- However the run ends, its snapshot of all files is saved after it. -/
theorem stowed_of_run (hx : x.Proper) (htame : x.Tame) (hlasting : x.Lasting only)
    (hwhole : x.whole? = some s) :
    x.Stowed only s (RunAct.run x.crew x.phases x.bench).2.world :=
  have hsafe : x.Safe (RunAct.run x.crew x.phases x.bench).2 :=
    ((ends_run hx).mono (fun _ _ h ↦ h.toSafe) fun _ _ h ↦ h).state
  hsafe.stows htame only hlasting s hwhole

/-- The snapshot is read back from the disk as it was taken. -/
theorem Saved.load_eq (h : x.Saved only s w) (htame : x.Tame) :
    x.store.load x.runId runKey w = (.ok s, w) := by
  obtain ⟨createdAt, home, hdurable, hsecures⟩ := h.lies
  have hresolve : ∀ r ∈ s.paths, w.files.resolve (Route.path r) = .ok r := fun r hr ↦
    ((htame.direct r ((h.paths r).mp hr)).congr h.alters.links).resolve_path (h.nul r hr)
  have hlocation : s.location = x.store.location s.runId s.key := by
    rw [h.ofRun, h.ofKey]
    exact h.location
  have hload := Store.load_of_kept hdurable hlocation hsecures.stored.kept hresolve
  rwa [h.ofRun, h.ofKey, Snapshot.redirected_of_fixed hdurable.nodup fun _ _ ↦ rfl] at hload

theorem Saved.restorable (h : x.Saved only s w) (htame : x.Tame) :
    Restorable w.files w.logFile (· ∈ s.paths) := by
  have hfile : ∀ r ∈ s.paths, x.IsPhaseFile r := fun r ↦ (h.paths r).mp
  constructor
  case direct => exact fun r hr ↦ (htame.direct r (hfile r hr)).congr h.alters.links
  case below =>
    intro r hr
    obtain ⟨e, he, rfl⟩ := List.mem_map.mp hr
    exact (h.entries e he).2
  case links =>
    intro r hr n
    rw [h.alters.links, link?, (htame.drafts r (hfile r hr) n).1]
  case unused =>
    intro r hr n
    obtain ⟨hlook, -, hown⟩ := htame.drafts r (hfile r hr) n
    have hloose : ¬ x.Loose (r.draft n) := fun hloose ↦ hloose.2 r (hfile r hr) n rfl
    rw [h.alters.bytes _ fun hor ↦ hor.elim (fun h' ↦ hloose (h.loose _ h')) hown, bytes?, hlook]
  case apart =>
    intro r hr n
    obtain ⟨-, hphases, hown⟩ := htame.drafts r (hfile r hr) n
    refine ⟨fun hdraft ↦ hphases (hfile _ hdraft), fun hlog ↦ hown (.inr ?_)⟩
    exact h.log ▸ hlog

/-- Restoring the snapshot puts the files of the phases back as they were before the run. -/
theorem Saved.ends_restore (h : x.Saved only s w) (htame : x.Tame) :
    Ends (Store.restore s) w
      (fun restored w' ↦ restored = s.paths ∧ w.Touches x.IsPhaseFile w' ∧
        ∀ r, x.IsPhaseFile r → w'.files.bytes? r = x.world.files.bytes? r)
      fun _ _ ↦ True := by
  obtain ⟨_, _, -, hsecures⟩ := h.lies
  refine (Store.ends_restore s hsecures.stored.clean.sound (h.restorable htame)
    fun e he ↦ ⟨List.mem_map_of_mem he, (h.entries e he).1⟩).mono ?_ fun _ _ _ ↦ trivial
  rintro restored w' ⟨rfl, htouches, hbytes⟩
  refine ⟨rfl, htouches.mono fun r ↦ (h.paths r).mp, fun r hr ↦ ?_⟩
  refine hbytes r ((h.paths r).mpr hr) fun hlog ↦ htame.outside r hr (.inr ?_)
  exact h.log ▸ hlog

/-- What is restored need not be the files of the phases: among these is a link that leads to
nothing, but not the file that the other link leads to. -/
theorem restored_of_twoLinks :
    twoLinks.Proper ∧
    (∀ r, twoLinks.IsPhaseFile r ↔ r = ["p", "x.ts"] ∨ r = ["p", "w.ts"]) ∧
    ∃ s, twoLinks.whole? = some s ∧
      (Store.restore s (RunAct.run twoLinks.crew twoLinks.phases twoLinks.bench).2.world).1 =
        .ok [["p", "x.ts"], ["p", "y.ts"]] := by
  refine ⟨proper_sample (sound_of_entries (by decide) (by decide)), fun r ↦ ?_, ?_⟩
  · have hfirst : (Phase.sample .syntactic ["loop/../x.ts"]).files =
        [Path.ofString "loop/../x.ts"] := by decide +kernel
    have hsecond : (Phase.sample .imports ["loop/../w.ts"]).files =
        [Path.ofString "loop/../w.ts"] := by decide +kernel
    have hx : (twoLinks.world.files.traced (twoLinks.path (Path.ofString "loop/../x.ts"))).route =
        ["p", "x.ts"] := by decide +kernel
    have hw : (twoLinks.world.files.traced (twoLinks.path (Path.ofString "loop/../w.ts"))).route =
        ["p", "w.ts"] := by decide +kernel
    constructor
    · rintro ⟨phase, hphase, p, hp, rfl⟩
      rcases List.mem_pair.mp hphase with rfl | rfl
      · rw [hfirst] at hp
        obtain rfl := List.mem_singleton.mp hp
        exact .inl hx
      · rw [hsecond] at hp
        obtain rfl := List.mem_singleton.mp hp
        exact .inr hw
    · rintro (rfl | rfl)
      · exact ⟨_, List.mem_cons_self, _, hfirst ▸ List.mem_cons_self, hx⟩
      · exact ⟨_, List.mem_cons_of_mem _ List.mem_cons_self, _, hsecond ▸ List.mem_cons_self, hw⟩
  · have hsorted : (twoLinks.phases.mergeSort fun p q ↦ p.priority ≤ q.priority) =
        twoLinks.phases := List.mergeSort_of_pairwise (by decide)
    have hrestored :
        let b := (RunAct.run twoLinks.crew twoLinks.phases twoLinks.bench).2
        (Json.lookup runKey b.context.snapshots).map
          (fun s ↦ (Store.restore s b.world).1.toOption) =
            some (some [["p", "x.ts"], ["p", "y.ts"]]) := by
      unfold RunAct.run
      rw [hsorted]
      simp only [RunAct.execute, RunAct.recordAll, RunAct.takeSnapshot, Store.snapshot,
        mergeSort_le]
      decide +kernel
    obtain ⟨s, hs, hroutes⟩ := Option.map_eq_some_iff.mp hrestored
    exact ⟨s, hs, Store.eq_ok_of_toOption hroutes⟩

end Remedy.Scenario
