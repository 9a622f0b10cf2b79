import Remedy.Proofs.Backup.Foiling
import Remedy.Proofs.Run.Endings
import Remedy.Proofs.Run.Snapshots
import Remedy.Proofs.Run.Trials
import Remedy.Proofs.Tree.Likeness

/-!
# Runs that are declined

Before it begins a phase, a run records the files of all phases. If one of them cannot be read, and is
not merely missing, the run is over before it has begun: it is aborted, says that the backup failed,
has no results, has called no fixer and has left all files as they were but the log
(`RunAct.ends_run_declined`). What is in the way may be a directory in the place of the file, a file in
the place of a directory above it, or a name that is too long.

All paths must lead somewhere, though (`Bench.Blocked.followed`). To follow a path is not yet to read
a file, and the run does not expect that it fails: links that lead in a circle leave it in the middle
of its backup (`RunAct.caught_of_run`).
-/

set_option autoImplicit false

namespace Remedy

open FileTree

namespace Bench

/-- A file of the phases cannot be read and is not missing, although all their paths can be followed,
and so can the path of the directory for the snapshot. -/
structure Blocked (phases : List Phase) (b : Bench) : Prop where
  followed : ∀ phase ∈ phases, ∀ p ∈ phase.files, ∃ r r',
    b.world.files.resolve ((Route.path b.context.project).join p) = .ok r ∧
      b.world.files.resolve (Route.path r) = .ok r'
  place : b.world.files.walk (b.store.location b.context.runId runKey) ≠ .error .nameTooLong
  unreadable : ∃ phase ∈ phases, ∃ p ∈ phase.files, ∃ r r' e,
    b.world.files.resolve ((Route.path b.context.project).join p) = .ok r ∧
      b.world.files.resolve (Route.path r) = .ok r' ∧
      b.world.files.content (Route.path r') = .error e ∧ e.errno ≠ .notFound

/-- The run is over before it has done anything, because its files could not be recorded. -/
structure Declined (b b' : Bench) : Prop where
  state : b'.context.state = .aborted
  error : ∃ reason : String, b'.context.error = some s!"Backup failed: {reason}"
  history : b'.context.history = b.context.history
  happened : b'.progress.happened = b.progress.happened ++ [.refusal none]
  mutated : b'.context.mutated = b.context.mutated
  store : b'.store = b.store
  still : b.world.Still b'.world

variable {phases part : List Phase} {b b' b'' : Bench}

theorem Blocked.perm (h : b.Blocked phases) (hperm : part.Perm phases) : b.Blocked part := by
  refine ⟨fun phase hphase ↦ h.followed phase (hperm.mem_iff.mp hphase), h.place, ?_⟩
  obtain ⟨phase, hphase, hunreadable⟩ := h.unreadable
  exact ⟨phase, hperm.mem_iff.mpr hphase, hunreadable⟩

/-- What is in the way stays in the way while nothing but the log is written. -/
theorem Blocked.alike (h : b.Blocked phases) (hworld : b.world.Alike b'.world)
    (hstore : b'.store = b.store) (hproject : b'.context.project = b.context.project)
    (hrunId : b'.context.runId = b.context.runId) : b'.Blocked phases := by
  have hresolve : ∀ p, b'.world.files.resolve ((Route.path b'.context.project).join p) =
      b.world.files.resolve ((Route.path b.context.project).join p) := fun p ↦ by
    rw [hproject]
    exact hworld.resolve (Path.isAbsolute_join _ _)
  have hroute : ∀ r, b'.world.files.resolve (Route.path r) = b.world.files.resolve (Route.path r) :=
    fun r ↦ hworld.resolve rfl
  constructor
  case followed => simpa only [hresolve, hroute] using h.followed
  case place =>
    rw [hstore, hrunId]
    exact mt hworld.walk_error.mp h.place
  case unreadable => simpa only [hresolve, hroute, hworld.content_error] using h.unreadable

theorem Declined.lift (h : b.Declined b') {w : World} (hw : b'.world.Still w) :
    b.Declined { b' with world := w } :=
  { h with still := h.still.trans hw }

theorem Declined.before {b₁ : Bench} (h : b₁.Declined b') (hworld : b.world.Still b₁.world)
    (hhistory : b₁.context.history = b.context.history)
    (hhappened : b₁.progress.happened = b.progress.happened)
    (hmutated : b₁.context.mutated = b.context.mutated) (hstore : b₁.store = b.store) :
    b.Declined b' where
  state := h.state
  error := h.error
  history := h.history.trans hhistory
  happened := hhappened ▸ h.happened
  mutated := h.mutated.trans hmutated
  store := h.store.trans hstore
  still := hworld.trans h.still

end Bench

namespace RunAct

section Recording

variable {α β : Type} {b : Bench} {ok : β → Bench → Prop} {bad : Fault → Bench → Prop}

/-- If all paths of a phase can be followed, its files are where they lead. -/
theorem ends_filesOf_followed {phase : Phase} (h : ∀ p ∈ phase.files, ∃ r,
    b.world.files.resolve ((Route.path b.context.project).join p) = .ok r) :
    Ends (filesOf phase) b (fun files b' ↦ b' = b ∧ ∀ r, r ∈ files ↔ ∃ p ∈ phase.files,
      b.world.files.resolve ((Route.path b.context.project).join p) = .ok r) fun _ _ ↦ False := by
  refine (ends_filesOf_asked phase b).mono (fun _ _ h ↦ ⟨h.1, h.2.1⟩) ?_
  rintro e b' ⟨-, p, hp, he⟩
  obtain ⟨r, hr⟩ := h p hp
  exact nomatch he.symm.trans hr

theorem ends_filesOfAll_followed {part : List Phase} (h : ∀ phase ∈ part, ∀ p ∈ phase.files, ∃ r,
    b.world.files.resolve ((Route.path b.context.project).join p) = .ok r) :
    Ends (part.mapM filesOf) b
      (fun files b' ↦ b' = b ∧ ∀ r, r ∈ files.flatten ↔ ∃ phase ∈ part, ∃ p ∈ phase.files,
        b.world.files.resolve ((Route.path b.context.project).join p) = .ok r)
      fun _ _ ↦ False := by
  induction part with
  | nil => exact ends_pure.mpr ⟨rfl, by simp⟩
  | cons phase rest ih =>
    obtain ⟨hphase, hrest⟩ := List.forall_mem_cons.mp h
    rw [List.mapM_cons]
    refine (ends_filesOf_followed hphase).bind ?_
    rintro files b' ⟨rfl, hfiles⟩
    refine (ih hrest).bind ?_
    rintro others b' ⟨rfl, hothers⟩
    refine ends_pure.mpr ⟨rfl, fun r ↦ ?_⟩
    rw [List.flatten_cons, List.mem_append, hfiles, hothers]
    simp

/-- The snapshot of all files is refused. -/
theorem ends_takeSnapshot_blocked {phases : List Phase} {files : List Route}
    (h : b.Blocked phases) (hb : b.world.interrupt = none)
    (hfiles : ∀ r, r ∈ files ↔ ∃ phase ∈ phases, ∃ p ∈ phase.files,
      b.world.files.resolve ((Route.path b.context.project).join p) = .ok r) :
    Ends (takeSnapshot runKey files) b (fun _ _ ↦ False)
      fun e b' ↦ e.isA .backup = true ∧ ∃ w, b.world.Still w ∧ b' = { b with world := w } := by
  refine ends_takeSnapshot_of (((Act.passes_giveWay b.world hb).and
    (Act.isFrame_alike.keeps_giveWay b.world)).mono ?_ fun _ _ h ↦ h.1.elim)
  rintro _ w ⟨hw, halike⟩
  have hblocked : ({ b with world := w } : Bench).Blocked phases := h.alike halike rfl rfl rfl
  obtain ⟨phase, hphase, p, hp, r, r', e, hr, hr', hcontent, hmissing⟩ := hblocked.unreadable
  have hresolve : ∀ p, w.files.resolve ((Route.path b.context.project).join p) =
      b.world.files.resolve ((Route.path b.context.project).join p) := fun p ↦
    halike.resolve (Path.isAbsolute_join _ _)
  have hunreadable : ¬ b.store.Readable (files.map Route.path) w.files := fun hreadable ↦
    hmissing (hreadable (Route.path r) (List.mem_map_of_mem ((hfiles r).mpr
      ⟨phase, hphase, p, hp, (hresolve p).symm.trans hr⟩)) r' hr' e hcontent)
  refine (b.store.ends_snapshot_foiled _ _ _ w).mono
    (fun _ _ hreadable ↦ absurd hreadable hunreadable) ?_
  rintro e w' (⟨hbackup, hstill⟩ | ⟨rfl, hfoiled⟩)
  · exact ⟨hbackup, w', hw.still.trans (hstill.resolve_right hunreadable), rfl⟩
  · cases hfoiled with
    | place hwalk => exact absurd hwalk hblocked.place
    | file hpath he =>
      obtain ⟨q, hq, rfl⟩ := List.mem_map.mp hpath
      obtain ⟨phase, hphase, p, hp, hq⟩ := (hfiles q).mp hq
      obtain ⟨q', q'', hq', hq''⟩ := hblocked.followed phase hphase p hp
      obtain rfl : q' = q := Except.ok.inj (hq'.symm.trans ((hresolve p).trans hq))
      exact nomatch he.symm.trans hq''
    | nul hreadable _ => exact absurd hreadable hunreadable

theorem ends_recordAll_declined {part : List Phase} (h : b.Blocked part)
    (hb : b.world.interrupt = none) (hbackup : b.context.config.backupEnabled = true)
    (hdry : b.context.config.dryRun = false) (hstate : b.context.state = .backingUp) :
    Ends (recordAll part) b (fun _ b' ↦ b.Declined b') fun _ _ ↦ False := by
  have hsome : part ≠ [] := by
    obtain ⟨phase, hphase, -⟩ := h.unreadable
    exact List.ne_nil_of_mem hphase
  refine ends_recordAll_of ?_
  constructor
  case idle => exact fun hidle ↦ absurd hidle (by simp [hsome, hdry])
  case unbacked => exact fun hunbacked ↦ absurd hunbacked (by simp [hbackup])
  case recorded =>
    intro _ _ _
    refine (ends_filesOfAll_followed fun phase hphase p hp ↦ ?_).mono ?_ fun _ _ h ↦ h
    · obtain ⟨r, -, hr, -⟩ := h.followed phase hphase p hp
      exact ⟨r, hr⟩
    rintro files b ⟨rfl, hfiles⟩
    refine (ends_takeSnapshot_blocked h hb hfiles).mono (fun _ _ ↦ False.elim) ?_
    rintro e _ ⟨hrefused, w, hw, rfl⟩
    refine ⟨fun _ ↦ ends_moveTo_of_next ?_ fun w' hw' ↦ ?_, fun hnot ↦ hnot hrefused⟩
    · show RunState.aborted ∈ b.context.state.next
      rw [hstate]
      decide
    · exact {
        state := rfl
        error := ⟨_, rfl⟩
        history := rfl
        happened := by
          rw [Bench.happened_moved, Bench.refused, Bench.happened_change, Bench.happened_note _ rfl]
        mutated := rfl
        store := rfl
        still := hw.trans hw' }

theorem ends_execute_declined {crew : Crew} {part : List Phase} (h : b.Blocked part)
    (hb : b.world.interrupt = none) (hbackup : b.context.config.backupEnabled = true)
    (hdry : b.context.config.dryRun = false) (hstate : b.context.state = .idle) :
    Ends (execute crew part) b (fun _ b' ↦ b.Declined b') fun _ _ ↦ False := by
  have hnext : .backingUp ∈ b.context.state.next := by
    rw [hstate]
    decide
  refine ends_execute_of (ends_moveTo_logged hnext fun level name fields ↦ ends_lift.mpr ?_)
  refine ((Act.passes_log level name fields b.world hb).and
    (Act.isFrame_alike.keeps_log level name fields b.world)).mono ?_ fun _ _ h ↦ h.1.elim
  rintro _ w ⟨hw, halike⟩
  refine (ends_recordAll_declined (b := { b.moved .backingUp none "" with world := w })
    (h.alike halike rfl rfl rfl) (hw.interrupt hb) hbackup hdry rfl).mono (fun _ b' hdeclined ↦ ?_)
    fun _ _ h ↦ h
  have hfinished : b'.context.isFinished = true := by
    rw [RunContext.isFinished, hdeclined.state]
    rfl
  exact .of_ended hfinished (hdeclined.before hw.still rfl (Bench.happened_moved _ _ _ _) rfl rfl)

end Recording

/-- If a file cannot be read and is not missing, the run is over before it has done anything. -/
theorem ends_run_declined {crew : Crew} {phases : List Phase} {world : World} {store : Store}
    {runId : String} {project : Route} {config : RunConfig}
    (h : (Bench.fresh world store runId project config).Blocked phases)
    (hworld : world.interrupt = none) (hbackup : config.backupEnabled = true)
    (hdry : config.dryRun = false) :
    Ends (run crew phases) (.fresh world store runId project config)
      (fun _ b ↦ (Bench.fresh world store runId project config).Declined b) fun _ _ ↦ False := by
  have hbound : ((Bench.fresh world store runId project config).bound "run_id"
      runId).world.interrupt = none := hworld
  refine ends_run_of fun fields ↦ ends_lift.mpr ?_
  refine ((Act.passes_log _ _ _ _ hbound).and (Act.isFrame_alike.keeps_log _ _ _ _)).mono ?_
    fun _ _ h ↦ h.1.elim
  rintro _ w₁ ⟨hw, halike⟩
  have hblocked : Bench.Blocked (phases.mergeSort fun p q ↦ p.priority ≤ q.priority)
      { Bench.fresh world store runId project config with world := w₁ } :=
    (h.perm (List.mergeSort_perm _ _)).alike halike rfl rfl rfl
  refine (ends_execute_declined hblocked (hw.interrupt hworld) hbackup hdry rfl).mono
    (fun _ b' hdeclined ↦ ?_) fun _ _ h ↦ h
  have hbegun := (Act.still_bindField "run_id" runId world).trans hw.still
  have hended : (Bench.fresh world store runId project config).Declined b' :=
    hdeclined.before hbegun rfl rfl rfl rfl
  refine ends_lift.mpr (((Act.still_count _ _ _ _).and
    (Act.steady_count (P := fun _ _ ↦ True) rfl rfl _ _ _ trivial)).mono ?_ fun _ _ h ↦ h.2.elim)
  rintro _ w ⟨hcount, -⟩
  have hfixed : b'.context.fixedCount = .ok (Number.int 0) := by
    rw [RunContext.fixedCount, hended.history]
    rfl
  refine ⟨fun e he ↦ (by cases hfixed.symm.trans he), fun fixed _ fields ↦ ?_⟩
  refine ends_lift.mpr (Act.ends_log fun w' hlog ↦ ?_)
  have hunbound : ∀ name (w : World), w.Still { w with journal := w.journal.unbind name } :=
    fun _ _ ↦ .of_eq rfl rfl rfl
  exact hended.lift ((hunbound "run_id" _).trans ((hunbound "phase" _).trans (hcount.trans hlog)))

/-- A directory is in the place of the file. -/
theorem ends_run_declined_directory :
    let x := Scenario.sample [(["p", "a.ts"], .directory 0)] [.sample .syntactic ["a.ts"]]
    x.bench.Blocked x.phases ∧
      Ends (run x.crew x.phases) x.bench (fun _ b ↦ x.bench.Declined b) fun _ _ ↦ False := by
  intro x
  have hfiles : (Phase.sample .syntactic ["a.ts"]).files = [⟨.none, ["a.ts"]⟩] := by
    decide +kernel
  have hpath : x.world.files.resolve ((Route.path x.project).join ⟨.none, ["a.ts"]⟩) =
      .ok ["p", "a.ts"] := Store.eq_ok_of_toOption (by decide +kernel)
  have hroute : x.world.files.resolve (Route.path ["p", "a.ts"]) = .ok ["p", "a.ts"] :=
    Store.eq_ok_of_toOption (by decide +kernel)
  have hblocked : x.bench.Blocked x.phases := by
    refine ⟨fun phase hphase p hp ↦ ?_, fun hwalk ↦ ?_, _, List.mem_singleton_self _,
      ⟨.none, ["a.ts"]⟩, by rw [hfiles]; exact List.mem_singleton_self _, _, _,
      ⟨.isDirectory, "/p/a.ts", none⟩, hpath, hroute, rfl, by decide⟩
    · rw [List.mem_singleton.mp hphase, hfiles] at hp
      rw [List.mem_singleton.mp hp]
      exact ⟨_, _, hpath, hroute⟩
    · cases hwalk
  exact ⟨hblocked, ends_run_declined hblocked rfl rfl rfl⟩

/-! ### Links that lead in a circle -/

/-- A run over a finding in a link that leads to itself. -/
def circlingRun : Except Fault Unit × Bench :=
  let x := Scenario.sample [(["p", "loop"], .link "loop")] [.sample .syntactic ["loop"]]
  run x.crew x.phases x.bench

/-- The run does not return, and leaves its context as it was when it began to record files. -/
theorem caught_of_run :
    circlingRun.1.toOption = none ∧ circlingRun.2.context.state = .backingUp ∧
      circlingRun.2.context.error = none ∧ circlingRun.2.progress.happened.length = 0 := by
  decide +kernel

end RunAct

end Remedy
