import Remedy.CommandLine.Commands
import Remedy.Proofs.Backup.Listing
import Remedy.Proofs.Locking
import Remedy.Proofs.Planning
import Remedy.Proofs.Run.Rollback

/-!
# Undoing what the pipeline has done

If a run of the pipeline has taken the snapshot of all files, then however the run has ended,
undoing it gives the files that its diagnostics name the contents that they had before the run,
reports exactly these files, and leaves the others alone (`Pipeline.undo_of_run`).
-/

set_option autoImplicit false

namespace Remedy

open FileTree

theorem Scenario.Saved.changed {x : Scenario} {only touched : Route → Prop} {s : Snapshot}
    {w w' : World} (h : x.Saved only s w) (hchanges : w.Changes touched w')
    (honly : ∀ r, touched r → x.IsPhaseFile r ∨ only r) : x.Saved only s w' := by
  have hsaved := h.touched hchanges fun r hr ↦ .inl (honly r hr)
  obtain ⟨createdAt, home, hdurable, hstored, hbelow, hlog⟩ := hsaved.lies
  exact { hsaved with lies := ⟨createdAt, home, hdurable, hstored, hbelow, hlog⟩ }

namespace Pipeline

variable {α : Type}

theorem ends_lift {act : Act α} {t : Workshop} {ok : α → Workshop → Prop}
    {bad : Fault → Workshop → Prop} :
    Ends (lift act) t ok bad ↔
      Ends act t.world (fun a w ↦ ok a { t with world := w })
        fun e w ↦ bad e { t with world := w } := by
  unfold Ends lift
  dsimp only
  rcases act t.world with ⟨_ | _, w⟩ <;> rfl

/-- The lock that a run takes. -/
def lock (p : Pipeline) (runId : String) : RunLock :=
  { RunLock.ofProject (Route.path p.project) p.config.backupDirectory with
    runId := runId, timeout := p.lockTimeout }

/-- What a run finds and what it is to carry out, once it holds the lock and has a plan. -/
def outset (p : Pipeline) (raw : Diagnostic.Source) (runId : String) (w : World) :
    Option (List Finding × Scenario) :=
  match ((p.lock runId).acquire none >>= fun _ ↦ p.prepare raw) w with
  | (.ok (found, phases), w') =>
    some (found, ⟨p.crew, phases, w', p.store, runId, p.project, p.config.run⟩)
  | (.error _, _) => none

/-- One of the findings is about the file. -/
def Names (p : Pipeline) (found : List Finding) (t : FileTree) (r : Route) : Prop :=
  ∃ f ∈ found, (t.traced ((Route.path p.project).join (Path.ofString f.file))).route = r

/-- The file lies in the directory of the backups, or in that of the backups of the run, which lies
elsewhere if it is reached through a link. -/
def InBackups (p : Pipeline) (runId : String) (t : FileTree) (r : Route) : Prop :=
  t.Below p.store.root r ∨ t.Below (p.store.root.child runId) r

/-- Backups last: neither the file of the lock nor what the diagnostics are collected with gets in
their way, and no finding is about a file in the directory of the backups. -/
structure Lasting (p : Pipeline) (only : Route → Prop) (found : List Finding) (x : Scenario) :
    Prop where
  run : x.Lasting only
  source : ∀ source, p.source = some source → source.Within only
  lock : ∀ r, x.world.files.traced (p.lock x.runId).path = .done r →
    only r ∧ p.InBackups x.runId x.world.files r
  outside : ∀ r, p.Names found x.world.files r → ¬ p.InBackups x.runId x.world.files r

section Runs

variable {p : Pipeline} {raw : Diagnostic.Source} {runId : String} {w : World}
  {found : List Finding} {x : Scenario} {only : Route → Prop} {s : Snapshot}

theorem exists_of_outset (h : p.outset raw runId w = some (found, x)) :
    ∃ w₁, (p.lock runId).acquire none w = (.ok (), w₁) ∧
      p.prepare raw w₁ = (.ok (found, x.phases), x.world) ∧
      x = ⟨p.crew, x.phases, x.world, p.store, runId, p.project, p.config.run⟩ := by
  unfold outset at h
  rw [bind_apply] at h
  rcases hacquire : (p.lock runId).acquire none w with ⟨_ | _, w₁⟩
  · rw [hacquire] at h
    cases h
  rw [hacquire] at h
  rcases hprepare : p.prepare raw w₁ with ⟨_ | ⟨found', phases⟩, w₂⟩
  · simp only [hprepare] at h
    cases h
  · simp only [hprepare] at h
    cases h
    exact ⟨w₁, rfl, hprepare, rfl⟩

/-! ### Planning -/

theorem still_prepare (p : Pipeline) (raw : Diagnostic.Source) : Act.Still (p.prepare raw) := by
  unfold prepare
  exact (still_analyze _ _).bind fun _ ↦ (still_plan _ _).bind fun _ ↦ Act.still_pure _

theorem ends_prepare (p : Pipeline) (raw : Diagnostic.Source) (w : World) :
    Ends (p.prepare raw) w (fun made _ ↦ p.config.planner.phasesFor made.1 = .ok made.2)
      fun _ _ ↦ True := by
  unfold prepare
  refine Ends.bind_any fun found w ↦ ?_
  unfold plan
  split
  · exact trivial
  · rename_i phases hphases
    exact ends_bind.mpr (ends_bind.mpr (Act.ends_log fun _ _ ↦ hphases))

/-- The files of the phases are those that the findings are about. -/
theorem isPhaseFile_iff_names (h : p.outset raw runId w = some (found, x)) (r : Route) :
    x.IsPhaseFile r ↔ p.Names found x.world.files r := by
  obtain ⟨w₁, -, hprepare, heq⟩ := exists_of_outset h
  have hpath : ∀ q, x.path q = (Route.path p.project).join q := by
    rw [heq]
    exact fun _ ↦ rfl
  have hphases := (ends_of_eq hprepare).mp (p.ends_prepare raw w₁)
  have hmem := PlannerConfig.mem_findings_of_phasesFor hphases
  constructor
  · rintro ⟨phase, hphase, q, hq, rfl⟩
    obtain ⟨f, hf, rfl⟩ := List.mem_map.mp (mem_distinct.mp (List.mem_mergeSort.mp hq))
    exact ⟨f, (hmem f).mpr ⟨phase, hphase, hf⟩, by rw [hpath]⟩
  · rintro ⟨f, hf, rfl⟩
    obtain ⟨phase, hphase, hfinding⟩ := (hmem f).mp hf
    refine ⟨phase, hphase, Path.ofString f.file, ?_, by rw [hpath]⟩
    exact List.mem_mergeSort.mpr (mem_distinct.mpr (List.mem_map_of_mem hfinding))

/-! ### What a run leaves behind -/

theorem touching_remeasure {source : Work Diagnostic.Source} (h : source.Within only)
    (c : RunContext) : Act.Touching only (remeasure source c) := by
  unfold remeasure
  refine (Act.touching_finish h).attempt.bind fun outcome ↦ Act.Still.touching ?_
  split
  · exact (Diagnostic.still_read _).bind fun _ ↦ Act.still_pure _
  · exact .guard ((Act.still_log _ _ _).bind fun _ ↦ Act.still_pure _)

theorem ends_execute (p : Pipeline) (phases : List Phase) (runId : String) (t : Workshop) :
    let b : Bench := .fresh t.world t.store runId p.project p.config.run
    Ends (p.execute phases runId) t (fun _ t' ↦ t'.world = (RunAct.run p.crew phases b).2.world)
      fun _ t' ↦ t'.world = (RunAct.run p.crew phases b).2.world := by
  unfold Ends execute
  dsimp only [Bench.fresh]
  rcases RunAct.run p.crew phases _ with ⟨_ | _, b⟩ <;> rfl

theorem isAbsolute_lock (p : Pipeline) (runId : String) :
    (p.lock runId).path.isAbsolute = true :=
  Path.isAbsolute_join _ _

/-- What has been done before a run sets out is to take the lock, which touches its file. -/
theorem entered_of_outset (hw : w.files.Sound) (hfree : RunLock.heldFile 0 w.locks = none)
    (hout : p.outset raw runId w = some (found, x)) :
    ∃ route, x.world.files.traced (p.lock runId).path = .done route ∧
      RunLock.heldFile 0 x.world.locks = some route ∧ w.Changes (· = route) x.world := by
  obtain ⟨w₁, hacquire, hprepare, -⟩ := exists_of_outset hout
  obtain ⟨route, htraced, hheld, htaken⟩ := (ends_of_eq hacquire).mp
    (RunLock.ends_acquire (p.lock runId) none hw (p.isAbsolute_lock runId) hfree)
  have hprepared : w₁.Still x.world := (ends_of_eq hprepare).mp (still_prepare p raw w₁)
  have hchanges : w.Changes (· = route) x.world :=
    htaken.trans (hprepared.undisturbed.mono fun _ ↦ False.elim).changes
  refine ⟨route, ?_, hprepared.undisturbed.locks ▸ hheld, hchanges⟩
  exact (traced_congr (hchanges.files hw).alters.links (p.isAbsolute_lock runId)).trans htraced

/-- While the lock is held, the snapshot of all files stays as it was when the phases have been
carried out. -/
theorem ends_runLocked {t : Workshop}
    (hprepare : p.prepare raw t.world = (.ok (found, x.phases), x.world))
    (hx : x = ⟨p.crew, x.phases, x.world, t.store, runId, p.project, p.config.run⟩)
    (hsource : ∀ source, p.source = some source → source.Within only)
    (hstowed : x.Stowed only s (RunAct.run x.crew x.phases x.bench).2.world) :
    Ends (p.runLocked raw runId) t (fun _ t' ↦ x.Stowed only s t'.world)
      fun _ t' ↦ x.Stowed only s t'.world := by
  have hbench :
      RunAct.run p.crew x.phases (.fresh x.world t.store runId p.project p.config.run) =
        RunAct.run x.crew x.phases x.bench := by
    rw [hx]
    rfl
  have hexecuted : Ends (p.execute x.phases runId) { t with world := x.world }
      (fun _ t' ↦ x.Stowed only s t'.world) fun _ t' ↦ x.Stowed only s t'.world := by
    rw [← hbench] at hstowed
    exact (ends_execute p x.phases runId _).mono (fun _ _ h ↦ h ▸ hstowed) fun _ _ h ↦ h ▸ hstowed
  unfold runLocked
  refine ends_bind.mpr (ends_lift.mpr ((ends_of_eq hprepare).mpr ?_))
  refine Ends.bind (Q := fun _ t' ↦ x.Stowed only s t'.world) (Ends.andThenAlways
    (ends_bind.mpr (hexecuted.mono (fun c t' h ↦ ?_) fun _ _ h ↦ ends_modify.mpr h)))
    fun _ t' h ↦ ?_
  · split
    · rename_i source hsome
      split
      · exact ends_pure.mpr (ends_modify.mpr h)
      · have htouching := touching_remeasure (hsource source hsome) c t'.world
        have hkept : ∀ {w}, t'.world.Touches only w → x.Stowed only s w :=
          fun htouches ↦ h.touched htouches fun _ hr ↦ .inl (.inr hr)
        exact ends_lift.mpr (htouching.mono (fun _ _ htouches ↦ ends_modify.mpr (hkept htouches))
          fun _ _ htouches ↦ ends_modify.mpr (hkept htouches))
    · exact ends_pure.mpr (ends_modify.mpr h)
  · refine ends_lift.mpr ((Act.still_ofExcept _ t'.world).mono ?_ ?_)
    · exact fun _ _ hstill ↦ h.touched hstill.undisturbed fun _ ↦ False.elim
    · exact fun _ _ hstill ↦ h.touched hstill.undisturbed fun _ ↦ False.elim

/-- After a run, its snapshot of all files is saved, and the lock has been given up. -/
theorem saved_of_run (hrunId : runId ≠ "") (hw : w.files.Sound)
    (hfree : RunLock.heldFile 0 w.locks = none) (hout : p.outset raw runId w = some (found, x))
    (hx : x.Proper) (htame : x.Tame) (hlasting : p.Lasting only found x)
    (hwhole : x.whole? = some s) :
    let t := (p.run raw (some runId) ⟨w, p.store⟩).2
    x.Saved only s t.world ∧ RunLock.heldFile 0 t.world.locks = none := by
  obtain ⟨w₁, hacquire, hprepare, heq⟩ := exists_of_outset hout
  obtain ⟨route, htraced, hheld, -⟩ := entered_of_outset hw hfree hout
  have hroute : only route := by
    refine (hlasting.lock route ?_).1
    rw [heq] at htraced ⊢
    exact htraced
  have hlocked : Ends (p.runLocked raw runId) ⟨w₁, p.store⟩ (fun _ t ↦ x.Stowed only s t.world)
      fun _ t ↦ x.Stowed only s t.world :=
    ends_runLocked hprepare heq hlasting.source
      (Scenario.stowed_of_run hx htame hlasting.run hwhole)
  -- Giving the lock up touches its file.
  have hreleased : ∀ {t : Workshop}, x.Stowed only s t.world → Ends (lift (p.lock runId).release) t
      (fun _ t' ↦ x.Saved only s t'.world ∧ RunLock.heldFile 0 t'.world.locks = none)
      fun _ _ ↦ False := by
    intro t hstowed
    have hstill : RunLock.heldFile (p.lock runId).owner t.world.locks = some route := by
      rw [hstowed.locks]
      exact hheld
    refine ends_lift.mpr ((RunLock.ends_release _ hstill).mono ?_ fun _ _ h ↦ h)
    rintro _ w' ⟨hnone, hemptied⟩
    exact ⟨hstowed.toSaved.changed hemptied fun r hr ↦ .inr (hr ▸ hroute), hnone⟩
  have hname : ((some runId).filter fun name ↦ !name.isEmpty) = some runId := by
    simp [Option.filter, hrunId]
  refine Ends.state (P := fun t : Workshop ↦ x.Saved only s t.world ∧
    RunLock.heldFile 0 t.world.locks = none) ?_
  unfold run
  rw [hname]
  refine ends_bind.mpr (ends_pure.mpr (ends_bind.mpr (ends_lift.mpr ?_)))
  refine (ends_of_eq hacquire).mpr ?_
  refine Ends.bind (Q := fun _ t ↦ x.Saved only s t.world ∧ RunLock.heldFile 0 t.world.locks = none)
    (Ends.andThenAlways (hlocked.mono (fun _ t h ↦ ?_) fun _ t h ↦ ?_)) ?_
  · exact (hreleased h).mono (fun _ _ h ↦ h) fun _ _ h ↦ h.elim
  · exact (hreleased h).mono (fun _ _ h ↦ h) fun _ _ h ↦ h.elim
  · rintro summary t ⟨hsaved, hnone⟩
    refine ends_bind.mpr (ends_lift.mpr (Act.ends_log fun w' hstill ↦ ends_pure.mpr ⟨?_, ?_⟩))
    · exact hsaved.touched hstill.undisturbed fun _ ↦ False.elim
    · show RunLock.heldFile 0 w'.locks = none
      rw [hstill.undisturbed.locks]
      exact hnone

/-! ### Undoing -/

/-- What the undoing of a run reports if it succeeds. -/
def undone (runId : String) (restored : List Route) : Outcome where
  code := 0
  report := some (.obj [("run_id", runId), ("key", runKey),
    ("restored", .strs (restored.map Route.text))])

/-- As long as the snapshot of all files is saved, undoing the run puts back the files of its phases
if it succeeds, and touches nothing else but the lock. -/
theorem ends_undoRun {store : Store} {route : Route} (a : Arguments) (l : RunLock)
    (hstore : store = x.store) (hrunId : runId = x.runId) (hsaved : x.Saved only s w)
    (htame : x.Tame) (hpath : l.path.isAbsolute = true)
    (hfree : RunLock.heldFile l.owner w.locks = none)
    (hroute : x.world.files.traced l.path = .done route) (honly : only route)
    (hapart : ¬ x.IsPhaseFile route) :
    Ends (Command.undoRun a store l runId runKey) w
      (fun outcome w' ↦ outcome.code = 0 → outcome = undone runId s.paths ∧
        w.Changes (fun r ↦ x.IsPhaseFile r ∨ r = route) w' ∧
        ∀ r, x.IsPhaseFile r → w'.files.bytes? r = x.world.files.bytes? r)
      fun _ _ ↦ True := by
  subst hstore hrunId
  obtain ⟨_, _, -, hsecures⟩ := hsaved.lies
  have hw := hsecures.stored.clean.sound
  unfold Command.undoRun RunLock.during
  refine ((RunLock.ends_acquire l none hw hpath hfree).mono (fun _ _ h ↦ h)
    fun _ _ _ ↦ trivial).bind ?_
  rintro _ w₁ ⟨r, hr, hheld, htaken⟩
  obtain rfl : r = route := by
    rw [traced_congr hsaved.alters.links hpath, hroute] at hr
    exact (Resolved.done.inj hr).symm
  have hsaved₁ := hsaved.changed htaken fun q hq ↦ .inr (hq ▸ honly)
  have hany : ∀ {w}, Ends l.release w (fun _ _ ↦ True) fun _ _ ↦ True :=
    ends_of_forall (fun _ _ ↦ trivial) fun _ _ ↦ trivial
  refine Ends.andThenAlways (ends_bind.mpr ((ends_of_eq (hsaved₁.load_eq htame)).mpr (ends_bind.mpr
    (ends_attempt.mpr ((hsaved₁.ends_restore htame).mono ?_ ?_)))))
  · rintro restored w₂ ⟨rfl, htouches, hbytes⟩
    have hstill : RunLock.heldFile l.owner w₂.locks = some r := htouches.locks ▸ hheld
    refine ends_pure.mpr ((RunLock.ends_release l hstill).mono ?_ fun _ _ _ ↦ trivial)
    rintro _ w₃ ⟨-, hemptied⟩ -
    refine ⟨rfl, ?_, fun q hq ↦ ?_⟩
    · exact ((htaken.mono fun _ ↦ .inr).trans (htouches.changes.mono fun _ ↦ .inl)).trans
        (hemptied.mono fun _ ↦ .inr)
    · have hsound := (htouches.files (htaken.files hw).sound).sound
      rw [(hemptied.files hsound).alters.bytes q ?_]
      · exact hbytes q hq
      · rintro (rfl | hlog)
        · exact hapart hq
        · rw [htouches.log, hsaved₁.log] at hlog
          exact htame.outside q hq (.inr hlog)
  · intro e w₂ _
    split
    · rename_i heq
      cases heq
    · refine ends_bind.mpr (ends_of_forall (fun _ _ ↦ ends_pure.mpr ?_) fun _ _ ↦ hany)
      exact ends_of_forall (fun _ _ hcode ↦ absurd hcode (by decide)) fun _ _ ↦ trivial
    · exact ends_throw.mpr hany

theorem names_congr {t t' : FileTree} (hlinks : ∀ r, t'.link? r = t.link? r) (r : Route) :
    p.Names found t' r ↔ p.Names found t r := by
  unfold Names
  simp only [traced_congr hlinks (Path.isAbsolute_join p.project _)]

theorem inBackups_congr {t t' : FileTree} (hlinks : ∀ r, t'.link? r = t.link? r) (r : Route) :
    p.InBackups runId t' r ↔ p.InBackups runId t r := by
  have hroot : p.store.root.isAbsolute = true := Path.isAbsolute_join _ _
  unfold InBackups
  rw [below_congr hlinks hroot, below_congr (p := p.store.root.child runId) hlinks hroot]

/-- What it comes to when a run that was begun in the world `w` has been undone, from `w'` on. -/
structure Undoes (p : Pipeline) (runId : String) (found : List Finding) (only : Route → Prop)
    (w w' : World) (outcome : Outcome) (w'' : World) : Prop where
  reports : ∃ restored : List Route, outcome = undone runId restored ∧ restored.Nodup ∧
    ∀ r, r ∈ restored ↔ p.Names found w.files r
  named : ∀ r, p.Names found w.files r → w''.files.bytes? r = w.files.bytes? r
  others : ∀ r, ¬ p.Names found w.files r → ¬ p.InBackups runId w.files r →
    w.logFile ≠ some r → w''.files.bytes? r = w'.files.bytes? r ∧
      (¬ only r → w''.files.bytes? r = w.files.bytes? r)

/-- If a run has taken the snapshot of all files, then however it has ended, and whatever has been
done since to the files that its findings name, undoing it puts these files back as they were before
the run, unless it fails, and changes no others. -/
theorem undo_of_run (p : Pipeline) (raw : Diagnostic.Source) (a : Arguments) {o : UndoOptions}
    {w' : World} (hrunId : runId ≠ "") (hw : w.files.Sound)
    (hfree : RunLock.heldFile 0 w.locks = none) (hout : p.outset raw runId w = some (found, x))
    (hx : x.Proper) (htame : x.Tame) (hlasting : p.Lasting only found x)
    (hwhole : x.whole? = some s) (ho : o = { runId := some runId, key := runKey, list := false })
    (hlater : (p.run raw (some runId) ⟨w, p.store⟩).2.world.Changes
      (fun r ↦ p.Names found w.files r ∨ only r) w')
    (hfree' : RunLock.heldFile 0 w'.locks = none) :
    Ends (Command.undo a p.config p.project o) w'
      (fun outcome w'' ↦ outcome.code = 0 → p.Undoes runId found only w w' outcome w'')
      fun _ _ ↦ True := by
  obtain ⟨w₁, -, -, heq⟩ := exists_of_outset hout
  obtain ⟨hstore, hname⟩ : x.store = p.store ∧ x.runId = runId := by
    rw [heq]
    exact ⟨rfl, rfl⟩
  obtain ⟨route, htraced, -, hentered⟩ := entered_of_outset hw hfree hout
  have hbefore := hentered.files hw
  have hnames : ∀ r, x.IsPhaseFile r ↔ p.Names found w.files r := fun r ↦
    (isPhaseFile_iff_names hout r).trans (names_congr hbefore.alters.links r)
  have hbackups : ∀ r, p.InBackups runId x.world.files r ↔ p.InBackups runId w.files r :=
    inBackups_congr hbefore.alters.links
  obtain ⟨honly, hlock⟩ := hlasting.lock route (by rw [hname]; exact htraced)
  rw [hname, hbackups] at hlock
  have hapart : ¬ x.IsPhaseFile route := by
    intro hfile
    have hstray := hlasting.outside route ((isPhaseFile_iff_names hout route).mp hfile)
    rw [hname, hbackups] at hstray
    exact hstray hlock
  have hsaved := (saved_of_run hrunId hw hfree hout hx htame hlasting hwhole).1.changed hlater
    fun r hr ↦ hr.imp_left (hnames r).mpr
  subst ho
  unfold Command.undo
  refine ends_bind.mpr (Act.ends_onFiles.mpr ((Store.ends_runs _ _).mono ?_ fun _ _ _ ↦ trivial))
  rintro runs t ⟨rfl, -⟩
  have hgiven : ((some runId).filter (fun run ↦ !run.isEmpty) <|> runs.head?) = some runId := by
    simp [Option.filter, hrunId]
  dsimp only
  rw [if_neg Bool.false_ne_true, hgiven]
  let l : RunLock :=
    { RunLock.ofProject (Route.path p.project) p.config.backupDirectory with
      runId := s!"undo-{runId}" }
  refine (ends_undoRun a l hstore.symm hname.symm hsaved htame (p.isAbsolute_lock runId) hfree'
    htraced honly hapart).mono ?_ fun _ _ h ↦ h
  intro outcome w'' hdone hcode
  obtain ⟨houtcome, hundone, hbytes⟩ := hdone hcode
  obtain ⟨createdAt, home, hdurable, hsecures⟩ := hsaved.lies
  have hafter := hundone.files hsecures.stored.clean.sound
  have hlog : w'.logFile = w.logFile := hsaved.log.trans hentered.log
  -- Taking the lock concerns the directory of the backups alone.
  have hsame : ∀ r, ¬ p.InBackups runId w.files r → w.logFile ≠ some r →
      x.world.files.bytes? r = w.files.bytes? r := by
    intro r hout hlogged
    refine hbefore.alters.bytes r ?_
    rintro (rfl | hlogs)
    · exact hout hlock
    · exact hlogged hlogs
  constructor
  case reports =>
    exact ⟨s.paths, houtcome, hdurable.nodup, fun r ↦ (hsaved.paths r).trans (hnames r)⟩
  case named =>
    intro r hr
    have hfile := (hnames r).mpr hr
    rw [hbytes r hfile]
    refine hsame r ?_ fun hlogs ↦ htame.outside r hfile (.inr (hentered.log.trans hlogs))
    rw [← hbackups, ← hname]
    exact hlasting.outside r ((isPhaseFile_iff_names hout r).mp hfile)
  case others =>
    intro r hnamed hout hlogged
    have hfile : ¬ x.IsPhaseFile r := fun h ↦ hnamed ((hnames r).mp h)
    have hkept : w''.files.bytes? r = w'.files.bytes? r := by
      refine hafter.alters.bytes r ?_
      rintro ((hr | rfl) | hlogs)
      · exact hfile hr
      · exact hout hlock
      · exact hlogged (hlog ▸ hlogs)
    refine ⟨hkept, fun hnot ↦ ?_⟩
    rw [hkept, hsaved.alters.bytes r ?_, hsame r hout hlogged]
    rintro ((hr | hr) | hbelow | hlogs)
    · exact hfile hr
    · exact hnot hr
    · refine hout (.inr ?_)
      rw [← below_congr hbefore.alters.links (p := p.store.root.child runId)
        (Path.isAbsolute_join _ _), ← hstore, ← hname]
      exact hbelow
    · exact hlogged (hentered.log ▸ hlogs)

end Runs

/-! ### A file that a fixer spoils -/

/-- A pipeline for a project with one file, in which no phase is tried again. -/
def oneFile : Pipeline where
  project := ["p"]
  config := {
    run := { validationEnabled := false }
    planner := { retriesCeiling := some 0 }
    backupDirectory := "b" }
  crew := Scenario.oneFile.crew

/-- A diagnostic of that file. -/
def oneError : Diagnostic.Source := .text "a.ts(1,1): error TS1005: x"

/-- The file of the lock. -/
def lockFile : Route := ["p", "b", lockName]

/-- What is to be known of how a run over the diagnostic sets out. -/
structure OneFileOutset (found : List Finding) (x : Scenario) (s : Snapshot) : Prop where
  outset : oneFile.outset oneError "run-1" Scenario.oneFile.world = some (found, x)
  files : found.map Finding.file = ["a.ts"]
  routes : x.world.files.entries.map (·.1) =
    [["p"], ["p", "a.ts"], ["p", "b"], lockFile]
  tick : x.world.files.tick < Calendar.lastMoment
  whole : x.whole? = some s

theorem exists_outset_oneFile : ∃ found x s, OneFileOutset found x s := by
  obtain ⟨hfiles, hroutes, htick, hwhole⟩ :
      let out := oneFile.outset oneError "run-1" Scenario.oneFile.world
      out.map (fun y ↦ y.1.map Finding.file) = some ["a.ts"] ∧
      out.map (fun y ↦ y.2.world.files.entries.map (·.1)) =
        some [["p"], ["p", "a.ts"], ["p", "b"], lockFile] ∧
      out.any (fun y ↦ y.2.world.files.tick < Calendar.lastMoment) = true ∧
      out.any (fun y ↦ y.2.whole?.isSome) = true := by
    decide +kernel
  rcases hout : oneFile.outset oneError "run-1" Scenario.oneFile.world with _ | ⟨found, x⟩
  · rw [hout] at hfiles
    cases hfiles
  rw [hout] at hfiles hroutes htick hwhole
  obtain ⟨s, hs⟩ := Option.isSome_iff_exists.mp hwhole
  exact ⟨found, x, s, hout, Option.some.inj hfiles, Option.some.inj hroutes,
    of_decide_eq_true htick, hs⟩

namespace OneFileOutset

variable {found : List Finding} {x : Scenario} {s : Snapshot} (h : OneFileOutset found x s)

include h

theorem parts : x.crew = oneFile.crew ∧ x.store = oneFile.store ∧ x.runId = "run-1" ∧
    x.config = oneFile.config.run ∧ x.project = ["p"] := by
  obtain ⟨-, -, -, heq⟩ := exists_of_outset h.outset
  rw [heq]
  exact ⟨rfl, rfl, rfl, rfl, rfl⟩

theorem changes : Scenario.oneFile.world.Changes (· = lockFile) x.world := by
  obtain ⟨route, htraced, -, hchanges⟩ :=
    entered_of_outset Scenario.proper_oneFile.sound rfl h.outset
  have hlinks := (hchanges.files Scenario.proper_oneFile.sound).alters.links
  have hto : Scenario.oneFile.world.files.traced (oneFile.lock "run-1").path = .done lockFile := by
    decide
  rw [traced_congr hlinks (oneFile.isAbsolute_lock _), hto] at htraced
  obtain rfl := Resolved.done.inj htraced
  exact hchanges

theorem becomes : Becomes (fun r ↦ r = lockFile ∨ Scenario.oneFile.world.logFile = some r)
    Scenario.oneFile.world.files x.world.files :=
  h.changes.files Scenario.proper_oneFile.sound

theorem traced {p : Path} {r : Route} (hp : p.isAbsolute = true)
    (hr : Scenario.oneFile.world.files.traced p = .done r) : x.world.files.traced p = .done r :=
  (traced_congr h.becomes.alters.links hp).trans hr

theorem no_log (r : Route) : x.world.logFile ≠ some r := by
  have hlog : x.world.logFile = Scenario.oneFile.world.logFile := h.changes.log
  rw [hlog]
  exact fun hsome ↦ by cases hsome

theorem not_reserved {r : Route} (hr : ¬ ["p", "b", "run-1"] <+: r) :
    ¬ x.Reserved x.world.files r := by
  obtain ⟨-, hstore, hrunId, -, -⟩ := h.parts
  have hhome : x.world.files.traced (x.store.root.child x.runId) =
      .done ["p", "b", "run-1"] := by
    rw [hstore, hrunId]
    exact h.traced rfl (by decide)
  rintro (⟨d, hd, hbelow⟩ | hlog)
  · obtain rfl := Resolved.done.inj (hhome.symm.trans hd)
    exact hr hbelow
  · exact h.no_log r hlog

theorem names_iff (r : Route) : oneFile.Names found x.world.files r ↔ r = ["p", "a.ts"] := by
  have hto : x.world.files.traced ((Route.path ["p"]).join (Path.ofString "a.ts")) =
      .done ["p", "a.ts"] := h.traced (Path.isAbsolute_join _ _) (by decide +kernel)
  have hroute : ∀ f ∈ found, (x.world.files.traced ((Route.path oneFile.project).join
      (Path.ofString f.file))).route = ["p", "a.ts"] := by
    intro f hf
    have hmem := List.mem_map_of_mem (f := Finding.file) hf
    rw [h.files] at hmem
    rw [List.mem_singleton.mp hmem]
    exact congrArg Resolved.route hto
  constructor
  · rintro ⟨f, hf, rfl⟩
    exact hroute f hf
  · rintro rfl
    obtain ⟨f, hf, -⟩ := List.mem_map.mp (h.files ▸ List.mem_singleton_self "a.ts")
    exact ⟨f, hf, hroute f hf⟩

theorem isPhaseFile_iff (r : Route) : x.IsPhaseFile r ↔ r = ["p", "a.ts"] :=
  (isPhaseFile_iff_names h.outset r).trans (h.names_iff r)

theorem proper : x.Proper := by
  obtain ⟨hcrew, hstore, -, hconfig, -⟩ := h.parts
  constructor
  case root =>
    rw [hstore]
    rfl
  case backup =>
    rw [hconfig]
    rfl
  case sound => exact h.becomes.sound
  case sane =>
    rw [hcrew]
    exact Scenario.proper_oneFile.sane

omit h in
theorem draft (n : Nat) : ∃ name, Route.draft ["p", "a.ts"] n = ["p", name] ∧ name ≠ "a.ts" ∧
    name ≠ "b" :=
  ⟨_, Route.draft_concat ["p"] "a.ts" n, FileAct.draftName_ne _ _,
    FileAct.draftName_ne_of_length_le (by decide) _⟩

theorem tame : x.Tame := by
  constructor
  case confined =>
    rw [h.parts.1]
    exact Scenario.tame_oneFile.confined
  case direct =>
    intro r hr
    obtain rfl := (h.isPhaseFile_iff r).mp hr
    exact direct_of_traced (p := Route.path ["p", "a.ts"]) h.becomes.sound rfl
      (h.traced rfl (by decide))
  case outside =>
    intro r hr
    obtain rfl := (h.isPhaseFile_iff r).mp hr
    exact h.not_reserved (by decide)
  case drafts =>
    intro r hr n
    obtain rfl := (h.isPhaseFile_iff r).mp hr
    obtain ⟨name, heq, hname, hname'⟩ := draft n
    rw [heq, h.isPhaseFile_iff]
    refine ⟨look_eq_none ?_, by simpa using hname, h.not_reserved fun hbelow ↦ ?_⟩
    · rw [node?, if_neg (List.cons_ne_nil _ _)]
      by_contra hfound
      have hmem := mem_of_find hfound
      rw [h.routes] at hmem
      simp [lockFile, hname, hname'] at hmem
    · exact absurd hbelow.length_le (by simp)

theorem lasting : oneFile.Lasting (· = lockFile) found x := by
  obtain ⟨hcrew, hstore, hrunId, -, hproject⟩ := h.parts
  have hroot : x.world.files.traced oneFile.store.root = .done ["p", "b"] :=
    h.traced rfl (by decide)
  have hhome : x.world.files.traced (oneFile.store.root.child "run-1") =
      .done ["p", "b", "run-1"] := h.traced rfl (by decide)
  have hlock : x.world.files.traced (oneFile.lock "run-1").path = .done lockFile :=
    h.traced rfl (by decide)
  constructor
  case run =>
    constructor
    case written =>
      rw [hproject, hstore]
      exact ⟨Store.written_sample, Store.written_sample⟩
    case dots =>
      rw [hstore]
      decide
    case moment => exact h.tick
    case log => exact fun r hlog ↦ absurd hlog (h.no_log r)
    case loose =>
      rintro _ rfl
      refine ⟨h.not_reserved (by decide), fun q hq n hdraft ↦ ?_⟩
      obtain rfl := (h.isPhaseFile_iff q).mp hq
      obtain ⟨name, heq, -⟩ := draft n
      simp [heq, lockFile] at hdraft
    case checks =>
      rw [hcrew]
      exact fun check hcheck ↦ absurd hcheck List.not_mem_nil
  case source => exact fun source hsource ↦ by cases hsource
  case lock =>
    intro r hr
    rw [hrunId] at hr ⊢
    obtain rfl := Resolved.done.inj (hlock.symm.trans hr)
    exact ⟨rfl, .inl ⟨_, hroot, by decide⟩⟩
  case outside =>
    intro r hr
    obtain rfl := (h.names_iff r).mp hr
    rw [hrunId]
    rintro (⟨d, hd, hbelow⟩ | ⟨d, hd, hbelow⟩)
    · obtain rfl := Resolved.done.inj (hroot.symm.trans hd)
      revert hbelow
      decide
    · obtain rfl := Resolved.done.inj (hhome.symm.trans hd)
      revert hbelow
      decide

end OneFileOutset

/-- The fixer spoils the file, the run is rolled back and then undone. -/
theorem undo_of_oneFile : ∃ found x s,
    let w := (oneFile.run oneError (some "run-1") ⟨Scenario.oneFile.world, oneFile.store⟩).2.world
    let o : UndoOptions := { runId := some "run-1", key := runKey, list := false }
    oneFile.outset oneError "run-1" Scenario.oneFile.world = some (found, x) ∧
      x.Proper ∧ x.Tame ∧ oneFile.Lasting (· = lockFile) found x ∧ x.whole? = some s ∧
      Ends (Command.undo ⟨{ project := Route.path ["p"] }, .undo o⟩ oneFile.config ["p"] o) w
        (fun outcome w' ↦ outcome.code = 0 →
          oneFile.Undoes "run-1" found (· = lockFile) Scenario.oneFile.world w outcome w')
        fun _ _ ↦ True := by
  obtain ⟨found, x, s, h⟩ := exists_outset_oneFile
  refine ⟨found, x, s, h.outset, h.proper, h.tame, h.lasting, h.whole, ?_⟩
  refine undo_of_run oneFile oneError _ (by decide) Scenario.proper_oneFile.sound rfl h.outset
    h.proper h.tame h.lasting h.whole rfl (.refl _ _) ?_
  exact (saved_of_run (by decide) Scenario.proper_oneFile.sound rfl h.outset h.proper h.tame
    h.lasting h.whole).2

end Pipeline

end Remedy
