import Remedy.Proofs.Backup.Taking
import Remedy.Proofs.Planning
import Remedy.Proofs.Run.Outcome

/-!
# Why files cannot be recorded in a run

The snapshots of a run have different names if no two phases have the same fixer and none has the one
that the snapshot of all files goes by. So if the store holds nothing for the run and the names are
such that snapshots can be kept under them, no name is refused: where files cannot be recorded, it is
because one of them cannot be read, or because the snapshot cannot be written
(`RunAct.refusals_of_run`).

The directory of a snapshot may be there although the store does not hold the snapshot. This does not
happen if the directory of the run is empty at first and the fixers put nothing into it
(`Undisputed`): what is in it then are the snapshots of the run itself, and each step of the run
leaves the names of the others free (`Bench.Step.goes`, `Bench.Offers`).
-/

set_option autoImplicit false

namespace Remedy

open FileTree Relation

/-! ### Names that are free -/

/-- The tree stays sound, and the names that are free in the directory that the path leads to stay
free. -/
def FileTree.LeavesFree (p : Path) (t t' : FileTree) : Prop :=
  t.Sound → t'.Sound ∧ ∀ name, t.Vacant p name → t'.Vacant p name

theorem FileTree.LeavesFree.refl (p : Path) (t : FileTree) : LeavesFree p t t :=
  fun ht ↦ ⟨ht, fun _ ↦ id⟩

theorem FileTree.LeavesFree.trans {p : Path} {t t' t'' : FileTree} (h : LeavesFree p t t')
    (h' : LeavesFree p t' t'') : LeavesFree p t t'' := by
  intro ht
  obtain ⟨ht', hfree⟩ := h ht
  obtain ⟨ht'', hfree'⟩ := h' ht'
  exact ⟨ht'', fun name ↦ hfree' name ∘ hfree name⟩

theorem World.Still.leavesFree {w w' : World} (h : w.Still w') (p : Path) :
    LeavesFree p w.files w'.files :=
  fun hw ↦ ⟨(h.undisturbed.files hw).sound, fun _ ↦ h.vacant hw⟩

/-- What is free in a directory is not walked to. -/
theorem FileTree.Vacant.walk_ne {t : FileTree} {p : Path} {name : String}
    (hvacant : t.Vacant p name) (ht : t.Sound) (hp : p.isAbsolute = true) (hname : name ≠ "..")
    (r : Route) (node : Node) : t.walk (p.child name) ≠ .ok (.at r node) := by
  intro hwalk
  unfold walk start at hwalk
  rw [if_pos (show (p.child name).isAbsolute = true from hp)] at hwalk
  split at hwalk
  · cases hwalk
  have hto := walk_of_walkWithin hwalk
  rw [show (p.child name).names = p.names ++ [name] from rfl] at hto
  obtain ⟨mid, -, hmid, hlast⟩ := hto.split ht ht.root (List.cons_ne_nil _ _)
  have hnone := hvacant mid hmid
  generalize hplace : (Place.at r node).still = place at hlast
  cases hlast with
  | up => exact hname rfl
  | free => cases hplace
  | file _ hlook =>
    rw [hnone] at hlook
    cases hlook
  | link _ hlook =>
    rw [hnone] at hlook
    cases hlook
  | enter _ hlook =>
    rw [HasDirectory, hnone] at hlook
    cases hlook
  | follow _ hlook =>
    rw [hnone] at hlook
    cases hlook

/-- None of the fixers takes a name in the directory that the path leads to. -/
def Crew.LeavesFree (crew : Crew) (p : Path) : Prop :=
  ∀ name fixer, crew.registry.get name = .ok fixer → ∀ request (site : Site),
    FileTree.LeavesFree p site.files (fixer.fix request site).2.files

/-- No fixer takes the name of a snapshot of the run. -/
structure Crew.Fair (crew : Crew) (root : Path) (runId : String) : Prop where
  absolute : root.isAbsolute = true
  dots : ".." ∉ root.names
  free : crew.LeavesFree (root.child runId)

/-- The names of snapshots are the run's own: none is taken before it, and no fixer takes one. -/
structure Undisputed (crew : Crew) (world : World) (root : Path) (runId : String) : Prop
    extends crew.Fair root runId where
  sound : world.files.Sound
  vacant : ∀ name, world.files.Vacant (root.child runId) name

/-! ### Steps -/

/-- Nothing is put back or checked yet. -/
def RunState.isEarly : RunState → Bool
  | .idle | .backingUp | .executing | .retrying => true
  | _ => false

theorem RunState.isEarly_of_mem_next {s t : RunState} (h : t ∈ s.next) (ht : t.isEarly = true) :
    s.isEarly = true := by
  revert h ht
  cases s <;> cases t <;> decide

theorem RunState.IsSettling.not_isEarly {s : RunState} (h : s.IsSettling) : s.isEarly = false := by
  rcases h with rfl | rfl <;> rfl

/-- From `b` to `b'` no files have been recorded, and none could not be; before anything is put back
or checked, names that are free have been left so. -/
structure Bench.Goes (crew : Crew) (p : Path) (b b' : Bench) : Prop where
  store : b'.store = b.store
  runId : b'.context.runId = b.context.runId
  refusals : ∀ scene ∈ b'.progress.account, scene.occurrence.isRefusal = true →
    scene ∈ b.progress.account
  free : crew.LeavesFree p → b'.context.state.isEarly = true →
    b.context.state.isEarly = true ∧ LeavesFree p b.world.files b'.world.files

section Going

variable {crew : Crew} {p : Path} {b b' b'' : Bench}

theorem Bench.Goes.refl (crew : Crew) (p : Path) (b : Bench) : Goes crew p b b :=
  ⟨rfl, rfl, fun _ h _ ↦ h, fun _ h ↦ ⟨h, .refl _ _⟩⟩

theorem Bench.Goes.trans (h : Goes crew p b b') (h' : Goes crew p b' b'') :
    Goes crew p b b'' := by
  refine ⟨h'.store.trans h.store, h'.runId.trans h.runId, fun scene hscene hrefusal ↦ ?_, ?_⟩
  · exact h.refusals scene (h'.refusals scene hscene hrefusal) hrefusal
  · intro hcrew hearly
    obtain ⟨hearly', hfree'⟩ := h'.free hcrew hearly
    obtain ⟨hearly'', hfree⟩ := h.free hcrew hearly'
    exact ⟨hearly'', hfree.trans hfree'⟩

theorem Bench.goes_note {o : Occurrence} (ho : o.isRefusal = false) : Goes crew p b (b.note o) := by
  refine ⟨rfl, rfl, fun scene hscene hrefusal ↦ ?_, fun _ h ↦ ⟨h, .refl _ _⟩⟩
  rcases List.mem_cons.mp hscene with rfl | hscene
  · rw [ho] at hrefusal
    cases hrefusal
  · exact hscene

theorem Bench.goes_change {f : RunContext → RunContext} (hrunId : (f b.context).runId = b.context.runId)
    (hearly : (f b.context).state.isEarly = true → b.context.state.isEarly = true) :
    Goes crew p b (b.change f) := by
  refine ⟨rfl, hrunId, fun scene hscene hrefusal ↦ ?_, fun _ h ↦ ⟨hearly h, .refl _ _⟩⟩
  rcases List.mem_cons.mp hscene with rfl | hscene
  · cases hrefusal
  · exact hscene

theorem Bench.Step.goes (hstep : Step crew .modest b b') : Goes crew p b b' := by
  cases hstep with
  | still hstill => exact ⟨rfl, rfl, fun _ h _ ↦ h, fun _ h ↦ ⟨h, hstill.leavesFree p⟩⟩
  | work request hfixer =>
    exact ⟨rfl, rfl, fun _ h _ ↦ h, fun hcrew h ↦ ⟨h, hcrew _ _ hfixer request _⟩⟩
  | settle w hstate =>
    refine ⟨rfl, rfl, fun _ h _ ↦ h, fun _ h ↦ ?_⟩
    have hearly : b.context.state.isEarly = true := h
    rw [hstate.not_isEarly] at hearly
    cases hearly
  | record _ _ hrecords => exact False.elim hrecords
  | number => exact ⟨rfl, rfl, fun _ h _ ↦ h, fun _ h ↦ ⟨h, .refl _ _⟩⟩
  | note _ hrefusal => exact goes_note (Bool.eq_false_iff.mpr hrefusal)
  | amend hamends => exact goes_change hamends.runId fun h ↦ hamends.state ▸ h
  | move target phase reason hnext =>
    exact goes_change rfl fun h ↦ RunState.isEarly_of_mem_next hnext h

theorem Bench.goes_of_steps (hsteps : ReflTransGen (Step crew .modest) b b') : Goes crew p b b' := by
  induction hsteps with
  | refl => exact .refl crew p b
  | tail _ hstep ih => exact ih.trans hstep.goes

theorem RunAct.Stepwise.goes {α : Type} {act : RunAct α} (h : Stepwise crew .modest act) (p : Path) :
    Keeps (Bench.Goes crew p) act :=
  fun b ↦ (h b).mono (fun _ _ ↦ Bench.goes_of_steps) fun _ _ ↦ Bench.goes_of_steps

end Going

/-! ### Refusals -/

/-- The fault is about the files, not about names; the directory of a snapshot can be there only
where names are disputed. -/
inductive BackupFault.OfFiles (undisputed : Prop) : BackupFault → Prop
  | unreadable (path : String) (cause : FileError) : OfFiles undisputed (.unreadable path cause)
  | unwritable (location : String) (cause : FileError) :
      OfFiles undisputed (.unwritable location cause)
  | occupied (location : String) (h : ¬ undisputed) : OfFiles undisputed (.occupied location)

/-- How a run says that files could not be recorded. -/
def refusalText (phase : Option Phase) (cause : BackupFault) : String :=
  match phase with
  | none => s!"Backup failed: {cause.message}"
  | some phase => s!"Backup failed for {phase.name}: {cause.message}"

/-- Where files could not be recorded, the error of the run says why, and that has nothing to do with
the names of snapshots. -/
def Bench.Explained (undisputed : Prop) (b : Bench) : Prop :=
  ∀ scene ∈ b.progress.account, ∀ phase, scene.occurrence = .refusal phase →
    ∃ cause, BackupFault.OfFiles undisputed cause ∧
      b.context.error = some (refusalText phase cause)

/-- Snapshots of the run can be taken under each of the names. -/
structure Bench.Offers (crew : Crew) (root : Path) (runId : String) (undisputed : Prop)
    (names : List String) (b : Bench) : Prop where
  atRoot : b.store.root = root
  ofRun : b.context.runId = runId
  unheld : ∀ name ∈ names, b.store.get runId name = none
  free : undisputed → b.context.state.isEarly = true →
    b.world.files.Sound ∧ ∀ name ∈ names, b.world.files.Vacant (root.child runId) name
  unrefused : ∀ scene ∈ b.progress.account, scene.occurrence.isRefusal = false

section Offering

variable {crew : Crew} {root : Path} {runId : String} {undisputed : Prop} {name : String}
  {names : List String} {b b' : Bench}

theorem Bench.Offers.explained (h : b.Offers crew root runId undisputed names) :
    b.Explained undisputed := by
  intro scene hscene phase hphase
  have hnot := h.unrefused scene hscene
  rw [hphase] at hnot
  cases hnot

theorem Bench.Offers.tail (h : b.Offers crew root runId undisputed (name :: names)) :
    b.Offers crew root runId undisputed names where
  atRoot := h.atRoot
  ofRun := h.ofRun
  unheld name hname := h.unheld name (List.mem_cons_of_mem _ hname)
  free hundisputed hearly :=
    (h.free hundisputed hearly).imp_right fun hfree name hname ↦
      hfree name (List.mem_cons_of_mem _ hname)
  unrefused := h.unrefused

variable (hcrew : undisputed → crew.LeavesFree (root.child runId))

include hcrew in
theorem Bench.Offers.goes (h : b.Offers crew root runId undisputed names)
    (hgoes : Goes crew (root.child runId) b b') : b'.Offers crew root runId undisputed names := by
  refine ⟨hgoes.store ▸ h.atRoot, hgoes.runId.trans h.ofRun, hgoes.store ▸ h.unheld, ?_, ?_⟩
  · intro hundisputed hearly
    obtain ⟨hearly', hfree⟩ := hgoes.free (hcrew hundisputed) hearly
    obtain ⟨hsound, hvacant⟩ := h.free hundisputed hearly'
    obtain ⟨hsound', hvacant'⟩ := hfree hsound
    exact ⟨hsound', fun name hname ↦ hvacant' name (hvacant name hname)⟩
  · intro scene hscene
    rw [Bool.eq_false_iff]
    intro hrefusal
    have hnot := h.unrefused scene (hgoes.refusals scene hscene hrefusal)
    rw [hnot] at hrefusal
    cases hrefusal

end Offering

theorem FaultKind.isA_backup {k : FaultKind} (h : k.isA .backup = true) : k = .backup := by
  revert h
  cases k <;> decide

/-- What keeps a snapshot from being taken is not its name. -/
def Fault.Reasonable (undisputed : Prop) (e : Fault) : Prop :=
  e.Foreign ∨ ∃ cause, e = .backup cause ∧ BackupFault.OfFiles undisputed cause

/-- The fault of a snapshot whose name is offered. -/
theorem BackupFault.Blames.ofFiles {s : Store} {runId key : String} {t : FileTree}
    {undisputed : Prop} {cause : BackupFault} (h : cause.Blames s runId key t)
    (hnames : isBackupName runId = true ∧ isBackupName key = true)
    (hunheld : s.get runId key = none) (hroot : undisputed → s.root.isAbsolute = true)
    (hfree : undisputed → t.Sound ∧ t.Vacant (s.root.child runId) key) :
    OfFiles undisputed cause := by
  cases cause with
  | invalidName => exact absurd hnames h
  | duplicate => exact absurd hunheld h
  | occupied location =>
    refine .occupied location fun hundisputed ↦ ?_
    obtain ⟨hsound, hvacant⟩ := hfree hundisputed
    have hpresent := FileAct.ends_holds (s.location runId key) (fun _ ↦ true) t
    unfold Ends at hpresent
    have hfound : (FileAct.present (s.location runId key) t).1 = .ok true := h
    unfold FileAct.present at hfound
    rcases hholds : FileAct.holds (s.location runId key) (fun _ ↦ true) t with ⟨_ | _, t'⟩
    · rw [hholds] at hfound
      cases hfound
    · rw [hholds] at hfound hpresent
      cases hfound
      obtain ⟨-, r, node, hwalk, -⟩ := hpresent.2.mp rfl
      exact hvacant.walk_ne hsound (p := s.root.child runId) (hroot hundisputed)
        (Store.ne_dots_of_isBackupName hnames.2) r node hwalk
  | unreadable path cause => exact .unreadable path cause
  | unwritable location cause => exact .unwritable location cause
  | _ => exact h.elim

namespace Bench

open RunAct

variable {crew : Crew} {root : Path} {runId key : String} {undisputed : Prop} {keys : List String}
  {b : Bench}

theorem Offers.ends_stepwise (h : b.Offers crew root runId undisputed keys)
    (hfair : undisputed → crew.Fair root runId) {α : Type} {act : RunAct α}
    (hact : Stepwise crew .modest act) :
    Ends act b (fun _ b' ↦ b'.Offers crew root runId undisputed keys)
      fun _ b' ↦ b'.Offers crew root runId undisputed keys :=
  (hact.goes (root.child runId) b).mono (fun _ _ ↦ h.goes fun h ↦ (hfair h).free)
    fun _ _ ↦ h.goes fun h ↦ (hfair h).free

theorem Offers.inWorld (h : b.Offers crew root runId undisputed keys)
    (hfair : undisputed → crew.Fair root runId) {w : World} (hstill : b.world.Still w) :
    ({ b with world := w } : Bench).Offers crew root runId undisputed keys :=
  h.goes (fun h ↦ (hfair h).free) (Step.goes (.still b hstill))

/-- A name under which a snapshot is held is offered no more, and the others still are. -/
theorem Offers.keep (h : b.Offers crew root runId undisputed (key :: keys)) (hkey : key ∉ keys)
    {s : Snapshot} (hof : s.key = key) {w : World}
    (hfree : undisputed → b.context.state.isEarly = true → w.files.Sound ∧
      ∀ name ∈ keys, w.files.Vacant (root.child runId) name) :
    (Bench.change { b with world := w, store := b.store.hold s } (·.keep s)).Offers crew root runId
      undisputed keys := by
  constructor
  case atRoot => exact h.atRoot
  case ofRun => exact h.ofRun
  case unheld =>
    intro name hname
    show (b.store.hold s).get runId name = none
    rw [Store.get_hold_of_ne fun heq ↦ hkey (hof ▸ heq ▸ hname)]
    exact h.unheld name (List.mem_cons_of_mem _ hname)
  case free => exact hfree
  case unrefused =>
    intro scene hscene
    rcases List.mem_cons.mp hscene with rfl | hscene
    · rfl
    · exact h.unrefused scene hscene

/-- The name of a snapshot is the first one that is offered, and then it is offered no more. -/
theorem Offers.ends_takeSnapshot (h : b.Offers crew root runId undisputed (key :: keys))
    (hfair : undisputed → crew.Fair root runId) (hkey : key ∉ keys)
    (hnames : isBackupName runId = true ∧ isBackupName key = true)
    (hearly : b.context.state.isEarly = true) (files : List Route) :
    Ends (takeSnapshot key files) b
      (fun s b' ↦ s.runId = runId ∧ b'.Offers crew root runId undisputed keys)
      fun e b' ↦ e.Reasonable undisputed ∧ ∃ w, b' = { b with world := w } := by
  refine ends_takeSnapshot_of (((Act.still_giveWay b.world).and
    (Act.raises_giveWay (P := Fault.Foreign) b.world)).mono ?_ fun e w h ↦ ⟨.inl h.2, w, rfl⟩)
  rintro _ w ⟨hstill, -⟩
  have h' := h.inWorld hfair hstill
  have hunheld := h.unheld key List.mem_cons_self
  have hfree : undisputed → w.files.Sound ∧ w.files.Vacant (b.store.root.child runId) key := by
    intro hundisputed
    obtain ⟨hsound, hvacant⟩ := h'.free hundisputed hearly
    exact ⟨hsound, h.atRoot ▸ hvacant key List.mem_cons_self⟩
  have hroot : undisputed → b.store.root.isAbsolute = true :=
    fun hundisputed ↦ h.atRoot ▸ (hfair hundisputed).absolute
  have hwritten : Ends (b.store.snapshot runId key (files.map Route.path)) w
      (fun taken w' ↦ undisputed → b.store.Taken runId key (files.map Route.path) w taken w')
      fun _ _ ↦ True := by
    by_cases hundisputed : undisputed
    · exact (Store.ends_snapshot b.store (hfree hundisputed).1 (hroot hundisputed) _).mono
        (fun _ _ h _ ↦ h) fun _ _ _ ↦ trivial
    · exact ends_of_forall (fun _ _ h ↦ absurd h hundisputed) fun _ _ ↦ trivial
  rw [h.ofRun]
  refine ((Store.ends_snapshot_blames b.store runId key _ w).and hwritten).mono ?_ ?_
  · rintro ⟨s, store⟩ w' ⟨⟨hstore, hrunId, hof : s.key = key⟩, htaken⟩
    obtain rfl : store = b.store.hold s := hstore
    refine ⟨hrunId, h.keep hkey hof fun hundisputed _ ↦ ?_⟩
    have htaken := htaken hundisputed
    obtain ⟨hsound, hvacant⟩ := h'.free hundisputed hearly
    refine ⟨(htaken.touches.files hsound).sound, fun name hname ↦ ?_⟩
    have hleft := htaken.vacant (h.atRoot ▸ (hfair hundisputed).dots) name
      fun heq ↦ hkey (heq ▸ hname)
    rw [h.atRoot] at hleft
    exact hleft (hvacant name (List.mem_cons_of_mem _ hname))
  · rintro e w' ⟨he, -⟩
    refine ⟨he.imp (·.foreign) fun ⟨cause, he, hblames⟩ ↦ ⟨cause, he, ?_⟩, w', rfl⟩
    exact hblames.ofFiles hnames hunheld hroot hfree

/-- The files of a phase are recorded under the name of its fixer. -/
theorem Offers.ends_phaseSnapshot {phase : Phase} {whole : Option Snapshot}
    (h : b.Offers crew root runId undisputed (phase.fixerRef :: keys))
    (hfair : undisputed → crew.Fair root runId) (hkey : phase.fixerRef ∉ keys)
    (hnames : isBackupName runId = true ∧ isBackupName phase.fixerRef = true)
    (hearly : b.context.state.isEarly = true) (hwhole : ∀ s, whole = some s → s.runId = runId)
    (files : List Route) :
    Ends (phaseSnapshot phase files whole) b
      (fun _ b' ↦ b'.Offers crew root runId undisputed keys)
      fun e b' ↦ e.Reasonable undisputed ∧ ∃ w, b' = { b with world := w } := by
  have htake := (h.ends_takeSnapshot hfair hkey hnames hearly files).mono (fun _ _ h ↦ h.2)
    fun _ _ h ↦ h
  refine ends_phaseSnapshot_of ?_ (fun all part hall _ hpart ↦ ?_) fun _ ↦ htake
  · exact fun _ _ _ _ he ↦ ⟨.inl (Snapshot.ordinary_of_restrict he).foreign, b.world, rfl⟩
  obtain ⟨hrunId, hof, -, -⟩ := Snapshot.restrict_eq hpart
  rw [hwhole all hall] at hrunId
  refine ((Store.ends_record b.store part b.world).and
    (Store.ends_record_blames b.store part b.world)).mono ?_ ?_
  · rintro store w ⟨⟨rfl, -, hstill⟩, -⟩
    refine h.keep hkey hof fun hundisputed hearly ↦ ?_
    exact ((h.inWorld hfair hstill).tail).free hundisputed hearly
  · rintro e w ⟨-, he⟩
    refine ⟨he.imp (·.foreign) fun ⟨cause, he, hblames⟩ ↦ ⟨cause, he, ?_⟩, w, rfl⟩
    rw [hrunId, hof] at hblames
    refine hblames.ofFiles hnames (h.unheld _ List.mem_cons_self)
      (fun hundisputed ↦ h.atRoot ▸ (hfair hundisputed).absolute) fun hundisputed ↦ ?_
    obtain ⟨hsound, hvacant⟩ := h.free hundisputed hearly
    exact ⟨hsound, h.atRoot ▸ hvacant _ List.mem_cons_self⟩

/-! ### Phases -/

/-- A refusal is explained by the error that is set along with it. -/
theorem explained_of_refusal (hunrefused : ∀ scene ∈ b.progress.account,
      scene.occurrence.isRefusal = false) (phase : Option Phase) {cause : BackupFault}
    (hcause : BackupFault.OfFiles undisputed cause) {b' : Bench}
    (herror : b'.context.error = some (refusalText phase cause))
    (haccount : ∀ scene ∈ b'.progress.account, scene ∈ b.progress.account ∨
      scene.occurrence = .change ∨ scene.occurrence = .refusal phase) :
    b'.Explained undisputed := by
  intro scene hscene phase' hphase'
  rcases haccount scene hscene with hold | hchange | hrefusal
  · have hnot := hunrefused scene hold
    rw [hphase'] at hnot
    cases hnot
  · rw [hphase'] at hchange
    cases hchange
  · rw [hphase'] at hrefusal
    cases hrefusal
    exact ⟨cause, hcause, herror⟩

theorem ends_settleUnrecorded_explained (hunrefused : ∀ scene ∈ b.progress.account,
      scene.occurrence.isRefusal = false) (phase : Phase) {cause : BackupFault}
    (hcause : BackupFault.OfFiles undisputed cause) :
    Ends (settleUnrecorded phase (.backup cause)) b
      (fun _ b' ↦ b'.context.isFinished = true ∧ b'.Explained undisputed)
      fun _ b' ↦ b'.Explained undisputed := by
  have hfinal : (if b.context.mutated then RunState.failed else .aborted).isTerminal = true := by
    split <;> rfl
  refine ends_settleUnrecorded_iff.mpr
    (ends_moveTo (fun hsame ↦ ⟨?_, ?_⟩) (fun _ w _ ↦ ⟨hfinal, ?_⟩) fun _ _ ↦ ?_)
  · rw [RunContext.isFinished, hsame]
    exact hfinal
  all_goals
    refine explained_of_refusal hunrefused (some phase) hcause rfl fun scene hscene ↦ ?_
    simp only [Bench.moved, Bench.unrecorded, Bench.change, Bench.note, List.mem_cons] at hscene
    aesop

variable {phase : Phase} {whole : Option Snapshot}

/-- After a phase the names of the other phases are still offered, unless the run is over. -/
theorem Offers.ends_runPhase (h : b.Offers crew root runId undisputed (phase.fixerRef :: keys))
    (hfair : undisputed → crew.Fair root runId) (hkey : phase.fixerRef ∉ keys)
    (hnames : isBackupName runId = true ∧ isBackupName phase.fixerRef = true)
    (hstate : b.context.state = .executing) (hwhole : ∀ s, whole = some s → s.runId = runId) :
    Ends (runPhase crew whole phase) b
      (fun _ b' ↦ b'.Offers crew root runId undisputed keys ∨
        b'.context.isFinished = true ∧ b'.Explained undisputed)
      fun _ b' ↦ b'.Explained undisputed := by
  refine ends_runPhase_of ((ends_filesOf phase b).mono ?_ fun _ _ he ↦ he.1 ▸ h.explained)
  rintro files b rfl fields
  refine ends_lift.mpr (Act.ends_log fun w hstill ↦ ?_)
  have h := h.inWorld hfair hstill
  have hsteps : ∀ {b : Bench} {act : RunAct Unit}, b.Offers crew root runId undisputed keys →
      Stepwise crew .modest act → Ends act b
        (fun _ b' ↦ b'.Offers crew root runId undisputed keys ∨
          b'.context.isFinished = true ∧ b'.Explained undisputed)
        fun _ b' ↦ b'.Explained undisputed := fun h hact ↦
    (h.ends_stepwise hfair hact).mono (fun _ _ h ↦ .inl h) fun _ _ h ↦ h.explained
  constructor
  case rehearsed => exact fun _ ↦ hsteps h.tail (stepwise_rehearse _ _)
  case recorded =>
    refine fun _ _ ↦ (h.ends_phaseSnapshot hfair hkey hnames (by rw [hstate]; rfl) hwhole
      files).mono (fun s b' h' ↦ hsteps h' (stepwise_remedy _ _ _)) ?_
    rintro e b' ⟨he, w', rfl⟩
    refine ⟨fun hbackup ↦ ?_, fun _ ↦ h.explained⟩
    rcases he with he | ⟨cause, rfl, hcause⟩
    · exact absurd (FaultKind.isA_backup hbackup) he.2
    · exact (ends_settleUnrecorded_explained (b := { b with world := w' }) h.unrefused phase
        hcause).mono (fun _ _ h ↦ .inr h) fun _ _ h ↦ h
  case unrecorded => exact fun _ _ ↦ hsteps h.tail (stepwise_remedy _ _ _)

/-- Phase after phase is carried out under a name of its own. -/
theorem Offers.ends_runPhases {phases : List Phase}
    (h : b.Offers crew root runId undisputed (phases.map (·.fixerRef)))
    (hfair : undisputed → crew.Fair root runId) (hnodup : (phases.map (·.fixerRef)).Nodup)
    (hrunId : isBackupName runId = true) (hnames : ∀ p ∈ phases, isBackupName p.fixerRef = true)
    (hwhole : ∀ s, whole = some s → s.runId = runId) :
    Ends (runPhases crew whole phases) b (fun _ b' ↦ b'.Explained undisputed)
      fun _ b' ↦ b'.Explained undisputed := by
  refine ends_runPhases_of (P := fun part b ↦
    b.Offers crew root runId undisputed (part.map (·.fixerRef)) ∧ (part.map (·.fixerRef)).Nodup ∧
      ∀ p ∈ part, isBackupName p.fixerRef = true) ?_ ?_ ⟨h, hnodup, hnames⟩
  · rintro b ⟨h, -, -⟩
    exact (h.ends_stepwise hfair (stepwise_runValidation.bind fun _ ↦ stepwise_conclude)).mono
      (fun _ _ h ↦ h.explained) fun _ _ h ↦ h.explained
  · rintro phase rest b ⟨h, hnodup, hnames⟩
    obtain ⟨hkey, hnodup⟩ := List.nodup_cons.mp hnodup
    obtain ⟨hname, hnames⟩ := List.forall_mem_cons.mp hnames
    have hgoes : ∀ {b'}, ReflTransGen (Step crew .modest) b b' →
        b'.Offers crew root runId undisputed (phase.fixerRef :: rest.map (·.fixerRef)) :=
      fun hsteps ↦ h.goes (fun h ↦ (hfair h).free) (goes_of_steps hsteps)
    refine (ends_moveStepwise _ _ _ b).mono ?_ fun _ _ h ↦ (hgoes h).explained
    rintro _ b₁ ⟨hsteps, hstate⟩
    have hnoted := (hgoes hsteps).goes (fun h ↦ (hfair h).free)
      (goes_note (p := root.child runId) (o := .start phase) rfl)
    have hbound := hnoted.inWorld hfair
      (Act.still_bindField "phase" phase.name (b₁.note (.start phase)).world)
    refine (hbound.ends_runPhase hfair hkey ⟨hrunId, hname⟩ hstate hwhole).mono ?_ fun _ _ h ↦ h
    rintro _ b₂ (h₂ | ⟨hfinished, hexplained⟩)
    · exact ⟨fun _ ↦ h₂.explained, fun _ ↦
        ⟨h₂.inWorld hfair (Act.still_unbindField _ _), hnodup, hnames⟩⟩
    · exact .of_ended hfinished hexplained

/-- The files of all phases are recorded under a name that no phase has. -/
theorem Offers.ends_recordAll (h : b.Offers crew root runId undisputed (runKey :: keys))
    (hfair : undisputed → crew.Fair root runId) (hkey : runKey ∉ keys)
    (hrunId : isBackupName runId = true) (hstate : b.context.state = .backingUp)
    (phases : List Phase) :
    Ends (recordAll phases) b
      (fun whole b' ↦ (∀ s, whole = some s → s.runId = runId) ∧
          b'.Offers crew root runId undisputed keys ∨
        b'.context.isFinished = true ∧ b'.Explained undisputed)
      fun _ b' ↦ b'.Explained undisputed := by
  refine ends_recordAll_of ?_
  constructor
  case idle => exact fun _ ↦ .inl ⟨nofun, h.tail⟩
  case unbacked =>
    intro _
    have hwarns : Stepwise crew .modest (do
        update (·.warn "Backups are disabled: failures cannot be rolled back")
        log .warning "backups_disabled" []) :=
      (stepwise_warn _).bind fun _ ↦ stepwise_log _ _ _
    have hwarned := ends_update.mp (ends_bind.mp (h.tail.ends_stepwise hfair hwarns))
    exact hwarned.mono (fun _ b₁ h₁ ↦ .inl ⟨nofun, h₁⟩) fun _ _ h ↦ h.explained
  case recorded =>
    intro _ _ _
    have hfiles : Ends (phases.mapM filesOf) b (fun _ b' ↦ b' = b) fun _ b' ↦ b' = b :=
      keeps_mapM (R := (fun b b' ↦ b' = b)) (fun _ ↦ rfl) (fun _ _ _ h h' ↦ h'.trans h)
        (fun phase b ↦ (ends_filesOf phase b).mono (fun _ _ h ↦ h) fun _ _ h ↦ h.1) phases b
    refine hfiles.mono ?_ fun _ _ hb ↦ hb ▸ h.explained
    rintro files b rfl
    refine (h.ends_takeSnapshot hfair hkey ⟨hrunId, by decide⟩ (by rw [hstate]; rfl)
      files.flatten).mono ?_ ?_
    · rintro s b' ⟨hof, h'⟩
      exact .inl ⟨fun s' hs ↦ Option.some.inj hs ▸ hof, h'⟩
    · rintro e b' ⟨he, w', rfl⟩
      refine ⟨fun hbackup ↦ ?_, fun _ ↦ h.explained⟩
      rcases he with he | ⟨cause, rfl, hcause⟩
      · exact absurd (FaultKind.isA_backup hbackup) he.2
      have hexplained : ∀ {b' : Bench}, _ → _ → b'.Explained undisputed := fun {_} ↦
        explained_of_refusal (b := { b with world := w' }) h.unrefused none hcause
      refine ends_moveTo (fun hsame ↦ .inr ⟨?_, hexplained rfl ?_⟩)
        (fun _ w _ ↦ .inr ⟨rfl, hexplained rfl ?_⟩) fun _ _ ↦ hexplained rfl ?_
      · rw [RunContext.isFinished, hsame]
        rfl
      all_goals
        intro scene hscene
        simp only [Bench.moved, Bench.refused, Bench.change, Bench.note, List.mem_cons] at hscene
        aesop

theorem Offers.ends_execute {phases : List Phase}
    (h : b.Offers crew root runId undisputed (runKey :: phases.map (·.fixerRef)))
    (hfair : undisputed → crew.Fair root runId)
    (hnodup : (runKey :: phases.map (·.fixerRef)).Nodup) (hrunId : isBackupName runId = true)
    (hnames : ∀ p ∈ phases, isBackupName p.fixerRef = true) :
    Ends (execute crew phases) b (fun _ b' ↦ b'.Explained undisputed)
      fun _ b' ↦ b'.Explained undisputed := by
  obtain ⟨hkey, hnodup⟩ := List.nodup_cons.mp hnodup
  have hgoes : ∀ {b'}, ReflTransGen (Step crew .modest) b b' →
      b'.Offers crew root runId undisputed (runKey :: phases.map (·.fixerRef)) :=
    fun hsteps ↦ h.goes (fun h ↦ (hfair h).free) (goes_of_steps hsteps)
  refine ends_execute_of ((ends_moveStepwise _ _ _ b).mono ?_ fun _ _ h ↦ (hgoes h).explained)
  rintro _ b₁ ⟨hsteps, hstate⟩
  refine ((hgoes hsteps).ends_recordAll hfair hkey hrunId hstate phases).mono ?_ fun _ _ h ↦ h
  rintro whole b₂ (⟨hwhole, h₂⟩ | ⟨hfinished, hexplained⟩)
  · exact ⟨fun _ ↦ h₂.explained, fun _ ↦ h₂.ends_runPhases hfair hnodup hrunId hnames hwhole⟩
  · exact .of_ended hfinished hexplained

end Bench

/-- What is done to the world at the end of a run leaves its account as it is. -/
theorem Bench.Explained.lift {α : Type} {undisputed : Prop} {b : Bench}
    (h : b.Explained undisputed) (act : Act α) :
    Ends (RunAct.lift act) b (fun _ b' ↦ b'.Explained undisputed)
      fun _ b' ↦ b'.Explained undisputed :=
  RunAct.ends_lift.mpr (ends_of_forall (fun _ _ ↦ h) fun _ _ ↦ h)

/-- In a run under a name of its own, whose phases have fixers of different names, files cannot be
recorded only for a reason that has nothing to do with the names of snapshots. -/
theorem RunAct.refusals_of_run (crew : Crew) {phases : List Phase} (world : World) {store : Store}
    {runId : String} (project : Route) (config : RunConfig) (hrunId : isBackupName runId = true)
    (hfresh : ∀ key, store.get runId key = none) (hnodup : (phases.map (·.fixerRef)).Nodup)
    (hnames : ∀ p ∈ phases, isBackupName p.fixerRef = true ∧ p.fixerRef ≠ runKey) :
    Ends (run crew phases) (.fresh world store runId project config)
      (fun _ b ↦ b.Explained (Undisputed crew world store.root runId))
      fun e b ↦ e.kind ≠ .backup ∧ b.Explained (Undisputed crew world store.root runId) := by
  have hperm := List.mergeSort_perm phases fun p q ↦ p.priority ≤ q.priority
  have hmem : ∀ {p}, p ∈ phases.mergeSort (fun p q ↦ p.priority ≤ q.priority) → p ∈ phases :=
    hperm.mem_iff.mp
  have hfair : Undisputed crew world store.root runId → crew.Fair store.root runId :=
    fun h ↦ h.toFair
  have hnodup' : (runKey :: (phases.mergeSort fun p q ↦ p.priority ≤ q.priority).map
      (·.fixerRef)).Nodup := by
    refine List.nodup_cons.mpr ⟨fun hkey ↦ ?_, (hperm.map _).nodup_iff.mpr hnodup⟩
    obtain ⟨p, hp, heq⟩ := List.mem_map.mp hkey
    exact (hnames p (hmem hp)).2 heq
  have hfresh : (Bench.fresh world store runId project config).Offers crew store.root runId
      (Undisputed crew world store.root runId)
      (runKey :: (phases.mergeSort fun p q ↦ p.priority ≤ q.priority).map (·.fixerRef)) :=
    ⟨rfl, rfl, fun name _ ↦ hfresh name, fun h _ ↦ ⟨h.sound, fun name _ ↦ h.vacant name⟩,
      fun _ hscene ↦ absurd hscene List.not_mem_nil⟩
  have hexplained : Ends (run crew phases) (.fresh world store runId project config)
      (fun _ b ↦ b.Explained (Undisputed crew world store.root runId))
      fun _ b ↦ b.Explained (Undisputed crew world store.root runId) := by
    refine ends_run_of fun fields ↦ ends_lift.mpr (Act.ends_log fun w hstill ↦ ?_)
    have hbegun := hfresh.inWorld hfair
      ((Act.still_bindField "run_id" runId world).trans hstill)
    refine (hbegun.ends_execute hfair hnodup' hrunId fun p hp ↦ (hnames p (hmem hp)).1).mono
      (fun _ b h ↦ ?_) fun _ _ h ↦ h
    exact (Bench.Explained.lift (b := b.left) h _).mono
      (fun _ b' h ↦ ⟨fun _ _ ↦ h, fun _ _ _ ↦ h.lift _⟩) fun _ _ h ↦ h
  exact ((ends_run crew phases world store runId project config).and hexplained).mono
    (fun _ _ h ↦ h.2) fun _ _ h ↦ ⟨h.1.2, h.2⟩

/-- Findings in any order have a plan, and in a run of it under a name of its own files cannot be
recorded only for a reason that has nothing to do with the names of snapshots. -/
theorem exists_plan_with_names {c : PlannerConfig} (hc : c.Sound) (found : List Finding) :
    ∃ phases, (∀ w, (plan c found w).1 = .ok phases) ∧ c.IsPlan found phases ∧
      ∀ (crew : Crew) (world : World) (store : Store) (runId : String) (project : Route)
        (config : RunConfig),
        isBackupName runId = true → (∀ key, store.get runId key = none) →
        Ends (RunAct.run crew phases) (.fresh world store runId project config)
          (fun _ b ↦ b.Explained (Undisputed crew world store.root runId))
          fun e b ↦ e.kind ≠ .backup ∧
            b.Explained (Undisputed crew world store.root runId) := by
  obtain ⟨phases, hphases, hplan⟩ := exists_plan hc found
  refine ⟨phases, hphases, hplan, ?_⟩
  intro crew world store runId project config hrunId hfresh
  exact RunAct.refusals_of_run crew world project config hrunId hfresh hplan.refs hplan.keys

/-- A fixer that leaves everything as it is. -/
def Fixer.idle : Fixer where
  kind := "Fixer"
  fix _ site := ({ outcome := .ok (.count 0) }, site)

/-- In an empty project the names of snapshots are undisputed, so that a snapshot of a run of the
plan is refused only because of the files. -/
theorem exists_plan_with_names_sample :
    let c : PlannerConfig :=
      { phases := [("syntactic", { name := some "", timeout := some 400, retries := some 0 })]
        timeoutCeiling := some 90 }
    let crew : Crew := ⟨[(.syntactic, .idle)], []⟩
    let world : World := { files := ⟨[(["p"], .directory 0)], 0, ["p"]⟩ }
    let store := Store.ofProject ["p"] defaultBackupDirectory
    c.Sound ∧ Undisputed crew world store.root "run-1" ∧
      ∃ phases, (∀ w, (plan c [default] w).1 = .ok phases) ∧ c.IsPlan [default] phases ∧
        Ends (RunAct.run crew phases) (.fresh world store "run-1" ["p"] {})
          (fun _ b ↦ b.Explained True) fun e b ↦ e.kind ≠ .backup ∧ b.Explained True := by
  intro c crew world store
  have hsound : c.Sound := by
    refine ⟨fun name o ho t ht ↦ ?_, fun t ht ↦ ?_⟩
    · obtain ⟨-, rfl⟩ := Prod.mk.inj (List.mem_singleton.mp ho)
      cases ht
      decide
    · cases ht
      decide
  have hundisputed : Undisputed crew world store.root "run-1" := by
    refine ⟨⟨by decide, by decide, ?_⟩, sound_of_entries (by decide) (by decide), ?_⟩
    · intro name fixer hfixer request site
      obtain ⟨cause, hmem⟩ := Registry.mem_of_get hfixer
      obtain ⟨-, rfl⟩ := Prod.mk.inj (List.mem_singleton.mp hmem)
      exact .refl _ _
    · -- There is no directory of the run.
      intro name d hwalk
      obtain ⟨found, hfound, -⟩ := hwalk.walkWithin_eq
      have hnone : (world.files.walkWithin true linkLimit []
          (store.root.child "run-1").names).toOption.isNone := by
        decide
      rw [hfound] at hnone
      cases hnone
  obtain ⟨phases, hphases, hplan, hrun⟩ := exists_plan_with_names hsound [default]
  have hends := hrun crew world store "run-1" ["p"] {} (by decide) fun _ ↦ rfl
  rw [eq_true hundisputed] at hends
  exact ⟨hsound, hundisputed, phases, hphases, hplan, hends⟩

end Remedy
