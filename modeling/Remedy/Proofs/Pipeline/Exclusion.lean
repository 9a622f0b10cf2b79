import Remedy.Config.Reader
import Remedy.Proofs.Lock.Exclusion
import Remedy.Proofs.Pipeline.Undo

/-!
# One activity at a time

Runs of a pipeline and undoings of runs are activities that take the lock of their project. Where
the lock lies is for their settings to say, so that activities keep out of each other's way if the
paths of their locks lead to one file, as they do if the settings name the same directory for backups
(`Activity.excludes_of_turns`); an activity that comes while another one is active does nothing but
report this (`Activity.Barred`). If the settings name different directories, two activities can be
active in one project at the same time (`Activity.not_exclusive`).
-/

set_option autoImplicit false

namespace Remedy

open FileTree

/-! ### Coming in vain -/

/-- The site is as it was, except for the log, the file of a lock, and directories that have been
made. -/
structure World.Aloof (route : Route) (w w' : World) : Prop where
  touches : w.Touches (· = route) w'
  bindings : w'.bindings = w.bindings
  memory : w'.memory = w.memory

section Aloof

variable {route : Route} {w w' w'' : World}

theorem World.Aloof.trans (h : w.Aloof route w') (h' : w'.Aloof route w'') : w.Aloof route w'' :=
  ⟨h.touches.trans h'.touches, h'.bindings.trans h.bindings, h'.memory.trans h.memory⟩

theorem isFrame_aloof (route : Route) : Act.IsFrame (World.Aloof route) where
  refl w := ⟨.refl _ w, rfl, rfl⟩
  trans _ _ _ := .trans
  record event w :=
    ends_modify.mpr ⟨(Act.still_record event w).undisturbed.mono fun _ ↦ False.elim, rfl, rfl⟩
  aside _ _ _ _ _ _ := ⟨.of_eq rfl rfl rfl, rfl, rfl⟩
  count _ amount labels _ :=
    Act.keeps_count_of (fun _ _ ↦ ⟨.of_eq rfl rfl rfl, rfl, rfl⟩) amount labels

/-- Taking a lock that somebody else has fails. -/
theorem RunLock.ends_acquire_of_busy (l : RunLock) (timeout : Option Number) (hw : w.files.Sound)
    (hpath : l.path.isAbsolute = true) (hfree : heldFile l.owner w.locks = none)
    (htraced : w.files.traced l.path = .done route)
    (hbusy : (holderOf route w.locks).isSome = true) :
    Ends (l.acquire timeout) w (fun _ _ ↦ False) fun _ w' ↦ w.Aloof route w' := by
  have hfiles : ∀ {t}, Becomes (· = route) w.files t → w.Aloof route { w with files := t } :=
    fun h ↦ ⟨World.touches_of_becomes rfl rfl h, rfl, rfl⟩
  refine ends_acquire_of_opens hw hpath (by simp [isHeld, hfree])
    (fun _ _ _ hgrows ↦ hfiles (hgrows.mono fun _ ↦ False.elim)) ?_
  intro route' t₁ t₂ hopens deadline polls
  obtain rfl : route = route' := Resolved.done.inj (htraced.symm.trans hopens.traced)
  have hbusy' : (holderOf route ({ w with files := t₂ } : World).locks).isSome = true := hbusy
  refine (ends_pollUntil_of_busy (isFrame_aloof route).toIsPassing l (fun _ _ h ↦ h.touches.locks)
    hbusy' deadline polls).mono (fun _ _ hnever ↦ hnever.elim) fun _ _ hdenied ↦ ?_
  exact (hfiles hopens.becomes).trans hdenied.rel

/-- What the command line says is logged in a format of its own, for which the sink is changed and
changed back. -/
theorem Command.keeps_say {R : World → World → Prop} (hR : Act.IsPassing R)
    (hlog : ∀ w w', R w w' → w'.logFile = w.logFile)
    (hsink : ∀ (w : World) (sink : Option Sink), sink.bind (·.file) = w.logFile →
      R w { w with journal := { w.journal with sink := sink } })
    (a : Arguments) (level : LogLevel) (name : String) (fields : List (String × Json)) :
    Keeps R (Command.say a level name fields) := by
  intro w
  have hfile : ∀ (sink : Option Sink) (format : LogFormat),
      (sink.map fun sink ↦ { sink with format := format }).bind (·.file) = sink.bind (·.file) := by
    intro sink format
    cases sink <;> rfl
  unfold Command.say
  refine ends_bind.mpr (ends_get.mpr (ends_bind.mpr (ends_modify.mpr (ends_bind.mpr ?_))))
  refine hR.ends_log fun w₁ hlogged ↦ ends_modify.mpr ?_
  have hformat := hR.trans _ _ _ (hsink w _ (hfile w.journal.sink a.shared.format)) hlogged
  exact hR.trans _ _ _ hformat (hsink w₁ w.journal.sink (hlog w w₁ hformat).symm)

theorem Command.keeps_say_aloof (a : Arguments) (level : LogLevel) (name : String)
    (fields : List (String × Json)) :
    Keeps (World.Aloof route) (Command.say a level name fields) :=
  keeps_say (isFrame_aloof route).toIsPassing (fun _ _ h ↦ h.touches.log)
    (fun _ _ hfile ↦ ⟨.of_eq rfl hfile rfl, rfl, rfl⟩) a level name fields

end Aloof

/-! ### Activities -/

/-- The settings have been read and found to be in order. -/
def Config.Validates (c : Config) : Prop :=
  ∃ s, Config.reader.run "ResolverConfig" s = .ok c

theorem Config.validates_of_option {s : Setting} {directory : String}
    (h : (Config.reader.run "ResolverConfig" s).toOption.map (·.backupDirectory) =
      some directory) : ∃ c : Config, c.Validates ∧ c.backupDirectory = directory := by
  obtain ⟨c, hc, hdirectory⟩ := Option.map_eq_some_iff.mp h
  exact ⟨c, ⟨s, Store.eq_ok_of_toOption hc⟩, hdirectory⟩

/-- What is done to a project while the lock of the project is held: the run of a pipeline, or the
undoing of a run. -/
inductive Activity where
  | run (pipeline : Pipeline) (runId : String)
  | undo (config : Config) (project : Route) (runId : String)

namespace Activity

def project : Activity → Route
  | run p _ => p.project
  | undo _ project _ => project

def config : Activity → Config
  | run p _ => p.config
  | undo config _ _ => config

/-- The lock that is taken. -/
def lock : Activity → RunLock
  | run p runId => p.lock runId
  | undo config project runId =>
    { RunLock.ofProject (Route.path project) config.backupDirectory with
      runId := s!"undo-{runId}" }

theorem lock_path (x : Activity) :
    x.lock.path = (RunLock.ofProject (Route.path x.project) x.config.backupDirectory).path := by
  cases x <;> rfl

theorem isAbsolute_lock (x : Activity) : x.lock.path.isAbsolute = true := by
  rw [lock_path]
  exact Path.isAbsolute_join _ _

/-- Activities in one project whose settings name the same directory take the lock on the same
path. -/
theorem lock_path_congr {x y : Activity} (hproject : x.project = y.project)
    (hdirectory : x.config.backupDirectory = y.config.backupDirectory) :
    x.lock.path = y.lock.path := by
  rw [lock_path, lock_path, hproject, hdirectory]

/-- Whoever comes now leaves the site, and the snapshots in memory, as they are: a run fails, and
undoing fails or finds nothing to undo. -/
def Barred (route : Route) (w : World) : Activity → Prop
  | run p _ => ∀ raw given store, Ends (p.run raw given) ⟨w, store⟩ (fun _ _ ↦ False)
      fun _ t ↦ t.store = store ∧ w.Aloof route t.world
  | undo config project _ => ∀ a o, o.list = false →
      Ends (Command.undo a config project o) w
        (fun outcome w' ↦ outcome = Command.failed ∧ w.Aloof route w')
        fun _ w' ↦ w.Aloof route w'

theorem barred_of_busy {route : Route} {w : World} (x : Activity) (hw : w.files.Sound)
    (hfree : RunLock.heldFile 0 w.locks = none)
    (htraced : w.files.traced x.lock.path = .done route)
    (hbusy : (holderOf route w.locks).isSome = true) : x.Barred route w := by
  -- A new name for a run may have been drawn before the lock is asked for.
  have hacquire : ∀ (l : RunLock) (draws : ℕ), l.path = x.lock.path → l.owner = 0 →
      Ends (l.acquire none) { w with draws := draws } (fun _ _ ↦ False)
        fun _ w' ↦ w.Aloof route w' := by
    intro l draws hpath howner
    have habsolute : l.path.isAbsolute = true := hpath ▸ x.isAbsolute_lock
    have hdrawn : w.Aloof route { w with draws := draws } := ⟨.of_eq rfl rfl rfl, rfl, rfl⟩
    have hfree' : RunLock.heldFile l.owner w.locks = none := howner ▸ hfree
    have htraced' : w.files.traced l.path = .done route := hpath ▸ htraced
    exact (RunLock.ends_acquire_of_busy (w := { w with draws := draws }) l none hw habsolute hfree'
      htraced' hbusy).mono (fun _ _ ↦ id) fun _ _ ↦ hdrawn.trans
  cases x with
  | run p runId =>
    intro raw given store
    unfold Pipeline.run
    cases given.filter fun name ↦ !name.isEmpty with
    | some name =>
      refine ends_bind.mpr (ends_pure.mpr (ends_bind.mpr (Pipeline.ends_lift.mpr ?_)))
      refine (hacquire _ w.draws ?_ ?_).mono (fun _ _ hnever ↦ hnever.elim)
        fun _ _ haloof ↦ ⟨rfl, haloof⟩
      · rfl
      · rfl
    | none =>
      unfold Act.newRunId
      refine ends_bind.mpr (Pipeline.ends_lift.mpr (ends_bind.mpr (ends_get.mpr (ends_bind.mpr
        (ends_set.mpr (ends_pure.mpr (ends_bind.mpr (Pipeline.ends_lift.mpr ?_))))))))
      refine (hacquire _ _ ?_ ?_).mono (fun _ _ hnever ↦ hnever.elim)
        fun _ _ haloof ↦ ⟨rfl, haloof⟩
      · rfl
      · rfl
  | undo config project runId =>
    intro a o hlist
    have hruns := Store.ends_runs (Store.ofProject project config.backupDirectory) w.files
    unfold Command.undo
    refine ends_bind.mpr (Act.ends_onFiles.mpr (hruns.mono ?_ ?_))
    · rintro runs _ ⟨rfl, -⟩
      dsimp only
      rw [if_neg (by simp [hlist])]
      split
      · refine ends_bind.mpr ((Command.keeps_say_aloof a _ _ _ w).mono ?_ fun _ _ ↦ id)
        exact fun _ _ haloof ↦ ends_pure.mpr ⟨rfl, haloof⟩
      · unfold Command.undoRun RunLock.during
        refine ends_bind.mpr ((hacquire _ w.draws ?_ ?_).mono (fun _ _ hnever ↦ hnever.elim)
          fun _ _ ↦ id)
        · rfl
        · rfl
    · rintro _ _ ⟨rfl, -⟩
      exact (isFrame_aloof route).refl w

/-- Activities as those who take locks. -/
def parties (acts : ℕ → Activity) (process : ℕ → ℕ) : Parties where
  lock a := { (acts a).lock with owner := a }
  process := process
  owner _ := rfl
  absolute a := (acts a).isAbsolute_lock

/-- Activities whose locks lead to one file are never active at once: between entering and leaving,
an activity is alone, and whoever comes meanwhile (the numbers are arbitrary; say, the one with the
number zero) does nothing. -/
theorem excludes_of_turns (acts : ℕ → Activity) (process : ℕ → ℕ) {t₀ t : Traffic} {a b : ℕ}
    (hsound : t₀.world.files.Sound) (hlocks : t₀.world.locks = [])
    (hidle : ∀ a, t₀.stage a = .idle) (hturns : (parties acts process).Turns t₀ t) (hne : a ≠ b)
    (hsame : t₀.world.files.traced (acts a).lock.path =
      t₀.world.files.traced (acts b).lock.path) (ha : (t.stage a).Locks) :
    ¬ (t.stage b).Locks ∧ (b = 0 → (acts b).Barred (t.file a) t.world) := by
  have hcoherent := (Parties.Coherent.of_idle hsound hlocks hidle).turns hturns
  have hb : ¬ (t.stage b).Locks := fun hb ↦ hne (hcoherent.eq_of_locks hsame ha hb)
  refine ⟨hb, ?_⟩
  rintro rfl
  refine (acts 0).barred_of_busy hcoherent.sound (hcoherent.owned.heldFile_of_not_locks hb) ?_ ?_
  · have hleads := hcoherent.leads a ha.opened
    exact (hcoherent.traced 0).trans (hsame.symm.trans hleads)
  · rw [← Option.ne_none_iff_isSome, ne_eq, hcoherent.owned.holderOf_eq_none_iff]
    exact fun hnobody ↦ hnobody a rfl ha

/-- A project with two directories that can hold backups, each with the file of a lock. -/
def divided : Traffic where
  world := { (default : World) with
    files := ⟨[(["p"], .directory 0), (["p", defaultBackupDirectory], .directory 0),
      (["p", defaultBackupDirectory, lockName], .file [] 420), (["p", "other"], .directory 0),
      (["p", "other", lockName], .file [] 420)], 0, []⟩ }
  stage _ := .idle
  file _ := []

theorem sound_divided : divided.world.files.Sound :=
  sound_of_entries (by decide) (by decide)

/-- An undoing comes while a run is active. -/
theorem excludes_of_turns_divided :
    let acts : ℕ → Activity := fun a ↦
      if a = 0 then .undo {} ["p"] "run-1"
      else .run ⟨["p"], {}, Scenario.oneFile.crew, none, 0⟩ "run-2"
    ∃ t : Traffic, (parties acts fun _ ↦ 1).Turns divided t ∧ t.stage 1 = .held ∧
      ¬ (t.stage 0).Locks ∧ (acts 0).Barred ["p", defaultBackupDirectory, lockName] t.world := by
  intro acts
  have hopen : FileAct.openEnd ((parties acts fun _ ↦ 1).lock 1).path divided.world.files =
      (.ok ["p", defaultBackupDirectory, lockName], divided.world.files) :=
    rfl
  have hturns := Parties.turns_of_free rfl hopen (by decide) rfl
  obtain ⟨hout, hbarred⟩ := excludes_of_turns acts _ sound_divided rfl (fun _ ↦ rfl) hturns
    (Nat.one_ne_zero) rfl (.inr (.inr (.inl (by simp))))
  exact ⟨_, hturns, by simp, hout, by simpa using hbarred rfl⟩

/-- Whose locks lie in the two directories can both get in. -/
theorem turns_divided {p : Parties}
    (hpath : (p.lock 1).path =
      (RunLock.ofProject (Route.path ["p"]) defaultBackupDirectory).path)
    (hpath' : (p.lock 0).path = (RunLock.ofProject (Route.path ["p"]) "other").path) :
    ∃ t, p.Turns divided t ∧ t.stage 1 = .held ∧ t.stage 0 = .held := by
  have hopen : FileAct.openEnd (p.lock 1).path divided.world.files =
      (.ok ["p", defaultBackupDirectory, lockName], divided.world.files) := by
    rw [hpath]
    rfl
  have hturns := Parties.turns_of_free rfl hopen (by decide) rfl
  have hopen' : ∀ content, FileAct.openEnd (p.lock 0).path
        (divided.world.files.filled ["p", defaultBackupDirectory, lockName] content) =
      (.ok ["p", "other", lockName],
        divided.world.files.filled ["p", defaultBackupDirectory, lockName] content) := by
    rw [hpath']
    exact fun _ ↦ rfl
  have hturns' := hturns.trans
    (Parties.turns_of_free rfl (hopen' _) (fun hnone ↦ by cases hnone) rfl)
  exact ⟨_, hturns', by simp, by simp⟩

/-- A run and an undoing whose settings name different directories are active at once. -/
theorem not_exclusive : ¬ ∀ (acts : ℕ → Activity) (process : ℕ → ℕ) (t₀ t : Traffic),
    (∀ a, (acts a).config.Validates) → (∀ a b, (acts a).project = (acts b).project) →
    t₀.world.files.Sound → t₀.world.locks = [] → (∀ a, t₀.stage a = .idle) →
    (parties acts process).Turns t₀ t →
    ∀ a b, (t.stage a).Locks → (t.stage b).Locks → a = b := by
  intro hexclusive
  obtain ⟨hfirst, hsecond⟩ :
      (Config.reader.run "ResolverConfig" (.map [])).toOption.map (·.backupDirectory) =
          some defaultBackupDirectory ∧
        (Config.reader.run "ResolverConfig" (.map [(.text "backup",
          .map [(.text "directory", .text "other")])])).toOption.map (·.backupDirectory) =
          some "other" := by
    decide +kernel
  obtain ⟨c, hc, hdirectory⟩ := Config.validates_of_option hfirst
  obtain ⟨c', hc', hdirectory'⟩ := Config.validates_of_option hsecond
  let acts : ℕ → Activity := fun a ↦
    if a = 0 then .undo c' ["p"] "run-1"
    else .run ⟨["p"], c, Scenario.oneFile.crew, none, 0⟩ "run-2"
  have hvalid : ∀ a, (acts a).config.Validates := by
    intro a
    by_cases ha : a = 0
    · simpa [acts, ha, config] using hc'
    · simpa [acts, ha, config] using hc
  have hproject : ∀ a, (acts a).project = ["p"] := by
    intro a
    by_cases ha : a = 0 <;> simp [acts, ha, project]
  obtain ⟨t, hturns, hrun, hundo⟩ := turns_divided (p := parties acts fun _ ↦ 1)
    (by rw [← hdirectory]; rfl) (by rw [← hdirectory']; rfl)
  have hsame : 0 = 1 := by
    refine hexclusive acts _ divided t hvalid (fun a b ↦ ?_) sound_divided rfl (fun _ ↦ rfl)
      hturns 0 1 ?_ ?_
    · rw [hproject, hproject]
    · exact .inr (.inr (.inl hundo))
    · exact .inr (.inr (.inl hrun))
  exact absurd hsame (by decide)

end Activity

end Remedy
