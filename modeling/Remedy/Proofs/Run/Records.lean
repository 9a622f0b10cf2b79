import Remedy.Proofs.Backup.Accepting
import Remedy.Proofs.Backup.Confining
import Remedy.Proofs.Run.Calm
import Remedy.Proofs.Touching

/-!
# Records along a run

What a run keeps about the files it has recorded. `Scenario` is what a run is given. Before a phase,
`Scenario.Steady` holds: until a fixer is called, nothing has been touched but what the run reserves
for itself, so that the record of all files still holds. While a phase is carried out,
`Scenario.Engaged` says in addition what was recorded of its files when it was begun. Both are kept
by whatever is calm.

Every call of a fixer in the account is backed by snapshots (`Scenario.Backed`). How a run that has
come to its end has left the files is said by `Scenario.Fate`; this part is about tame scenarios, in
which fixers keep to the files that they are handed. If backups last in such a scenario, the
snapshot of all files stays where it was written, and the files can be put back from there
(`Scenario.Saved`).

A run does not get stuck while it puts files back if the phase is mendable (`Scenario.Mendable`): its
fixer only edits the files that it is handed, and these had room for their drafts when the phase was
begun. Nothing else is done to the tree while the phase is carried out (`Scenario.Within`).
-/

set_option autoImplicit false

namespace Remedy

open FileTree

/-- Whatever the fixer does with the files that it is handed, every node still lies in a
directory. -/
def Fixer.Sane (f : Fixer) : Prop :=
  ∀ (request : FixRequest) (files : List Route) (site : Site),
    request.files = files.map Route.path → site.files.Sound →
      (f.fix request site).2.files.Sound

/-- If no links lead to the files that it is handed, the fixer changes no other regular files, and
no links; it may make directories. -/
def Fixer.Confined (f : Fixer) : Prop :=
  ∀ (request : FixRequest) (files : List Route) (site : Site),
    request.files = files.map Route.path → (∀ r ∈ files, site.files.Direct r) →
      site.files.Sound → Becomes (· ∈ files) site.files (f.fix request site).2.files

/-- If no links lead to the files that it is handed, the fixer rewrites, creates and deletes these
files and does nothing else. -/
def Fixer.Editing (f : Fixer) : Prop :=
  ∀ (request : FixRequest) (files : List Route) (site : Site),
    request.files = files.map Route.path → (∀ r ∈ files, site.files.Direct r) →
      site.files.Sound → Edits (· ∈ files) site.files (f.fix request site).2.files

/-- The run goes on, and puts no files back. -/
def RunState.goesOn (s : RunState) : Bool := !s.isTerminal && s != .rollingBack

/-- The run has begun to put files back, and has not done so. -/
def RunState.IsStuck (s : RunState) : Prop := s = .rollingBack ∨ s = .rollbackFailed

instance : DecidablePred RunState.IsStuck :=
  fun s ↦ inferInstanceAs (Decidable (s = .rollingBack ∨ s = .rollbackFailed))

/-- What a run is given. -/
structure Scenario where
  crew : Crew
  phases : List Phase
  world : World
  store : Store
  runId : String
  project : Route
  config : RunConfig

namespace Scenario

variable (x : Scenario)

/-- The bench on which the run begins. -/
def bench : Bench := .fresh x.world x.store x.runId x.project x.config

/-- Where a path of a finding starts from. -/
def path (p : Path) : Path := (Route.path x.project).join p

/-- The path of the directory in which the snapshots of the run are kept. -/
def home : Path := x.store.root.child x.runId

/-- The run writes there itself: it is the file of the log, or lies in the directory in which the
snapshots of the run are kept. -/
def Reserved (t : FileTree) (r : Route) : Prop := t.Below x.home r ∨ x.world.logFile = some r

/-- Directories may be made there for the snapshots of the run: it lies where the run writes, or is
what the path of their directory leads to, or a path above that one. -/
def Claimed (t : FileTree) (r : Route) : Prop :=
  x.Reserved t r ∨ ∃ p : Path, p.Above x.home ∧ t.traced p = .done r

/-- A path of the phase leads to the file. -/
def Handed (t : FileTree) (phase : Phase) (r : Route) : Prop :=
  ∃ p ∈ phase.files, t.resolve (x.path p) = .ok r

/-- A path of some phase leads to the file. -/
def IsPhaseFile (r : Route) : Prop :=
  ∃ phase ∈ x.phases, ∃ p ∈ phase.files, (x.world.files.traced (x.path p)).route = r

/-- Backups are made in a place that does not depend on where the program was started, and trees are
as trees are. -/
structure Proper : Prop where
  root : x.store.root.isAbsolute = true
  backup : x.config.backupEnabled = true
  sound : x.world.files.Sound
  sane : ∀ ref fixer, x.crew.registry.get ref = .ok fixer → fixer.Sane

/-- Fixers keep to the files that they are handed, no link leads to these, and nothing else lies
where the run writes. -/
structure Tame : Prop where
  confined : ∀ ref fixer, x.crew.registry.get ref = .ok fixer → fixer.Confined
  direct : ∀ r, x.IsPhaseFile r → x.world.files.Direct r
  outside : ∀ r, x.IsPhaseFile r → ¬ x.Reserved x.world.files r
  drafts : ∀ r, x.IsPhaseFile r → ∀ n, x.world.files.look (r.draft n) = none ∧
    ¬ x.IsPhaseFile (r.draft n) ∧ ¬ x.Reserved x.world.files (r.draft n)

/-- A regular file there may be altered without getting in the way of undoing the run: the run does
not write there, and neither does putting back a file of a phase. -/
def Loose (r : Route) : Prop :=
  ¬ x.Reserved x.world.files r ∧ ∀ q, x.IsPhaseFile q → ∀ n, r ≠ q.draft n

/-- What is backed up can be found again: names are such as paths have, moments such as dates have,
and neither the log nor a check gets in the way. Checks touch the files in `only`. -/
structure Lasting (only : Route → Prop) : Prop where
  written : Written x.project ∧ Written x.store.project
  dots : ".." ∉ x.store.root.names
  moment : x.world.files.tick < Calendar.lastMoment
  log : ∀ r, x.world.logFile = some r →
    ¬ x.world.files.Below (x.store.location x.runId runKey) r
  loose : ∀ r, only r → x.Loose r
  checks : ∀ check ∈ x.crew.checks, check.probe.Within only

/-- One of the files that are handed to a fixer has room for its draft: it is a regular file or
absent, names are short enough, and neither the run nor another one of the files gets in the way. -/
structure Roomy (t : FileTree) (handed : Route → Prop) (r : Route) : Prop where
  clear : t.Clear r
  no_link : t.link? r = none
  no_directory : ¬ t.HasDirectory r
  fits : r.Fits
  space : t.bytes? r ≠ none → Route.Spacious x.store.project r
  unclaimed : ¬ x.Claimed t r
  outside : ∀ p, p <+: r → ¬ x.Reserved t p
  apart : ∀ q, handed q → q <+: r → q = r
  drafts : ∀ n, t.look (r.draft n) = none ∧ ¬ x.Claimed t (r.draft n) ∧
    ∀ q, handed q → ¬ r.draft n <+: q

/-- The fixer of a phase that was begun in the scene `start` only edits the files that it is handed,
and these have room for their drafts. -/
structure Mendable (start : Scene) (phase : Phase) : Prop where
  dots : ".." ∉ x.store.root.names
  edits : ∀ fixer, x.crew.registry.get phase.fixerRef = .ok fixer → fixer.Editing
  roomy : ∀ r, x.Handed start.files phase r →
    x.Roomy start.files (x.Handed start.files phase) r

/-! ### What is kept -/

/-- From `t` to `t'` nothing has been done but that these files were edited and the run has written
what it writes itself. -/
structure Within (files : List Route) (t t' : FileTree) : Prop where
  alters : Alters (fun r ↦ r ∈ files ∨ x.Reserved t r) t t'
  made : ∀ r, t'.HasDirectory r → t.HasDirectory r ∨ x.Claimed t r

/-- The snapshot of all files. -/
structure Whole (whole : Snapshot) : Prop where
  runId : whole.runId = x.runId
  accepted : Snapshot.Accepted x.store.project whole.files
  covers : ∀ phase ∈ x.phases, ∀ r, x.Handed x.world.files phase r → x.world.files.Direct r →
    r ∈ whole.paths
  entries : ∀ e ∈ whole.files, x.world.files.Direct e.1 → x.world.logFile ≠ some e.1 →
    e.2 = x.world.files.bytes? e.1 ∧ e.1 ≠ []

/-- The snapshot of all files lies where it was written, and is what the files were before the run.
Since then nothing has been altered but these files and the ones in `only`, and what the run writes
itself. -/
structure Saved (only : Route → Prop) (s : Snapshot) (w : World) : Prop where
  ofRun : s.runId = x.runId
  ofKey : s.key = runKey
  location : s.location = x.store.location x.runId runKey
  paths : ∀ r, r ∈ s.paths ↔ x.IsPhaseFile r
  nul : ∀ r ∈ s.paths, (Route.path r).hasNul = false
  entries : ∀ e ∈ s.files, e.2 = x.world.files.bytes? e.1 ∧ e.1 ≠ []
  lies : ∃ createdAt home, s.Durable createdAt ∧
    w.Secures s x.store.project createdAt x.home home
  log : w.logFile = x.world.logFile
  loose : ∀ r, x.IsPhaseFile r ∨ only r → x.Loose r
  alters : Alters (fun r ↦ (x.IsPhaseFile r ∨ only r) ∨ x.Reserved x.world.files r)
    x.world.files w.files

/-- In addition, no lock has been taken or given up. -/
structure Stowed (only : Route → Prop) (s : Snapshot) (w : World) : Prop extends
    x.Saved only s w where
  locks : w.locks = x.world.locks

/-- The snapshot of a phase that was begun in the scene `start`. -/
structure Armed (phase : Phase) (start : Scene) (files : List Route) (s : Snapshot) : Prop where
  occurrence : start.occurrence = .start phase
  start_sound : start.files.Sound
  handed : ∀ r, r ∈ files ↔ x.Handed start.files phase r
  paths : ∀ r ∈ files, start.files.Direct r → r ∈ s.paths
  only : (∀ r ∈ files, start.files.Direct r) → ∀ r ∈ s.paths, r ∈ files
  entries : ∀ e ∈ s.files, start.files.Direct e.1 → ¬ x.Reserved start.files e.1 →
    e.2 = start.files.bytes? e.1 ∧ e.1 ≠ []

/-- A call is backed by snapshots. One is of the files that the fixer is handed: it is the same in
every attempt, and records these files, and no others, as they were before the first one. The other
is of the files of all phases, and records them as they were before the run. Both is said of files
that no link leads to and that the run does not write to itself. -/
structure Backed (scene : Scene) (back : List Scene) : Prop where
  phase : ∀ phase number request, scene.occurrence = .call phase number request →
    ∃ (start first : Scene) (files : List Route) (s : Snapshot),
      begun? back = some start ∧ start.occurrence = .start phase ∧
      opening? (scene :: back) = some first ∧
      request.files = files.map Route.path ∧
      (∀ r, r ∈ files ↔ x.Handed start.files phase r) ∧
      Json.lookup phase.fixerRef scene.context.snapshots = some s ∧
      Json.lookup phase.fixerRef first.context.snapshots = some s ∧
      ((∀ r ∈ files, start.files.Direct r ∧ ¬ x.Reserved start.files r) →
        (∀ r, r ∈ s.paths ↔ r ∈ files) ∧ ∀ e ∈ s.files, e.2 = first.files.bytes? e.1)
  run : ∃ whole, Json.lookup runKey scene.context.snapshots = some whole ∧
    ∀ phase ∈ x.phases, ∀ r, x.Handed x.world.files phase r → x.world.files.Direct r →
      ¬ x.Reserved x.world.files r →
      Snapshot.find? r whole.files = some (x.world.files.bytes? r)

/-- Every call in the account is backed. -/
def Guarded (b : Bench) : Prop :=
  ∀ scene back, scene :: back <:+ b.progress.account → scene.isCall = true → x.Backed scene back

/-- If the files of all phases have been recorded, the snapshot is saved. -/
def Stows (b : Bench) : Prop :=
  x.Tame → ∀ only, x.Lasting only → ∀ s, Json.lookup runKey b.context.snapshots = some s →
    x.Stowed only s b.world

/-- The run does not get stuck while it puts back the files of a phase that is mendable. -/
def Loosens (b : Bench) : Prop :=
  b.context.state.IsStuck → ∀ start phase, begun? b.progress.account = some start →
    start.occurrence = .start phase → ¬ x.Mendable start phase

/-- However the run goes on, and wherever it breaks off, this is so. -/
structure Safe (b : Bench) : Prop where
  guarded : x.Guarded b
  stows : x.Stows b
  loosens : x.Loosens b

/-- The run has not come to its end, and until a fixer is called, nothing is touched but what the
run reserves for itself. -/
structure Tidy (b : Bench) : Prop where
  going : b.context.state.goesOn = true
  sound : b.world.files.Sound
  log : b.world.logFile = x.world.logFile
  root : b.store.root = x.store.root
  ofProject : b.store.project = x.store.project
  runId : b.context.runId = x.runId
  project : b.context.project = x.project
  config : b.context.config = x.config
  fresh : b.context.mutated = false →
    Alters (x.Reserved x.world.files) x.world.files b.world.files ∧
      ∀ scene ∈ b.progress.account, scene.isCall = false
  tame : x.Tame →
    Alters (fun r ↦ x.IsPhaseFile r ∨ x.Reserved x.world.files r) x.world.files b.world.files
  guarded : x.Guarded b

/-- In addition, the files of all phases have been recorded. -/
structure Steady (whole : Option Snapshot) (b : Bench) : Prop extends x.Tidy b where
  stows : x.Stows b
  recorded : x.phases ≠ [] → x.config.dryRun = false →
    ∃ s, whole = some s ∧ x.Whole s ∧ b.store.get x.runId runKey ≠ none ∧
      Json.lookup runKey b.context.snapshots = some s

/-- A phase was begun in the scene `start`, and nothing else has happened since. -/
structure Begun (whole : Option Snapshot) (phase : Phase) (start : Scene) (b : Bench) : Prop
    extends x.Steady whole b where
  begun : begun? b.progress.account = some start
  occurrence : start.occurrence = .start phase
  start_sound : start.files.Sound
  unopened : opening? b.progress.account = none
  since : Alters (x.Reserved start.files) start.files b.world.files
  flat : ∀ r, b.world.files.HasDirectory r → start.files.HasDirectory r

/-- A phase that was begun in the scene `start` is being carried out. -/
structure Engaged (whole : Option Snapshot) (phase : Phase) (start : Scene) (files : List Route)
    (s : Snapshot) (b : Bench) : Prop extends x.Steady whole b where
  armed : x.Armed phase start files s
  accepted : Snapshot.Accepted x.store.project s.files
  begun : begun? b.progress.account = some start
  taken : Json.lookup phase.fixerRef b.context.snapshots = some s
  before : opening? b.progress.account = none →
    Alters (x.Reserved start.files) start.files b.world.files
  first : ∀ first, opening? b.progress.account = some first →
    Json.lookup phase.fixerRef first.context.snapshots = some s ∧
      Alters (x.Reserved start.files) start.files first.files
  since : x.Tame →
    Alters (fun r ↦ r ∈ files ∨ x.Reserved start.files r) start.files b.world.files
  within : x.Mendable start phase → x.Within files start.files b.world.files

/-- The regular files that the run does not write to itself are as the tree has them. -/
structure Intact (t : FileTree) (b : Bench) : Prop where
  log : b.world.logFile = x.world.logFile
  sound : b.world.files.Sound
  bytes : ∀ r, ¬ x.Reserved t r → b.world.files.bytes? r = t.bytes? r

/-- The phase that was begun in the scene `start` is the one that was settled last, with the
result `r`. -/
structure Ended (start : Scene) (phase : Phase) (r : PhaseResult) (b : Bench) : Prop where
  begun : begun? b.progress.account = some start
  occurrence : start.occurrence = .start phase
  last : b.context.history.getLast? = some r
  name : r.phase = phase.name

/-- The files of the phase that are not named as left are as they were when it was begun. -/
structure Left (start : Scene) (phase : Phase) (failed : List String) (b : Bench) : Prop where
  log : b.world.logFile = x.world.logFile
  sound : b.world.files.Sound
  outside : ∀ q, x.Handed start.files phase q → ¬ x.Reserved start.files q
  bytes : ∀ q, x.Handed start.files phase q → Route.text q ∉ failed →
    b.world.files.bytes? q = start.files.bytes? q

/-- How the files are left in the states that say something about that. -/
structure Fate (b : Bench) : Prop where
  rolledBack : b.context.state = .rolledBack →
    ∃ start phase r, Ended start phase r b ∧ x.Intact start.files b
  aborted : b.context.state = .aborted →
    (∀ scene ∈ b.progress.account, scene.isCall = false) ∧ x.Intact x.world.files b
  rollbackFailed : b.context.state = .rollbackFailed →
    ∃ start phase r failed, Ended start phase r b ∧
      Json.lookup "unrestored" r.details = some (.strs failed) ∧ x.Left start phase failed b

/-! ### What keeps it -/

variable {x} {whole : Option Snapshot} {phase : Phase} {start : Scene} {files : List Route}
  {s : Snapshot} {b b' : Bench} {t t' : FileTree}

theorem isAbsolute_path (p : Path) : (x.path p).isAbsolute = true :=
  Path.isAbsolute_join _ p

theorem reserved_congr (hx : x.Proper) (hlinks : ∀ r, t'.link? r = t.link? r) :
    x.Reserved t' = x.Reserved t := by
  funext r
  unfold Reserved
  rw [below_congr (p := x.home) hlinks hx.root]

theorem Within.further {t'' : FileTree} (h : x.Within files t t')
    (halters : Alters (fun r ↦ r ∈ files ∨ x.Reserved t r) t' t'')
    (hmade : ∀ r, t''.HasDirectory r → t'.HasDirectory r ∨ x.Claimed t r) :
    x.Within files t t'' :=
  ⟨h.alters.trans halters, fun r hr ↦ (hmade r hr).elim (h.made r) .inr⟩

theorem claimed_congr (hx : x.Proper) (hlinks : ∀ r, t'.link? r = t.link? r) :
    x.Claimed t' = x.Claimed t := by
  funext r
  unfold Claimed
  rw [reserved_congr hx hlinks]
  have htraced : ∀ p : Path, p.Above x.home → t'.traced p = t.traced p := fun p hp ↦
    traced_congr hlinks (hp.isAbsolute hx.root)
  refine congrArg _ (propext (exists_congr fun p ↦ and_congr_right fun hp ↦ ?_))
  rw [htraced p hp]

/-- A directory that is made for a snapshot of the run is claimed. -/
theorem claimed_of_laidAt {r : Route} (ht : t.Sound) {key : String}
    (h : t.LaidAt (x.store.location x.runId key) r) (hdir : t.HasDirectory r) :
    x.Claimed t r := by
  have hnames : (x.store.location x.runId key).names = x.home.names ++ [key] := rfl
  have hreserved : ∀ {p d name}, t.Reaches p d name → p.names = x.home.names ++ [key] →
      p.root = x.home.root → ∀ {r}, d <+: r → x.Reserved t r := by
    intro p d name hreaches hp hroot r hr
    have hwalk := hreaches.walk
    rw [hp, List.dropLast_concat] at hwalk
    refine .inl ⟨d, Walk.traced ht ?_ hwalk, hr⟩
    rw [Path.isAbsolute, ← hroot]
    exact hreaches.absolute
  rcases h with ⟨p, ⟨hroot, hprefix⟩, ⟨d, name, hreaches, rfl⟩, -⟩ |
    ⟨home, name, ⟨d, name', hreaches, rfl⟩, -, -, rfl⟩
  · rw [hnames] at hprefix
    rcases List.prefix_concat_iff.mp hprefix with heq | habove
    · exact .inl (hreserved hreaches heq hroot (List.prefix_append _ _))
    · exact .inr ⟨p, ⟨hroot, habove⟩, hreaches.traced ht hdir.not_link⟩
  · refine .inl (hreserved hreaches hnames rfl ?_)
    rw [List.append_assoc]
    exact List.prefix_append _ _

theorem Handed.isPhaseFile {r : Route} (h : x.Handed t phase r) (hphase : phase ∈ x.phases)
    (hlinks : ∀ r, t.link? r = x.world.files.link? r) : x.IsPhaseFile r := by
  obtain ⟨p, hp, hresolve⟩ := h
  refine ⟨phase, hphase, p, hp, ?_⟩
  rw [← traced_congr hlinks (isAbsolute_path p)]
  exact route_of_resolve hresolve

/-- What is calm alters nothing but the log. -/
theorem alters_of_undisturbed {w : World} (hsound : b.world.files.Sound)
    (hlog : b.world.logFile = x.world.logFile) (h : b.world.Undisturbed w) (t : FileTree) :
    Alters (x.Reserved t) b.world.files w.files := by
  refine (h.files hsound).alters.mono ?_
  rintro r (hfalse | hr)
  · exact hfalse.elim
  · exact .inr (hlog ▸ hr)

theorem Guarded.continues (h : x.Guarded b)
    (hcontinues : Continues b.progress.account b'.progress.account) : x.Guarded b' :=
  hcontinues.calls h

theorem Tame.loose (h : x.Tame) {r : Route} (hr : x.IsPhaseFile r) : x.Loose r := by
  refine ⟨h.outside r hr, fun q hq n heq ↦ ?_⟩
  exact (h.drafts q hq n).2.1 (heq ▸ hr)

theorem Lasting.loose_or {only : Route → Prop} (h : x.Lasting only) (htame : x.Tame) (r : Route)
    (hr : x.IsPhaseFile r ∨ only r) : x.Loose r :=
  hr.elim htame.loose (h.loose r)

/-- What is altered of the files in question, and what is added to the directory of the run, leaves
the snapshot saved. -/
theorem Saved.touched {w w' : World} {only touched : Route → Prop} (h : x.Saved only s w)
    (htouches : w.Touches touched w')
    (honly : ∀ r, touched r →
      (x.IsPhaseFile r ∨ only r) ∨ x.Reserved x.world.files r ∧ w.files.bytes? r = none) :
    x.Saved only s w' := by
  obtain ⟨createdAt, home, hdurable, hsecures⟩ := h.lies
  have hfiles := htouches.files hsecures.stored.clean.sound
  have habsolute : x.home.isAbsolute = true := by
    have hlocated := hsecures.stored.clean.absolute
    rw [h.location] at hlocated
    exact hlocated
  have hreserved : ∀ r, home <+: r → x.Reserved x.world.files r := by
    intro r hr
    obtain ⟨d, hd, hbelow⟩ := hsecures.below
    rw [traced_congr h.alters.links habsolute] at hd
    exact .inl ⟨d, hd, hbelow.trans hr⟩
  refine { h with
    lies := ⟨createdAt, home, hdurable, hsecures.touched habsolute htouches ?_⟩
    log := htouches.log.trans h.log
    alters := h.alters.trans (hfiles.alters.mono ?_) }
  · intro r hr hthere htouched
    rcases honly r htouched with hloose | ⟨-, hnone⟩
    · exact (h.loose r hloose).1 (hreserved r hr)
    · exact hthere hnone
  · rintro r (htouched | hlog)
    · exact (honly r htouched).imp_right And.left
    · exact .inr (.inr (h.log ▸ hlog))

theorem Stowed.touched {w w' : World} {only touched : Route → Prop} (h : x.Stowed only s w)
    (htouches : w.Touches touched w')
    (honly : ∀ r, touched r →
      (x.IsPhaseFile r ∨ only r) ∨ x.Reserved x.world.files r ∧ w.files.bytes? r = none) :
    x.Stowed only s w' :=
  ⟨h.toSaved.touched htouches honly, htouches.locks.trans h.locks⟩

theorem Stows.calm (h : x.Stows b) (hcalm : b.Calm b') : x.Stows b' := by
  intro htame only hlasting s hs
  rw [hcalm.context.snapshots] at hs
  exact (h htame only hlasting s hs).touched hcalm.world fun _ ↦ False.elim

theorem loosens_of_state {state : RunState} (h : b.context.state = state)
    (hnot : ¬ state.IsStuck) : x.Loosens b :=
  fun hstuck ↦ absurd (h ▸ hstuck) hnot

theorem loosens_of_goesOn (h : b.context.state.goesOn = true) : x.Loosens b := by
  refine loosens_of_state rfl ?_
  revert h
  cases b.context.state <;> decide

theorem Safe.calm (h : x.Safe b) (hcalm : b.Calm b') (hloosens : x.Loosens b') : x.Safe b' :=
  ⟨h.guarded.continues hcalm.account, h.stows.calm hcalm, hloosens⟩

theorem Safe.rests (h : x.Safe b) (hrests : b.Rests b') : x.Safe b' := by
  refine h.calm hrests.toCalm fun hstuck ↦ ?_
  rw [hrests.state] at hstuck
  rw [hrests.account.begun?_eq]
  exact h.loosens hstuck

theorem Tidy.safe (h : x.Tidy b) (hstows : x.Stows b) : x.Safe b :=
  ⟨h.guarded, hstows, loosens_of_goesOn h.going⟩

theorem Tidy.isTerminal_eq (h : x.Tidy b) : b.context.state.isTerminal = false := by
  have hgoing := h.going
  unfold RunState.goesOn at hgoing
  simpa using (Bool.and_eq_true_iff.mp hgoing).1

theorem Steady.safe (h : x.Steady whole b) : x.Safe b :=
  h.toTidy.safe h.stows

theorem Tidy.calm (h : x.Tidy b) (hcalm : b.Calm b')
    (hgoing : b'.context.state.goesOn = true) : x.Tidy b' := by
  have halters := alters_of_undisturbed h.sound h.log hcalm.world x.world.files
  constructor
  case going => exact hgoing
  case sound => exact (hcalm.world.files h.sound).sound
  case log => exact hcalm.world.log.trans h.log
  case root =>
    rw [hcalm.store]
    exact h.root
  case ofProject =>
    rw [hcalm.store]
    exact h.ofProject
  case runId => exact hcalm.context.runId.trans h.runId
  case project => exact hcalm.context.project.trans h.project
  case config => exact hcalm.context.config.trans h.config
  case fresh =>
    intro hmutated
    obtain ⟨hfiles, hcalls⟩ := h.fresh (hcalm.context.mutated hmutated)
    exact ⟨hfiles.trans halters, hcalm.account.no_calls hcalls⟩
  case tame => exact fun htame ↦ (h.tame htame).trans (halters.mono fun _ ↦ .inr)
  case guarded => exact h.guarded.continues hcalm.account

theorem Steady.calm (h : x.Steady whole b) (hcalm : b.Calm b')
    (hgoing : b'.context.state.goesOn = true) : x.Steady whole b' := by
  refine ⟨h.toTidy.calm hcalm hgoing, h.stows.calm hcalm, ?_⟩
  rw [hcalm.store, hcalm.context.snapshots]
  exact h.recorded

theorem Begun.calm (h : x.Begun whole phase start b) (hcalm : b.Calm b')
    (hgoing : b'.context.state.goesOn = true) : x.Begun whole phase start b' := by
  constructor
  case toSteady => exact h.toSteady.calm hcalm hgoing
  case begun => rw [hcalm.account.begun?_eq, h.begun]
  case occurrence => exact h.occurrence
  case start_sound => exact h.start_sound
  case unopened => rw [hcalm.account.opening?_eq, h.unopened]
  case since =>
    exact h.since.trans (alters_of_undisturbed h.sound h.log hcalm.world start.files)
  case flat => exact fun r hr ↦ h.flat r (hcalm.still.flat r hr)

theorem Engaged.calm (h : x.Engaged whole phase start files s b) (hcalm : b.Calm b')
    (hgoing : b'.context.state.goesOn = true) : x.Engaged whole phase start files s b' := by
  have halters := alters_of_undisturbed h.sound h.log hcalm.world start.files
  constructor
  case toSteady => exact h.toSteady.calm hcalm hgoing
  case armed => exact h.armed
  case accepted => exact h.accepted
  case begun => rw [hcalm.account.begun?_eq, h.begun]
  case taken => rw [hcalm.context.snapshots, h.taken]
  case before =>
    intro hnone
    rw [hcalm.account.opening?_eq] at hnone
    exact (h.before hnone).trans halters
  case first =>
    rw [hcalm.account.opening?_eq]
    exact h.first
  case since => exact fun htame ↦ (h.since htame).trans (halters.mono fun _ ↦ .inr)
  case within =>
    exact fun hmendable ↦ (h.within hmendable).further (halters.mono fun _ ↦ .inr)
      fun r hr ↦ .inl (hcalm.still.flat r hr)

theorem Engaged.rests (h : x.Engaged whole phase start files s b) (hrests : b.Rests b') :
    x.Engaged whole phase start files s b' :=
  h.calm hrests.toCalm (hrests.state ▸ h.going)

/-! ### Calls -/

section Calls

variable {number : Nat} {request : FixRequest}

/-- A scene in which the fixer of the phase is called now. -/
def called (b : Bench) (phase : Phase) (number : Nat) (request : FixRequest) : Scene :=
  ⟨.call phase number request, b.context, b.world.files⟩

/-- Now that the fixer is called, there is a first call, and it finds the files as recorded. -/
theorem Engaged.opening (h : x.Engaged whole phase start files s b) (number : Nat)
    (request : FixRequest) :
    ∃ first, opening? (called b phase number request :: b.progress.account) = some first ∧
      Json.lookup phase.fixerRef first.context.snapshots = some s ∧
      Alters (x.Reserved start.files) start.files first.files := by
  have hcons : opening? (called b phase number request :: b.progress.account) =
      (opening? b.progress.account).or (some (called b phase number request)) :=
    opening?_cons rfl
  cases hopening : opening? b.progress.account with
  | none =>
    rw [hopening] at hcons
    exact ⟨_, hcons, h.taken, h.before hopening⟩
  | some first =>
    rw [hopening] at hcons
    exact ⟨first, hcons, h.first first hopening⟩

theorem Engaged.backed (h : x.Engaged whole phase start files s b) (hphase : phase ∈ x.phases)
    (hdry : x.config.dryRun = false) (hfiles : request.files = files.map Route.path) :
    x.Backed (called b phase number request) b.progress.account := by
  constructor
  case phase =>
    intro phase' number' request' hcall
    cases hcall
    obtain ⟨first, hopening, htaken, halters⟩ := h.opening number request
    refine ⟨start, first, files, s, h.begun, h.armed.occurrence, hopening, hfiles, h.armed.handed,
      h.taken, htaken, fun hall ↦ ?_⟩
    have honly : ∀ r ∈ s.paths, r ∈ files := h.armed.only fun r hr ↦ (hall r hr).1
    refine ⟨fun r ↦ ⟨honly r, fun hr ↦ h.armed.paths r hr (hall r hr).1⟩, fun e he ↦ ?_⟩
    obtain ⟨hdirect, hreserved⟩ := hall e.1 (honly e.1 (List.mem_map_of_mem he))
    rw [halters.bytes e.1 hreserved]
    exact (h.armed.entries e he hdirect hreserved).1
  case run =>
    obtain ⟨whole, -, hwhole, -, hlookup⟩ := h.recorded (List.ne_nil_of_mem hphase) hdry
    refine ⟨whole, hlookup, fun phase' hphase' r hr hdirect hreserved ↦ ?_⟩
    obtain ⟨content, hfind, hmem⟩ :=
      Snapshot.find?_of_mem (hwhole.covers phase' hphase' r hr hdirect)
    rw [hfind]
    exact congrArg some (hwhole.entries _ hmem hdirect fun hlog ↦ hreserved (.inr hlog)).1

/-- The phase goes on being carried out when the call is noted. -/
theorem Engaged.note (h : x.Engaged whole phase start files s b) (hphase : phase ∈ x.phases)
    (hdry : x.config.dryRun = false) (hfiles : request.files = files.map Route.path)
    (hmutated : b.context.mutated = true) :
    x.Engaged whole phase start files s (b.note (.call phase number request)) ∧
      opening? (b.note (.call phase number request)).progress.account ≠ none := by
  have haccount : (b.note (.call phase number request)).progress.account =
    called b phase number request :: b.progress.account := rfl
  obtain ⟨first, hopening, htaken, halters⟩ := h.opening number request
  refine ⟨?_, by rw [haccount, hopening]; exact Option.some_ne_none _⟩
  constructor
  case toSteady =>
    refine ⟨{ h.toTidy with fresh := ?_, guarded := ?_ }, h.stows, h.recorded⟩
    · intro hnot
      have hcontext : (b.note (.call phase number request)).context = b.context := rfl
      rw [hcontext, hmutated] at hnot
      cases hnot
    · intro scene back hsuffix hcall
      rw [haccount] at hsuffix
      rcases List.suffix_cons_iff.mp hsuffix with heq | hsuffix
      · cases heq
        exact h.backed hphase hdry hfiles
      · exact h.guarded scene back hsuffix hcall
  case armed => exact h.armed
  case accepted => exact h.accepted
  case begun =>
    rw [haccount, begun?_cons rfl]
    exact h.begun
  case taken => exact h.taken
  case before =>
    intro hnone
    rw [haccount, hopening] at hnone
    cases hnone
  case first =>
    intro first' hfirst'
    rw [haccount, hopening] at hfirst'
    cases hfirst'
    exact ⟨htaken, halters⟩
  case since => exact h.since
  case within => exact h.within

theorem Engaged.isPhaseFile (h : x.Engaged whole phase start files s b) (hphase : phase ∈ x.phases)
    (htame : x.Tame) {r : Route} (hr : r ∈ files) : x.IsPhaseFile r :=
  ((h.armed.handed r).mp hr).isPhaseFile hphase fun r ↦
    ((h.since htame).links r).symm.trans ((h.tame htame).links r)

/-- What the fixer does to the site is within what is promised of it. -/
theorem Engaged.worked (h : x.Engaged whole phase start files s b)
    (hopening : opening? b.progress.account ≠ none) (hmutated : b.context.mutated = true)
    (hphase : phase ∈ x.phases) {site : Site} (hsane : site.files.Sound)
    (hconfined : x.Tame → Becomes (· ∈ files) b.world.files site.files)
    (hedits : x.Mendable start phase → Edits (· ∈ files) b.world.files site.files) :
    x.Engaged whole phase start files s { b with world := { b.world with toSite := site } } := by
  constructor
  case toSteady =>
    refine ⟨{ h.toTidy with sound := hsane, fresh := ?_, tame := ?_ }, ?_, h.recorded⟩
    · intro hnot
      have hcontext : ({ b with world := { b.world with toSite := site } } : Bench).context =
        b.context := rfl
      rw [hcontext, hmutated] at hnot
      cases hnot
    · exact fun htame ↦ (h.tame htame).trans ((hconfined htame).alters.mono fun r hr ↦
        .inl (h.isPhaseFile hphase htame hr))
    · intro htame only hlasting s hs
      refine (h.stows htame only hlasting s hs).touched (World.touches_of_becomes rfl rfl
        (hconfined htame)) fun r hr ↦ .inl (.inl (h.isPhaseFile hphase htame hr))
  case armed => exact h.armed
  case accepted => exact h.accepted
  case begun => exact h.begun
  case taken => exact h.taken
  case before => exact fun hnone ↦ absurd hnone hopening
  case first => exact h.first
  case since =>
    exact fun htame ↦ (h.since htame).trans ((hconfined htame).alters.mono fun _ ↦ .inl)
  case within =>
    exact fun hmendable ↦ (h.within hmendable).further
      ((hedits hmendable).alters.mono fun _ ↦ .inl) fun r hr ↦ .inl ((hedits hmendable).flat r hr)

end Calls

end Scenario

end Remedy
