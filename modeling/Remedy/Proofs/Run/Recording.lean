import Remedy.Proofs.Run.Records

/-!
# Recording files in a run

A run records files in two ways: it takes a snapshot of what they hold now, or it takes a part of
the snapshot of all files. Either way a phase that has been begun is armed with what its files held
when it was begun (`Scenario.Begun.ends_phaseSnapshot`): as long as no fixer has been called, what
the files held before the run is what they hold now. Before the first phase, the files of all phases
are recorded (`Scenario.Tidy.ends_takeWhole`).

If files cannot be recorded, those that the run does not write to itself are as they were.
-/

set_option autoImplicit false

namespace Remedy

open FileTree

theorem Json.lookup_insert {α : Type} (key key' : String) (value : α)
    (fields : List (String × α)) :
    lookup key' (insert key value fields) =
      if key' = key then some value else lookup key' fields := by
  induction fields with
  | nil =>
    simp only [insert, lookup]
    by_cases h : key = key'
    · rw [if_pos h, if_pos h.symm]
    · rw [if_neg h, if_neg (Ne.symm h)]
  | cons field rest ih =>
    obtain ⟨k, v⟩ := field
    unfold insert
    by_cases hk : k = key
    · subst hk
      rw [if_pos rfl]
      unfold lookup
      by_cases h : k = key'
      · rw [if_pos h, if_pos h.symm]
      · rw [if_neg h, if_neg (Ne.symm h), if_neg h]
    · rw [if_neg hk]
      unfold lookup
      rw [ih]
      by_cases h : k = key'
      · rw [if_pos h, if_pos h, if_neg (by rw [← h]; exact hk)]
      · rw [if_neg h, if_neg h]

theorem Phase.written_of_mem_files (phase : Phase) {p : Path} (hp : p ∈ phase.files) :
    Written p.names := by
  obtain ⟨f, -, rfl⟩ := List.mem_map.mp (mem_distinct.mp (List.mem_mergeSort.mp hp))
  exact Path.written_ofString f.file

namespace Scenario

variable {x : Scenario} {whole : Option Snapshot} {phase : Phase} {start : Scene}
  {files : List Route} {s : Snapshot} {b b' : Bench}

variable (x) in
/-- There is no file yet, in the directory in which the snapshots of the run are kept. -/
def Fresh (t : FileTree) (r : Route) : Prop := t.Below x.home r ∧ t.bytes? r = none

variable (x) in
/-- From `b` to `b'` the snapshot has been added to the records, and nothing has been touched but
what the run reserves for itself. -/
structure Adds (s : Snapshot) (b b' : Bench) : Prop where
  state : b'.context.state = b.context.state
  touches : b.world.Touches (x.Fresh b.world.files) b'.world
  runId : s.runId = x.runId
  unheld : b.store.get x.runId s.key = none
  store : b'.store = b.store.hold s
  context : b'.context = b.context.keep s
  account : Continues b.progress.account b'.progress.account
  accepted : Snapshot.Accepted x.store.project s.files
  made : ".." ∉ x.store.root.names → ∀ r, b'.world.files.HasDirectory r →
    b.world.files.HasDirectory r ∨ x.Claimed b.world.files r

variable (x) in
/-- From `b` to `b'` files could not be recorded. -/
structure Refuses (b b' : Bench) : Prop where
  context : b'.context = b.context
  progress : b'.progress = b.progress
  intact : x.Intact b.world.files b'
  touches : ".." ∉ x.store.root.names → b.world.Touches (x.Fresh b.world.files) b'.world

theorem Adds.sound (hadds : x.Adds s b b') (h : b.world.files.Sound) : b'.world.files.Sound :=
  (hadds.touches.files h).sound

theorem Adds.alters (hadds : x.Adds s b b') (h : x.Tidy b) :
    Alters (x.Reserved b.world.files) b.world.files b'.world.files := by
  refine (hadds.touches.files h.sound).alters.mono ?_
  rintro r (hr | hr)
  · exact .inl hr.1
  · exact .inr (h.log ▸ hr)

/-- Files that are added to the directory of the run leave the snapshot saved. -/
theorem Stowed.fresh {w w' : World} {only : Route → Prop} (h : x.Stowed only s w) (hx : x.Proper)
    (htouches : w.Touches (x.Fresh w.files) w') : x.Stowed only s w' := by
  refine h.touched htouches fun r hr ↦ .inr ⟨.inl ?_, hr.2⟩
  rw [← below_congr (p := x.home) h.alters.links hx.root]
  exact hr.1

theorem Tidy.adds (h : x.Tidy b) (hx : x.Proper) (hadds : x.Adds s b b') : x.Tidy b' := by
  have halters : ∀ {t}, (∀ r, b.world.files.link? r = t.link? r) →
      Alters (x.Reserved t) b.world.files b'.world.files := by
    intro t hlinks
    rw [← reserved_congr hx hlinks]
    exact hadds.alters h
  constructor
  case going =>
    rw [hadds.state]
    exact h.going
  case sound => exact hadds.sound h.sound
  case log => exact hadds.touches.log.trans h.log
  case root =>
    rw [hadds.store]
    exact h.root
  case ofProject =>
    rw [hadds.store]
    exact h.ofProject
  case runId =>
    rw [hadds.context]
    exact h.runId
  case project =>
    rw [hadds.context]
    exact h.project
  case config =>
    rw [hadds.context]
    exact h.config
  case fresh =>
    intro hmutated
    rw [hadds.context] at hmutated
    obtain ⟨hfiles, hcalls⟩ := h.fresh hmutated
    exact ⟨hfiles.trans (halters hfiles.links), hadds.account.no_calls hcalls⟩
  case tame =>
    intro htame
    have hfiles := h.tame htame
    exact hfiles.trans ((halters hfiles.links).mono fun _ ↦ .inr)
  case guarded => exact h.guarded.continues hadds.account

/-- Another snapshot leaves that of all files as it is. -/
theorem Steady.adds (h : x.Steady whole b) (hx : x.Proper) (hadds : x.Adds s b b')
    (hkey : runKey ≠ s.key) : x.Steady whole b' := by
  have hlookup : Json.lookup runKey b'.context.snapshots =
      Json.lookup runKey b.context.snapshots := by
    rw [hadds.context]
    show Json.lookup runKey (Json.insert s.key s b.context.snapshots) = _
    rw [Json.lookup_insert, if_neg hkey]
  refine ⟨h.toTidy.adds hx hadds, fun htame only hlasting all hall ↦ ?_,
    fun hphases hdry ↦ ?_⟩
  · rw [hlookup] at hall
    exact (h.stows htame only hlasting all hall).fresh hx hadds.touches
  obtain ⟨w, hw, hwhole, hheld, hall⟩ := h.recorded hphases hdry
  refine ⟨w, hw, hwhole, ?_, hlookup.trans hall⟩
  rw [hadds.store]
  exact Store.get_hold_of_some hheld

/-- A phase that has been begun is armed with the snapshot of its files. Snapshots are never held
twice, so that of all files has another key. -/
theorem Begun.engaged (h : x.Begun whole phase start b) (hx : x.Proper)
    (hheld : b.store.get x.runId runKey ≠ none) (hadds : x.Adds s b b')
    (hkey : s.key = phase.fixerRef) (harmed : x.Armed phase start files s) :
    x.Engaged whole phase start files s b' := by
  have halters : Alters (x.Reserved start.files) start.files b'.world.files := by
    refine h.since.trans ?_
    rw [← reserved_congr hx h.since.links]
    exact hadds.alters h.toTidy
  constructor
  case toSteady => exact h.toSteady.adds hx hadds fun heq ↦ hheld (heq ▸ hadds.unheld)
  case armed => exact harmed
  case accepted => exact hadds.accepted
  case begun => rw [hadds.account.begun?_eq, h.begun]
  case taken =>
    rw [hadds.context]
    show Json.lookup phase.fixerRef (Json.insert s.key s b.context.snapshots) = some s
    rw [Json.lookup_insert, if_pos hkey.symm]
  case before => exact fun _ ↦ halters
  case first =>
    intro first hfirst
    rw [hadds.account.opening?_eq, h.unopened] at hfirst
    cases hfirst
  case since => exact fun _ ↦ halters.mono fun _ ↦ .inr
  case within =>
    refine fun hmendable ↦ ⟨halters.mono fun _ ↦ .inr, fun r hr ↦ ?_⟩
    rw [← claimed_congr hx h.since.links]
    exact (hadds.made hmendable.dots r hr).imp_left (h.flat r)

/-! ### Files -/

theorem Tidy.ends_filesOf (h : x.Tidy b) (phase : Phase) :
    Ends (RunAct.filesOf phase) b
      (fun files b' ↦ b' = b ∧ (∀ r, r ∈ files ↔ x.Handed b.world.files phase r) ∧
        ∀ p ∈ phase.files, ∃ r, b.world.files.resolve (x.path p) = .ok r)
      fun _ b' ↦ b' = b := by
  refine (RunAct.ends_filesOf_asked phase b).mono ?_ fun _ _ h ↦ h.1
  rintro files b' ⟨rfl, hfiles, hresolved⟩
  rw [h.project] at hfiles hresolved
  exact ⟨rfl, hfiles, hresolved⟩

/-! ### Snapshots -/

theorem Tidy.refuses_self (h : x.Tidy b) {w : World} (hw : b.world.Undisturbed w) :
    x.Refuses b { b with world := w } :=
  ⟨rfl, rfl, ⟨hw.log.trans h.log, (hw.files h.sound).sound,
    (alters_of_undisturbed h.sound h.log hw b.world.files).bytes⟩,
    fun _ ↦ hw.mono fun _ ↦ False.elim⟩

/-- What has become a directory while a snapshot was taken is claimed by the run. -/
theorem Tidy.claimed_of_laid (h : x.Tidy b) (hx : x.Proper) {key : String} {w w' : World}
    (hstill : b.world.Still w)
    (htouches : w.Touches (fun r ↦ w.files.Below (b.store.root.child b.context.runId) r ∧
      w.files.bytes? r = none) w')
    (hlaid : ∀ r, w.files.look r = none → w'.files.look r ≠ none →
      w'.files.LaidAt (b.store.location b.context.runId key) r) (r : Route)
    (hr : w'.files.HasDirectory r) :
    b.world.files.HasDirectory r ∨ x.Claimed b.world.files r := by
  have hbefore := hstill.undisturbed.files h.sound
  have hafter := htouches.files hbefore.sound
  have hlocation : b.store.location b.context.runId key = x.store.location x.runId key := by
    rw [Store.location, h.root, h.runId, Store.location]
  have hclaimed := claimed_congr (x := x) hx fun r ↦
    (hafter.alters.links r).trans (hbefore.alters.links r)
  by_cases hthere : w.files.HasDirectory r
  · exact .inl (hstill.flat r hthere)
  right
  by_cases hbytes : w.files.bytes? r = none
  · have hlink : w.files.link? r = none := (hafter.alters.links r).symm.trans hr.not_link
    have hsome : w'.files.look r ≠ none := by
      rw [hr]
      exact Option.some_ne_none _
    have hstands := hlaid r (look_eq_none_of hbytes hlink hthere) hsome
    rw [hlocation] at hstands
    rw [← hclaimed]
    exact claimed_of_laidAt hafter.sound hstands hr
  · -- A file goes on to be one, unless it is the log.
    by_cases hlog : w.logFile = some r
    · refine .inl (.inr ?_)
      rw [← h.log, ← hstill.undisturbed.log]
      exact hlog
    · have hsame := hafter.alters.bytes r fun hor ↦ hor.elim (fun hnone ↦ hbytes hnone.2) hlog
      exact absurd (hsame.symm.trans hr.no_bytes) hbytes

/-- Taking a snapshot records what the files hold once the log has been written. -/
theorem Tidy.ends_takeSnapshot (h : x.Tidy b) (hx : x.Proper) (key : String)
    (files : List Route) :
    Ends (RunAct.takeSnapshot key files) b
      (fun s b' ↦ s.key = key ∧ x.Adds s b b' ∧ ∃ w, b.world.Still w ∧
        b.store.Taken x.runId key (files.map Route.path) w (s, b'.store) b'.world)
      fun _ b' ↦ x.Refuses b b' := by
  have hhome : (b.store.root.child b.context.runId) = x.home := by
    rw [h.root, h.runId]
    rfl
  have hroot : b.store.root.isAbsolute = true := by
    rw [h.root]
    exact hx.root
  have hbelow : ∀ {w}, b.world.Undisturbed w →
      w.files.Below (b.store.root.child b.context.runId) = b.world.files.Below x.home := by
    intro w hw
    rw [hhome]
    exact below_congr (p := x.home) (hw.files h.sound).alters.links hx.root
  have hfresh : ∀ {w w'}, b.world.Undisturbed w → w.Touches (fun r ↦
      w.files.Below (b.store.root.child b.context.runId) r ∧ w.files.bytes? r = none) w' →
      b.world.Touches (x.Fresh b.world.files) w' := by
    intro w w' hw htouches
    rw [hbelow hw] at htouches
    exact hw.touches h.sound htouches fun r hsame hr ↦ ⟨hr.1, hsame ▸ hr.2⟩
  have hdots : ".." ∉ x.store.root.names → ".." ∉ b.store.root.names := by
    rw [h.root]
    exact id
  refine RunAct.ends_takeSnapshot_of ((Act.still_giveWay b.world).mono (fun _ w hstill ↦ ?_)
    fun _ w hstill ↦ h.refuses_self hstill.undisturbed)
  have hw := hstill.undisturbed
  have hsound := (hw.files h.sound).sound
  have hlaid : Ends (b.store.snapshot b.context.runId key (files.map Route.path)) w
      (fun _ w' ↦ ".." ∉ x.store.root.names → ∀ r, w.files.look r = none →
        w'.files.look r ≠ none → w'.files.LaidAt (b.store.location b.context.runId key) r)
      fun _ _ ↦ True := by
    by_cases hroom : ".." ∈ x.store.root.names
    · exact ends_of_forall (fun _ _ hnot ↦ absurd hroom hnot) fun _ _ ↦ trivial
    · exact (Store.ends_snapshot_laid b.store hsound hroot (hdots hroom) _).mono
        (fun _ _ h _ ↦ h) fun _ _ _ ↦ trivial
  refine ((Store.ends_snapshot b.store hsound hroot _).and
    (((Store.ends_snapshot_accepted b.store hsound _).and hlaid).mono (fun _ _ h ↦ h)
      fun _ _ _ ↦ trivial)).mono ?_ fun e w' h ↦ ?_
  · rintro ⟨s, store⟩ w' ⟨htaken, haccepted, hlaid⟩
    refine ⟨htaken.ofKey, ?_, w, hstill, h.runId ▸ htaken⟩
    constructor
    case state => rfl
    case touches => exact hfresh hw htaken.touches
    case runId => exact htaken.ofRun.trans h.runId
    case unheld =>
      rw [htaken.ofKey, ← h.runId]
      exact htaken.unheld
    case store => exact htaken.store
    case context => rfl
    case account => exact .cons rfl rfl .refl
    case accepted => exact h.ofProject ▸ haccepted
    case made => exact fun hdots ↦ h.claimed_of_laid hx hstill htaken.touches (hlaid hdots)
  · obtain ⟨hmissed, -⟩ := h
    have hspares := hmissed.spares
    rw [hbelow hw] at hspares
    have hspared := ((hw.spares h.sound).mono fun _ ↦ False.elim).trans hspares
    refine ⟨rfl, rfl, ⟨hspared.log.trans h.log, hspared.sound, fun r hr ↦ ?_⟩, fun hdots' ↦
      hfresh hw (hmissed.touches (hdots hdots'))⟩
    exact hspared.bytes r (fun hbelow ↦ hr (.inl hbelow)) fun hlog ↦ hr (.inr (h.log ▸ hlog))

/-- A snapshot that has just been taken arms the phase. -/
theorem Begun.armed_of_records (h : x.Begun whole phase start b)
    (hfiles : ∀ r, r ∈ files ↔ x.Handed start.files phase r) {project : Route} {w : World}
    (hw : b.world.Undisturbed w) (hrecords : s.Records project (files.map Route.path) w.files) :
    x.Armed phase start files s := by
  have hsince : Alters (x.Reserved start.files) start.files w.files :=
    h.since.trans (alters_of_undisturbed h.sound h.log hw _)
  have hsound := (hw.files h.sound).sound
  have hself : ∀ r ∈ files, start.files.Direct r → ∀ r',
      w.files.resolve ((Route.path project).join (Route.path r)) = .ok r' → r' = r :=
    fun r _ hr r' h' ↦ (hr.congr hsince.links).resolve_eq h'
  refine ⟨h.occurrence, h.start_sound, hfiles, fun r hr hdirect ↦ ?_, fun hall r hr ↦ ?_, ?_⟩
  · have hmem : Route.path r ∈ files.map Route.path := List.mem_map_of_mem hr
    obtain ⟨r', hr'⟩ := hrecords.resolved _ hmem
    obtain rfl := hself r hr hdirect r' hr'
    exact (hrecords.paths r').mpr ⟨_, hmem, hr'⟩
  · obtain ⟨p, hp, hresolve⟩ := (hrecords.paths r).mp hr
    obtain ⟨f, hf, rfl⟩ := List.mem_map.mp hp
    obtain rfl := hself f hf (hall f hf) r hresolve
    exact hf
  · intro e he hdirect hreserved
    obtain ⟨hcontent, hdir⟩ := hrecords.entries e he (hdirect.congr hsince.links)
    refine ⟨hcontent.trans (hsince.bytes _ hreserved), fun hroot ↦ hdir ?_⟩
    rw [hroot]
    exact hsound.root

/-- A part of the snapshot of all files arms the phase as long as no fixer has been called. -/
theorem Begun.armed_of_part (h : x.Begun whole phase start b) (hx : x.Proper)
    (hfiles : ∀ r, r ∈ files ↔ x.Handed start.files phase r)
    (hmutated : b.context.mutated = false) {all : Snapshot} (hall : x.Whole all)
    (hpart : all.restrict files phase.fixerRef = .ok s) : x.Armed phase start files s := by
  obtain ⟨-, -, hpaths, hentries⟩ := Snapshot.restrict_eq hpart
  obtain ⟨hfresh, -⟩ := h.fresh hmutated
  have hlinks : ∀ r, x.world.files.link? r = start.files.link? r :=
    fun r ↦ (hfresh.links r).symm.trans (h.since.links r)
  refine ⟨h.occurrence, h.start_sound, hfiles, fun r hr _ ↦ (hpaths r).mpr hr,
    fun _ r hr ↦ (hpaths r).mp hr, fun e he hdirect hreserved ↦ ?_⟩
  obtain ⟨hcontent, hroot⟩ := hall.entries e (hentries e he) (hdirect.congr hlinks)
    fun hlog ↦ hreserved (.inr hlog)
  refine ⟨?_, hroot⟩
  rw [hcontent, ← h.since.bytes _ hreserved]
  refine (hfresh.bytes _ ?_).symm
  rw [reserved_congr hx hlinks]
  exact hreserved

/-- The files of a phase that has been begun are recorded, in one way or the other. -/
theorem Begun.ends_phaseSnapshot (h : x.Begun whole phase start b) (hx : x.Proper)
    (hphase : phase ∈ x.phases) (hdry : x.config.dryRun = false)
    (hfiles : ∀ r, r ∈ files ↔ x.Handed start.files phase r) :
    Ends (RunAct.phaseSnapshot phase files whole) b
      (fun s b' ↦ x.Engaged whole phase start files s b') fun _ b' ↦ x.Refuses b b' := by
  obtain ⟨all, rfl, hall, hheld, -⟩ := h.recorded (List.ne_nil_of_mem hphase) hdry
  have htake : Ends (RunAct.takeSnapshot phase.fixerRef files) b
      (fun s b' ↦ x.Engaged (some all) phase start files s b') fun _ b' ↦ x.Refuses b b' := by
    refine (h.ends_takeSnapshot hx phase.fixerRef files).mono ?_ fun _ _ h ↦ h
    rintro s b' ⟨hkey, hadds, w, hw, htaken⟩
    exact h.engaged hx hheld hadds hkey
      (h.armed_of_records hfiles hw.undisturbed htaken.records)
  refine RunAct.ends_phaseSnapshot_of ?_ ?_ fun _ ↦ htake
  · exact fun _ _ _ _ _ ↦ h.refuses_self (.refl _ _)
  rintro _ part ⟨⟩ hmutated hpart
  obtain ⟨hrunId, hkey, -, -⟩ := Snapshot.restrict_eq hpart
  have hrun : part.runId = x.runId := hrunId.trans hall.runId
  refine (Store.ends_record b.store part b.world).mono ?_ fun _ w hw ↦
    h.refuses_self (hw ▸ .refl _ _)
  rintro store w ⟨rfl, hunheld, hstill⟩
  refine h.engaged hx hheld ?_ hkey (h.armed_of_part hx hfiles hmutated hall hpart)
  exact {
    state := rfl
    touches := hstill.undisturbed.mono fun _ ↦ False.elim
    runId := hrun
    unheld := hrun ▸ hunheld
    store := rfl
    context := rfl
    account := .cons rfl rfl .refl
    accepted := hall.accepted.restrict hpart
    made := fun _ r hr ↦ .inl (hstill.flat r hr) }

/-! ### The files of all phases -/

variable (x) in
/-- The files are those that the paths of the phases lead to, each of which leads somewhere. -/
structure Gathers (t : FileTree) (files : List Route) : Prop where
  mem : ∀ r, r ∈ files ↔ ∃ phase ∈ x.phases, x.Handed t phase r
  resolved : ∀ phase ∈ x.phases, ∀ p ∈ phase.files, ∃ r, t.resolve (x.path p) = .ok r

section Whole

variable {w : World} (hx : x.Proper) (hquiet : x.world.Still b.world)
  (hgathers : x.Gathers b.world.files files) (hstill : b.world.Still w)

include hx hquiet hgathers in
theorem mem_of_isPhaseFile {r : Route} (hr : x.IsPhaseFile r) : r ∈ files := by
  obtain ⟨phase, hphase, p, hp, rfl⟩ := hr
  obtain ⟨r, hr⟩ := hgathers.resolved phase hphase p hp
  have hlinks := (hquiet.undisturbed.files hx.sound).alters.links
  rw [← traced_congr hlinks (isAbsolute_path p), route_of_resolve hr]
  exact (hgathers.mem r).mpr ⟨phase, hphase, p, hp, hr⟩

include hx hquiet hgathers in
theorem isPhaseFile_of_mem {r : Route} (hr : r ∈ files) : x.IsPhaseFile r := by
  obtain ⟨phase, hphase, hhanded⟩ := (hgathers.mem r).mp hr
  exact hhanded.isPhaseFile hphase (hquiet.undisturbed.files hx.sound).alters.links

variable (htaken : b.store.Taken x.runId runKey (files.map Route.path) w (s, b'.store) b'.world)

include hx hquiet hstill htaken in
/-- A file that no link leads to is recorded as that file. -/
theorem resolve_of_taken {r : Route} (hr : r ∈ files) (hdirect : x.world.files.Direct r) :
    w.files.resolve (Route.path r) = .ok r := by
  have hlinks := ((hquiet.trans hstill).undisturbed.files hx.sound).alters.links
  obtain ⟨r', hr'⟩ := htaken.records.resolved _ (List.mem_map_of_mem hr)
  obtain rfl : r' = r := (hdirect.congr hlinks).resolve_eq hr'
  exact hr'

include hx hquiet hgathers hstill htaken in
theorem whole_of_taken (haccepted : Snapshot.Accepted x.store.project s.files) : x.Whole s := by
  have hsince := ((hquiet.trans hstill).undisturbed.files hx.sound).alters
  refine ⟨htaken.ofRun, haccepted, fun phase hphase r ⟨p, hp, hresolve⟩ hdirect ↦ ?_,
    fun e he hdirect hlog ↦ ?_⟩
  · have hr : r ∈ files := mem_of_isPhaseFile hx hquiet hgathers
      ⟨phase, hphase, p, hp, route_of_resolve hresolve⟩
    exact (htaken.records.paths r).mpr ⟨_, List.mem_map_of_mem hr,
      resolve_of_taken hx hquiet hstill htaken hr hdirect⟩
  · obtain ⟨hcontent, hdir⟩ := htaken.records.entries e he (hdirect.congr hsince.links)
    refine ⟨hcontent.trans (hsince.bytes _ fun hor ↦ hor.elim id hlog), fun hroot ↦ hdir ?_⟩
    rw [hroot]
    exact ((hquiet.trans hstill).undisturbed.files hx.sound).sound.root

include hx hquiet hgathers hstill htaken in
/-- Where no link leads to a file of a phase, the snapshot is of the files of the phases. -/
theorem mem_paths_of_taken (htame : x.Tame) (r : Route) : r ∈ s.paths ↔ x.IsPhaseFile r := by
  have hsince := ((hquiet.trans hstill).undisturbed.files hx.sound).alters
  constructor
  · intro hr
    obtain ⟨p, hp, hfound⟩ := (htaken.records.paths r).mp hr
    obtain ⟨q, hq, rfl⟩ := List.mem_map.mp hp
    have hfile := isPhaseFile_of_mem hx hquiet hgathers hq
    obtain rfl := ((htame.direct q hfile).congr hsince.links).resolve_eq hfound
    exact hfile
  · intro hr
    have hmem := mem_of_isPhaseFile hx hquiet hgathers hr
    exact (htaken.records.paths r).mpr ⟨_, List.mem_map_of_mem hmem,
      resolve_of_taken hx hquiet hstill htaken hmem (htame.direct r hr)⟩

include hx hquiet hgathers hstill htaken in
/-- The snapshot is of the files of the phases, and lies where it can be found again. -/
theorem saved_of_taken (h : x.Tidy b) (hadds : x.Adds s b b') (htame : x.Tame)
    {only : Route → Prop} (hlasting : x.Lasting only) : x.Saved only s b'.world := by
  have hsince := ((hquiet.trans hstill).undisturbed.files hx.sound).alters
  have hwhole := whole_of_taken hx hquiet hgathers hstill htaken hadds.accepted
  have hpaths := mem_paths_of_taken hx hquiet hgathers hstill htaken htame
  have hentry : ∀ e ∈ s.files, x.IsPhaseFile e.1 :=
    fun e he ↦ (hpaths e.1).mp (List.mem_map_of_mem he)
  constructor
  case ofRun => exact htaken.ofRun
  case ofKey => exact htaken.ofKey
  case location =>
    rw [htaken.location, Store.location, Store.location, h.root]
  case paths => exact hpaths
  case nul =>
    intro r hr
    have hfile := (hpaths r).mp hr
    have hfound := resolve_of_taken hx hquiet hstill htaken
      (mem_of_isPhaseFile hx hquiet hgathers hfile) (htame.direct r hfile)
    unfold resolve at hfound
    split at hfound
    · cases hfound
    · exact Bool.eq_false_iff.mpr ‹_›
  case entries =>
    intro e he
    have hfile := hentry e he
    exact hwhole.entries e he (htame.direct _ hfile) fun hlog ↦ htame.outside _ hfile (.inr hlog)
  case lies =>
    have hroot : (b.store.location x.runId runKey).isAbsolute = true := by
      rw [Store.location, h.root]
      exact hx.root
    have hlog : w.LogsOutside (b.store.location x.runId runKey) := by
      intro r hr _ hbelow
      rw [below_congr (p := b.store.location x.runId runKey) hsince.links hroot] at hbelow
      rw [(hquiet.trans hstill).undisturbed.log] at hr
      rw [Store.location, h.root] at hbelow
      exact hlasting.log r hr hbelow
    obtain ⟨home, hsecures⟩ := htaken.stored hlog
    rw [h.ofProject, h.root] at hsecures
    refine ⟨_, home, htaken.durable ?_ ?_ ?_, hsecures⟩
    · rw [h.ofProject]
      exact hlasting.written.2
    · rintro _ hp
      obtain ⟨r, hr, rfl⟩ := List.mem_map.mp hp
      obtain ⟨phase, -, p, hp, hfound⟩ := (hgathers.mem r).mp hr
      exact written_of_resolve (isAbsolute_path p)
        (Path.written_join hlasting.written.1 (phase.written_of_mem_files hp)) hfound
    · rw [hstill.tick, hquiet.tick]
      exact hlasting.moment
  case log => exact hadds.touches.log.trans h.log
  case loose => exact hlasting.loose_or htame
  case alters =>
    have hbefore := (hquiet.undisturbed.files hx.sound).alters
    refine (hbefore.mono ?_).trans ((hadds.alters h).mono fun r hr ↦ .inr ?_)
    · rintro r (hfalse | hlog)
      · exact hfalse.elim
      · exact .inr (.inr hlog)
    · rw [← reserved_congr hx hbefore.links]
      exact hr

end Whole

/-- The files of all phases are recorded before the first one, when only the log has been
written. -/
theorem Tidy.ends_takeWhole (h : x.Tidy b) (hx : x.Proper) (hquiet : x.world.Still b.world)
    (hgathers : x.Gathers b.world.files files) :
    Ends (RunAct.takeSnapshot runKey files) b (fun s b' ↦ x.Steady (some s) b')
      fun _ b' ↦ x.Refuses b b' := by
  refine (h.ends_takeSnapshot hx runKey files).mono ?_ fun _ _ h ↦ h
  rintro s b' ⟨hkey, hadds, w, hstill, htaken⟩
  have hlookup : Json.lookup runKey b'.context.snapshots = some s := by
    rw [hadds.context]
    show Json.lookup runKey (Json.insert s.key s b.context.snapshots) = some s
    rw [Json.lookup_insert, if_pos hkey.symm]
  refine ⟨h.adds hx hadds, fun htame _ hlasting all hall ↦ ?_,
    fun _ _ ↦ ⟨s, rfl, ?_, ?_, hlookup⟩⟩
  · obtain rfl : s = all := Option.some.inj (hlookup.symm.trans hall)
    exact ⟨saved_of_taken hx hquiet hgathers hstill htaken h hadds htame hlasting,
      hadds.touches.locks.trans hquiet.undisturbed.locks⟩
  · exact whole_of_taken hx hquiet hgathers hstill htaken hadds.accepted
  · rw [hadds.store, ← hkey, ← hadds.runId]
    exact Store.get_hold_self b.store s

end Scenario

end Remedy
