import Remedy.Proofs.CommandLine.Loading
import Remedy.Proofs.Touching
import Remedy.Proofs.Tree.Below

/-!
# The stages of a command

A command begins with the search for its settings (`Command.begin`), and once these are read it is
assigned what it is to do (`Command.assign`). It then fetches its input (`Command.fetch`), if it
needs any, and proceeds (`Command.proceed`); whatever that comes to is answered (`Command.answer`).
These are the parts that a command consists of (`Command.run_eq`).

What was in a file before is still in it when the command proceeds, but for the log, and unless the
work by which the input is fetched takes it away (`World.Readies`).
-/

set_option autoImplicit false

namespace Remedy

open FileTree

/-! ### Worlds in which nothing is lost -/

/-- The log has been written, and time may have passed. -/
structure World.Onward (w w' : World) : Prop where
  undisturbed : w.Undisturbed w'
  /-- A log without a file is written to none. -/
  silent : w.logFile = none → w'.files = w.files
  bindings : w'.bindings = w.bindings
  interrupt : w.interrupt = none → w'.interrupt = none

/-- What was in a file is still in it, unless the file is the log or one of the given routes. -/
structure World.Retains (own : Route → Prop) (w w' : World) : Prop where
  sound : w'.files.Sound
  bytes : ∀ r content, w.files.bytes? r = some content → ¬ own r → w'.logFile ≠ some r →
    w'.files.bytes? r = some content

/-- Nothing has been lost, nor has any lock been taken, and nobody has called the activity off. -/
structure World.Readies (w w' : World) : Prop where
  retains : w.Retains (fun _ ↦ False) w'
  locks : w'.locks = w.locks
  interrupt : w.interrupt = none → w'.interrupt = none

namespace World

variable {own : Route → Prop} {w w' w'' : World}

theorem Onward.refl (w : World) : Onward w w :=
  ⟨.refl _ w, fun _ ↦ rfl, rfl, id⟩

theorem Onward.trans (h : Onward w w') (h' : Onward w' w'') : Onward w w'' where
  undisturbed := h.undisturbed.trans h'.undisturbed
  silent hlog := (h'.silent (h.undisturbed.log.trans hlog)).trans (h.silent hlog)
  bindings := h'.bindings.trans h.bindings
  interrupt := h'.interrupt ∘ h.interrupt

theorem Retains.changes {only : Route → Prop} (h : w.Retains own w')
    (hchanges : w'.Changes only w'')
    (hsub : ∀ r content, w'.files.bytes? r = some content → only r → own r) :
    w.Retains own w'' := by
  have hbecomes := hchanges.files h.sound
  refine ⟨hbecomes.sound, fun r content hr hown hlog ↦ ?_⟩
  have hlog' : w'.logFile ≠ some r := hchanges.log ▸ hlog
  have hbytes := h.bytes r content hr hown hlog'
  have hsame : w''.files.bytes? r = w'.files.bytes? r :=
    hbecomes.alters.bytes r fun hor ↦ hor.elim (hown ∘ hsub r content hbytes) hlog'
  exact hsame.trans hbytes

theorem Retains.onward (h : w.Retains own w') (honward : w'.Onward w'') : w.Retains own w'' :=
  h.changes honward.undisturbed.changes fun _ _ _ ↦ False.elim

theorem Readies.touches {only : Route → Prop} (h : w.Readies w') (htouches : w'.Touches only w'')
    (hinterrupt : w'.interrupt = none → w''.interrupt = none)
    (hsub : ∀ r content, w'.files.bytes? r = some content → ¬ only r) : w.Readies w'' where
  retains := h.retains.changes htouches.changes fun r content hr ↦ hsub r content hr
  locks := htouches.locks.trans h.locks
  interrupt := hinterrupt ∘ h.interrupt

theorem Readies.onward (h : w.Readies w') (honward : w'.Onward w'') : w.Readies w'' :=
  h.touches honward.undisturbed honward.interrupt fun _ _ _ ↦ id

end World

theorem isPassing_onward : Act.IsPassing World.Onward where
  refl := World.Onward.refl
  trans _ _ _ := .trans
  record event w := by
    have hstill := Act.still_record event w
    unfold Act.record at hstill ⊢
    refine ends_modify.mpr ⟨(ends_modify.mp hstill).undisturbed, fun hlog ↦ ?_, rfl, id⟩
    dsimp only
    split
    · rename_i hroute _
      rw [World.logFile, hroute] at hlog
      cases hlog
    · rfl
  aside w _ _ _ _ hinterrupt := ⟨.of_eq rfl rfl rfl, fun _ ↦ rfl, rfl, hinterrupt⟩

/-- Saying something never fails. -/
theorem Command.ends_say (a : Arguments) (level : LogLevel) (name : String)
    (fields : List (String × Json)) (w : World) :
    Ends (say a level name fields) w (fun _ w' ↦ w.Onward w') fun _ _ ↦ False := by
  have hkeeps : Keeps World.Onward (say a level name fields) :=
    keeps_say isPassing_onward (fun _ _ h ↦ h.undisturbed.log)
      (fun _ _ hfile ↦ ⟨.of_eq rfl hfile rfl, fun _ ↦ rfl, rfl, id⟩) a level name fields
  have hnever : Raises (fun _ ↦ False) (say a level name fields) := raises_say a level name fields
  exact ((hkeeps w).and (hnever w)).mono (fun _ _ h ↦ h.1) fun _ _ h ↦ h.2

namespace Command

/-! ### The parts of a command -/

/-- Resolves the path of the project and looks for the settings. -/
def begin (a : Arguments) : Act (Route × Option Path) := do
  Act.setUpLog (if a.shared.debug then .debug else .info) a.shared.format none
  let project ← fun w ↦ (w.files.resolve a.shared.project, w)
  let config ← configPath a
  say a .info "starting_error_resolver"
    [("command", a.task.name), ("project", Route.text project),
      ("config_path", Json.ofOption (fun p ↦ .str p.text) config)]
  return (project, config)

/-- What is to be done, and with which settings. -/
inductive Assignment where
  | analysis (config : Config) (project : Route) (input : Option String)
  | remedy (pipeline : Pipeline) (o : FixOptions)
  | checks (config : Config) (project : Route) (quick : Bool)
  | undoing (config : Config) (project : Route) (o : UndoOptions)

/-- The settings, the project and the name that the input is fetched with, if any is needed. -/
def Assignment.input? : Assignment → Option (Config × Route × Option String)
  | .analysis config project input => some (config, project, input)
  | .remedy p o => some (p.config, p.project, o.input)
  | .checks .. => none
  | .undoing .. => none

/-- Reads the settings, sets up the log as they say, and looks up the fixers if they are needed. -/
def assign (catalog : Catalog) (a : Arguments) (path : Option Path) (project : Route) :
    Act Assignment := do
  let config ← Config.load path
  Act.setUpLog (if a.shared.debug then .debug else config.logging.level)
    (if a.shared.format = .json then .json else config.logging.format)
    (if config.logging.fileEnabled then some config.logging.filePath else none)
  match a.task with
  | .analyze input => return .analysis config project input
  | .fix o =>
    return .remedy (← Pipeline.ofConfig catalog project (adjusted config o) none o.lockTimeout) o
  | .validate quick => return .checks config project quick
  | .undo o => return .undoing config project o

/-- Gets the diagnostics, if any are needed. -/
def fetch (standardInput : Text.Bytes) (x : Assignment) :
    Act (Assignment × Diagnostic.Source) := do
  match x.input? with
  | some (config, project, input) =>
    return (x, ← readDiagnostics config project standardInput input)
  | none => return (x, .absent)

/-- Carries out what is done in a workshop that is given up afterwards. -/
def inWorkshop {α : Type} (store : Store) (act : PipelineAct α) : Act α := fun w ↦
  ((act ⟨w, store⟩).1, (act ⟨w, store⟩).2.world)

theorem ends_inWorkshop {α : Type} {store : Store} {act : PipelineAct α} {w : World}
    {ok : α → World → Prop} {bad : Fault → World → Prop}
    (h : Ends act ⟨w, store⟩ (fun x t ↦ ok x t.world) fun e t ↦ bad e t.world) :
    Ends (inWorkshop store act) w ok bad := by
  unfold inWorkshop
  unfold Ends at h ⊢
  dsimp only
  rcases hact : act ⟨w, store⟩ with ⟨_ | _, t⟩ <;> rw [hact] at h <;> exact h

/-- Does what is to be done with the diagnostics. -/
def proceed (a : Arguments) : Assignment → Diagnostic.Source → Act Outcome
  | .analysis config _ _, raw => analyzeOnly config raw
  | .remedy p o, raw => do
    let summary ← inWorkshop p.store (p.run raw o.runId)
    let measured ← Act.ofExcept ((← get).meter.report (Double.ofNat 0))
    let metrics := if o.metrics then [("metrics", measured)] else []
    return { code := summary.exitCode, report := some (.obj (summary.json.fields ++ metrics)) }
  | .checks config project quick, _ => runValidation a config project quick
  | .undoing config project o, _ => undo a config project o

/-- Makes an exit code of the faults that there are handlers for. -/
def answer (a : Arguments) : Except Fault Outcome → Act Outcome
  | .ok outcome => return outcome
  | .error fault => do
    if fault.isA .fileNotFound then
      say a .error "file_not_found" [("error", fault.message)]
      return failed
    else if fault.isA .value then
      say a .error "configuration_invalid" [("error", fault.message)]
      return failed
    else if fault.isA .resolver then
      say a .error "command_failed"
        [("command", a.task.name), ("error_type", fault.kind.name), ("error", fault.message)]
      return failed
    else throw fault

variable {catalog : Catalog} {a : Arguments} {standardInput : Text.Bytes}

theorem load_eq (path : Option Path) (project : Route) :
    load catalog a path project standardInput =
      assign catalog a path project >>= fun x ↦ fetch standardInput x >>= fun y ↦
        proceed a y.1 y.2 := by
  unfold load assign perform
  simp only [bind_assoc]
  refine bind_congr fun config ↦ bind_congr fun _ ↦ ?_
  cases a.task with
  | fix o =>
    simp only [fix, Pipeline.ofConfig, bind_assoc, pure_bind, fetch, proceed, Assignment.input?]
    rfl
  | _ => simp only [bind_assoc, pure_bind, fetch, proceed, Assignment.input?]

theorem run_eq : run catalog a standardInput = begin a >>= fun x ↦
    attempt (load catalog a x.2 x.1 standardInput) >>= answer a := by
  unfold run begin
  simp only [bind_assoc, pure_bind]
  rfl

/-! ### Beginning -/

/-- Where the settings may lie: at the path that is given, or in the project if there is none. -/
def IsPlace (a : Arguments) (p : Path) : Prop :=
  a.shared.config = some p ∨ a.shared.config = none ∧ p = a.shared.project.child configName

/-- The log has been set up anew, without a file. -/
structure Opens (w w' : World) : Prop where
  files : w'.files = w.files
  log : w'.logFile = none
  bindings : w'.bindings = w.bindings
  locks : w'.locks = w.locks
  interrupt : w.interrupt = none → w'.interrupt = none

theorem Opens.unread {w w' : World} {path : Option Path} {e : Fault} (h : Opens w w')
    (he : Config.Unread w' path e) : Config.Unread w path e := by
  cases he with
  | file hp hcontent hcause => exact .file hp (h.files ▸ hcontent) hcause
  | document hp hdocument hentries hanswered =>
    exact .document hp (by rwa [Config.Document, h.files, h.bindings] at hdocument) hentries hanswered

theorem ends_configPath (a : Arguments) (w : World) :
    Ends (configPath a) w (fun path w' ↦ w' = w ∧ ∀ p, path = some p → IsPlace a p)
      fun e w' ↦ w' = w ∧ ∃ p, IsPlace a p ∧ Config.Unread w (some p) e := by
  unfold configPath
  cases hconfig : a.shared.config with
  | some p =>
    refine ends_pure.mpr ⟨rfl, fun q hq ↦ .inl ?_⟩
    rw [hconfig, hq]
  | none =>
    have hplace : IsPlace a (a.shared.project.child configName) := .inr ⟨hconfig, rfl⟩
    refine ((Act.ends_holds _ _ w).mono (fun _ _ h ↦ h) ?_).bind ?_
    · rintro e w' ⟨rfl, cause, hcontent, hcause, rfl⟩
      exact ⟨rfl, _, hplace, .file (.inl rfl) hcontent (by rw [hcause]; decide)⟩
    rintro there w' rfl
    refine ends_pure.mpr ⟨rfl, fun q hq ↦ ?_⟩
    split at hq
    · cases hq
      exact hplace
    · cases hq

theorem ends_begin (a : Arguments) (w : World) :
    Ends (begin a) w (fun x w' ↦ Opens w w' ∧ ∀ p, x.2 = some p → IsPlace a p)
      fun e w' ↦ Opens w w' ∧ (w.files.resolve a.shared.project = .error e ∨
        ∃ p, IsPlace a p ∧ Config.Unread w (some p) e) := by
  unfold begin Act.setUpLog
  dsimp only
  refine ends_bind.mpr (ends_bind.mpr (ends_pure.mpr (ends_modify.mpr ?_)))
  generalize hw₀ : { w with journal := { w.journal with sink := _ } } = w₀
  have hopens : Opens w w₀ := by
    subst hw₀
    exact ⟨rfl, rfl, rfl, rfl, id⟩
  refine (ends_ask.mono (fun _ _ h ↦ h) ?_).bind ?_
  · rintro e w' ⟨rfl, he⟩
    exact ⟨hopens, .inl (hopens.files ▸ he)⟩
  rintro project w' ⟨rfl, -⟩
  refine ((ends_configPath a w').mono (fun _ _ h ↦ h) ?_).bind ?_
  · rintro e w' ⟨rfl, p, hp, he⟩
    exact ⟨hopens, .inr ⟨p, hp, hopens.unread he⟩⟩
  rintro path w' ⟨rfl, hpath⟩
  refine ((ends_say a _ _ _ w').mono (fun _ _ h ↦ h) fun _ _ ↦ False.elim).bind fun _ w₁ h ↦ ?_
  refine ends_pure.mpr ⟨⟨(h.silent hopens.log).trans hopens.files, ?_, ?_, ?_, ?_⟩, hpath⟩
  · exact h.undisturbed.log.trans hopens.log
  · exact h.bindings.trans hopens.bindings
  · exact h.undisturbed.locks.trans hopens.locks
  · exact h.interrupt ∘ hopens.interrupt

/-! ### Settings and fixers -/

theorem readies_of_adds {w w' : World} (h : Adds w.files w'.files) (hlocks : w'.locks = w.locks)
    (hinterrupt : w'.interrupt = w.interrupt) : w.Readies w' where
  retains := ⟨h.settled.sound, fun r content hr _ _ ↦ h.bytes r content hr⟩
  locks := hlocks
  interrupt hw := hinterrupt.trans hw

/-- Setting up the log loses nothing, whether or not it gets a file. -/
theorem ends_setUpLog {level : LogLevel} {format : LogFormat} {file : Option Path} {w : World}
    (hw : w.files.Settled) :
    Ends (Act.setUpLog level format file) w (fun _ w' ↦ w.Readies w')
      fun e w' ↦ w.Readies w' ∧ e.Answered := by
  have hanswered : (Fault.invalid .nul).Answered := .inr (.inl rfl)
  unfold Act.setUpLog
  cases file with
  | none => exact ends_bind.mpr (ends_pure.mpr (ends_modify.mpr (readies_of_adds (.refl hw) rfl rfl)))
  | some p =>
    refine ends_bind.mpr ?_
    unfold Act.openLog
    refine Ends.guard (fun _ ↦ ⟨readies_of_adds (.refl hw) rfl rfl, hanswered⟩) fun _ ↦ ?_
    refine ends_bind.mpr (Act.ends_tryFiles.mpr ?_)
    refine ((FileAct.ends_makePath_adds true hw).mono (fun _ _ h ↦ h) ?_).bind ?_
    · exact fun e t h ↦ ends_pure.mpr (ends_modify.mpr (readies_of_adds h rfl rfl))
    intro _ t h
    refine (FileAct.ends_openEnd_adds h.settled).mono (fun route t' h' ↦ ?_) ?_
    · exact ends_pure.mpr (ends_modify.mpr (readies_of_adds (h.trans h') rfl rfl))
    · rintro e _ rfl
      exact ends_pure.mpr (ends_modify.mpr (readies_of_adds h rfl rfl))

section Fixers

variable {R : World → World → Prop} (hR : Act.IsPassing R)

include hR

theorem keeps_loadAll (references : List (String × String)) (r : Registry) :
    Keeps R (Registry.loadAll catalog r references) := by
  have hregister : ∀ (r : Registry) (name : String) (fixer : Option Fixer),
      Keeps R (r.register name fixer) := by
    intro r name fixer
    unfold Registry.register
    split
    · exact hR.keeps_throw _
    · exact hR.keeps_bind (hR.keeps_log _ _ _) fun _ ↦ hR.keeps_pure _
  induction references generalizing r with
  | nil => exact hR.keeps_pure _
  | cons reference rest ih =>
    obtain ⟨name, reference⟩ := reference
    unfold Registry.loadAll
    split
    · exact hR.keeps_throw _
    · refine hR.keeps_bind (hregister _ _ _).attempt fun outcome ↦ ?_
      cases outcome with
      | ok r => exact ih r
      | error fault => exact hR.keeps_throw _

/-- Describing the pipeline does nothing but log. -/
theorem keeps_ofConfig (project : Route) (config : Config) (timeout : Number) :
    Keeps R (Pipeline.ofConfig catalog project config none timeout) := by
  unfold Pipeline.ofConfig Registry.ofReferences checksOf
  dsimp only
  refine hR.keeps_bind ?_ fun _ ↦ hR.keeps_bind ?_ fun _ ↦ hR.keeps_pure _
  · refine hR.keeps_bind (keeps_loadAll hR _ _) fun _ ↦ ?_
    exact hR.keeps_bind (hR.keeps_log _ _ _) fun _ ↦ hR.keeps_pure _
  · exact hR.keeps_bind (hR.keeps_log _ _ _) fun _ ↦ hR.keeps_pure _

end Fixers

theorem answered_of_ofConfig (project : Route) {config : Config} (hconfig : config.Validates)
    (o : FixOptions) (timeout : Number) :
    Raises Fault.Answered
      (Pipeline.ofConfig catalog project (adjusted config o) none timeout) := by
  have hreferences : ∀ f ∈ (adjusted config o).fixers, isReference f.2 = true := by
    obtain ⟨s, hs⟩ := hconfig.exists_good
    exact fun f hf ↦ Config.references_of_reader hs f hf
  unfold Pipeline.ofConfig
  dsimp only
  refine (Registry.answered_of_ofReferences catalog hreferences).bind fun _ ↦ ?_
  exact (raises_checksOf _ _).bind fun _ ↦ raises_pure _

/-- With the settings of an analysis, phases can be planned for whatever it finds, and diagnostics are
collected anew by the program of the settings. -/
def Assignment.Sound : Assignment → Prop
  | .analysis config _ _ => config.planner.Sound
  | .remedy p _ => p.source = some (p.config.diagnostics.collect p.project)
  | _ => True

theorem ends_assign (path : Option Path) (project : Route) {w : World} (hw : w.files.Settled) :
    Ends (assign catalog a path project) w (fun x w' ↦ w.Readies w' ∧ x.Sound)
      fun e w' ↦ w.Readies w' ∧ Config.Fails w path e := by
  have hrefl : w.Readies w := readies_of_adds (.refl hw) rfl rfl
  unfold assign
  refine ((Config.ends_load path w).mono (fun _ _ h ↦ h) ?_).bind ?_
  · rintro e w' ⟨rfl, he⟩
    exact ⟨hrefl, he⟩
  rintro config w' ⟨rfl, hconfig⟩
  refine ((ends_setUpLog hw).mono (fun _ _ h ↦ h) fun _ _ h ↦ ⟨h.1, .inl h.2⟩).bind ?_
  intro _ w₁ h₁
  cases a.task with
  | analyze input =>
    obtain ⟨s, hs⟩ := hconfig.exists_good
    exact ends_pure.mpr ⟨h₁, Config.sound_of_reader hs⟩
  | fix o =>
    have hsource : Ends (Pipeline.ofConfig catalog project (adjusted config o) none o.lockTimeout)
        w₁ (fun p _ ↦ p.source = some (p.config.diagnostics.collect p.project)) fun _ _ ↦ True := by
      unfold Pipeline.ofConfig
      exact Ends.bind_any fun _ _ ↦ Ends.bind_any fun _ _ ↦ ends_pure.mpr rfl
    refine Ends.bind (Q := fun p w₂ ↦ w'.Readies w₂ ∧ (Assignment.remedy p o).Sound) ?_
      fun _ _ h₂ ↦ ends_pure.mpr h₂
    refine (((keeps_ofConfig isPassing_onward project _ _ w₁).and
      (answered_of_ofConfig project hconfig o o.lockTimeout w₁)).and hsource).mono ?_ ?_
    · exact fun _ _ h₂ ↦ ⟨h₁.onward h₂.1.1, h₂.2⟩
    · exact fun _ _ h₂ ↦ ⟨h₁.onward h₂.1.1, .inl h₂.1.2⟩
  | validate quick => exact ends_pure.mpr ⟨h₁, trivial⟩
  | undo o => exact ends_pure.mpr ⟨h₁, trivial⟩

/-! ### The input -/

/-- If the input comes from a program, then that changes no file that is there but the log. -/
def Assignment.Harmless (x : Assignment) (w : World) : Prop :=
  ∀ config project input, x.input? = some (config, project, input) → input.getD "" = "" →
    w.Touches (fun r ↦ w.files.bytes? r = none)
      { w with toSite := (config.diagnostics.collect project w.toSite).2 }

/-- The ways in which fetching the input fails that nobody answers. -/
inductive Assignment.Unfetched (x : Assignment) (w : World) : Fault → Prop
  | file {config : Config} {project : Route} {name : String} {cause : FileError}
      (hinput : x.input? = some (config, project, some name)) (hname : name ≠ "-")
      (h : w.files.content (Path.ofString name) = .error cause) (hcause : cause.errno ≠ .notFound) :
      Unfetched x w (.file cause)
  | program {config : Config} {project : Route} {input : Option String} {e : Fault}
      (hinput : x.input? = some (config, project, input)) (hname : input.getD "" = "")
      (h : (config.diagnostics.collect project w.toSite).1.outcome = .error e)
      (he : ¬ e.Answered) : Unfetched x w e

/-- How fetching the input fails. -/
def Assignment.Fails (x : Assignment) (w : World) (e : Fault) : Prop :=
  e.Answered ∨ x.Unfetched w e ∨ w.interrupt ≠ none ∧ e = .cancelled ""

theorem Assignment.Unfetched.not_answered {x : Assignment} {w : World} {e : Fault}
    (h : x.Unfetched w e) : ¬ e.Answered := by
  cases h with
  | file _ _ _ hcause => exact Fault.Unanswered.not_answered hcause
  | program _ _ _ he => exact he

theorem Assignment.Unfetched.foreseen {x : Assignment} {w : World} {e : Fault}
    (h : x.Unfetched w e) : e.Foreseen := by
  cases h with
  | file => exact Fault.foreseen_file _
  | program _ _ h => exact DiagnosticsConfig.foreseen_of_collect h

theorem ends_collect {x : Assignment} {w₀ w : World} (h : w₀.Readies w) {config : Config}
    {project : Route} {input : Option String} (hinput : x.input? = some (config, project, input))
    (hname : input.getD "" = "") :
    Ends (Act.finish (config.diagnostics.collect project)) w
      (fun _ w' ↦ x.Harmless w → w₀.Readies w')
      fun e w' ↦ (x.Harmless w → w₀.Readies w') ∧ x.Fails w e := by
  have hreadies : ∀ w', World.Onward
      { w with toSite := (config.diagnostics.collect project w.toSite).2 } w' →
      x.Harmless w → w₀.Readies w' := by
    intro w' honward hharmless
    refine (h.touches (hharmless config project input hinput hname) id ?_).onward honward
    intro r content hr hnone
    rw [hr] at hnone
    cases hnone
  refine ((isPassing_onward.ends_finish _ w).and (Act.ends_finish_outcome _ w)).mono
    (fun _ w' h ↦ hreadies w' h.1) ?_
  rintro e w' ⟨honward, he | ⟨hcalled, rfl⟩⟩
  · refine ⟨hreadies w' honward, ?_⟩
    by_cases hanswered : e.Answered
    · exact .inl hanswered
    · exact .inr (.inl (.program hinput hname he hanswered))
  · exact ⟨hreadies w' honward, .inr (.inr ⟨hcalled, rfl⟩)⟩

theorem ends_fetch (x : Assignment) {w₀ w : World} (h : w₀.Readies w) :
    Ends (fetch standardInput x) w
      (fun y w' ↦ y.1 = x ∧ (x.Harmless w → w₀.Readies w'))
      fun e w' ↦ (x.Harmless w → w₀.Readies w') ∧ x.Fails w e := by
  unfold fetch
  cases hinput : x.input? with
  | none => exact ends_pure.mpr ⟨rfl, fun _ ↦ h⟩
  | some needed =>
    obtain ⟨config, project, input⟩ := needed
    refine Ends.bind (Q := fun _ w' ↦ x.Harmless w → w₀.Readies w') ?_
      fun _ _ h' ↦ ends_pure.mpr ⟨rfl, h'⟩
    unfold readDiagnostics
    split
    · exact ends_collect h hinput rfl
    · exact ends_collect h hinput rfl
    · exact ends_pure.mpr fun _ ↦ h
    · rename_i name _ hname
      refine Ends.guard (fun _ ↦ ⟨fun _ ↦ h, .inl (.inr (.inl rfl))⟩) fun _ ↦ ?_
      refine ((Act.ends_content _ w).mono (fun _ _ h ↦ h) ?_).bind ?_
      · rintro e w' ⟨rfl, cause, hcontent, rfl⟩
        refine ⟨fun _ ↦ h, ?_⟩
        by_cases hcause : cause.errno = .notFound
        · exact .inl (Config.answered_of_notFound hcause)
        · exact .inr (.inl (.file hinput hname hcontent hcause))
      · rintro content w' ⟨rfl, -⟩
        exact ends_pure.mpr fun _ ↦ h

end Command

end Remedy
