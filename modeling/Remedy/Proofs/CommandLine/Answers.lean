import Remedy.Proofs.CommandLine.Stages

/-!
# What the command line answers

A command ends with a code unless what goes wrong is of a kind that nothing answers
(`Command.run`): links lead the path of the project in a circle, a file that is there cannot be
read, the document of the settings cannot, the program that collects diagnostics cannot be started,
or the work itself meets such a fault (`Command.Escapes`). When the settings or the input are of no
use (`Command.Unusable`), the code is one and there is no report; and whether or not that is
answered, what was in a file is still in it, but for the log and the lock of a run. Programs that
collect diagnostics are taken to change no file that is there (`Command.Harmless`).

The stages of a command follow one another, and each is settled by what the lemmas on it say. What is
added here is that a run over input that is refused gives its lock up without having done anything.
-/

set_option autoImplicit false

namespace Remedy

open FileTree

/-! ### Input that is refused -/

namespace RunLock

variable {w : World}

theorem keeps_pollUntil (l : RunLock) (route : Route) (deadline : Moment) (polls : ℕ) :
    Keeps (World.Changes (· = route)) (l.pollUntil route deadline polls) := by
  have hquiet : ∀ {w w' : World}, w.Still w' → w.Changes (· = route) w' := fun h ↦
    (h.undisturbed.mono fun _ ↦ False.elim).changes
  intro w
  refine ends_pollUntil_of (P := (w.Changes (· = route) ·)) (fun w₁ hw₁ ↦ ?_) (fun w₁ hw₁ ↦ ?_)
    (fun w₁ hw₁ ↦ ?_) deadline polls (.refl _ w)
  · refine (ends_poll l route w₁).mono (fun taken w₂ h ↦ ?_) fun _ _ ↦ False.elim
    cases taken with
    | true => exact hw₁.trans h.2
    | false =>
      obtain rfl : w₂ = w₁ := h
      exact hw₁
  · exact (ends_refuse_denied Act.isFrame_still.toIsPassing l route w₁).mono
      (fun _ _ ↦ False.elim) fun _ _ h ↦ hw₁.trans (hquiet h.rel)
  · exact (Act.still_pause _ w₁).mono (fun _ _ h ↦ hw₁.trans (hquiet h))
      fun _ _ h ↦ hw₁.trans (hquiet h)

/-- However it ends, asking for a lock touches the file of the lock and the log at most. -/
theorem ends_acquire_changes (l : RunLock) (timeout : Option Number) (hw : w.files.Sound)
    (hpath : l.path.isAbsolute = true) (hfree : heldFile l.owner w.locks = none) :
    Ends (l.acquire timeout) w
      (fun _ w' ↦ ∃ r, w.files.traced l.path = .done r ∧ heldFile l.owner w'.locks = some r ∧
        w.Changes (· = r) w')
      fun _ w' ↦ w.Changes (fun r ↦ w.files.traced l.path = .done r) w' := by
  have hchanges : Ends (l.acquire timeout) w (fun _ _ ↦ True)
      fun _ w' ↦ w.Changes (fun r ↦ w.files.traced l.path = .done r) w' := by
    refine ends_acquire_of_opens hw hpath (by simp [isHeld, hfree]) ?_ ?_
    · intro e t _ hgrows
      exact ⟨rfl, rfl, fun _ ↦ hgrows.mono fun _ ↦ False.elim⟩
    · intro route t₁ t₂ hopens deadline polls
      have hopened : w.Changes (· = route) { w with files := t₂ } :=
        ⟨rfl, rfl, fun _ ↦ hopens.becomes.mono fun _ ↦ .inl⟩
      refine (keeps_pollUntil l route deadline polls _).mono (fun _ w₁ _ ↦ ?_) fun _ w₁ h ↦ ?_
      · exact Act.ends_log fun _ _ ↦ trivial
      · exact (hopened.trans h).mono fun r hr ↦ by rw [hr]; exact hopens.traced
  exact ((ends_acquire l timeout hw hpath hfree).and hchanges).mono (fun _ _ h ↦ h.1)
    fun _ _ h ↦ h.2

end RunLock

theorem ends_analyze_of_garbled {raw : Diagnostic.Source} (hraw : raw.Garbled) (extra : ExtraCodes)
    (w : World) :
    Ends (analyze extra raw) w (fun _ _ ↦ False)
      fun e w' ↦ (∃ cause, e = .invalid cause) ∧ w.Still w' :=
  ((hraw.ends_analyze extra w).and (still_analyze extra raw w)).mono (fun _ _ h ↦ h.1)
    fun _ _ h ↦ h

theorem Pipeline.fails_of_garbled (p : Pipeline) {raw : Diagnostic.Source} (hraw : raw.Garbled)
    (given : Option String) (s : Workshop) :
    Ends (p.run raw given) s (fun _ _ ↦ False) fun _ _ ↦ True := by
  refine ends_run_of_enter (ends_of_forall (fun runId w ↦ Ends.andThenAlways ?_) fun _ _ ↦ trivial)
  unfold runLocked prepare
  refine ends_bind.mpr (ends_lift.mpr (ends_bind.mpr ?_))
  refine (ends_analyze_of_garbled hraw _ w).mono (fun _ _ ↦ False.elim) fun _ _ _ ↦ ?_
  exact ends_of_forall (fun _ _ ↦ trivial) fun _ _ ↦ trivial

/-- A run over input of which a line is refused has touched the file of the lock and the log at
most. -/
theorem Pipeline.ends_run_of_garbled (p : Pipeline) {raw : Diagnostic.Source} (hraw : raw.Garbled)
    (given : Option String) {s : Workshop} (hs : s.world.files.Sound)
    (hown : RunLock.heldFile 0 s.world.locks = none) :
    Ends (p.run raw given) s (fun _ _ ↦ False)
      fun _ t ↦ s.world.Changes (fun r ↦ s.world.files.traced p.lockPath = .done r) t.world := by
  refine ends_run_of_enter ?_
  unfold enter
  refine ends_bind.mpr ((ends_runName given s.world).mono ?_ fun _ _ ↦ False.elim)
  rintro runId _ ⟨draws, rfl⟩
  refine ends_bind.mpr ((RunLock.ends_acquire_changes (w := { s.world with draws := draws })
    (p.lock runId) none hs (p.isAbsolute_lock runId) hown).mono ?_ fun _ _ h ↦ ⟨h.log, rfl, h.files⟩)
  rintro _ w₁ ⟨r, htraced, hheld, hchanges⟩
  have hlock : ∀ q, q = r → s.world.files.traced p.lockPath = .done q := fun _ hq ↦ hq ▸ htraced
  have hentered : s.world.Changes (· = r) w₁ := ⟨hchanges.log, rfl, hchanges.files⟩
  refine ends_pure.mpr (Ends.andThenAlways ?_)
  have hfails : Ends (p.prepare raw) w₁ (fun _ _ ↦ False) fun _ w₂ ↦ w₁.Still w₂ := by
    unfold prepare
    exact ends_bind.mpr ((ends_analyze_of_garbled hraw _ w₁).mono (fun _ _ ↦ False.elim)
      fun _ _ h ↦ h.2)
  unfold runLocked
  refine ends_bind.mpr (ends_lift.mpr (hfails.mono (fun _ _ ↦ False.elim) fun e w₂ hstill ↦ ?_))
  rw [← hstill.undisturbed.locks] at hheld
  refine ends_lift.mpr ((RunLock.ends_release (p.lock runId) hheld).mono ?_ fun _ _ ↦ False.elim)
  rintro _ w₃ ⟨-, hreleased⟩
  have hread : w₁.Changes (· = r) w₂ := (hstill.undisturbed.mono fun _ ↦ False.elim).changes
  exact ((hentered.trans hread).trans hreleased).mono hlock

namespace Command

variable {catalog : Catalog} {a : Arguments} {standardInput : Text.Bytes} {w : World}

/-! ### Proceeding -/

/-- The file of the lock that is taken. -/
def Assignment.LocksAt (x : Assignment) (w : World) (r : Route) : Prop :=
  ∃ p o, x = .remedy p o ∧ w.files.traced p.lockPath = .done r

/-- An analysis fails only if its input is refused, or has more lines than can be counted. -/
theorem ends_analyzeOnly {config : Config} (hplanner : config.planner.Sound)
    (raw : Diagnostic.Source) (w : World) :
    Ends (analyzeOnly config raw) w (fun _ _ ↦ ¬ raw.Garbled)
      fun e _ ↦ raw.Garbled ∧ e.Answered ∨ 2 ^ 53 ≤ raw.lines.length := by
  unfold analyzeOnly
  by_cases hraw : raw.Garbled
  · refine ends_bind.mpr ((ends_analyze_of_garbled hraw _ w).mono (fun _ _ ↦ False.elim) ?_)
    rintro _ _ ⟨⟨cause, rfl⟩, -⟩
    exact .inl ⟨hraw, .inr (.inl rfl)⟩
  by_cases hcount : 2 ^ 53 ≤ raw.lines.length
  · exact ends_of_forall (fun _ _ ↦ hraw) fun _ _ ↦ .inr hcount
  have hread : Ends (analyze (ExtraCodes.ofPairs config.codes) raw) w (fun _ _ ↦ True)
      fun _ _ ↦ False := by
    unfold analyze
    refine (Diagnostic.ends_read_of_ofLine (Diagnostic.Source.ofLine_eq_of_not_garbled hraw)
      (fun n hn ↦ Diagnostic.countable_of_lt (by omega)) w).bind fun _ _ _ ↦ ?_
    exact ends_bind.mpr (Act.ends_log fun _ _ ↦ ends_pure.mpr trivial)
  refine (hread.mono (fun _ _ h ↦ h) fun _ _ ↦ False.elim).bind fun found w₁ _ ↦ ?_
  obtain ⟨phases, hphases, -⟩ := exists_plan hplanner found
  have hplanned : plan config.planner found w₁ = (.ok phases, (plan config.planner found w₁).2) :=
    Prod.ext (hphases w₁) rfl
  exact ends_bind.mpr ((ends_of_eq hplanned).mpr (ends_pure.mpr hraw))

theorem fails_proceed_of_garbled {x : Assignment} (hinput : x.input?.isSome = true)
    {raw : Diagnostic.Source} (hraw : raw.Garbled) (w : World) :
    Ends (proceed a x raw) w (fun _ _ ↦ False) fun _ _ ↦ True := by
  cases x with
  | analysis config project input =>
    refine ends_bind.mpr ((ends_analyze_of_garbled hraw _ w).mono (fun _ _ ↦ False.elim) ?_)
    exact fun _ _ _ ↦ trivial
  | remedy p o =>
    have hrun := p.fails_of_garbled hraw o.runId ⟨w, p.store⟩
    exact ends_bind.mpr (ends_inWorkshop (hrun.mono (fun _ _ ↦ False.elim) fun _ _ h ↦ h))
  | checks => cases hinput
  | undoing => cases hinput

/-- Input of which a line is refused costs a run nothing but what is in the file of its lock. -/
theorem ends_proceed_of_garbled {x : Assignment} (hinput : x.input?.isSome = true)
    {raw : Diagnostic.Source} (hraw : raw.Garbled) {w : World} (hw : w.files.Sound)
    (hown : RunLock.heldFile 0 w.locks = none) :
    Ends (proceed a x raw) w (fun _ _ ↦ False) fun _ w' ↦ w.Changes (x.LocksAt w) w' := by
  cases x with
  | analysis config project input =>
    refine ends_bind.mpr ((ends_analyze_of_garbled hraw _ w).mono (fun _ _ ↦ False.elim) ?_)
    exact fun _ _ h ↦ (h.2.undisturbed.mono fun _ ↦ False.elim).changes
  | remedy p o =>
    have hrun := p.ends_run_of_garbled hraw o.runId (s := ⟨w, p.store⟩) hw hown
    refine ends_bind.mpr (ends_inWorkshop (hrun.mono (fun _ _ ↦ False.elim) fun _ _ h ↦ ?_))
    exact h.mono fun r hr ↦ ⟨p, o, rfl, hr⟩
  | checks => cases hinput
  | undoing => cases hinput

theorem foreseen_of_proceed {x : Assignment} (hx : x.Sound) (raw : Diagnostic.Source) :
    Raises Fault.Foreseen (proceed a x raw) := by
  cases x with
  | analysis config project input =>
    exact (raises_analyzeOnly config raw).mono fun _ ↦ Fault.Ordinary.foreseen
  | remedy p o =>
    unfold proceed
    refine Raises.bind (fun w ↦ ends_inWorkshop ?_) fun summary ↦ raises_get.bind fun w ↦ ?_
    · refine p.raises_run raw o.runId (fun source hsource site e he ↦ ?_) ⟨w, p.store⟩
      rw [show p.source = _ from hx] at hsource
      cases hsource
      exact DiagnosticsConfig.foreseen_of_collect he
    · refine (Act.raises_ofExcept_of fun e he ↦ (Meter.ordinary_of_report he).foreseen).bind ?_
      exact fun _ ↦ raises_pure _
  | checks config project quick => exact raises_runValidation a config project quick
  | undoing config project o => exact raises_undo a config project o

/-- A fault that is answered makes the code one, and any other is passed on as it is. -/
theorem ends_answer (a : Arguments) (outcome : Except Fault Outcome) (w : World) :
    Ends (answer a outcome) w
      (fun o w' ↦ w.Onward w' ∧ (outcome = .ok o ∨ o = failed ∧ ∃ e, outcome = .error e))
      fun e w' ↦ w' = w ∧ outcome = .error e ∧ ¬ e.Answered := by
  cases outcome with
  | ok o => exact ends_pure.mpr ⟨.refl w, .inl rfl⟩
  | error e =>
    have hsaid : ∀ {level : LogLevel} {name : String} {fields : List (String × Json)},
        Ends (say a level name fields >>= fun _ ↦ pure failed) w
          (fun o w' ↦ w.Onward w' ∧
            ((.error e : Except Fault Outcome) = .ok o ∨
              o = failed ∧ ∃ e', (.error e : Except Fault Outcome) = .error e'))
          fun e' w' ↦ w' = w ∧ (.error e : Except Fault Outcome) = .error e' ∧ ¬ e'.Answered := by
      intro level name fields
      refine ((ends_say a level name fields w).mono (fun _ _ h ↦ h) fun _ _ ↦ False.elim).bind ?_
      exact fun _ _ h ↦ ends_pure.mpr ⟨h, .inr ⟨rfl, e, rfl⟩⟩
    unfold answer
    dsimp only
    split
    · exact hsaid
    split
    · exact hsaid
    split
    · exact hsaid
    · rename_i hfile hvalue hresolver
      refine ends_throw.mpr ⟨rfl, rfl, ?_⟩
      rintro (h | h | h)
      · exact hfile h
      · exact hvalue h
      · exact hresolver h

/-! ### Commands -/

/-- What is to be done has been found out. -/
def Assigns (catalog : Catalog) (a : Arguments) (w : World) (x : Assignment) (w' : World) : Prop :=
  ∃ project path w₁, begin a w = (.ok (project, path), w₁) ∧
    assign catalog a path project w₁ = (.ok x, w')

/-- The program that collects diagnostics, if it comes to that, changes no file that is there. -/
def Harmless (catalog : Catalog) (a : Arguments) (w : World) : Prop :=
  ∀ x w', Assigns catalog a w x w' → x.Harmless w'

/-- The settings or the input are of no use; what may be lost then is what is in the given files. -/
inductive Unusable (catalog : Catalog) (a : Arguments) (standardInput : Text.Bytes) (w : World) :
    (Route → Prop) → Prop
  | place {e : Fault} {w₁ : World} (h : begin a w = (.error e, w₁)) :
      Unusable catalog a standardInput w fun _ ↦ False
  | settings {project : Route} {path : Option Path} {e : Fault} {w₁ w₂ : World}
      (hbegin : begin a w = (.ok (project, path), w₁))
      (h : assign catalog a path project w₁ = (.error e, w₂)) :
      Unusable catalog a standardInput w fun _ ↦ False
  | missing {x : Assignment} {e : Fault} {w₁ w₂ : World} (hx : Assigns catalog a w x w₁)
      (h : fetch standardInput x w₁ = (.error e, w₂)) :
      Unusable catalog a standardInput w fun _ ↦ False
  | refused {x : Assignment} {raw : Diagnostic.Source} {w₁ w₂ : World}
      (hx : Assigns catalog a w x w₁) (h : fetch standardInput x w₁ = (.ok (x, raw), w₂))
      (hinput : x.input?.isSome = true) (hraw : raw.Garbled) :
      Unusable catalog a standardInput w (x.LocksAt w₂)

/-- The faults that no handler takes, each with the stage of the command that it comes from. -/
inductive Escapes (catalog : Catalog) (a : Arguments) (standardInput : Text.Bytes) (w : World) :
    Fault → Prop
  | project {e : Fault} (h : w.files.resolve a.shared.project = .error e) :
      Escapes catalog a standardInput w e
  | settings {path : Option Path} {e : Fault} (hpath : ∀ p, path = some p → IsPlace a p)
      (h : Config.Unread w path e) : Escapes catalog a standardInput w e
  | input {x : Assignment} {e : Fault} {w₁ : World} (hx : Assigns catalog a w x w₁)
      (h : x.Unfetched w₁ e) : Escapes catalog a standardInput w e
  | calledOff (h : w.interrupt ≠ none) : Escapes catalog a standardInput w (.cancelled "")
  | work {x : Assignment} {raw : Diagnostic.Source} {e : Fault} {w₁ w₂ w₃ : World}
      (hx : Assigns catalog a w x w₁) (hfetch : fetch standardInput x w₁ = (.ok (x, raw), w₂))
      (h : proceed a x raw w₂ = (.error e, w₃)) (he : ¬ e.Answered) (hforeseen : e.Foreseen)
      (hcount : ∀ config project input, x = .analysis config project input →
        2 ^ 53 ≤ raw.lines.length) : Escapes catalog a standardInput w e

theorem Opens.retains_of_readies {own : Route → Prop} {w' w'' : World} (h : Opens w w')
    (h' : w'.Readies w'') : w.Retains own w'' :=
  ⟨h'.retains.sound, fun r content hr _ ↦ h'.retains.bytes r content (h.files.symm ▸ hr) id⟩

theorem Assigns.unique {x x' : Assignment} {w₁ w₂ : World} (h : Assigns catalog a w x w₁)
    (h' : Assigns catalog a w x' w₂) : x = x' ∧ w₁ = w₂ := by
  obtain ⟨_, _, _, hbegin, hassign⟩ := h
  obtain ⟨_, _, _, hbegin', hassign'⟩ := h'
  rw [hbegin] at hbegin'
  cases hbegin'
  rw [hassign] at hassign'
  cases hassign'
  exact ⟨rfl, rfl⟩

/-- Whatever fails before the work begins is of no use. -/
theorem unusable_of_fails {e : Fault} {w' : World}
    (h : (begin a >>= fun x ↦ assign catalog a x.2 x.1 >>= fetch standardInput) w =
      (.error e, w')) : Unusable catalog a standardInput w fun _ ↦ False := by
  rcases hbegin : begin a w with ⟨_ | ⟨project, path⟩, w₁⟩
  · exact .place hbegin
  rcases hassign : assign catalog a path project w₁ with ⟨_ | x, w₂⟩
  · exact .settings hbegin hassign
  rw [bind_apply, hbegin] at h
  dsimp only at h
  rw [bind_apply, hassign] at h
  exact .missing ⟨_, _, _, hbegin, hassign⟩ h

/-- Once the input has been fetched, only lines that are refused can be of no use. -/
theorem Unusable.refuses {x : Assignment} {raw : Diagnostic.Source} {own : Route → Prop}
    {w₁ w₂ : World} (h : Unusable catalog a standardInput w own) (hx : Assigns catalog a w x w₁)
    (hfetch : fetch standardInput x w₁ = (.ok (x, raw), w₂)) :
    x.input?.isSome = true ∧ raw.Garbled ∧ own = x.LocksAt w₂ := by
  cases h with
  | place h =>
    obtain ⟨_, _, _, hbegin, -⟩ := hx
    rw [hbegin] at h
    cases h
  | settings hbegin' h =>
    obtain ⟨_, _, _, hbegin, hassign⟩ := hx
    rw [hbegin] at hbegin'
    cases hbegin'
    rw [hassign] at h
    cases h
  | missing hx' h =>
    obtain ⟨rfl, rfl⟩ := hx.unique hx'
    rw [hfetch] at h
    cases h
  | refused hx' h hinput hraw =>
    obtain ⟨rfl, rfl⟩ := hx.unique hx'
    rw [hfetch] at h
    cases h
    exact ⟨hinput, hraw, rfl⟩

/-- What comes after the beginning is answered or escapes, and is cut short by anything unusable. -/
theorem ends_load {project : Route} {path : Option Path} {w₁ : World} (hw : w.files.Settled)
    (hown : RunLock.heldFile 0 w.locks = none) (hbegin : begin a w = (.ok (project, path), w₁)) :
    Ends (load catalog a path project standardInput) w₁
      (fun _ _ ↦ ∀ own, ¬ Unusable catalog a standardInput w own)
      fun e w' ↦ (e.Answered ∨ Escapes catalog a standardInput w e) ∧
        ∀ own, Unusable catalog a standardInput w own → Harmless catalog a w → w.Retains own w' := by
  obtain ⟨hopens, hpath⟩ := (ends_of_eq hbegin).mp (ends_begin a w)
  have hsettled : w₁.files.Settled := hopens.files.symm ▸ hw
  have hassigned : Ends (assign catalog a path project) w₁ _ _ := ends_assign path project hsettled
  rw [load_eq]
  rcases hassign : assign catalog a path project w₁ with ⟨e | x, w₂⟩
  · obtain ⟨hready, hfails⟩ := (ends_of_error hassign).mp hassigned
    refine ends_bind.mpr ((ends_of_error hassign).mpr
      ⟨?_, fun _ _ _ ↦ hopens.retains_of_readies hready⟩)
    exact hfails.imp_right fun h ↦ .settings hpath (hopens.unread h)
  have hx : Assigns catalog a w x w₂ := ⟨_, _, _, hbegin, hassign⟩
  obtain ⟨hready, hsound⟩ := (ends_of_eq hassign).mp hassigned
  refine ends_bind.mpr ((ends_of_eq hassign).mpr ?_)
  have hfetched : Ends (fetch standardInput x) w₂ _ _ := ends_fetch x hready
  rcases hfetch : fetch standardInput x w₂ with ⟨e | ⟨y, raw⟩, w₃⟩
  · obtain ⟨hready', hfails⟩ := (ends_of_error hfetch).mp hfetched
    refine ends_bind.mpr ((ends_of_error hfetch).mpr
      ⟨?_, fun _ _ hharmless ↦ hopens.retains_of_readies (hready' (hharmless x w₂ hx))⟩)
    rcases hfails with h | h | ⟨h, rfl⟩
    · exact .inl h
    · exact .inr (.input hx h)
    · exact .inr (.calledOff fun hnone ↦ h (hready.interrupt (hopens.interrupt hnone)))
  obtain ⟨hy, hready'⟩ := (ends_of_eq hfetch).mp hfetched
  obtain rfl : y = x := hy
  refine ends_bind.mpr ((ends_of_eq hfetch).mpr ?_)
  dsimp only
  rcases hproceed : proceed a y raw w₃ with ⟨e | o, w₄⟩
  · refine (ends_of_error hproceed).mpr ⟨?_, fun own hunusable hharmless ↦ ?_⟩
    · by_cases he : e.Answered
      · exact .inl he
      refine .inr (.work hx hfetch hproceed he
        ((ends_of_error hproceed).mp (foreseen_of_proceed hsound raw w₃)) ?_)
      rintro config project input rfl
      rcases (ends_of_error hproceed).mp (ends_analyzeOnly hsound raw w₃) with h | h
      · exact absurd h.2 he
      · exact h
    · obtain ⟨hinput, hraw, rfl⟩ := hunusable.refuses hx hfetch
      have hready := hready' (hharmless y w₂ hx)
      have hchanges := (ends_of_error hproceed).mp (ends_proceed_of_garbled (a := a) hinput hraw
        hready.retains.sound ((hready.locks.trans hopens.locks).symm ▸ hown))
      exact (hopens.retains_of_readies hready).changes hchanges fun _ _ _ ↦ id
  · refine (ends_of_eq hproceed).mpr fun own hunusable ↦ ?_
    obtain ⟨hinput, hraw, -⟩ := hunusable.refuses hx hfetch
    exact (ends_of_eq hproceed).mp (fails_proceed_of_garbled hinput hraw w₃)

/-- A command ends with a code, or with a fault that escapes; it is of no avail, and what was in a
file is still in it, if its settings or its input are of no use. -/
theorem run_answers (catalog : Catalog) (a : Arguments) (standardInput : Text.Bytes)
    (hw : w.files.Settled) (hown : RunLock.heldFile 0 w.locks = none) :
    Ends (run catalog a standardInput) w
      (fun o w' ↦ ∀ own, Unusable catalog a standardInput w own →
        o = failed ∧ (Harmless catalog a w → w.Retains own w'))
      fun e w' ↦ Escapes catalog a standardInput w e ∧
        ∀ own, Unusable catalog a standardInput w own → Harmless catalog a w → w.Retains own w' := by
  rw [run_eq]
  rcases hbegin : begin a w with ⟨e | ⟨project, path⟩, w₁⟩
  · obtain ⟨hopens, he⟩ := (ends_of_error hbegin).mp (ends_begin a w)
    refine ends_bind.mpr ((ends_of_error hbegin).mpr ⟨?_, fun _ _ _ ↦ ?_⟩)
    · rcases he with he | ⟨p, hp, he⟩
      · exact .project he
      · refine .settings (fun q hq ↦ ?_) he
        cases hq
        exact hp
    · exact hopens.retains_of_readies (readies_of_adds (.refl (hopens.files.symm ▸ hw)) rfl rfl)
  refine ends_bind.mpr ((ends_of_eq hbegin).mpr (ends_bind.mpr (ends_attempt.mpr ?_)))
  refine (ends_load hw hown hbegin).mono (fun o w₂ hnone ↦ ?_) fun e w₂ h ↦ ?_
  · exact ends_pure.mpr fun own hunusable ↦ absurd hunusable (hnone own)
  obtain ⟨he, hretains⟩ := h
  refine (ends_answer a (.error e) w₂).mono (fun o w₃ ho ↦ ?_) fun e' w₃ he' ↦ ?_
  · obtain ⟨honward, ho | ⟨rfl, -⟩⟩ := ho
    · cases ho
    · exact fun own hunusable ↦ ⟨rfl, fun hharmless ↦ (hretains own hunusable hharmless).onward honward⟩
  · obtain ⟨rfl, heq, hunanswered⟩ := he'
    cases heq
    exact ⟨he.resolve_left hunanswered, hretains⟩

/-- A project that holds nothing but a directory. -/
def sampleWorld : World where
  files := ⟨[(["p"], .directory 0), (["p", "d"], .directory 0)], 0, ["p"]⟩

/-- Analyses what is in a file of the working directory. -/
def analyzing (name : String) : Arguments :=
  ⟨{ project := Path.ofString "." }, .analyze (some name)⟩

theorem settled_sampleWorld : sampleWorld.files.Settled :=
  ⟨sound_of_entries (by decide) (by decide), by decide⟩

theorem unusable_missing : Unusable [] (analyzing "m") [] sampleWorld fun _ ↦ False := by
  have hfails : ((begin (analyzing "m") >>= fun x ↦
      assign [] (analyzing "m") x.2 x.1 >>= fetch []) sampleWorld).1.toOption.isNone = true := by
    decide +kernel
  generalize hrun : (begin (analyzing "m") >>= fun x ↦
    assign [] (analyzing "m") x.2 x.1 >>= fetch []) sampleWorld = ended at hfails
  obtain ⟨_ | y, w'⟩ := ended
  · exact unusable_of_fails hrun
  · cases hfails

/-- Input that is missing is answered. -/
theorem run_answers_missing : sampleWorld.files.Settled ∧
    RunLock.heldFile 0 sampleWorld.locks = none ∧
    Unusable [] (analyzing "m") [] sampleWorld (fun _ ↦ False) ∧
    ((run [] (analyzing "m") [] sampleWorld).1.map Outcome.code).toOption = some 1 ∧
    Ends (run [] (analyzing "m") []) sampleWorld
      (fun o w' ↦ ∀ own, Unusable [] (analyzing "m") [] sampleWorld own →
        o = failed ∧ (Harmless [] (analyzing "m") sampleWorld → sampleWorld.Retains own w'))
      fun e w' ↦ Escapes [] (analyzing "m") [] sampleWorld e ∧
        ∀ own, Unusable [] (analyzing "m") [] sampleWorld own →
          Harmless [] (analyzing "m") sampleWorld → sampleWorld.Retains own w' :=
  ⟨settled_sampleWorld, rfl, unusable_missing, by decide +kernel,
    run_answers [] (analyzing "m") [] settled_sampleWorld rfl⟩

/-- Input that is a directory is not. -/
theorem directory_escapes : ∃ a,
    Arguments.read (Path.ofString ".") ["analyze", "-i", "d"] = .ok a ∧
      ∃ e, (run [] a [] sampleWorld).1 = .error e ∧ e.kind = .isADirectory ∧ ¬ e.Answered := by
  refine ⟨analyzing "d", by rfl, ?_⟩
  have hkind : ((run [] (analyzing "d") [] sampleWorld).1.mapError Fault.kind).map Outcome.code =
      .error .isADirectory := by decide +kernel
  generalize (run [] (analyzing "d") [] sampleWorld).1 = outcome at hkind
  cases outcome with
  | ok o => cases hkind
  | error e =>
    have he : e.kind = .isADirectory := Except.error.inj hkind
    refine ⟨e, rfl, he, ?_⟩
    unfold Fault.Answered Fault.isA
    rw [he]
    decide

end Command

end Remedy
