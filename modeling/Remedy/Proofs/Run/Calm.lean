import Remedy.Proofs.Backup.Restoring
import Remedy.Proofs.Run.Steps

/-!
# What is calm in a run

Most of what a run does is calm (`Bench.Calm`): it touches no file but the log, takes no snapshot,
begins no phase and calls no fixer. What is left over are the few moments at which files are
recorded or put back, phases begin and fixers are called; the laws about snapshots and rollback are
about these, and `RunAct.Calmly` passes over the rest.

`begun?` and `opening?` find the scene in which the present phase was begun, and that of the first
call in it.
-/

set_option autoImplicit false

namespace Remedy

namespace Scene

def isStart (s : Scene) : Bool :=
  match s.occurrence with
  | .start _ => true
  | _ => false

def isCall (s : Scene) : Bool :=
  match s.occurrence with
  | .call _ _ _ => true
  | _ => false

end Scene

/-- The scene in which the present phase was begun; the scenes are given latest first. -/
def begun? (scenes : List Scene) : Option Scene := scenes.find? (·.isStart)

/-- The scene of the first call in the present phase. -/
def opening? (scenes : List Scene) : Option Scene :=
  (scenes.takeWhile (!·.isStart)).reverse.find? (·.isCall)

section Scenes

variable {scene : Scene} {scenes : List Scene}

theorem begun?_cons (h : scene.isStart = false) : begun? (scene :: scenes) = begun? scenes := by
  unfold begun?
  rw [List.find?_cons_of_neg (by simp [h])]

theorem begun?_start (h : scene.isStart = true) : begun? (scene :: scenes) = some scene := by
  unfold begun?
  rw [List.find?_cons_of_pos h]

theorem opening?_start (h : scene.isStart = true) : opening? (scene :: scenes) = none := by
  unfold opening?
  rw [List.takeWhile_cons_of_neg (by simp [h])]
  rfl

theorem opening?_cons (h : scene.isStart = false) :
    opening? (scene :: scenes) =
      (opening? scenes).or (if scene.isCall then some scene else none) := by
  unfold opening?
  rw [List.takeWhile_cons_of_pos (by simp [h]), List.reverse_cons, List.find?_append]
  cases hcall : scene.isCall <;> simp [hcall]

/-- A scene that is neither the start of a phase nor a call changes neither. -/
theorem opening?_cons_of_calm (h : scene.isStart = false) (hcall : scene.isCall = false) :
    opening? (scene :: scenes) = opening? scenes := by
  rw [opening?_cons h, hcall]
  simp

end Scenes

/-- What the laws about snapshots ask of the context is the same, but that a fixer may have been
called. -/
structure RunContext.Stays (c c' : RunContext) : Prop where
  runId : c'.runId = c.runId
  project : c'.project = c.project
  config : c'.config = c.config
  snapshots : c'.snapshots = c.snapshots
  mutated : c'.mutated = false → c.mutated = false

theorem RunContext.Stays.refl (c : RunContext) : Stays c c :=
  ⟨rfl, rfl, rfl, rfl, id⟩

theorem RunContext.Stays.trans {c c' c'' : RunContext} (h : Stays c c') (h' : Stays c' c'') :
    Stays c c'' where
  runId := h'.runId.trans h.runId
  project := h'.project.trans h.project
  config := h'.config.trans h.config
  snapshots := h'.snapshots.trans h.snapshots
  mutated hc := h.mutated (h'.mutated hc)

/-- Scenes have been added to the account in which no phase is begun and no fixer is called. -/
inductive Continues (scenes : List Scene) : List Scene → Prop
  | refl : Continues scenes scenes
  | cons {scene : Scene} {scenes' : List Scene} (hstart : scene.isStart = false)
      (hcall : scene.isCall = false) (h : Continues scenes scenes') :
      Continues scenes (scene :: scenes')

namespace Continues

variable {scenes scenes' scenes'' : List Scene}

theorem trans (h : Continues scenes scenes') (h' : Continues scenes' scenes'') :
    Continues scenes scenes'' := by
  induction h' with
  | refl => exact h
  | cons hstart hcall _ ih => exact .cons hstart hcall ih

theorem begun?_eq (h : Continues scenes scenes') : begun? scenes' = begun? scenes := by
  induction h with
  | refl => rfl
  | cons hstart _ _ ih => rw [begun?_cons hstart, ih]

theorem opening?_eq (h : Continues scenes scenes') : opening? scenes' = opening? scenes := by
  induction h with
  | refl => rfl
  | cons hstart hcall _ ih => rw [opening?_cons_of_calm hstart hcall, ih]

theorem no_calls (h : Continues scenes scenes') (hnone : ∀ scene ∈ scenes, scene.isCall = false) :
    ∀ scene ∈ scenes', scene.isCall = false := by
  induction h with
  | refl => exact hnone
  | cons _ hcall _ ih =>
    intro scene hscene
    rcases List.mem_cons.mp hscene with rfl | hscene
    · exact hcall
    · exact ih scene hscene

/-- What holds of every call, given the scenes before it, goes on to hold. -/
theorem calls {P : Scene → List Scene → Prop} (h : Continues scenes scenes')
    (hcalls : ∀ scene back, scene :: back <:+ scenes → scene.isCall = true → P scene back) :
    ∀ scene back, scene :: back <:+ scenes' → scene.isCall = true → P scene back := by
  induction h with
  | refl => exact hcalls
  | @cons first scenes' _ hcall _ ih =>
    intro scene back hsuffix hscene
    rcases List.suffix_cons_iff.mp hsuffix with heq | hsuffix
    · cases heq
      rw [hcall] at hscene
      cases hscene
    · exact ih scene back hsuffix hscene

end Continues

/-- From `b` to `b'` nothing has been recorded, put back, begun or called. -/
structure Bench.Calm (b b' : Bench) : Prop where
  still : b.world.Still b'.world
  store : b'.store = b.store
  context : b.context.Stays b'.context
  account : Continues b.progress.account b'.progress.account

namespace Bench.Calm

variable {b b' b'' : Bench}

theorem world (h : Calm b b') : b.world.Undisturbed b'.world :=
  h.still.undisturbed

theorem refl (b : Bench) : Calm b b :=
  ⟨.refl _, rfl, .refl _, .refl⟩

theorem trans (h : Calm b b') (h' : Calm b' b'') : Calm b b'' where
  still := h.still.trans h'.still
  store := h'.store.trans h.store
  context := h.context.trans h'.context
  account := h.account.trans h'.account

theorem inWorld (b : Bench) {w : World} (h : b.world.Still w) :
    Calm b { b with world := w } :=
  ⟨h, rfl, .refl _, .refl⟩

theorem change (b : Bench) {f : RunContext → RunContext} (h : b.context.Stays (f b.context)) :
    Calm b (b.change f) :=
  ⟨.refl _, rfl, h, .cons rfl rfl .refl⟩

end Bench.Calm

/-- From `b` to `b'` the run has been calm and has not moved. -/
structure Bench.Rests (b b' : Bench) : Prop extends Bench.Calm b b' where
  state : b'.context.state = b.context.state

namespace Bench.Rests

variable {b b' b'' : Bench}

theorem refl (b : Bench) : Rests b b :=
  ⟨.refl b, rfl⟩

theorem trans (h : Rests b b') (h' : Rests b' b'') : Rests b b'' :=
  ⟨h.toCalm.trans h'.toCalm, h'.state.trans h.state⟩

theorem inWorld (b : Bench) {w : World} (h : b.world.Still w) :
    Rests b { b with world := w } :=
  ⟨.inWorld b h, rfl⟩

end Bench.Rests

namespace RunAct

/-- The action is calm and does not move the run, however it ends. -/
def Calmly {α : Type} (act : RunAct α) : Prop := Keeps Bench.Rests act

section Parts

variable {α β : Type}

theorem calmly_pure (a : α) : Calmly (pure a) :=
  keeps_pure Bench.Rests.refl a

theorem calmly_throw (e : Fault) : Calmly (throw e : RunAct α) :=
  keeps_throw Bench.Rests.refl e

theorem Calmly.bind {act : RunAct α} {f : α → RunAct β} (h : Calmly act)
    (hnext : ∀ a, Calmly (f a)) : Calmly (act >>= f) :=
  Keeps.bind (fun _ _ _ ↦ .trans) h hnext

theorem calmly_lift {act : Act α} (h : act.Still) : Calmly (lift act) :=
  fun b ↦ ends_lift.mpr ((h b.world).mono (fun _ _ h ↦ .inWorld b h) fun _ _ h ↦ .inWorld b h)

theorem calmly_update {f : RunContext → RunContext} (h : ∀ c : RunContext, c.Stays (f c))
    (hstate : ∀ c, (f c).state = c.state) : Calmly (update f) :=
  keeps_modify fun b ↦ ⟨.change b (h _), hstate _⟩

theorem calmly_record (r : PhaseResult) : Calmly (update (·.record r)) :=
  calmly_update (fun _ ↦ ⟨rfl, rfl, rfl, rfl, id⟩) fun _ ↦ rfl

theorem calmly_fail (message : String) :
    Calmly (update fun c ↦ { c with error := some message }) :=
  calmly_update (fun _ ↦ ⟨rfl, rfl, rfl, rfl, id⟩) fun _ ↦ rfl

theorem calmly_refuse (phase : Option Phase) : Calmly (note (.refusal phase)) :=
  keeps_modify fun _ ↦ ⟨⟨.refl _, rfl, .refl _, .cons rfl rfl .refl⟩, rfl⟩

theorem calmly_log (level : LogLevel) (name : String) (fields : List (String × Json)) :
    Calmly (log level name fields) :=
  calmly_lift (Act.still_log _ _ _)

theorem calmly_count (tally : Meter.Tally) (amount : Number) (cause : RootCause) :
    Calmly (count tally amount cause) :=
  calmly_lift (Act.still_count _ _ _)

end Parts

/-- The files of a phase are those that its paths lead to, unless one of these cannot be followed. -/
theorem ends_filesOf_asked (phase : Phase) (b : Bench) :
    Ends (filesOf phase) b
      (fun files b' ↦ b' = b ∧ (∀ r, r ∈ files ↔ ∃ p ∈ phase.files,
          b.world.files.resolve ((Route.path b.context.project).join p) = .ok r) ∧
        ∀ p ∈ phase.files, ∃ r,
          b.world.files.resolve ((Route.path b.context.project).join p) = .ok r)
      fun e b' ↦ b' = b ∧ ∃ p ∈ phase.files,
        b.world.files.resolve ((Route.path b.context.project).join p) = .error e := by
  have hask : ∀ p ∈ phase.files, Ends (resolve p) b
      (fun r b' ↦ b' = b ∧ b.world.files.resolve ((Route.path b.context.project).join p) = .ok r)
      fun e b' ↦ b' = b ∧ ∃ p ∈ phase.files,
        b.world.files.resolve ((Route.path b.context.project).join p) = .error e := fun p hp ↦
    ends_ask.mono (fun _ _ h ↦ h) fun _ _ h ↦ ⟨h.1, p, hp, h.2⟩
  unfold filesOf
  refine (ends_mapM_of_mem hask).bind ?_
  rintro routes b' ⟨rfl, hroutes⟩
  refine ends_pure.mpr ⟨rfl, fun r ↦ mem_answers hroutes, fun p hp ↦ ?_⟩
  obtain ⟨r, -, hr⟩ := answered hroutes hp
  exact ⟨r, hr⟩

/-- A run that moves is calm, and is in the state that it moves to. -/
theorem ends_moveCalmly (target : RunState) (phase : Option String) (reason : String) (b : Bench) :
    Ends (moveTo target phase reason) b
      (fun _ b' ↦ b.Calm b' ∧ b'.context.state = target ∧
        b'.context.history = b.context.history ∧ b'.context.mutated = b.context.mutated)
      fun _ b' ↦ b' = b := by
  unfold moveTo
  refine ends_bind.mpr (ends_get.mpr ?_)
  dsimp only
  split
  · exact ends_pure.mpr ⟨.refl b, ‹_›, rfl, rfl⟩
  · rename_i hne
    refine ends_bind.mpr (ends_get.mpr ?_)
    unfold RunContext.move
    rw [if_neg hne]
    split
    · exact ends_throw.mpr rfl
    · rename_i c hmove
      split at hmove
      · cases hmove
        refine ends_bind.mpr (ends_modify.mpr ?_)
        have hchange := Bench.Calm.change b (f := fun _ ↦ { b.context with
          state := target
          transitions := b.context.transitions ++ [⟨b.context.state, target, phase, reason⟩] })
          ⟨rfl, rfl, rfl, rfl, id⟩
        refine ends_lift.mpr (Act.ends_log fun w hstill ↦ ⟨?_, rfl, rfl, rfl⟩)
        exact hchange.trans (.inWorld _ hstill)
      · cases hmove

/-- A move fails only if it is not allowed. -/
theorem ends_moveBlocked (target : RunState) (phase : Option String) (reason : String) (b : Bench) :
    Ends (moveTo target phase reason) b (fun _ _ ↦ True)
      fun _ _ ↦ target ∉ b.context.state.next :=
  ends_moveTo (fun _ ↦ trivial) (fun _ _ _ ↦ trivial) fun _ hnot ↦ hnot

/-- When a run ends with the failure of a phase, this is calm, and the failure is the last
result. It can only fail because the move is not allowed. -/
theorem ends_recordAndMove (phase : Phase) (text message reason : String) (attempts : Nat)
    (elapsed : Number) (rolledBack : Bool) (details : List (String × Json)) (target : RunState)
    (b : Bench) :
    Ends (do
        update fun c ↦ { c with error := some text }
        recordFailure phase message attempts elapsed rolledBack details
        moveTo target (some phase.name) reason) b
      (fun _ b' ↦ b.Calm b' ∧ b'.context.state = target ∧
        ∃ r, b'.context.history.getLast? = some r ∧ r.phase = phase.name ∧ r.details = details)
      fun _ b' ↦ b.Calm b' ∧ target ∉ b.context.state.next := by
  unfold recordFailure
  refine ends_bind.mpr (ends_update.mpr (ends_bind.mpr (ends_update.mpr ?_)))
  have hfailed := Bench.Calm.change b (f := fun c ↦ { c with error := some text })
    ⟨rfl, rfl, rfl, rfl, id⟩
  let r : PhaseResult :=
    { phase := phase.name, success := false, message := message, executionTime := elapsed,
      attempts := attempts, rolledBack := rolledBack, details := details }
  have hcalm := hfailed.trans (.change _ (f := (·.record r)) ⟨rfl, rfl, rfl, rfl, id⟩)
  refine ((ends_moveCalmly target (some phase.name) reason _).and
    (ends_moveBlocked target (some phase.name) reason _)).mono ?_ ?_
  · rintro _ b₂ ⟨⟨hmoved, hstate, hhistory, -⟩, -⟩
    refine ⟨hcalm.trans hmoved, hstate, r, ?_, rfl, rfl⟩
    rw [hhistory]
    exact List.getLast?_concat
  · rintro _ b₂ ⟨rfl, hnot⟩
    exact ⟨hcalm, hnot⟩

theorem calmly_judge (phase : Phase) (number : Nat) (settled : Settled FixReply) :
    Calmly (judge phase number settled) := by
  have hoverdue : ∀ text, Calmly (judge.overdue phase number text) := fun text ↦
    (calmly_count _ _ _).bind fun _ ↦ (calmly_log _ _ _).bind fun _ ↦ calmly_throw _
  unfold judge
  split
  · exact hoverdue _
  · exact calmly_throw _
  · split
    · exact hoverdue _
    · exact (calmly_log _ _ _).bind fun _ ↦ calmly_throw _
  · split
    · exact calmly_throw _
    · split
      · exact calmly_pure _
      · exact (calmly_log _ _ _).bind fun _ ↦ calmly_throw _

theorem calmly_recordFailure (phase : Phase) (message : String) (attempts : Nat)
    (elapsed : Number) (rolledBack : Bool) (details : List (String × Json)) :
    Calmly (recordFailure phase message attempts elapsed rolledBack details) :=
  calmly_record _

theorem calmly_observeDuration (phase : Phase) (elapsed : Number) :
    Calmly (observeDuration phase elapsed) := by
  exact calmly_lift (Act.still_modify (fun _ ↦ rfl) (fun _ ↦ rfl) fun _ ↦ rfl)

theorem calmly_settleSuccess (phase : Phase) (r : FixReport) (attempts : Nat)
    (elapsed : Number) : Calmly (settleSuccess phase r attempts elapsed) := by
  unfold settleSuccess
  refine (calmly_count _ _ _).bind fun _ ↦ (calmly_observeDuration _ _).bind fun _ ↦ ?_
  refine (calmly_count _ _ _).bind fun _ ↦ ?_
  dsimp only
  split
  · exact calmly_throw _
  · exact (calmly_record _).bind fun _ ↦ calmly_log _ _ _

theorem calmly_rehearse (phase : Phase) (files : List Route) : Calmly (rehearse phase files) := by
  unfold rehearse
  exact (calmly_record _).bind fun _ ↦ calmly_log _ _ _

end RunAct

end Remedy
