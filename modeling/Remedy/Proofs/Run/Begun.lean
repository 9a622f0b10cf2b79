import Remedy.Proofs.Run.Outcome

/-!
# Which phases of a run are begun

However a run ends, the phases that it has begun are the first ones, in the order of their priority
(`RunAct.ends_run_begun`): phases are begun by going from one to the next, and no other part of a run
begins any (`Bench.begun_of_steps`). If the run returns, then it has begun all of them, unless a
required one has failed or files could not be recorded (`RunOutcome.begun_eq`).
-/

set_option autoImplicit false

namespace Remedy

open Relation

/-- The phase that is begun, if one is. -/
def Occurrence.begun? : Occurrence → Option Phase
  | .start phase => some phase
  | _ => none

/-- The phases that have been begun so far, in order. -/
def Bench.begun (b : Bench) : List Phase := b.progress.happened.filterMap Occurrence.begun?

namespace Bench

variable {crew : Crew} {scope : Scope} {b b' : Bench}

theorem begun_note (b : Bench) {o : Occurrence} (h : o.isChange = false) :
    (b.note o).begun = b.begun ++ o.begun?.toList := by
  unfold begun
  rw [b.happened_note h, List.filterMap_append]
  cases o <;> rfl

/-- A part of a run that is not to begin phases begins none. -/
theorem Step.begun_eq (hstep : Step crew scope b b') (hscope : ¬ scope.begins) :
    b'.begun = b.begun := by
  cases hstep with
  | still | work | settle | record | number => rfl
  | @note o hchange _ hstart =>
    rw [b.begun_note hchange]
    cases o with
    | start phase => exact absurd (hstart rfl) hscope
    | _ => exact List.append_nil _
  | amend | move => exact congrArg (List.filterMap _) (b.happened_change _)

theorem begun_of_steps (hsteps : ReflTransGen (Step crew scope) b b') (hscope : ¬ scope.begins) :
    b'.begun = b.begun := by
  induction hsteps with
  | refl => rfl
  | tail _ hstep ih => exact (hstep.begun_eq hscope).trans ih

/-- From `b` to `b'` some of the phases have been begun, one after the other from the first. -/
def Begins (phases : List Phase) (b b' : Bench) : Prop :=
  ∃ front, front <+: phases ∧ b'.begun = b.begun ++ front

variable {phases : List Phase} {b'' : Bench}

theorem Begins.of_eq (h : b'.begun = b.begun) : Begins phases b b' :=
  ⟨[], List.nil_prefix, by simp [h]⟩

theorem Begins.after (h : b'.begun = b.begun) (h' : Begins phases b' b'') :
    Begins phases b b'' := by
  unfold Begins
  rwa [← h]

theorem Begins.before (h : Begins phases b b') (h' : b''.begun = b'.begun) :
    Begins phases b b'' := by
  unfold Begins
  rwa [h']

end Bench

namespace RunAct

variable {crew : Crew}

/-- Whatever a run does outside of going from phase to phase begins no phase. -/
theorem Stepwise.ends_begun {α : Type} {act : RunAct α}
    (h : Stepwise crew ⟨True, False⟩ act) (b : Bench) :
    Ends act b (fun _ b' ↦ b'.begun = b.begun) fun _ b' ↦ b'.begun = b.begun :=
  (h b).mono (fun _ _ hsteps ↦ Bench.begun_of_steps hsteps id)
    fun _ _ hsteps ↦ Bench.begun_of_steps hsteps id

theorem ends_runPhases_begun (crew : Crew) (whole : Option Snapshot) (phases : List Phase)
    (b : Bench) :
    Ends (runPhases crew whole phases) b (fun _ b' ↦ Bench.Begins phases b b')
      fun _ b' ↦ Bench.Begins phases b b' := by
  have hbegins : ∀ {front rest b'}, front ++ rest = phases → b'.begun = b.begun ++ front →
      Bench.Begins phases b b' := fun hfront hbegun ↦
    ⟨_, hfront ▸ List.prefix_append _ _, hbegun⟩
  refine ends_runPhases_of (P := fun part b₁ ↦
    ∃ front, front ++ part = phases ∧ b₁.begun = b.begun ++ front)
    ?_ ?_ ⟨[], rfl, (List.append_nil _).symm⟩
  · rintro b₁ ⟨front, hfront, hbegun⟩
    have hlast : Stepwise crew ⟨True, False⟩ (runPhases crew whole []) :=
      stepwise_runValidation.bind fun _ ↦ stepwise_conclude
    exact (hlast.ends_begun b₁).mono (fun _ _ ↦ (hbegins hfront hbegun).before)
      fun _ _ ↦ (hbegins hfront hbegun).before
  · rintro phase rest b₁ ⟨front, hfront, hbegun⟩
    have hmoves : Stepwise crew ⟨True, False⟩ (moveTo .executing (some phase.name) "") :=
      stepwise_moveTo _ _ _
    refine (hmoves.ends_begun b₁).mono (fun _ b₂ hmoved ↦ ?_)
      fun _ _ ↦ (hbegins hfront hbegun).before
    have hnext : front ++ [phase] ++ rest = phases := by simpa using hfront
    have hentered : (b₂.entered phase).begun = b.begun ++ (front ++ [phase]) := by
      rw [← List.append_assoc, ← hbegun, ← hmoved]
      exact b₂.begun_note rfl
    have hstarted : Bench.Begins phases b (b₂.entered phase) := hbegins hnext hentered
    exact ((stepwise_runPhase trivial whole phase).ends_begun (b₂.entered phase)).mono
      (fun _ _ h ↦ ⟨fun _ ↦ hstarted.before h, fun _ ↦ ⟨front ++ [phase], hnext, h.trans hentered⟩⟩)
      fun _ _ ↦ hstarted.before

theorem ends_execute_begun (crew : Crew) (phases : List Phase) (b : Bench) :
    Ends (execute crew phases) b (fun _ b' ↦ Bench.Begins phases b b')
      fun _ b' ↦ Bench.Begins phases b b' := by
  have hmoves : Stepwise crew ⟨True, False⟩ (moveTo .backingUp none "") := stepwise_moveTo _ _ _
  have hrecords : Stepwise crew ⟨True, False⟩ (recordAll phases) :=
    stepwise_recordAll trivial phases
  refine ends_execute_of ((hmoves.ends_begun b).mono (fun _ b₁ h₁ ↦ ?_) fun _ _ ↦ .of_eq)
  refine (hrecords.ends_begun b₁).mono (fun whole b₂ h₂ ↦ ?_) fun _ _ h ↦ .of_eq (h.trans h₁)
  have hsame := h₂.trans h₁
  exact ⟨fun _ ↦ .of_eq hsame, fun _ ↦ (ends_runPhases_begun crew whole phases b₂).mono
    (fun _ _ ↦ .after hsame) fun _ _ ↦ .after hsame⟩

/-- However a run ends, it has begun the first phases in the order of their priority. -/
theorem ends_run_begun (crew : Crew) (phases : List Phase) (world : World) (store : Store)
    (runId : String) (project : Route) (config : RunConfig) :
    let ordered := phases.mergeSort fun p q ↦ p.priority ≤ q.priority
    Ends (run crew phases) (.fresh world store runId project config)
      (fun _ b ↦ b.begun <+: ordered) fun _ b ↦ b.begun <+: ordered := by
  intro ordered
  have hbegun : ∀ {b : Bench},
      Bench.Begins ordered (.fresh world store runId project config) b → b.begun <+: ordered := by
    rintro b ⟨front, hfront, heq⟩
    rw [heq]
    exact hfront
  refine Ends.mono (?_ : Ends _ _
    (fun _ b ↦ Bench.Begins ordered (.fresh world store runId project config) b)
    fun _ b ↦ Bench.Begins ordered (.fresh world store runId project config) b)
    (fun _ _ ↦ hbegun) fun _ _ ↦ hbegun
  have hlogs : ∀ level name fields, Stepwise crew ⟨True, False⟩ (log level name fields) :=
    stepwise_log
  have hcounts : ∀ tally amount labels,
      Stepwise crew ⟨True, False⟩ (lift (Act.count tally amount labels)) :=
    fun _ _ _ ↦ stepwise_lift (Act.still_count _ _ _)
  refine ends_run_of fun fields ↦ ((hlogs _ _ _).ends_begun _).mono (fun _ b₁ h₁ ↦ ?_)
    fun _ _ ↦ .of_eq
  refine (ends_execute_begun crew ordered b₁).mono (fun _ b₂ h₂ ↦ ?_) fun _ _ ↦ .after h₁
  have hleft : Bench.Begins ordered (.fresh world store runId project config) b₂.left :=
    .after h₁ h₂
  refine ((hcounts _ _ _).ends_begun b₂.left).mono (fun _ b₃ h₃ ↦ ?_) fun _ _ ↦ hleft.before
  have hcounted := hleft.before h₃
  exact ⟨fun _ _ ↦ hcounted, fun _ _ fields ↦ ((hlogs _ _ _).ends_begun b₃).mono
    (fun _ _ ↦ hcounted.before) fun _ _ ↦ hcounted.before⟩

end RunAct

/-! ### Runs that return -/

theorem begun_of_chronicle {acts : List (Phase × List Occurrence)}
    (h : ∀ act ∈ acts, ∀ o ∈ act.2, o.IsCallOf act.1 ∨ o = .refusal (some act.1)) :
    (chronicle acts).filterMap Occurrence.begun? = acts.map (·.1) := by
  induction acts with
  | nil => rfl
  | cons act rest ih =>
    obtain ⟨hact, hrest⟩ := List.forall_mem_cons.mp h
    have hnone : act.2.filterMap Occurrence.begun? = [] := by
      refine List.filterMap_eq_nil_iff.mpr fun o ho ↦ ?_
      rcases hact o ho with ⟨_, _⟩ | rfl
      · rfl
      · rfl
    rw [List.map_cons, ← ih hrest]
    simp [chronicle, Occurrence.begun?, hnone]

/-- The phases that have been begun are those that have a result, unless the files of all phases could
not be recorded. -/
theorem RunOutcome.begun_eq_take {phases : List Phase} {config : RunConfig} {b : Bench}
    (h : RunOutcome phases config b) (hrecorded : .refusal none ∉ b.progress.happened) :
    b.begun = phases.take b.context.history.length := by
  obtain ⟨acts, hacts, hhappened, hcalls⟩ := h.happened hrecorded
  unfold Bench.begun
  rw [hhappened, begun_of_chronicle hcalls, hacts]

/-- If no required phase has failed and all files could be recorded, no phase is left over. -/
theorem RunOutcome.begun_eq {phases : List Phase} {config : RunConfig} {b : Bench}
    (h : RunOutcome phases config b)
    (hrequired : ∀ (i : Nat) (phase : Phase) (r : PhaseResult), phases[i]? = some phase →
      b.context.history[i]? = some r → phase.required = true → r.success = true)
    (hrecorded : ∀ phase, .refusal phase ∉ b.progress.happened) : b.begun = phases := by
  have hall : phases.length ≤ b.context.history.length := by
    by_contra hleft
    obtain ⟨phase, r, hphase, hlast, hfailed, hcause⟩ :=
      h.proper (hrecorded none) (Nat.lt_of_not_le hleft)
    rw [List.getLast?_eq_getElem?] at hlast
    rcases hcause with hneeded | hrefused
    · rw [hrequired _ phase r hphase hlast hneeded] at hfailed
      cases hfailed
    · exact hrecorded _ hrefused
  rw [h.begun_eq_take (hrecorded none), List.take_of_length_le hall]

end Remedy
