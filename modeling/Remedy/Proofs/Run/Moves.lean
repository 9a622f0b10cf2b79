import Remedy.Proofs.Run.Outcome

/-!
# The moves of a run

The transitions that a run records are the moves that it has made: they lead from the idle state to
the present one, each from where the one before has led to, each to a state that is next to it, and
none away from a state in which a run has ended (`Leads`). A step of a run keeps this of its context
and of every context in its account (`Bench.Step.orderly`), so it holds at every point of every run,
whether or not the run returns. `RunAct.moves_of_run` adds that no move is ever refused, and that a
run which returns has come to its end.
-/

set_option autoImplicit false

namespace Remedy

/-- Transitions lead from one state to another. -/
def Leads : RunState → List Transition → RunState → Prop
  | source, [], target => source = target
  | source, t :: rest, target =>
    t.source = source ∧ source.isTerminal = false ∧ t.target ∈ source.next ∧
      Leads t.target rest target

theorem RunState.not_isTerminal_of_mem_next {s t : RunState} (h : t ∈ s.next) :
    s.isTerminal = false := by
  cases s <;> first | rfl | exact absurd h List.not_mem_nil

theorem Leads.concat {source target : RunState} {transitions : List Transition}
    (h : Leads source transitions target) {t : Transition} (hsource : t.source = target)
    (hnext : t.target ∈ target.next) : Leads source (transitions ++ [t]) t.target := by
  induction transitions generalizing source with
  | nil =>
    cases h
    exact ⟨hsource, RunState.not_isTerminal_of_mem_next hnext, hnext, rfl⟩
  | cons first rest ih =>
    obtain ⟨hfirst, hgoing, hfollows, hrest⟩ := h
    exact ⟨hfirst, hgoing, hfollows, ih hrest⟩

/-- The transitions of the context lead from the idle state to the state of the context. -/
def RunContext.Orderly (c : RunContext) : Prop := Leads .idle c.transitions c.state

/-- The context is orderly and has been at every point of the run. -/
def Bench.Orderly (b : Bench) : Prop :=
  b.context.Orderly ∧ ∀ scene ∈ b.progress.account, scene.context.Orderly

theorem Bench.Orderly.change {b : Bench} (h : b.Orderly) {f : RunContext → RunContext}
    (hf : (f b.context).Orderly) : (b.change f).Orderly := by
  refine ⟨hf, fun scene hscene ↦ ?_⟩
  rcases List.mem_cons.mp hscene with rfl | hscene
  · exact hf
  · exact h.2 scene hscene

theorem Bench.Step.orderly {crew : Crew} {scope : Bench.Scope} {b b' : Bench}
    (hstep : Step crew scope b b') (h : b.Orderly) : b'.Orderly := by
  cases hstep with
  | still | work | settle | record | number => exact h
  | note =>
    refine ⟨h.1, fun scene hscene ↦ ?_⟩
    rcases List.mem_cons.mp hscene with rfl | hscene
    · exact h.1
    · exact h.2 scene hscene
  | amend hamends =>
    refine h.change ?_
    unfold RunContext.Orderly
    rw [hamends.state, hamends.transitions]
    exact h.1
  | move target phase reason hnext => exact h.change (Leads.concat h.1 rfl hnext)

theorem Bench.orderly_of_steps {crew : Crew} {scope : Bench.Scope} {b b' : Bench} (h : b.Orderly)
    (hsteps : Relation.ReflTransGen (Step crew scope) b b') : b'.Orderly := by
  induction hsteps with
  | refl => exact h
  | tail _ hstep ih => exact hstep.orderly ih

/-- A run never attempts a move that is not allowed, its transitions lead from the idle state to the
present one at every point, and when it returns it is in a state in which runs end. -/
theorem RunAct.moves_of_run (crew : Crew) (phases : List Phase) (world : World) (store : Store)
    (runId : String) (project : Route) (config : RunConfig) :
    Ends (run crew phases) (.fresh world store runId project config)
      (fun _ b ↦ b.Orderly ∧ b.context.state.isTerminal = true)
      fun e b ↦ b.Orderly ∧ e.kind ≠ .invalidTransition := by
  have hfresh : (Bench.fresh world store runId project config).Orderly :=
    ⟨rfl, fun _ h ↦ absurd h List.not_mem_nil⟩
  have hstepwise : Stepwise crew ⟨True, True⟩ (run crew phases) :=
    stepwise_run trivial trivial phases
  refine ((hstepwise _).and
    (ends_run crew phases world store runId project config)).mono ?_ ?_
  · rintro _ b ⟨hsteps, houtcome⟩
    exact ⟨Bench.orderly_of_steps hfresh hsteps, houtcome.terminal⟩
  · rintro e b ⟨hsteps, hforeign⟩
    exact ⟨Bench.orderly_of_steps hfresh hsteps, hforeign.1⟩

end Remedy
