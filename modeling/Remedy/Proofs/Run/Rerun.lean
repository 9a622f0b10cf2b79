import Remedy.Proofs.Run.Futility

/-!
# Contexts are run once

A run moves its context before it does anything else. From most states there is no way to that first
move, so a context that has been run is refused: the run fails, and all that has happened is that
something was written to the log (`World.Logged`, `RunAct.refused_of_run`). The context, the store,
the account and the rest of the world are the very same; neither fixers nor probes have been called.

Staying in a state is no move. A context that a run has left while files were being recorded, because
a path of a phase could not be followed, therefore counts as fresh, and a second run goes through
with it (`RunAct.completed_of_rerun`).
-/

set_option autoImplicit false

namespace Remedy

open FileTree

variable {w w' w'' : World}

/-- All that has happened is that something was logged: events have been added to the journal, and
to the file that the log is written to, if it is there. -/
structure World.Logged (w w' : World) : Prop where
  world : w' = { w with journal := w'.journal, files := w'.files }
  tree : w'.files = { w.files with entries := w'.files.entries }
  sink : w'.journal.sink = w.journal.sink
  events : w.journal.events <:+ w'.journal.events
  nodes : ∀ r, w.logFile ≠ some r → w'.files.node? r = w.files.node? r
  bytes : ∀ r, Grown w.logFile r (w.files.bytes? r) (w'.files.bytes? r)

namespace World.Logged

theorem logFile_eq (h : Logged w w') : w'.logFile = w.logFile := by
  rw [World.logFile, World.logFile, h.sink]

theorem trans (h : Logged w w') (h' : Logged w' w'') : Logged w w'' where
  world := by rw [h'.world, h.world]
  tree := by rw [h'.tree, h.tree]
  sink := h'.sink.trans h.sink
  events := h.events.trans h'.events
  nodes r hr := by
    have hr' : w'.logFile ≠ some r := by rwa [h.logFile_eq]
    exact (h'.nodes r hr').trans (h.nodes r hr)
  bytes r := (h.bytes r).trans (h.logFile_eq ▸ h'.bytes r)

/-- What is bound to the log is part of it. -/
theorem of_bound (w : World) (bound : List (String × Json)) :
    Logged w { w with journal := { w.journal with bound := bound } } where
  world := rfl
  tree := rfl
  sink := rfl
  events := List.suffix_rfl
  nodes _ _ := rfl
  bytes r := .refl _ r _

end World.Logged

/-- Writing at the end of a file changes nothing else in the tree, and makes no file. -/
theorem FileAct.ends_append_grown (t : FileTree) (r : Route) (content : Text.Bytes) :
    Ends (FileAct.append r content) t
      (fun _ t' ↦ t' = { t with entries := t'.entries } ∧
        (∀ q, q ≠ r → t'.node? q = t.node? q) ∧ ∀ q, Grown (some r) q (t.bytes? q) (t'.bytes? q))
      fun _ _ ↦ False := by
  apply ends_modify.mpr
  split
  · rename_i old mode hnode
    have hother : ∀ q, q ≠ r → (t.set r (.file (old ++ content) mode)).node? q = t.node? q := by
      intro q hq
      rw [node?_set, if_neg hq]
    refine ⟨rfl, hother, fun q ↦ ?_⟩
    by_cases hq : q = r
    · have hold : t.bytes? q = some old := bytes?_of_look (hq ▸ look_of_node? hnode)
      have hnew : (t.set r (.file (old ++ content) mode)).bytes? q = some (old ++ content) := by
        apply bytes?_of_look
        rw [look_set, if_pos hq]
        rfl
      exact ⟨content, by rw [hold, hnew]; rfl, fun hne ↦ absurd (congrArg some hq.symm) hne⟩
    · have hsame : (t.set r (.file (old ++ content) mode)).bytes? q = t.bytes? q := by
        simp only [bytes?, look, hother q hq]
      rw [hsame]
      exact .refl _ q _
  · exact ⟨rfl, fun _ _ ↦ rfl, fun q ↦ .refl _ q _⟩

namespace Act

theorem logged_record (event : Event) : Keeps World.Logged (record event) := by
  apply keeps_modify
  intro w
  have hevents : w.journal.events <:+ (w.journal.record event).events := List.suffix_cons _ _
  dsimp only
  split
  · rename_i r hfile hprints
    have hlog : w.logFile = some r := hfile
    obtain ⟨htree, hnodes, hbytes⟩ := ends_modify.mp (FileAct.ends_append_grown w.files r
      (Text.encode ((w.journal.inContext event).line.compact ++ "\n")))
    exact {
      world := rfl
      tree := htree
      sink := rfl
      events := hevents
      nodes := fun q hq ↦ hnodes q fun heq ↦ hq (hlog.trans (congrArg some heq.symm))
      bytes := fun q ↦ hlog ▸ hbytes q }
  · exact ⟨rfl, rfl, rfl, hevents, fun _ _ ↦ rfl, fun q ↦ .refl _ q _⟩

theorem logged_bindField (name : String) (value : Json) :
    Keeps World.Logged (bindField name value) :=
  keeps_modify fun w ↦ .of_bound w _

theorem logged_unbindField (name : String) : Keeps World.Logged (unbindField name) :=
  keeps_modify fun w ↦ .of_bound w _

end Act

/-- Only a fresh context can be moved to the first state of a run. -/
theorem RunState.backingUp_mem_next {s : RunState} : .backingUp ∈ s.next ↔ s = .idle := by
  cases s <;> decide

namespace RunAct

variable {b : Bench}

/-- Nothing can keep the program from writing to the log. -/
theorem ends_modify_logged {f : World → World} {ok : Unit → Bench → Prop}
    {bad : Fault → Bench → Prop} (hf : Keeps World.Logged (modify f : Act PUnit))
    (h : ∀ w, b.world.Logged w → ok () { b with world := w }) :
    Ends (lift (modify f)) b ok bad :=
  ends_lift.mpr (ends_modify.mpr (h _ (hf b.world)))

/-- The first move of a run is refused unless the context is fresh, or has made that move. -/
theorem ends_execute_refused (crew : Crew) (phases : List Phase)
    (hidle : b.context.state ≠ .idle) (hbegun : b.context.state ≠ .backingUp) :
    Ends (execute crew phases) b (fun _ _ ↦ False)
      fun e b' ↦ e = .transition b.context.state .backingUp ∧ b' = b := by
  apply ends_bind.mpr
  apply ends_moveTo
  · intro hsame
    exact absurd hsame hbegun
  · intro hnext
    exact absurd (RunState.backingUp_mem_next.mp hnext) hidle
  · intro _ _
    exact ⟨rfl, rfl⟩

/-- A context that has been run, and was not left while files were being recorded, cannot be run
again: whatever there is to run, the run fails with its first move and does nothing but write to the
log. -/
theorem refused_of_run (crew : Crew) (phases : List Phase) (hidle : b.context.state ≠ .idle)
    (hbegun : b.context.state ≠ .backingUp) :
    ∃ w, b.world.Logged w ∧
      run crew phases b =
        (.error (.transition b.context.state .backingUp), { b with world := w }) := by
  have hends : Ends (run crew phases) b (fun _ _ ↦ False) fun e b' ↦
      e = .transition b.context.state .backingUp ∧
        ∃ w, b.world.Logged w ∧ b' = { b with world := w } := by
    apply ends_bind.mpr
    apply ends_get.mpr
    apply ends_bind.mpr
    apply ends_modify_logged (Act.logged_bindField _ _)
    intro w₁ hbound
    apply ends_bind.mpr
    apply ends_modify_logged (Act.logged_record _)
    intro w₂ hstarting
    apply ends_bind.mpr
    apply Ends.andThenAlways
    apply (ends_execute_refused (b := { b with world := w₂ }) crew _ hidle hbegun).mono
    · intro _ _ hfalse
      exact hfalse.elim
    · rintro e b' ⟨rfl, rfl⟩
      apply ends_bind.mpr
      apply ends_modify_logged (Act.logged_unbindField _)
      intro w₃ hrun
      apply ends_modify_logged (Act.logged_unbindField _)
      intro w₄ hphase
      exact ⟨rfl, w₄, ((hbound.trans hstarting).trans hrun).trans hphase, rfl⟩
  obtain ⟨e, b', hrun, rfl, w, hlogged, rfl⟩ := hends.exists_fault
  exact ⟨w, hlogged, hrun⟩

/-- A run that a fixer has brought down leaves its context behind in the middle of a phase. The next
run with it is refused. -/
theorem refused_of_stranded :
    let b := (replyingRun (.report { fixedCount := "x" })).2
    b.context.state = .executing ∧
      (run Scenario.oneFile.crew Scenario.oneFile.phases b).1 =
        .error (.transition .executing .backingUp) := by
  intro b
  have hstate : b.context.state = .executing := by decide +kernel
  have hidle : b.context.state ≠ .idle := by
    rw [hstate]
    decide
  have hbegun : b.context.state ≠ .backingUp := by
    rw [hstate]
    decide
  obtain ⟨w, -, hrun⟩ :=
    refused_of_run Scenario.oneFile.crew Scenario.oneFile.phases hidle hbegun
  constructor
  · exact hstate
  · rw [hrun, hstate]

end RunAct

/-- A project with a link that leads in a circle and a file, which a fixer overwrites with success. -/
def Scenario.circular : Scenario :=
  { sample [(["p", "a.ts"], .file (Text.encode "old") 0o644), (["p", "loop"], .link "loop")]
      [.sample .syntactic ["loop"]] with
    crew := ⟨[(.syntactic, .replying (Text.encode "new") (.count 1))], []⟩ }

/-- A context that is not fresh is run again. The path of the first run cannot be followed, so that
the run fails while files are to be recorded; the second run, over another file, calls the fixer and
is completed. -/
theorem RunAct.completed_of_rerun :
    let first := run Scenario.circular.crew Scenario.circular.phases Scenario.circular.bench
    let second := run Scenario.circular.crew [.sample .syntactic ["a.ts"]] first.2
    first.1.toOption = none ∧ first.2.context.state = .backingUp ∧
      first.2.world.files.bytes? ["p", "a.ts"] = some (Text.encode "old") ∧
      second.1.toOption = some () ∧ second.2.context.state = .completed ∧
      second.2.context.history.length = 1 ∧
      second.2.world.files.bytes? ["p", "a.ts"] = some (Text.encode "new") := by
  decide +kernel

end Remedy
