import Mathlib.Logic.Function.Basic
import Mathlib.Logic.Relation
import Remedy.Proofs.Lock.Steps

/-!
# Many activities and one lock

A standing is a world together with how far each activity has got with the lock on one file.
Activities open the file, go on step by step, give up and come to sudden ends, in any order; what
else goes on in the world leaves the locks and the file alone (`Parties.Step`).

Whatever happens, the lock is that of the one activity that has been granted it, if there is one
(`Owned`), and the file holds what each activity expects of it (`Parties.Ordered`): one step
preserves this (`Ordered.step`), and so does any row of steps (`Ordered.steps`).
-/

set_option autoImplicit false

namespace Remedy

open FileTree

/-- Activities, each with a lock of its own on one file and a process that it belongs to. -/
structure Parties where
  lock : ℕ → RunLock
  process : ℕ → ℕ
  owner : ∀ a, (lock a).owner = a
  absolute : ∀ a, (lock a).path.isAbsolute = true

structure Standing where
  world : World
  stage : ℕ → Stage

/-! ### Standings -/

namespace Standing

variable {s : Standing} {a b : ℕ} {stage stage' : Stage} {w w' : World}

/-- The standing after a step of one activity. -/
def put (s : Standing) (a : ℕ) (stage : Stage) (w : World) : Standing :=
  ⟨w, Function.update s.stage a stage⟩

@[simp]
theorem put_world : (s.put a stage w).world = w :=
  rfl

@[simp]
theorem put_stage_self : (s.put a stage w).stage a = stage := by
  simp [put]

@[simp]
theorem put_stage_of_ne (h : b ≠ a) : (s.put a stage w).stage b = s.stage b := by
  simp [put, h]

@[simp]
theorem put_put : (s.put a stage w).put a stage' w' = s.put a stage' w' := by
  simp [put]

theorem locks_put (hiff : stage.Locks ↔ (s.stage a).Locks) :
    ((s.put a stage w).stage b).Locks ↔ (s.stage b).Locks := by
  by_cases hb : b = a
  · subst hb
    simpa using hiff
  · simp [hb]

theorem put_eq_of_stage (h : s.stage a = stage) : s.put a stage w = ⟨w, s.stage⟩ := by
  simp [put, ← h]

end Standing

/-! ### Steps of a standing -/

namespace Parties

/-- What the file holds while an activity holds the lock. -/
def line (p : Parties) (a : ℕ) : Text.Bytes :=
  Text.encode ((p.lock a).holderLine (p.process a))

/-- One thing that happens. An activity that gives up, or comes to a sudden end, drops the lock, if
it has been granted, since its file is closed. -/
inductive Step (p : Parties) (route : Route) (s : Standing) : Standing → Prop
  | opens {a : ℕ} {files : FileTree} (hstage : s.stage a = .idle) (hsound : s.world.files.Sound)
      (hopen : FileAct.openEnd (p.lock a).path s.world.files = (.ok route, files)) :
      Step p route s (s.put a .waiting { s.world with files := files })
  | moves {a : ℕ} {stage : Stage} {w : World} (hprocess : s.world.process = p.process a)
      (hmove : (p.lock a).move route (s.stage a) s.world = (.ok stage, w)) :
      Step p route s (s.put a stage w)
  | givesUp {a : ℕ} {w : World}
      (hstage : s.stage a = .waiting ∨ s.stage a = .taken ∨ s.stage a = .emptied)
      (hdrop : (p.lock a).drop s.world = (.ok (), w)) : Step p route s (s.put a .idle w)
  | crashes {a : ℕ} {w : World} (hdrop : (p.lock a).drop s.world = (.ok (), w)) :
      Step p route s (s.put a .gone w)
  | others {w : World} (hlocks : w.locks = s.world.locks)
      (hbytes : w.files.bytes? route = s.world.files.bytes? route) : Step p route s ⟨w, s.stage⟩

/-- Things that happen one after the other. -/
abbrev Steps (p : Parties) (route : Route) : Standing → Standing → Prop :=
  Relation.ReflTransGen (p.Step route)

/-- No step is one of two activities. -/
theorem Step.stage_eq {p : Parties} {route : Route} {s s' : Standing} (h : p.Step route s s') :
    ∃ a, ∀ b, b ≠ a → s'.stage b = s.stage b := by
  cases h with
  | opens | moves | givesUp | crashes => exact ⟨_, fun _ hb ↦ Standing.put_stage_of_ne hb⟩
  | others => exact ⟨0, fun _ _ ↦ rfl⟩

end Parties

/-! ### Whose the locks are -/

theorem holderOf_eq_none_iff {route : Route} {locks : List (Route × ℕ)} :
    holderOf route locks = none ↔ ∀ a, (route, a) ∉ locks := by
  induction locks with
  | nil => simp [holderOf]
  | cons lock rest ih =>
    obtain ⟨r, b⟩ := lock
    by_cases hr : r = route
    · simp only [holderOf, if_pos hr, reduceCtorEq, false_iff, not_forall, not_not]
      exact ⟨b, by simp [hr]⟩
    · simp [holderOf, hr, Ne.symm hr, ih]

theorem RunLock.heldFile_eq_none_iff {a : ℕ} {locks : List (Route × ℕ)} :
    heldFile a locks = none ↔ ∀ route, (route, a) ∉ locks := by
  induction locks with
  | nil => simp [heldFile]
  | cons lock rest ih =>
    obtain ⟨r, b⟩ := lock
    by_cases hb : b = a
    · simp only [heldFile, if_pos hb, reduceCtorEq, false_iff, not_forall, not_not]
      exact ⟨r, by simp [hb]⟩
    · simp [heldFile, hb, Ne.symm hb, ih]

theorem RunLock.mem_of_heldFile {a : ℕ} {route : Route} {locks : List (Route × ℕ)}
    (h : heldFile a locks = some route) : (route, a) ∈ locks := by
  induction locks with
  | nil => cases h
  | cons lock rest ih =>
    obtain ⟨r, b⟩ := lock
    by_cases hb : b = a
    · rw [heldFile, if_pos hb] at h
      cases h
      simp [hb]
    · rw [heldFile, if_neg hb] at h
      exact List.mem_cons_of_mem _ (ih h)

/-- Each activity that has been granted its lock holds the lock on its file, and there are no other
locks. No file is locked twice. -/
structure Owned (file : ℕ → Route) (stages : ℕ → Stage) (locks : List (Route × ℕ)) : Prop where
  mem_iff : ∀ route a, (route, a) ∈ locks ↔ (stages a).Locks ∧ file a = route
  single : ∀ route a b, (route, a) ∈ locks → (route, b) ∈ locks → a = b

namespace Owned

variable {file : ℕ → Route} {stages : ℕ → Stage} {locks : List (Route × ℕ)} {route : Route}
  {a b : ℕ} {stage : Stage}

theorem eq_of_locks (h : Owned file stages locks) (ha : (stages a).Locks) (hb : (stages b).Locks)
    (hfile : file a = file b) : a = b :=
  h.single (file b) a b ((h.mem_iff _ a).mpr ⟨ha, hfile⟩) ((h.mem_iff _ b).mpr ⟨hb, rfl⟩)

theorem holderOf_eq_none_iff (h : Owned file stages locks) :
    holderOf route locks = none ↔ ∀ a, file a = route → ¬ (stages a).Locks := by
  simp only [Remedy.holderOf_eq_none_iff, h.mem_iff, not_and']

theorem heldFile_of_locks (h : Owned file stages locks) (ha : (stages a).Locks) :
    RunLock.heldFile a locks = some (file a) := by
  cases hheld : RunLock.heldFile a locks with
  | none =>
    have hmem := (h.mem_iff (file a) a).mpr ⟨ha, rfl⟩
    exact absurd hmem (RunLock.heldFile_eq_none_iff.mp hheld (file a))
  | some route => rw [((h.mem_iff route a).mp (RunLock.mem_of_heldFile hheld)).2]

theorem heldFile_of_not_locks (h : Owned file stages locks) (ha : ¬ (stages a).Locks) :
    RunLock.heldFile a locks = none := by
  rw [RunLock.heldFile_eq_none_iff]
  intro route hmem
  exact ha ((h.mem_iff route a).mp hmem).1

/-- Who goes on without taking or dropping the lock changes nothing about it. -/
theorem update (h : Owned file stages locks) (hiff : stage.Locks ↔ (stages a).Locks) :
    Owned file (Function.update stages a stage) locks := by
  refine ⟨fun route b ↦ ?_, h.single⟩
  rw [h.mem_iff]
  by_cases hb : b = a
  · subst hb
    simp [hiff]
  · simp [hb]

theorem take (h : Owned file stages locks) (hfree : holderOf (file a) locks = none)
    (ha : ¬ (stages a).Locks) (hstage : stage.Locks) :
    Owned file (Function.update stages a stage) ((file a, a) :: locks) := by
  have hnobody := Remedy.holderOf_eq_none_iff.mp hfree
  refine ⟨fun route b ↦ ?_, fun route b c hb hc ↦ ?_⟩
  · rw [List.mem_cons, h.mem_iff]
    by_cases hb : b = a
    · subst hb
      simp [ha, hstage, eq_comm]
    · simp [hb]
  · simp only [List.mem_cons, Prod.mk.injEq] at hb hc
    rcases hb with ⟨rfl, rfl⟩ | hb
    · rcases hc with ⟨-, rfl⟩ | hc
      · rfl
      · exact absurd hc (hnobody c)
    · rcases hc with ⟨rfl, rfl⟩ | hc
      · exact absurd hb (hnobody b)
      · exact h.single route b c hb hc

theorem drop (h : Owned file stages locks) (hstage : ¬ stage.Locks) :
    Owned file (Function.update stages a stage) (locks.filter fun h ↦ h.2 != a) := by
  refine ⟨fun route b ↦ ?_, fun route b c hb hc ↦ ?_⟩
  · rw [List.mem_filter, h.mem_iff]
    by_cases hb : b = a
    · subst hb
      simp [hstage]
    · simp [hb]
  · exact h.single route b c (List.mem_filter.mp hb).1 (List.mem_filter.mp hc).1

/-- Who has no lock has none to drop. -/
theorem filter_eq_self (h : Owned file stages locks) (ha : ¬ (stages a).Locks) :
    (locks.filter fun h ↦ h.2 != a) = locks := by
  rw [List.filter_eq_self]
  rintro ⟨route, b⟩ hmem
  have hb : b ≠ a := by
    rintro rfl
    exact ha ((h.mem_iff route b).mp hmem).1
  simpa using hb

end Owned

/-! ### What the file holds -/

/-- What an activity that has got so far may expect of the file. -/
def Stage.Expects (line : Text.Bytes) (content : Option Text.Bytes) : Stage → Prop
  | .idle | .gone => True
  | .waiting | .taken => content ≠ none
  | .emptied | .cleared => content = some []
  | .held => content = some line

section Expects

variable {line : Text.Bytes} {content content' : Option Text.Bytes} {stage : Stage}

theorem Stage.Expects.of_not_locks (h : stage.Expects line content) (hlocks : ¬ stage.Locks)
    (hthere : content' ≠ none) : stage.Expects line content' := by
  cases stage <;> simp_all [Expects, Locks]

theorem Stage.Expects.there (h : stage.Expects line content) (hlocks : stage.Locks) :
    content ≠ none := by
  cases stage <;> simp_all [Expects, Locks]

theorem Stage.Expects.of_none (h : stage.Expects line none) : stage.Expects line content := by
  cases stage <;> simp_all [Expects]

end Expects

/-! ### The invariant -/

namespace Parties

variable {p : Parties} {route : Route} {s s' : Standing} {a : ℕ} {stage : Stage} {w : World}

/-- There is one lock at most, that of the activity that has been granted it, and the file holds
what each activity expects of it. -/
structure Ordered (p : Parties) (route : Route) (s : Standing) : Prop where
  owned : Owned (fun _ ↦ route) s.stage s.world.locks
  expects : ∀ a, (s.stage a).Expects (p.line a) (s.world.files.bytes? route)

namespace Ordered

/-- What holds of one activity after its step and of all others holds of all. -/
theorem put (howned : Owned (fun _ ↦ route) (Function.update s.stage a stage) w.locks)
    (hown : stage.Expects (p.line a) (w.files.bytes? route))
    (hothers : ∀ b, b ≠ a → (s.stage b).Expects (p.line b) (w.files.bytes? route)) :
    p.Ordered route (s.put a stage w) := by
  refine ⟨howned, fun b ↦ ?_⟩
  by_cases hb : b = a
  · subst hb
    simpa using hown
  · simpa [hb] using hothers b hb

/-- Whoever has been granted the lock may write to the file, as nobody else expects anything of
what it holds. -/
theorem fill (h : p.Ordered route s) (ha : (s.stage a).Locks) (hstage : stage.Locks)
    {content : Text.Bytes} (hown : stage.Expects (p.line a) (some content)) :
    p.Ordered route
      (s.put a stage { s.world with files := s.world.files.filled route content }) := by
  have hbytes := bytes?_filled ((h.expects a).there ha) content
  refine put (h.owned.update (iff_of_true hstage ha)) (by simpa [hbytes] using hown) ?_
  intro b hb
  refine (h.expects b).of_not_locks (fun hlocks ↦ hb ?_) (by simp [hbytes])
  exact h.owned.eq_of_locks hlocks ha rfl

theorem drop (h : p.Ordered route s) (hstage : ¬ stage.Locks)
    (hown : stage.Expects (p.line a) (s.world.files.bytes? route)) :
    p.Ordered route (s.put a stage
      { s.world with locks := s.world.locks.filter fun h ↦ h.2 != (p.lock a).owner }) := by
  refine put ?_ hown fun b _ ↦ h.expects b
  dsimp only
  rw [p.owner]
  exact h.owned.drop hstage

theorem opens (h : p.Ordered route s) (hstage : s.stage a = .idle) (hsound : s.world.files.Sound)
    {files : FileTree}
    (hopen : FileAct.openEnd (p.lock a).path s.world.files = (.ok route, files)) :
    p.Ordered route (s.put a .waiting { s.world with files := files }) := by
  obtain ⟨-, -, hbytes⟩ := (ends_of_eq hopen).mp (FileAct.ends_openEnd hsound (p.absolute a))
  refine put (h.owned.update (by simp [hstage, Stage.Locks])) (by simp [Stage.Expects, hbytes])
    fun b _ ↦ ?_
  have hexpects := h.expects b
  dsimp only
  rw [hbytes]
  cases hcontent : s.world.files.bytes? route with
  | none =>
    rw [hcontent] at hexpects
    exact hexpects.of_none
  | some content =>
    rw [hcontent] at hexpects
    exact hexpects

theorem moves (h : p.Ordered route s) (hprocess : s.world.process = p.process a)
    (hmove : (p.lock a).move route (s.stage a) s.world = (.ok stage, w)) :
    p.Ordered route (s.put a stage w) := by
  have hexpects := h.expects a
  cases hstage : s.stage a with
  | idle | gone =>
    rw [hstage] at hmove
    cases hmove
    rw [Standing.put_eq_of_stage hstage]
    exact h
  | waiting =>
    rw [hstage] at hmove hexpects
    cases hfree : holderOf route s.world.locks with
    | none =>
      rw [RunLock.move_waiting_of_free hfree, p.owner] at hmove
      cases hmove
      have hnot : ¬ (s.stage a).Locks := by simp [hstage, Stage.Locks]
      exact put (h.owned.take hfree hnot (.inl rfl)) hexpects fun b _ ↦ h.expects b
    | some holder =>
      rw [RunLock.move_waiting_of_busy (by simp [hfree])] at hmove
      cases hmove
      rw [Standing.put_eq_of_stage hstage]
      exact h
  | taken =>
    rw [hstage, RunLock.move_taken] at hmove
    cases hmove
    exact h.fill (.inl hstage) (.inr (.inl rfl)) rfl
  | emptied =>
    rw [hstage] at hmove hexpects
    rw [RunLock.move_emptied _ hexpects] at hmove
    cases hmove
    refine h.fill (.inr (.inl hstage)) (.inr (.inr (.inl rfl))) ?_
    simp [Stage.Expects, line, hprocess]
  | held =>
    rw [hstage, RunLock.move_held] at hmove
    cases hmove
    exact h.fill (.inr (.inr (.inl hstage))) (.inr (.inr (.inr rfl))) rfl
  | cleared =>
    rw [hstage, RunLock.move_cleared] at hmove
    cases hmove
    exact h.drop (by simp [Stage.Locks]) trivial

theorem step (h : p.Ordered route s) (hstep : p.Step route s s') : p.Ordered route s' := by
  cases hstep with
  | opens hstage hsound hopen => exact h.opens hstage hsound hopen
  | moves hprocess hmove => exact h.moves hprocess hmove
  | givesUp _ hdrop =>
    rw [RunLock.drop_eq] at hdrop
    cases hdrop
    exact h.drop (by simp [Stage.Locks]) trivial
  | crashes hdrop =>
    rw [RunLock.drop_eq] at hdrop
    cases hdrop
    exact h.drop (by simp [Stage.Locks]) trivial
  | others hlocks hbytes =>
    refine ⟨?_, fun a ↦ ?_⟩
    · simpa only [hlocks] using h.owned
    · simpa only [hbytes] using h.expects a

theorem steps (h : p.Ordered route s) (hsteps : p.Steps route s s') : p.Ordered route s' := by
  induction hsteps with
  | refl => exact h
  | tail _ hstep ih => exact ih.step hstep

/-- Before anybody has opened the file there is nothing to be kept. -/
theorem of_idle (hlocks : s.world.locks = []) (hidle : ∀ a, s.stage a = .idle) :
    p.Ordered route s := by
  refine ⟨⟨fun route a ↦ ?_, fun route a b ha ↦ ?_⟩, fun a ↦ ?_⟩
  · simp [hlocks, hidle a, Stage.Locks]
  · simp [hlocks] at ha
  · simp [hidle a, Stage.Expects]

end Ordered

end Parties

end Remedy
