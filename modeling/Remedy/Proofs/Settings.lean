import Remedy.Config.Reader
import Remedy.Proofs.Planning

/-!
# Settings that are read

What a reader accepts consists of parts that were accepted (`Checked.seq_eq_good` and its like), so
that every timeout among the settings of the planner is positive (`sound_of_reader`).
-/

set_option autoImplicit false

namespace Remedy

namespace Checked

variable {α β : Type}

@[simp] theorem seq_eq_good {f : Checked (α → β)} {a : Checked α} {b : β} :
    f <*> a = .good b ↔ ∃ g x, f = .good g ∧ a = .good x ∧ g x = b := by
  show Checked.seq f (fun _ ↦ a) = .good b ↔ _
  cases f <;> cases a <;> simp [Checked.seq]

@[simp] theorem map_eq_good {f : α → β} {a : Checked α} {b : β} :
    f <$> a = .good b ↔ ∃ x, a = .good x ∧ f x = b := by
  show (Checked.good f <*> a) = .good b ↔ _
  simp

@[simp] theorem within_eq_good {place : Json} {a : Checked α} {x : α} :
    a.within place = .good x ↔ a = .good x := by
  cases a <;> simp [within]

@[simp] theorem andThen_eq_good {a : Checked α} {f : α → Checked β} {b : β} :
    a.andThen f = .good b ↔ ∃ x, a = .good x ∧ f x = .good b := by
  cases a <;> simp [andThen]

theorem ensure_eq_good {a : Checked α} {reason : α → Option String} {x : α}
    (h : a.ensure reason = .good x) : a = .good x ∧ reason x = none := by
  obtain ⟨y, hy, h⟩ := andThen_eq_good.mp h
  split at h
  · cases h
    exact ⟨hy, ‹_›⟩
  · cases h

theorem must_eq_good {a : Checked α} {rule : String} {keeps : α → Bool} {x : α}
    (h : a.must rule keeps = .good x) : a = .good x ∧ keeps x = true := by
  obtain ⟨y, hy, h⟩ := andThen_eq_good.mp h
  split at h
  · cases h
    exact ⟨hy, ‹_›⟩
  · cases h

/-- Whatever stands in a list that is in order was in order itself. -/
theorem exists_of_all_eq_good {cs : List (Checked α)} {xs : List α} (h : all cs = .good xs) :
    ∀ x ∈ xs, .good x ∈ cs := by
  induction cs generalizing xs with
  | nil =>
    cases h
    exact nofun
  | cons c rest ih =>
    obtain ⟨g, ys, hg, hrest, rfl⟩ := seq_eq_good.mp h
    obtain ⟨y, rfl, rfl⟩ := map_eq_good.mp hg
    intro x hx
    rcases List.mem_cons.mp hx with rfl | hx
    · exact List.mem_cons_self
    · exact List.mem_cons_of_mem _ (ih hrest x hx)

end Checked

namespace Reader

open Checked

variable {α : Type}

theorem field_eq_good {fs : List (Setting × Setting)} {name : String} {read : Reader α}
    {other x : α} (h : field fs name read other = .good x) : x = other ∨ ∃ s, read s = .good x := by
  unfold field at h
  split at h
  · exact .inr ⟨_, within_eq_good.mp h⟩
  · cases h
    exact .inl rfl

theorem optional_eq_good {read : Reader α} {s : Setting} {x : α}
    (h : optional read s = .good (some x)) : read s = .good x := by
  unfold optional at h
  split at h
  · cases h
  · obtain ⟨y, hy, heq⟩ := map_eq_good.mp h
    cases heq
    exact hy

theorem exists_of_map_eq_good {read : Reader α} {s : Setting} {xs : List (String × α)}
    (h : map read s = .good xs) : ∀ x ∈ xs, ∃ s, read s = .good x.2 := by
  unfold map at h
  split at h
  · intro x hx
    obtain ⟨e, -, he⟩ := List.mem_map.mp (exists_of_all_eq_good h x hx)
    obtain ⟨g, y, hg, hy, rfl⟩ := seq_eq_good.mp (within_eq_good.mp he)
    obtain ⟨name, -, rfl⟩ := map_eq_good.mp hg
    exact ⟨e.2, hy⟩
  · cases h

/-- An optional setting that is left out or null gives nothing, and anything else what was read. -/
theorem optional_field_eq_good {fs : List (Setting × Setting)} {name : String} {read : Reader α}
    {x : α} (h : field fs name (optional read) none = .good (some x)) : ∃ s, read s = .good x := by
  rcases field_eq_good h with h | ⟨s, h⟩
  · cases h
  · exact ⟨s, optional_eq_good h⟩

theorem lt_of_positive {s : Setting} {t : Number} (h : positive s = .good t) :
    (0 : Number).lt t = true :=
  (must_eq_good h).2

end Reader

open Checked Reader

/-- The timeout of an override that is read is positive. -/
theorem PhaseOverride.positive_of_reader {s : Setting} {o : PhaseOverride}
    (h : PhaseOverride.reader s = .good o) {t : Number} (ht : o.timeout = some t) :
    (0 : Number).lt t = true := by
  unfold PhaseOverride.reader record at h
  split at h
  · simp only [seq_eq_good, map_eq_good] at h
    obtain ⟨_, _, ⟨_, _, ⟨_, timeout, ⟨_, _, rfl⟩, htimeout, rfl⟩, -, rfl⟩, -, rfl⟩ := h
    cases (show timeout = some t from ht)
    obtain ⟨s, hs⟩ := optional_field_eq_good htimeout
    exact lt_of_positive hs
  · cases h

theorem PlannerConfig.sound_of_reader {s : Setting} {c : PlannerConfig}
    (h : PlannerConfig.reader s = .good c) : c.Sound := by
  unfold PlannerConfig.reader record at h
  split at h
  · simp only [seq_eq_good, map_eq_good] at h
    obtain ⟨_, _, ⟨_, ceiling, ⟨phases, hphases, rfl⟩, hceiling, rfl⟩, -, rfl⟩ := h
    refine ⟨fun name o ho t ht ↦ ?_, fun t ht ↦ ?_⟩
    · rcases field_eq_good hphases with rfl | ⟨s, hs⟩
      · cases ho
      · obtain ⟨s', hs'⟩ := exists_of_map_eq_good (ensure_eq_good hs).1 (name, o) ho
        exact PhaseOverride.positive_of_reader hs' ht
    · cases (show ceiling = some t from ht)
      obtain ⟨s, hs⟩ := optional_field_eq_good hceiling
      exact lt_of_positive hs
  · cases h

/-- The settings of the planner as they are given, before the limits of the run are put in. -/
def plannerReader : Reader PlannerConfig := record fun fs ↦ field fs "planner" PlannerConfig.reader {}

/-- Settings that are read are those of the sections, with the limits of the run put in for the
ceilings that the planner is not given. -/
theorem Config.exists_of_reader {s : Setting} {c : Config} (h : Config.reader s = .good c) :
    ∃ own, plannerReader s = .good own ∧
      (c.run = {} ∨ ∃ s, RunConfig.reader s = .good c.run) ∧
      c.planner = { own with
        timeoutCeiling := some (own.timeoutCeiling.getD c.run.timeoutSeconds)
        retriesCeiling := some (own.retriesCeiling.getD c.run.maxRetries) } := by
  unfold Config.reader record at h
  split at h
  · simp only [seq_eq_good, map_eq_good] at h
    obtain ⟨_, _, ⟨_, _, ⟨_, _, ⟨_, _, ⟨_, _, ⟨_, _, ⟨_, _, ⟨_, own, ⟨run, hrun, rfl⟩, hown, rfl⟩,
      -, rfl⟩, -, rfl⟩, -, rfl⟩, -, rfl⟩, -, rfl⟩, -, rfl⟩, -, rfl⟩ := h
    exact ⟨own, hown, field_eq_good hrun, rfl⟩
  · cases h

theorem RunConfig.positive_of_reader {s : Setting} {c : RunConfig}
    (h : RunConfig.reader s = .good c) : (0 : Number).lt c.timeoutSeconds = true := by
  unfold RunConfig.reader record at h
  split at h
  · simp only [seq_eq_good, map_eq_good] at h
    obtain ⟨_, _, ⟨_, _, ⟨_, _, ⟨_, _, ⟨_, _, ⟨_, _, ⟨_, _, ⟨timeout, htimeout, rfl⟩, -, rfl⟩,
      -, rfl⟩, -, rfl⟩, -, rfl⟩, -, rfl⟩, -, rfl⟩, -, rfl⟩ := h
    rcases field_eq_good htimeout with rfl | ⟨s, hs⟩
    · exact (by decide : (0 : Number).lt (seconds 600) = true)
    · exact lt_of_positive hs
  · cases h

theorem Config.positive_of_reader {s : Setting} {c : Config} (h : Config.reader s = .good c) :
    (0 : Number).lt c.run.timeoutSeconds = true := by
  obtain ⟨-, -, hrun | ⟨s, hs⟩, -⟩ := Config.exists_of_reader h
  · rw [hrun]
    decide
  · exact RunConfig.positive_of_reader hs

theorem sound_of_plannerReader {s : Setting} {c : PlannerConfig} (h : plannerReader s = .good c) :
    c.Sound := by
  unfold plannerReader record at h
  split at h
  · rcases field_eq_good h with rfl | ⟨s, hs⟩
    · exact ⟨nofun, nofun⟩
    · exact PlannerConfig.sound_of_reader hs
  · cases h

/-- Also with the limits of the run put in, the settings of the planner can be planned with. -/
theorem Config.sound_of_reader {s : Setting} {c : Config} (h : Config.reader s = .good c) :
    c.planner.Sound := by
  obtain ⟨own, hown, -, hplanner⟩ := Config.exists_of_reader h
  have hsound := sound_of_plannerReader hown
  rw [hplanner]
  refine ⟨hsound.timeout, fun t ht ↦ ?_⟩
  cases hceiling : own.timeoutCeiling with
  | none =>
    rw [hceiling] at ht
    cases ht
    exact Config.positive_of_reader h
  | some ceiling =>
    rw [hceiling] at ht
    cases ht
    exact hsound.ceiling _ hceiling

/-- The limits of the run cap every phase, as long as the planner is not given a ceiling that lies
above them. -/
theorem exists_plan_within_run {s : Setting} {c : Config} (h : Config.reader s = .good c)
    (found : List Finding) :
    ∃ own phases, plannerReader s = .good own ∧ (∀ w, (plan c.planner found w).1 = .ok phases) ∧
      ∀ p ∈ phases,
        ((∀ t, own.timeoutCeiling = some t → t.le c.run.timeoutSeconds = true) →
          p.timeout.le c.run.timeoutSeconds = true) ∧
        ((∀ n, own.retriesCeiling = some n → n ≤ c.run.maxRetries) →
          p.retries ≤ c.run.maxRetries ∧ p.maxAttempts ≤ c.run.maxRetries + 1) := by
  obtain ⟨own, hown, -, hplanner⟩ := Config.exists_of_reader h
  obtain ⟨phases, hphases, hplan⟩ := exists_plan (Config.sound_of_reader h) found
  refine ⟨own, phases, hown, hphases, fun p hp ↦ ⟨fun hceiling ↦ ?_, fun hceiling ↦ ?_⟩⟩
  · have htimeout := (hplan.settles p hp).timeout
    rw [hplanner] at htimeout
    cases hgiven : own.timeoutCeiling with
    | none =>
      rw [hgiven] at htimeout
      exact htimeout.1
    | some t =>
      rw [hgiven] at htimeout
      exact Number.le_trans htimeout.1 (hceiling t hgiven)
  · have hretries : p.retries ≤ c.run.maxRetries := by
      rw [(hplan.settles p hp).retries, hplanner]
      refine (Nat.min_le_right _ _).trans ?_
      cases hgiven : own.retriesCeiling with
      | none => exact le_rfl
      | some n => exact hceiling n hgiven
    exact ⟨hretries, Nat.succ_le_succ hretries⟩

/-- Retries of the run that lie below those of a phase, and a ceiling that does not. -/
theorem exists_plan_within_run_sample :
    let s : Setting := .map [(.text "run", .map [(.text "max_retries", .number 0)])]
    ∃ c, Config.reader s = .good c ∧ ∃ own phases, plannerReader s = .good own ∧
      (∀ w, (plan c.planner [default] w).1 = .ok phases) ∧
      ∀ p ∈ phases,
        ((∀ t, own.timeoutCeiling = some t → t.le c.run.timeoutSeconds = true) →
          p.timeout.le c.run.timeoutSeconds = true) ∧
        ((∀ n, own.retriesCeiling = some n → n ≤ c.run.maxRetries) →
          p.retries ≤ c.run.maxRetries ∧ p.maxAttempts ≤ c.run.maxRetries + 1) :=
  ⟨_, rfl, exists_plan_within_run rfl [default]⟩

/-- A ceiling above the limits of the run lets a phase take longer, and be tried more often, than
the run allows. -/
theorem plan_beyond_run :
    let s : Setting := .map [
      (.text "run", .map [(.text "max_retries", .number 0), (.text "timeout_seconds", .number 1)]),
      (.text "planner", .map [
        (.text "timeout_ceiling", .number 400), (.text "retries_ceiling", .number 5)])]
    ∃ c phases p, Config.reader s = .good c ∧ (plan c.planner [default] default).1 = .ok phases ∧
      p ∈ phases ∧ ¬ p.timeout.le c.run.timeoutSeconds = true ∧ ¬ p.retries ≤ c.run.maxRetries ∧
      ¬ p.maxAttempts ≤ c.run.maxRetries + 1 := by
  intro s
  obtain ⟨c, hc⟩ : ∃ c, Config.reader s = .good c := ⟨_, rfl⟩
  obtain ⟨phases, hphases, hplan⟩ := exists_plan (Config.sound_of_reader hc) [default]
  cases hc
  obtain ⟨p, hp, hcause⟩ := List.mem_map.mp ((hplan.causes .syntactic).mpr List.mem_cons_self)
  have hsettles := hplan.settles p hp
  have htimeout := hsettles.timeout
  have hretries := hsettles.retries
  rw [hcause] at htimeout hretries
  have htwo : p.retries = 2 := hretries.trans (by decide)
  refine ⟨_, phases, p, rfl, hphases default, hp, ?_, ?_, ?_⟩
  · rcases htimeout.2 with h | ⟨-, hlt⟩
    · rw [h]
      decide
    · exact absurd hlt (by decide)
  · rw [htwo]
    decide
  · rw [Phase.maxAttempts, htwo]
    decide

end Remedy
