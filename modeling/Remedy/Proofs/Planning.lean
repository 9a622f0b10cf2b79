import Mathlib.Data.List.Nodup
import Remedy.Backup.Store
import Remedy.Plan
import Remedy.Proofs.Analysis
import Remedy.Proofs.Backup.Taking
import Remedy.Proofs.Number

/-!
# Plans

Planning splits findings by their root causes. What a plan is to be is `PlannerConfig.IsPlan`: one
phase for each root cause that occurs, in order of priority, and in it the findings of that cause,
sorted by place. `PlannerConfig.Settles` says which settings a phase has: those of the override,
where they are given, and the built-in ones otherwise, none above its ceiling.

With settings in which every timeout is positive (`PlannerConfig.Sound`), findings in any order have
a plan, and no action on the way to it fails (`exists_plan`).
-/

set_option autoImplicit false

namespace Remedy

/-! ### Sorting -/

/-- A list holds what another one holds, in order of rank; what ranks alike stays as it was. -/
structure StablySorted {α β : Type} [LinearOrder β] (rank : α → β) (xs ys : List α) : Prop where
  perm : ys.Perm xs
  ordered : ys.Pairwise fun a b ↦ rank a ≤ rank b
  stable : ∀ r, ys.filter (rank · = r) = xs.filter (rank · = r)

theorem stablySorted_mergeSort {α β : Type} [LinearOrder β] {rank : α → β} {le : α → α → Bool}
    (hle : ∀ a b, le a b = true ↔ rank a ≤ rank b) (xs : List α) :
    StablySorted rank xs (xs.mergeSort le) := by
  have htrans : ∀ a b c, le a b = true → le b c = true → le a c = true := by
    intro a b c hab hbc
    rw [hle] at *
    exact hab.trans hbc
  have htotal : ∀ a b, (le a b || le b a) = true := by
    intro a b
    rw [Bool.or_eq_true, hle, hle]
    exact Std.le_total
  refine ⟨List.mergeSort_perm xs le, ?_, fun r ↦ ?_⟩
  · exact (List.pairwise_mergeSort htrans htotal xs).imp fun {a b} h ↦ (hle a b).mp h
  · -- What ranks alike is in order already, so that sorting keeps it as it is.
    have halike : (xs.filter (rank · = r)).Pairwise fun a b ↦ le a b = true := by
      refine List.pairwise_filter.mpr (List.pairwise_of_forall fun a b ha hb ↦ ?_)
      rw [hle, of_decide_eq_true ha, of_decide_eq_true hb]
    have hsub : (xs.filter (rank · = r)).Sublist ((xs.mergeSort le).filter (rank · = r)) := by
      have h := (List.sublist_mergeSort htrans htotal halike List.filter_sublist).filter
        (rank · = r)
      simpa only [List.filter_filter, Bool.and_self] using h
    exact (hsub.eq_of_length ((List.mergeSort_perm xs le).filter _).length_eq.symm).symm

theorem Phase.make_eq {name : String} {cause : RootCause} {priority : ℤ} {timeout : Number}
    {retries : ℤ} {required : Bool} {fixerRef : String} {findings : List Finding}
    (hfindings : findings ≠ []) (htimeout : (0 : Number).lt timeout = true) (hretries : 0 ≤ retries) :
    make name cause priority timeout retries required fixerRef findings =
      .ok ⟨name, cause, priority, timeout, retries.toNat, required, fixerRef, findings⟩ := by
  unfold make
  rw [if_neg (by simpa using hfindings), if_neg (by simp [Number.not_le_of_lt htimeout]),
    if_neg (not_lt.mpr hretries)]

namespace PlannerConfig

/-- What phases are ordered by. -/
def phaseRank (p : Phase) : ℤ ×ₗ ℕᵒᵈ ×ₗ String :=
  toLex (p.priority, toLex (OrderDual.toDual p.errorCount, p.name))

theorem phaseLe_iff (a b : Phase) : phaseLe a b = true ↔ phaseRank a ≤ phaseRank b := by
  have hname : (!decide (b.name < a.name)) = true ↔ a.name ≤ b.name := by
    rw [Bool.not_eq_true', decide_eq_false_iff_not, not_lt]
  simp only [phaseLe, phaseRank, Prod.Lex.toLex_le_toLex, OrderDual.toDual_lt_toDual,
    OrderDual.toDual_inj, Bool.or_eq_true, Bool.and_eq_true, decide_eq_true_eq, beq_iff_eq, hname]

/-! ### Settings of phases -/

/-- What differs from the built-in settings for a root cause. -/
def override (c : PlannerConfig) (cause : RootCause) : PhaseOverride :=
  (Json.lookup cause.name c.phases).getD {}

/-- Every timeout that is given is positive. -/
structure Sound (c : PlannerConfig) : Prop where
  timeout : ∀ name o, (name, o) ∈ c.phases → ∀ t, o.timeout = some t → (0 : Number).lt t = true
  ceiling : ∀ t, c.timeoutCeiling = some t → (0 : Number).lt t = true

/-- How long the phase of a root cause would take without a ceiling. -/
def wantedTimeout (c : PlannerConfig) (cause : RootCause) : Number :=
  (c.override cause).timeout.getD (PhaseDefaults.of cause).timeout

/-- How often the phase of a root cause would be tried again without a ceiling. -/
def wantedRetries (c : PlannerConfig) (cause : RootCause) : Nat :=
  (c.override cause).retries.getD (PhaseDefaults.of cause).retries

/-- What is wanted, or the ceiling if it lies below that. -/
def IsCapped (wanted : Number) : Option Number → Number → Prop
  | none, given => given = wanted
  | some ceiling, given =>
    given.le ceiling = true ∧ (given = wanted ∨ given = ceiling ∧ ceiling.lt wanted = true)

/-- The settings of a phase are those of the override, where they are given, and the built-in ones
otherwise; the timeout and the retries are lowered to their ceilings. -/
structure Settles (c : PlannerConfig) (p : Phase) : Prop where
  /-- A given name that is empty does not count. -/
  name : p.name =
    ((c.override p.cause).name.filter (· ≠ "")).getD (PhaseDefaults.of p.cause).name
  required : p.required = (c.override p.cause).required.getD (PhaseDefaults.of p.cause).required
  timeout : IsCapped (c.wantedTimeout p.cause) c.timeoutCeiling p.timeout
  positive : (0 : Number).lt p.timeout = true
  retries : p.retries =
    c.retriesCeiling.elim (c.wantedRetries p.cause) (min (c.wantedRetries p.cause))

theorem phaseName_eq (o : PhaseOverride) (name : String) :
    phaseName o name = (o.name.filter (· ≠ "")).getD name := by
  unfold phaseName
  cases o.name with
  | none => rfl
  | some given => by_cases h : given = "" <;> simp [Option.filter, h]

variable {c : PlannerConfig}

theorem mem_of_lookup {α : Type} {name : String} {fields : List (String × α)} {a : α}
    (h : Json.lookup name fields = some a) : (name, a) ∈ fields := by
  induction fields with
  | nil => cases h
  | cons field rest ih =>
    obtain ⟨name', a'⟩ := field
    unfold Json.lookup at h
    split at h
    · rename_i heq
      cases h
      exact heq ▸ List.mem_cons_self
    · exact List.mem_cons_of_mem _ (ih h)

theorem positive_default (cause : RootCause) :
    (0 : Number).lt (PhaseDefaults.of cause).timeout = true := by
  cases cause <;> decide

theorem Sound.positive_wanted (hc : c.Sound) (cause : RootCause) :
    (0 : Number).lt (c.wantedTimeout cause) = true := by
  unfold wantedTimeout
  cases htimeout : (c.override cause).timeout with
  | none => exact positive_default cause
  | some t =>
    cases hlookup : Json.lookup cause.name c.phases with
    | none => simp [override, hlookup] at htimeout
    | some o =>
      rw [override, hlookup] at htimeout
      exact hc.timeout _ o (mem_of_lookup hlookup) t htimeout

/-- How long a phase may take and how often it is tried again are lowered one like the other. -/
theorem phase_eq (c : PlannerConfig) (cause : RootCause) (group : List Finding) :
    c.phase cause group = Phase.make (phaseName (c.override cause) (PhaseDefaults.of cause).name)
      cause cause.priority
      (c.timeoutCeiling.elim (c.wantedTimeout cause) (c.wantedTimeout cause).min)
      (c.retriesCeiling.elim (c.wantedRetries cause : ℤ) fun n ↦ min (c.wantedRetries cause : ℤ) n)
      ((c.override cause).required.getD (PhaseDefaults.of cause).required) cause.name
      (group.mergeSort Finding.placeLe) := by
  unfold phase
  cases c.timeoutCeiling <;> cases c.retriesCeiling <;> rfl

theorem Sound.isCapped (hc : c.Sound) (cause : RootCause) :
    IsCapped (c.wantedTimeout cause) c.timeoutCeiling
        (c.timeoutCeiling.elim (c.wantedTimeout cause) (c.wantedTimeout cause).min) ∧
      (0 : Number).lt (c.timeoutCeiling.elim (c.wantedTimeout cause) (c.wantedTimeout cause).min) =
        true := by
  have hwanted := hc.positive_wanted cause
  cases hceiling : c.timeoutCeiling with
  | none => exact ⟨rfl, hwanted⟩
  | some ceiling =>
    have hpositive := hc.ceiling ceiling hceiling
    refine ⟨⟨?_, Number.min_eq_left_or _ ceiling⟩, Number.lt_min hwanted hpositive⟩
    exact Number.min_le_right (Number.isNumber_of_lt hwanted).2 (Number.isNumber_of_lt hpositive).2

/-- Findings of a root cause make a phase of it, with the settings that it is to have. -/
theorem Sound.exists_phase (hc : c.Sound) (cause : RootCause) {group : List Finding}
    (hgroup : group ≠ []) : ∃ p, c.phase cause group = .ok p ∧ p.cause = cause ∧
      p.priority = cause.priority ∧ p.fixerRef = cause.name ∧
      p.findings = group.mergeSort Finding.placeLe ∧ c.Settles p := by
  obtain ⟨hcapped, hpositive⟩ := hc.isCapped cause
  have hsorted : group.mergeSort Finding.placeLe ≠ [] :=
    fun h ↦ hgroup (List.perm_nil.mp (h ▸ (List.mergeSort_perm _ _).symm))
  have hretries : 0 ≤ c.retriesCeiling.elim (c.wantedRetries cause : ℤ)
      fun n ↦ min (c.wantedRetries cause : ℤ) n := by
    cases c.retriesCeiling <;> simp
  refine ⟨_, (phase_eq c cause group).trans (Phase.make_eq hsorted hpositive hretries), rfl, rfl,
    rfl, rfl, ?_⟩
  refine ⟨phaseName_eq _ _, rfl, hcapped, hpositive, ?_⟩
  cases c.retriesCeiling with
  | none => rfl
  | some n =>
    show (min (c.wantedRetries cause : ℤ) n).toNat = min (c.wantedRetries cause) n
    omega

/-! ### Plans -/

/-- What a plan for findings is to be. -/
structure IsPlan (c : PlannerConfig) (found : List Finding) (phases : List Phase) : Prop where
  causes : ∀ cause, cause ∈ phases.map Phase.cause ↔ cause ∈ found.map Finding.cause
  nodup : (phases.map Phase.cause).Nodup
  priority : ∀ p ∈ phases, p.priority = p.cause.priority
  ordered : phases.Pairwise fun p q ↦ p.priority < q.priority
  findings : ∀ p ∈ phases, StablySorted Finding.place (found.filter (·.cause = p.cause)) p.findings
  partition : (phases.flatMap Phase.findings).Perm found
  settles : ∀ p ∈ phases, c.Settles p
  refs : (phases.map Phase.fixerRef).Nodup
  /-- The snapshots of a phase can be kept under the name of its fixer, next to those of the run. -/
  keys : ∀ p ∈ phases, isBackupName p.fixerRef = true ∧ p.fixerRef ≠ runKey

theorem exists_mapM {α β ε : Type} {f : α → Except ε β} {back : β → α} {Q : β → Prop}
    {xs : List α} (h : ∀ x ∈ xs, ∃ y, f x = .ok y ∧ back y = x ∧ Q y) :
    ∃ ys, xs.mapM f = .ok ys ∧ ys.map back = xs ∧ ∀ y ∈ ys, Q y := by
  induction xs with
  | nil => exact ⟨[], rfl, rfl, nofun⟩
  | cons x rest ih =>
    obtain ⟨y, hy, hback, hQ⟩ := h x List.mem_cons_self
    obtain ⟨ys, hys, hbacks, hrest⟩ := ih fun z hz ↦ h z (List.mem_cons_of_mem _ hz)
    refine ⟨y :: ys, ?_, by rw [List.map_cons, hback, hbacks], List.forall_mem_cons.mpr ⟨hQ, hrest⟩⟩
    rw [List.mapM_cons, hy, hys]
    rfl

theorem forall₂_of_mapM {α β ε : Type} {f : α → Except ε β} {xs : List α} {ys : List β}
    (h : xs.mapM f = .ok ys) : List.Forall₂ (fun x y ↦ f x = .ok y) xs ys := by
  induction xs generalizing ys with
  | nil =>
    cases h
    exact .nil
  | cons x rest ih =>
    rw [List.mapM_cons] at h
    rcases hx : f x with e | y
    · rw [hx] at h
      cases h
    rcases hrest : rest.mapM f with e | zs
    · rw [hx, hrest] at h
      cases h
    · rw [hx, hrest] at h
      cases h
      exact .cons hx (ih hrest)

/-- What is split by a key can be put together again. -/
theorem flatMap_filter_perm {α κ : Type} [DecidableEq κ] (key : α → κ) {ks : List κ}
    (hnodup : ks.Nodup) {xs : List α} (hkeys : ∀ x ∈ xs, key x ∈ ks) :
    (ks.flatMap fun k ↦ xs.filter (key · = k)).Perm xs := by
  induction ks generalizing xs with
  | nil =>
    rw [List.eq_nil_iff_forall_not_mem.mpr fun x hx ↦ List.not_mem_nil (hkeys x hx)]
    exact .nil
  | cons k rest ih =>
    obtain ⟨hk, hrest⟩ := List.nodup_cons.mp hnodup
    have hleft : ∀ x ∈ xs.filter fun x ↦ !decide (key x = k), key x ∈ rest := by
      intro x hx
      have hmem := List.mem_filter.mp hx
      exact (List.mem_cons.mp (hkeys x hmem.1)).resolve_left (by simpa using hmem.2)
    have hothers := ih hrest hleft
    have hsame : (rest.flatMap fun k' ↦ (xs.filter fun x ↦ !decide (key x = k)).filter
        (key · = k')) = rest.flatMap fun k' ↦ xs.filter (key · = k') := by
      refine List.flatMap_congr fun k' hk' ↦ ?_
      rw [List.filter_filter]
      refine List.filter_congr fun x _ ↦ ?_
      by_cases hx : key x = k'
      · have hne : key x ≠ k := fun h ↦ hk (h ▸ hx ▸ hk')
        simp [hx, hx ▸ hne]
      · simp [hx]
    rw [List.flatMap_cons]
    rw [hsame] at hothers
    exact (hothers.append_left _).trans (List.filter_append_perm _ xs)

theorem name_injective : Function.Injective RootCause.name := by
  intro a b h
  cases a <;> cases b <;> first | rfl | exact absurd h (by decide)

theorem priority_injective : Function.Injective RootCause.priority := by
  intro a b h
  cases a <;> cases b <;> first | rfl | exact absurd h (by decide)

theorem isBackupName_name (cause : RootCause) :
    isBackupName cause.name = true ∧ cause.name ≠ runKey := by
  cases cause <;> decide

/-- What is true of the phases in any order, as they are before they are put in order. -/
theorem Sound.exists_phases (hc : c.Sound) (found : List Finding) :
    ∃ phases : List Phase, c.phasesFor found = .ok (phases.mergeSort phaseLe) ∧
      phases.map Phase.cause = distinct (found.map Finding.cause) ∧
      ∀ p ∈ phases, p.priority = p.cause.priority ∧ p.fixerRef = p.cause.name ∧
        p.findings = (found.filter fun f ↦ f.cause = p.cause).mergeSort Finding.placeLe ∧
        c.Settles p := by
  let group : RootCause → RootCause × List Finding :=
    fun cause ↦ (cause, found.filter fun f ↦ f.cause = cause)
  obtain ⟨phases, hphases, hback, hspec⟩ :
      ∃ phases : List Phase,
        ((distinct (found.map Finding.cause)).map group).mapM (fun g ↦ c.phase g.1 g.2) =
          .ok phases ∧
        phases.map (fun p ↦ group p.cause) = (distinct (found.map Finding.cause)).map group ∧
        ∀ p ∈ phases, p.priority = p.cause.priority ∧ p.fixerRef = p.cause.name ∧
          p.findings = (found.filter fun f ↦ f.cause = p.cause).mergeSort Finding.placeLe ∧
          c.Settles p := by
    refine exists_mapM fun g hg ↦ ?_
    obtain ⟨cause, hcause, rfl⟩ := List.mem_map.mp hg
    obtain ⟨f, hf, rfl⟩ := List.mem_map.mp (mem_distinct.mp hcause)
    have hgroup : (found.filter fun g ↦ g.cause = f.cause) ≠ [] :=
      List.ne_nil_of_mem (List.mem_filter.mpr ⟨hf, decide_eq_true rfl⟩)
    obtain ⟨p, hp, hpcause, hpriority, href, hfindings, hsettles⟩ := hc.exists_phase f.cause hgroup
    rw [← hpcause] at hpriority href hfindings
    exact ⟨p, hp, congrArg group hpcause, hpriority, href, hfindings, hsettles⟩
  refine ⟨phases, ?_, ?_, hspec⟩
  · unfold phasesFor
    dsimp only
    rw [hphases]
    rfl
  · have hfst := congrArg (List.map Prod.fst) hback
    rwa [List.map_map, List.map_map, show Prod.fst ∘ group = id from rfl, List.map_id] at hfst

theorem Sound.exists_phasesFor (hc : c.Sound) (found : List Finding) :
    ∃ phases, c.phasesFor found = .ok phases ∧ c.IsPlan found phases := by
  obtain ⟨phases, hphases, hcauses, hspec⟩ := hc.exists_phases found
  have hperm := List.mergeSort_perm phases phaseLe
  have hmem : ∀ {p}, p ∈ phases.mergeSort phaseLe → p ∈ phases := hperm.mem_iff.mp
  have hnodup : (phases.map Phase.cause).Nodup := hcauses ▸ nodup_distinct _
  have hnodup' := (hperm.map Phase.cause).nodup_iff.mpr hnodup
  have hoccurs : ∀ cause, cause ∈ phases.map Phase.cause ↔ cause ∈ found.map Finding.cause :=
    fun cause ↦ by rw [hcauses, mem_distinct]
  refine ⟨_, hphases, ?_⟩
  constructor
  case causes => exact fun cause ↦ (hperm.map Phase.cause).mem_iff.trans (hoccurs cause)
  case nodup => exact hnodup'
  case priority => exact fun p hp ↦ (hspec p (hmem hp)).1
  case settles => exact fun p hp ↦ (hspec p (hmem hp)).2.2.2
  case keys => exact fun p hp ↦ (hspec p (hmem hp)).2.1 ▸ isBackupName_name p.cause
  case findings =>
    intro p hp
    rw [(hspec p (hmem hp)).2.2.1]
    exact stablySorted_mergeSort Finding.placeLe_iff _
  case refs =>
    have hrefs : (phases.mergeSort phaseLe).map Phase.fixerRef =
        ((phases.mergeSort phaseLe).map Phase.cause).map RootCause.name := by
      rw [List.map_map]
      exact List.map_congr_left fun p hp ↦ (hspec p (hmem hp)).2.1
    rw [hrefs]
    exact hnodup'.map name_injective
  case ordered =>
    -- The order of sorting puts no phase behind one of a higher priority, and no two have the same.
    have hsorted := (stablySorted_mergeSort phaseLe_iff phases).ordered
    refine (hsorted.and (List.pairwise_map.mp hnodup')).imp_of_mem ?_
    rintro p q hp hq ⟨hle, hne⟩
    rcases Prod.Lex.toLex_le_toLex.mp hle with hlt | ⟨heq, -⟩
    · exact hlt
    · have heq' : p.priority = q.priority := heq
      rw [(hspec p (hmem hp)).1, (hspec q (hmem hq)).1, Nat.cast_inj] at heq'
      exact absurd (priority_injective heq') hne
  case partition =>
    have hsplit := flatMap_filter_perm Finding.cause hnodup
      fun f hf ↦ (hoccurs f.cause).mpr (List.mem_map_of_mem hf)
    rw [List.flatMap_map] at hsplit
    refine (hperm.flatMap_right _).trans (.trans ?_ hsplit)
    refine List.Perm.flatMap_left _ fun p hp ↦ ?_
    rw [(hspec p hp).2.2.1]
    exact List.mergeSort_perm _ _

theorem findings_of_make {name : String} {cause : RootCause} {priority : ℤ} {timeout : Number}
    {retries : ℤ} {required : Bool} {fixerRef : String} {findings : List Finding} {p : Phase}
    (h : Phase.make name cause priority timeout retries required fixerRef findings = .ok p) :
    p.findings = findings := by
  unfold Phase.make at h
  split at h
  · cases h
  · split at h
    · cases h
    · split at h
      · cases h
      · cases h
        rfl

/-- Findings in groups, one for each root cause. -/
def groups (found : List Finding) : List (RootCause × List Finding) :=
  (distinct (found.map (·.cause))).map fun cause ↦ (cause, found.filter fun f ↦ f.cause = cause)

theorem exists_of_phasesFor {found : List Finding} {phases : List Phase}
    (h : c.phasesFor found = .ok phases) :
    ∃ ps, (groups found).mapM (fun g ↦ c.phase g.1 g.2) = .ok ps ∧ phases = ps.mergeSort phaseLe := by
  have h : ((groups found).mapM (fun g ↦ c.phase g.1 g.2) >>= fun ps ↦
      pure (ps.mergeSort phaseLe)) = .ok phases := h
  obtain ⟨ps, hps, hsorted⟩ := exists_of_bind_eq_ok h
  exact ⟨ps, hps, (Except.ok.inj hsorted).symm⟩

/-- Whatever the settings, no phase of a plan is behind one of a lower priority. -/
theorem ordered_of_phasesFor {found : List Finding} {phases : List Phase}
    (h : c.phasesFor found = .ok phases) : phases.Pairwise fun p q ↦ p.priority ≤ q.priority := by
  obtain ⟨ps, -, rfl⟩ := exists_of_phasesFor h
  refine (stablySorted_mergeSort phaseLe_iff ps).ordered.imp fun {p q} hle ↦ ?_
  rcases Prod.Lex.toLex_le_toLex.mp hle with hlt | ⟨heq, -⟩
  · exact hlt.le
  · exact heq.le

/-- Whatever the settings, the phases of a plan have all findings and no others. -/
theorem mem_findings_of_phasesFor {found : List Finding} {phases : List Phase}
    (h : c.phasesFor found = .ok phases) (f : Finding) :
    f ∈ found ↔ ∃ p ∈ phases, f ∈ p.findings := by
  obtain ⟨ps, hps, rfl⟩ := exists_of_phasesFor h
  have hphases := forall₂_of_mapM hps
  have hfindings : ∀ {g : RootCause × List Finding} {p : Phase}, c.phase g.1 g.2 = .ok p →
      ∀ f, f ∈ p.findings ↔ f ∈ g.2 := by
    intro g p hp f
    rw [phase_eq] at hp
    rw [findings_of_make hp, List.mem_mergeSort]
  simp only [List.mem_mergeSort]
  constructor
  · intro hf
    have hgroup : (f.cause, found.filter fun g ↦ g.cause = f.cause) ∈ groups found :=
      List.mem_map_of_mem (mem_distinct.mpr (List.mem_map_of_mem hf))
    obtain ⟨p, hp, hphase⟩ := answered hphases hgroup
    exact ⟨p, hp, (hfindings hphase f).mpr (List.mem_filter.mpr ⟨hf, decide_eq_true rfl⟩)⟩
  · rintro ⟨p, hp, hf⟩
    obtain ⟨g, hg, hphase⟩ := answered (List.Forall₂.flip hphases) hp
    obtain ⟨cause, -, rfl⟩ := List.mem_map.mp hg
    exact (List.mem_filter.mp ((hfindings hphase f).mp hf)).1

end PlannerConfig

/-- Findings in any order have a plan, and no action on the way to it fails. -/
theorem exists_plan {c : PlannerConfig} (hc : c.Sound) (found : List Finding) :
    ∃ phases, (∀ w, (plan c found w).1 = .ok phases) ∧ c.IsPlan found phases := by
  obtain ⟨phases, hphases, hplan⟩ := hc.exists_phasesFor found
  refine ⟨phases, fun w ↦ ?_, hplan⟩
  unfold plan
  rw [hphases]
  rfl

end Remedy
