import Remedy.Proofs.Diagnostic.Reading
import Remedy.Proofs.Planning

/-!
# Reordering

The order of diagnostics does not matter. Lines in another order give the same findings, in an order
that differs at most within a place and a root cause (`findings_perm`, `map_rank_findings`), and
findings in another order have a plan that differs at most in the order of findings at one place
(`PlannerConfig.Sound.map_outline_of_perm`). Where no two different findings of a root cause are at
one place, nothing at all depends on the order.

`analyze_plan_of_perm` says so of the lines of two sources. That no two different findings share a
place cannot be left out of its last part: the second of two findings at one place may be the first
one in the other source (`analyze_plan_of_perm_tie`).
-/

set_option autoImplicit false

namespace Remedy

open Diagnostic

/-! ### Sorted lists -/

/-- Two orders of the same things that both go by a rank show the same ranks. -/
theorem map_eq_of_perm {α β : Type} [PartialOrder β] {rank : α → β} {xs ys : List α}
    (h : xs.Perm ys) (hxs : xs.Pairwise fun a b ↦ rank a ≤ rank b)
    (hys : ys.Pairwise fun a b ↦ rank a ≤ rank b) : xs.map rank = ys.map rank :=
  (h.map rank).eq_of_pairwise (fun _ _ _ _ ↦ le_antisymm) (List.pairwise_map.mpr hxs)
    (List.pairwise_map.mpr hys)

/-- Where a rank is held by one thing only, there is but one order that goes by it. -/
theorem eq_of_perm {α β : Type} [PartialOrder β] {rank : α → β} {xs ys : List α} (h : xs.Perm ys)
    (hxs : xs.Pairwise fun a b ↦ rank a ≤ rank b) (hys : ys.Pairwise fun a b ↦ rank a ≤ rank b)
    (hinj : ∀ a ∈ xs, ∀ b ∈ xs, rank a = rank b → a = b) : xs = ys :=
  h.eq_of_pairwise (fun a b ha hb hab hba ↦ hinj a ha b (h.mem_iff.mpr hb) (le_antisymm hab hba))
    hxs hys

/-! ### Findings -/

section Findings

variable {extra : ExtraCodes} {ds ds' : List Diagnostic}

theorem stablySorted_findings (extra : ExtraCodes) (ds : List Diagnostic) :
    StablySorted Finding.rank (ds.map (Finding.ofDiagnostic extra)) (findings extra ds) :=
  stablySorted_mergeSort (fun a b ↦ @Finding.le_iff_rank_le a b) _

theorem findings_perm (h : ds.Perm ds') : (findings extra ds).Perm (findings extra ds') :=
  (stablySorted_findings extra ds).perm.trans
    ((h.map _).trans (stablySorted_findings extra ds').perm.symm)

theorem map_rank_findings (h : ds.Perm ds') :
    (findings extra ds).map Finding.rank = (findings extra ds').map Finding.rank :=
  map_eq_of_perm (findings_perm h) (stablySorted_findings extra ds).ordered
    (stablySorted_findings extra ds').ordered

/-- Findings of one rank have the same root cause and the same place. -/
theorem Finding.cause_and_place_of_rank {f g : Finding} (h : f.rank = g.rank) :
    f.cause = g.cause ∧ f.place = g.place := by
  obtain ⟨hpriority, hplace⟩ := Prod.ext_iff.mp (toLex_inj.mp h)
  exact ⟨PlannerConfig.priority_injective hpriority, hplace⟩

end Findings

/-! ### Phases -/

/-- What a phase is but for the findings themselves. -/
structure Phase.Outline where
  name : String
  cause : RootCause
  priority : ℤ
  timeout : Number
  retries : ℕ
  required : Bool
  fixerRef : String
  errorCount : ℕ
  files : List Path

def Phase.outline (p : Phase) : Outline where
  name := p.name
  cause := p.cause
  priority := p.priority
  timeout := p.timeout
  retries := p.retries
  required := p.required
  fixerRef := p.fixerRef
  errorCount := p.errorCount
  files := p.files

namespace PlannerConfig

variable {c : PlannerConfig} {found found' : List Finding}

/-- The phase of a root cause that some of the findings have. -/
def phaseOf (c : PlannerConfig) (found : List Finding) (cause : RootCause) : Phase where
  name := phaseName (c.override cause) (PhaseDefaults.of cause).name
  cause := cause
  priority := cause.priority
  timeout := c.timeoutCeiling.elim (c.wantedTimeout cause) (c.wantedTimeout cause).min
  retries := (c.retriesCeiling.elim (c.wantedRetries cause : ℤ)
    fun n ↦ min (c.wantedRetries cause : ℤ) n).toNat
  required := (c.override cause).required.getD (PhaseDefaults.of cause).required
  fixerRef := cause.name
  findings := (found.filter (·.cause = cause)).mergeSort Finding.placeLe

theorem Sound.phase_eq_ok (hc : c.Sound) {cause : RootCause} (h : cause ∈ found.map Finding.cause) :
    c.phase cause (found.filter (·.cause = cause)) = .ok (c.phaseOf found cause) := by
  obtain ⟨f, hf, rfl⟩ := List.mem_map.mp h
  have hgroup : f ∈ (found.filter (·.cause = f.cause)).mergeSort Finding.placeLe := by simp [hf]
  have hretries : 0 ≤ c.retriesCeiling.elim (c.wantedRetries f.cause : ℤ)
      fun n ↦ min (c.wantedRetries f.cause : ℤ) n := by
    cases c.retriesCeiling <;> simp
  rw [phase_eq, Phase.make_eq (List.ne_nil_of_mem hgroup) (hc.isCapped f.cause).2 hretries]
  rfl

theorem mapM_eq_ok {α β ε : Type} {f : α → Except ε β} {g : α → β} {xs : List α}
    (h : ∀ x ∈ xs, f x = .ok (g x)) : xs.mapM f = .ok (xs.map g) := by
  induction xs with
  | nil => rfl
  | cons x rest ih =>
    obtain ⟨hx, hrest⟩ := List.forall_mem_cons.mp h
    rw [List.mapM_cons, hx, ih hrest]
    rfl

theorem Sound.phasesFor_eq (hc : c.Sound) (found : List Finding) :
    c.phasesFor found =
      .ok (((distinct (found.map Finding.cause)).map (c.phaseOf found)).mergeSort phaseLe) := by
  have hphases : (distinct (found.map Finding.cause)).mapM
      (fun cause ↦ c.phase cause (found.filter (·.cause = cause))) =
        .ok ((distinct (found.map Finding.cause)).map (c.phaseOf found)) :=
    mapM_eq_ok fun cause hcause ↦ hc.phase_eq_ok (mem_distinct.mp hcause)
  unfold phasesFor
  dsimp only
  rw [List.mapM_map]
  simp only [Function.comp_def, hphases]
  rfl

/-- The phases of a plan are those of the root causes that occur, by priority. -/
theorem Sound.exists_causes (hc : c.Sound) (found : List Finding) :
    ∃ causes : List RootCause, c.phasesFor found = .ok (causes.map (c.phaseOf found)) ∧
      causes.Pairwise (fun a b ↦ a.priority < b.priority) ∧
      ∀ cause, cause ∈ causes ↔ cause ∈ found.map Finding.cause := by
  obtain ⟨phases, hphases, hplan⟩ := hc.exists_phasesFor found
  have heq := hphases.symm.trans (hc.phasesFor_eq found)
  have hmem : ∀ p ∈ phases, p = c.phaseOf found p.cause := by
    intro p hp
    rw [Except.ok.inj heq, List.mem_mergeSort] at hp
    obtain ⟨cause, -, rfl⟩ := List.mem_map.mp hp
    rfl
  have hsame : phases.map (c.phaseOf found ∘ Phase.cause) = phases :=
    (List.map_congr_left fun p hp ↦ (hmem p hp).symm).trans (List.map_id phases)
  refine ⟨phases.map Phase.cause, ?_, ?_, hplan.causes⟩
  · rw [hphases, List.map_map, hsame]
  · refine List.pairwise_map.mpr (hplan.ordered.imp_of_mem fun {p q} hp hq hlt ↦ ?_)
    rw [hplan.priority p hp, hplan.priority q hq] at hlt
    exact_mod_cast hlt

/-- Findings in another order have the same root causes. -/
theorem Sound.exists_causes_of_perm (hc : c.Sound) (h : found.Perm found') :
    ∃ causes : List RootCause, c.phasesFor found = .ok (causes.map (c.phaseOf found)) ∧
      c.phasesFor found' = .ok (causes.map (c.phaseOf found')) := by
  obtain ⟨causes, hphases, hordered, hmem⟩ := hc.exists_causes found
  obtain ⟨causes', hphases', hordered', hmem'⟩ := hc.exists_causes found'
  have hsame : ∀ cause, cause ∈ causes ↔ cause ∈ causes' := fun cause ↦ by
    rw [hmem, hmem', (h.map Finding.cause).mem_iff]
  have hne : ∀ {a b : RootCause}, a.priority < b.priority → a ≠ b := by
    rintro a b hlt rfl
    exact lt_irrefl _ hlt
  have hperm : causes.Perm causes' :=
    (List.perm_ext_iff_of_nodup (hordered.imp hne) (hordered'.imp hne)).mpr hsame
  obtain rfl : causes = causes' :=
    hperm.eq_of_pairwise (fun _ _ _ _ hab hba ↦ absurd hba hab.asymm) hordered hordered'
  exact ⟨causes, hphases, hphases'⟩

theorem ordered_phaseOf (c : PlannerConfig) (found : List Finding) (cause : RootCause) :
    (c.phaseOf found cause).findings.Pairwise fun a b ↦ a.place ≤ b.place :=
  (stablySorted_mergeSort Finding.placeLe_iff _).ordered

theorem perm_phaseOf (c : PlannerConfig) (h : found.Perm found') (cause : RootCause) :
    (c.phaseOf found cause).findings.Perm (c.phaseOf found' cause).findings :=
  (List.mergeSort_perm _ _).trans ((h.filter _).trans (List.mergeSort_perm _ _).symm)

theorem outline_phaseOf (c : PlannerConfig) (h : found.Perm found') (cause : RootCause) :
    (c.phaseOf found cause).outline = (c.phaseOf found' cause).outline := by
  have hplaces := map_eq_of_perm (perm_phaseOf c h cause) (ordered_phaseOf c found cause)
    (ordered_phaseOf c found' cause)
  have hcount : (c.phaseOf found cause).errorCount = (c.phaseOf found' cause).errorCount :=
    (perm_phaseOf c h cause).length_eq
  -- The files are read off the places, so that they are the same even before they are sorted.
  have hfiles : (c.phaseOf found cause).files = (c.phaseOf found' cause).files := by
    have hof : ∀ fs : List Finding, fs.map (fun f ↦ Path.ofString f.file) =
        (fs.map Finding.place).map fun place ↦ Path.ofString (ofLex place).1 := by
      intro fs
      rw [List.map_map]
      rfl
    unfold Phase.files
    rw [hof, hof, hplaces]
  unfold Phase.outline
  rw [hcount, hfiles]
  rfl

/-- A plan for findings in another order has phases with the same outlines. -/
theorem Sound.map_outline_of_perm (hc : c.Sound) (h : found.Perm found') :
    ∃ phases phases', c.phasesFor found = .ok phases ∧ c.phasesFor found' = .ok phases' ∧
      phases.map Phase.outline = phases'.map Phase.outline := by
  obtain ⟨causes, hphases, hphases'⟩ := hc.exists_causes_of_perm h
  refine ⟨_, _, hphases, hphases', ?_⟩
  rw [List.map_map, List.map_map]
  exact List.map_congr_left fun cause _ ↦ outline_phaseOf c h cause

/-- Where no two different findings of a root cause are at one place, the plan is the same. -/
theorem Sound.phasesFor_of_perm (hc : c.Sound) (h : found.Perm found')
    (hplaces : ∀ f ∈ found, ∀ g ∈ found, f.cause = g.cause → f.place = g.place → f = g) :
    c.phasesFor found = c.phasesFor found' := by
  obtain ⟨causes, hphases, hphases'⟩ := hc.exists_causes_of_perm h
  rw [hphases, hphases']
  refine congrArg Except.ok (List.map_congr_left fun cause _ ↦ ?_)
  have hsame : (c.phaseOf found cause).findings = (c.phaseOf found' cause).findings := by
    refine eq_of_perm (perm_phaseOf c h cause) (ordered_phaseOf c found cause)
      (ordered_phaseOf c found' cause) fun f hf g hg hplace ↦ ?_
    have hgroup : ∀ {f}, f ∈ (c.phaseOf found cause).findings → f ∈ found ∧ f.cause = cause := by
      intro f hf
      simpa [phaseOf] using hf
    obtain ⟨hfound, hcause⟩ := hgroup hf
    obtain ⟨hfound', hcause'⟩ := hgroup hg
    exact hplaces f hfound g hfound' (hcause.trans hcause'.symm) hplace
  unfold phaseOf at hsame ⊢
  exact congrArg _ hsame

end PlannerConfig

theorem plan_fst {c : PlannerConfig} {found : List Finding} {phases : List Phase}
    (h : c.phasesFor found = .ok phases) (w : World) : (plan c found w).1 = .ok phases := by
  unfold plan
  rw [h]
  rfl

/-! ### Sources -/

/-- Lines in another order have the same findings, in an order of the same priorities and places,
and every order of these has a plan with the same outlines; and where no two different findings of a
root cause are at one place, findings and plans are the same. -/
theorem analyze_plan_of_perm {c : PlannerConfig} (hc : c.Sound) (extra : ExtraCodes)
    {a b : Source} (h : a.lines.Perm b.lines) (hreadable : a.Readable)
    (hcount : ∀ n ≤ a.lines.length, Countable n) :
    ∃ found found' : List Finding,
      (∀ w, (analyze extra a w).1 = .ok found ∧ (analyze extra b w).1 = .ok found') ∧
      found.Perm found' ∧
      found.map Finding.rank = found'.map Finding.rank ∧
      (found.map Finding.rank).Pairwise (· ≤ ·) ∧
      (∃ outlines : List Phase.Outline, ∀ fs, fs.Perm found →
        ∃ phases, (∀ w, (plan c fs w).1 = .ok phases) ∧ phases.map Phase.outline = outlines) ∧
      ((∀ f ∈ found, ∀ g ∈ found, f.cause = g.cause → f.place = g.place → f = g) →
        found = found' ∧ ∃ phases, ∀ fs, fs.Perm found → ∀ w, (plan c fs w).1 = .ok phases) := by
  have hread : ∀ w, (Diagnostic.read a w).1 = .ok (a.lines.filterMap onLine) :=
    read_fst hreadable hcount
  have hread' : ∀ w, (Diagnostic.read b w).1 = .ok (b.lines.filterMap onLine) :=
    read_fst (hreadable.of_perm h) (h.length_eq ▸ hcount)
  have hlines : (a.lines.filterMap onLine).Perm (b.lines.filterMap onLine) := h.filterMap onLine
  let found := findings extra (a.lines.filterMap onLine)
  let found' := findings extra (b.lines.filterMap onLine)
  have hranks : found.map Finding.rank = found'.map Finding.rank := map_rank_findings hlines
  refine ⟨found, found', fun w ↦ ⟨analyze_fst (hread w), analyze_fst (hread' w)⟩,
    findings_perm hlines, hranks, List.pairwise_map.mpr (stablySorted_findings extra _).ordered,
    ?_, ?_⟩
  · obtain ⟨phases, hphases, -⟩ := hc.exists_phasesFor found
    refine ⟨phases.map Phase.outline, fun fs hfs ↦ ?_⟩
    obtain ⟨given, again, hgiven, hagain, houtline⟩ := hc.map_outline_of_perm hfs
    obtain rfl : again = phases := Except.ok.inj (hagain.symm.trans hphases)
    exact ⟨given, plan_fst hgiven, houtline⟩
  · intro hplaces
    refine ⟨eq_of_perm (findings_perm hlines) (stablySorted_findings extra _).ordered
      (stablySorted_findings extra _).ordered fun f hf g hg hrank ↦ ?_, ?_⟩
    · obtain ⟨hcause, hplace⟩ := Finding.cause_and_place_of_rank hrank
      exact hplaces f hf g hg hcause hplace
    · obtain ⟨phases, hphases, -⟩ := hc.exists_phasesFor found
      refine ⟨phases, fun fs hfs ↦ plan_fst ?_⟩
      rw [← hc.phasesFor_of_perm hfs.symm hplaces, hphases]

/-- Two sources with the same lines, one of them in bytes and with blank lines. Of two diagnostics
at one place, each comes first in one of the sources. -/
theorem analyze_plan_of_perm_tie :
    let text := "b(2,1): error TS1005: x\n?\na(1,1): error TS2304: y\nb(2,1): error TS1005: z"
    let other := "b(2,1): error TS1005: z\r\n \na(1,1): error TS2304: y\nb(2,1): error TS1005: x\n?"
    let a := Source.text text
    let b := Source.bytes (Text.encode other)
    a.lines.Perm b.lines ∧ a.Readable ∧
    ∃ found found' : List Finding,
      (analyze [] a default).1 = .ok found ∧ (analyze [] b default).1 = .ok found' ∧
      found.map Finding.rank = found'.map Finding.rank ∧ found ≠ found' ∧
      ∃ phases phases', (plan {} found default).1 = .ok phases ∧
        (plan {} found' default).1 = .ok phases' ∧
        phases.map Phase.outline = phases'.map Phase.outline := by
  intro text other a b
  let x : Diagnostic := ⟨"b", 2, 1, "TS1005", "x", "b(2,1): error TS1005: x"⟩
  let y : Diagnostic := ⟨"a", 1, 1, "TS2304", "y", "a(1,1): error TS2304: y"⟩
  let z : Diagnostic := ⟨"b", 2, 1, "TS1005", "z", "b(2,1): error TS1005: z"⟩
  have hlines : a.lines.Perm b.lines := by decide
  have hfound : a.lines.filterMap onLine = [x, y, z] := by decide
  have hfound' : b.lines.filterMap onLine = [z, y, x] := by decide
  have hreadable : a.Readable := by
    intro line hline run hrun _
    have hshort : ∀ line ∈ a.lines, line.length ≤ Json.digitLimit := by decide
    exact hrun.length_le.trans (hshort line hline)
  have hcount : ∀ n ≤ a.lines.length, Countable n := by
    intro n hn
    have hlength : a.lines.length = 4 := by decide
    exact countable_of_lt (by omega)
  have hsound : ({} : PlannerConfig).Sound := ⟨nofun, nofun⟩
  obtain ⟨found, found', hanalyzed, hperm, hranks, -, ⟨outlines, hplans⟩, -⟩ :=
    analyze_plan_of_perm hsound [] hlines hreadable hcount
  obtain ⟨hanalyzed, hanalyzed'⟩ := hanalyzed default
  have hread : (Diagnostic.read a default).1 = .ok [x, y, z] :=
    hfound ▸ read_fst hreadable hcount default
  have hread' : (Diagnostic.read b default).1 = .ok [z, y, x] :=
    hfound' ▸ read_fst (hreadable.of_perm hlines) (hlines.length_eq ▸ hcount) default
  have heq : found = findings [] [x, y, z] :=
    Except.ok.inj (hanalyzed.symm.trans (analyze_fst hread))
  have heq' : found' = findings [] [z, y, x] :=
    Except.ok.inj (hanalyzed'.symm.trans (analyze_fst hread'))
  obtain ⟨phases, hphases, houtlines⟩ := hplans found (.refl _)
  obtain ⟨phases', hphases', houtlines'⟩ := hplans found' hperm.symm
  refine ⟨hlines, hreadable, found, found', hanalyzed, hanalyzed', hranks, ?_, phases, phases',
    hphases _, hphases' _, houtlines.trans houtlines'.symm⟩
  -- What ranks alike stays in the order of its source.
  intro hsame
  let rank := (Finding.ofDiagnostic [] x).rank
  have hstays : ([x, y, z].map (Finding.ofDiagnostic [])).filter (Finding.rank · = rank) =
      ([z, y, x].map (Finding.ofDiagnostic [])).filter (Finding.rank · = rank) := by
    rw [← (stablySorted_findings [] _).stable, ← (stablySorted_findings [] _).stable, ← heq, ← heq',
      hsame]
  exact absurd hstays (by decide)

end Remedy
