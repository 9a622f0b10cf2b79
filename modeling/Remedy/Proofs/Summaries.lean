import Mathlib.Algebra.BigOperators.Group.List.Basic
import Remedy.Analysis.Summary
import Remedy.Proofs.Gate
import Remedy.Proofs.Planning

/-!
# Summaries of findings

A summary groups findings by file, by root cause and by severity, each time so that every finding is
in one group and in each group they stay in order (`Splits`). What is counted for a name, be it a
code or a file with critical findings, is listed by counts, and by name among equals (`Ranked`). A
recommendation is given for each root cause that occurs, in order of priority.

`sums_ofFindings` states all of this for findings in any order. Two general facts carry it: groups by
a key that all findings have (`splits_groups`), and names that are counted once each
(`ranked_of_nodup`).
-/

set_option autoImplicit false

namespace Remedy

/-- The groups are those of the elements of a list by a key: none is empty, each element is in one of
them, and in each the elements are in order. -/
structure Splits {α κ : Type} [DecidableEq κ] (key : α → κ) (xs : List α)
    (groups : List (κ × List α)) : Prop where
  nodup : (groups.map Prod.fst).Nodup
  group : ∀ g ∈ groups, g.2 = xs.filter fun x ↦ key x = g.1
  nonempty : ∀ g ∈ groups, g.2 ≠ []
  covers : ∀ x ∈ xs, key x ∈ groups.map Prod.fst
  perm : (groups.flatMap Prod.snd).Perm xs
  sizes : (groups.map fun g ↦ g.2.length).sum = xs.length

/-- The groups are in the order of their first elements. -/
def InOrder {α κ : Type} [DecidableEq κ] (key : α → κ) (xs : List α)
    (groups : List (κ × List α)) : Prop :=
  groups.Pairwise fun g g' ↦ (xs.map key).idxOf g.1 < (xs.map key).idxOf g'.1

section Groups

variable {α κ : Type} [DecidableEq κ] {key : α → κ} {xs : List α} {ks : List κ}

/-- What is grouped by keys that occur, each once, if no key is left out. -/
theorem splits_groups (hnodup : ks.Nodup) (hmem : ∀ k, k ∈ ks ↔ k ∈ xs.map key) :
    Splits key xs (ks.map fun k ↦ (k, xs.filter fun x ↦ key x = k)) := by
  have hkeys : (ks.map fun k ↦ (k, xs.filter fun x ↦ key x = k)).map Prod.fst = ks := by
    rw [List.map_map]
    exact List.map_id ks
  have hcovers : ∀ x ∈ xs, key x ∈ ks := fun x hx ↦ (hmem _).mpr (List.mem_map_of_mem hx)
  have hperm := PlannerConfig.flatMap_filter_perm key hnodup hcovers
  constructor
  case nodup => rwa [hkeys]
  case covers => rwa [hkeys]
  case group =>
    intro g hg
    obtain ⟨k, -, rfl⟩ := List.mem_map.mp hg
    rfl
  case nonempty =>
    intro g hg
    obtain ⟨k, hk, rfl⟩ := List.mem_map.mp hg
    obtain ⟨x, hx, rfl⟩ := List.mem_map.mp ((hmem k).mp hk)
    exact List.ne_nil_of_mem (List.mem_filter.mpr ⟨hx, decide_eq_true rfl⟩)
  case perm => rwa [List.flatMap_map]
  case sizes =>
    rw [← hperm.length_eq, List.length_flatMap, List.map_map]
    rfl

theorem splits_groupBy (key : α → κ) (xs : List α) : Splits key xs (groupBy key xs) :=
  splits_groups (nodup_distinct _) fun _ ↦ mem_distinct

theorem inOrder_groupBy (key : α → κ) (xs : List α) : InOrder key xs (groupBy key xs) :=
  List.pairwise_map.mpr (pairwise_idxOf_distinct _)

/-- Of each group something is told. -/
theorem mem_map_groupBy {β : Type} {tell : List α → β} {k : κ} {b : β} :
    (k, b) ∈ (groupBy key xs).map (fun g ↦ (g.1, tell g.2)) ↔
      k ∈ xs.map key ∧ b = tell (xs.filter fun x ↦ key x = k) := by
  simp only [groupBy, List.map_map, List.mem_map (f := _ ∘ _), mem_distinct, Function.comp_apply,
    Prod.mk.injEq]
  constructor
  · rintro ⟨_, hk, rfl, rfl⟩
    exact ⟨hk, rfl⟩
  · rintro ⟨hk, rfl⟩
    exact ⟨k, hk, rfl, rfl⟩

theorem map_fst_groupBy {β : Type} (tell : List α → β) :
    ((groupBy key xs).map fun g ↦ (g.1, tell g.2)).map Prod.fst = distinct (xs.map key) := by
  rw [groupBy, List.map_map, List.map_map]
  exact List.map_id _

end Groups

namespace AnalysisSummary

/-! ### Names that are counted -/

/-- The greater count comes first, and of names with the same count the smaller one. -/
def Before (a b : String × ℕ) : Prop := b.2 < a.2 ∨ a.2 = b.2 ∧ a.1 < b.1

/-- What names that are counted are ordered by. -/
def countRank (c : String × ℕ) : ℕᵒᵈ ×ₗ String := toLex (OrderDual.toDual c.2, c.1)

theorem pairwise_ranked {counts : List (String × ℕ)} (hnodup : (counts.map Prod.fst).Nodup) :
    (ranked counts).Pairwise Before := by
  have hsorted : StablySorted countRank counts (ranked counts) := by
    refine stablySorted_mergeSort (fun a b ↦ ?_) counts
    have hname : (!decide (b.1 < a.1)) = true ↔ a.1 ≤ b.1 := by
      rw [Bool.not_eq_true', decide_eq_false_iff_not, not_lt]
    simp only [countRank, Prod.Lex.toLex_le_toLex, OrderDual.toDual_lt_toDual, OrderDual.toDual_inj,
      Bool.or_eq_true, Bool.and_eq_true, decide_eq_true_eq, beq_iff_eq, hname]
  have hnodup' : ((ranked counts).map Prod.fst).Nodup :=
    (hsorted.perm.map Prod.fst).nodup_iff.mpr hnodup
  refine (hsorted.ordered.and (List.pairwise_map.mp hnodup')).imp ?_
  rintro a b ⟨hle, hne⟩
  rcases Prod.Lex.toLex_le_toLex.mp hle with hlt | ⟨heq, hname⟩
  · exact .inl hlt
  · exact .inr ⟨heq, lt_of_le_of_ne hname hne⟩

theorem mem_ranked {counts : List (String × ℕ)} {c : String × ℕ} :
    c ∈ ranked counts ↔ c ∈ counts :=
  List.mem_mergeSort

/-! ### Recommendations -/

theorem mem_sortedNames {names : List String} {name : String} :
    name ∈ sortedNames names ↔ name ∈ names :=
  List.mem_mergeSort.trans mem_distinct

/-- Names are sorted without repetition. -/
theorem pairwise_sortedNames (names : List String) : (sortedNames names).Pairwise (· < ·) := by
  have hsorted : StablySorted id (distinct names) (sortedNames names) := by
    refine stablySorted_mergeSort (fun a b ↦ ?_) _
    rw [Bool.not_eq_true', decide_eq_false_iff_not, not_lt]
    rfl
  have hnodup : (sortedNames names).Nodup := hsorted.perm.nodup_iff.mpr (nodup_distinct names)
  exact (hsorted.ordered.and hnodup).imp fun h ↦ lt_of_le_of_ne h.1 h.2

/-- The text for a root cause names the number of its findings and the first three of their codes. -/
def Recommends (found : List Finding) (cause : RootCause) (text : String) : Prop :=
  ∃ codes : List String, codes.Pairwise (· < ·) ∧
    (∀ code, code ∈ codes ↔ ∃ f ∈ found, f.cause = cause ∧ f.code = code) ∧
    text = advice cause ++ " (" ++ toString (found.countP fun f ↦ f.cause = cause) ++ ": " ++
      String.intercalate ", " (codes.take 3) ++ ")"

theorem recommends_recommendation (found : List Finding) (cause : RootCause) :
    Recommends found cause (recommendation cause (found.filter fun f ↦ f.cause = cause)) := by
  refine ⟨sortedNames ((found.filter fun f ↦ f.cause = cause).map Finding.code),
    pairwise_sortedNames _, fun code ↦ ?_, ?_⟩
  · rw [mem_sortedNames]
    simp [and_assoc]
  · rw [List.countP_eq_length_filter]
    rfl

/-- What is said if there is nothing to remedy. -/
def clean : String := "No diagnostics found; nothing to remediate"

theorem ne_clean_of_recommends {found : List Finding} {cause : RootCause} {text : String}
    (h : Recommends found cause text) : text ≠ clean := by
  obtain ⟨codes, -, -, rfl⟩ := h
  intro heq
  have hhead := congrArg (fun s : String ↦ s.toList.head?) heq
  cases cause <;> simp [advice, clean] at hhead

/-! ### Summaries -/

/-- How many critical findings are in a file. -/
def criticalIn (found : List Finding) (file : String) : ℕ :=
  found.countP fun f ↦ f.file = file ∧ f.severity = .critical

/-- What a summary of findings is to be. -/
structure Sums (s : AnalysisSummary) (found : List Finding) : Prop where
  total : s.total = found.length
  byFile : Splits Finding.file found s.byFile ∧ InOrder Finding.file found s.byFile
  byCause : Splits Finding.cause found s.byCause ∧
    s.byCause.Pairwise fun g g' ↦ g.1.priority < g'.1.priority
  bySeverity : Splits Finding.severity found s.bySeverity ∧
    InOrder Finding.severity found s.bySeverity
  byCode : ∀ code n, (code, n) ∈ s.byCode ↔
    code ∈ found.map Finding.code ∧ n = (found.map Finding.code).count code
  byCodeOrder : s.byCode.Pairwise Before
  criticalFiles : ∀ file, file ∈ s.criticalFiles ↔
    ∃ f ∈ found, f.file = file ∧ f.severity = .critical
  criticalFilesOrder : s.criticalFiles.Pairwise fun a b ↦
    Before (a, criticalIn found a) (b, criticalIn found b)
  recommendations : found ≠ [] →
    List.Forall₂ (fun g text ↦ Recommends found g.1 text) s.byCause s.recommendations
  clean : s.recommendations = [clean] ↔ found = []

theorem byCause_eq (found : List Finding) :
    (ofFindings found).byCause =
      (RootCause.all.filter fun cause ↦ cause ∈ found.map Finding.cause).map fun cause ↦
        (cause, found.filter fun f ↦ f.cause = cause) := by
  rw [← List.filterMap_eq_map, List.filterMap_filter]
  refine List.filterMap_congr fun cause _ ↦ ?_
  by_cases hmem : cause ∈ found.map Finding.cause
  · obtain ⟨f, hf, rfl⟩ := List.mem_map.mp hmem
    have hne : (found.filter fun g ↦ g.cause = f.cause) ≠ [] :=
      List.ne_nil_of_mem (List.mem_filter.mpr ⟨hf, decide_eq_true rfl⟩)
    simp [hmem, hne]
  · have hnil : (found.filter fun g ↦ g.cause = cause) = [] := by
      refine List.filter_eq_nil_iff.mpr fun f hf hcause ↦ hmem ?_
      exact of_decide_eq_true hcause ▸ List.mem_map_of_mem hf
    simp [hmem, hnil]

theorem splits_byCause (found : List Finding) :
    Splits Finding.cause found (ofFindings found).byCause := by
  rw [byCause_eq]
  refine splits_groups (List.Nodup.filter _ (by decide)) fun cause ↦ ?_
  simp [RootCause.mem_all]

theorem pairwise_byCause (found : List Finding) :
    (ofFindings found).byCause.Pairwise fun g g' ↦ g.1.priority < g'.1.priority := by
  have hall : RootCause.all.Pairwise fun a b ↦ a.priority < b.priority := by decide
  rw [byCause_eq]
  exact List.pairwise_map.mpr (hall.filter _)

/-- How many critical findings are in the files of a list of findings. -/
def criticalCounts (found : List Finding) : List (String × ℕ) :=
  (groupBy Finding.file found).map fun g ↦ (g.1, g.2.countP fun f ↦ f.severity = .critical)

theorem mem_criticalCounts {found : List Finding} {file : String} {n : ℕ} :
    (file, n) ∈ criticalCounts found ↔ file ∈ found.map Finding.file ∧ n = criticalIn found file := by
  rw [criticalCounts, mem_map_groupBy, List.countP_filter, criticalIn]
  simp only [Bool.decide_and, Bool.and_comm]

theorem criticalFiles_eq (found : List Finding) :
    (ofFindings found).criticalFiles =
      (ranked ((criticalCounts found).filter fun c ↦ 0 < c.2)).map Prod.fst :=
  rfl

theorem mem_criticalFiles {found : List Finding} {file : String} :
    file ∈ (ofFindings found).criticalFiles ↔
      ∃ f ∈ found, f.file = file ∧ f.severity = .critical := by
  have hcount : 0 < criticalIn found file ↔ ∃ f ∈ found, f.file = file ∧ f.severity = .critical := by
    simp [criticalIn, List.countP_pos_iff]
  rw [criticalFiles_eq, ← hcount]
  simp only [List.mem_map, mem_ranked, List.mem_filter, decide_eq_true_eq, Prod.exists,
    mem_criticalCounts]
  constructor
  · rintro ⟨_, _, ⟨⟨-, rfl⟩, hpos⟩, rfl⟩
    exact hpos
  · intro hpos
    obtain ⟨f, hf, rfl, -⟩ := hcount.mp hpos
    exact ⟨_, _, ⟨⟨⟨f, hf, rfl⟩, rfl⟩, hpos⟩, rfl⟩

theorem pairwise_criticalFiles (found : List Finding) :
    (ofFindings found).criticalFiles.Pairwise fun a b ↦
      Before (a, criticalIn found a) (b, criticalIn found b) := by
  rw [criticalFiles_eq]
  have hnodup : (((criticalCounts found).filter fun c ↦ 0 < c.2).map Prod.fst).Nodup := by
    refine List.Nodup.sublist (List.filter_sublist.map _) ?_
    rw [criticalCounts, map_fst_groupBy]
    exact nodup_distinct _
  have hcounts : ∀ c ∈ ranked ((criticalCounts found).filter fun c ↦ 0 < c.2),
      c = (c.1, criticalIn found c.1) := by
    intro c hc
    obtain ⟨file, n⟩ := c
    rw [(mem_criticalCounts.mp (List.mem_filter.mp (mem_ranked.mp hc)).1).2]
  refine List.pairwise_map.mpr ((pairwise_ranked hnodup).imp_of_mem fun {a b} ha hb h ↦ ?_)
  rwa [hcounts a ha, hcounts b hb] at h

theorem mem_byCode {found : List Finding} {code : String} {n : ℕ} :
    (code, n) ∈ (ofFindings found).byCode ↔
      code ∈ found.map Finding.code ∧ n = (found.map Finding.code).count code := by
  refine mem_ranked.trans (mem_map_groupBy.trans ?_)
  rw [List.count, List.countP_map, List.countP_eq_length_filter]
  rfl

theorem pairwise_byCode (found : List Finding) : (ofFindings found).byCode.Pairwise Before := by
  refine pairwise_ranked ?_
  rw [map_fst_groupBy]
  exact nodup_distinct _

theorem recommendations_eq (found : List Finding) :
    (ofFindings found).recommendations =
      if (ofFindings found).byCause.isEmpty then [clean]
      else (ofFindings found).byCause.map fun g ↦ recommendation g.1 g.2 :=
  rfl

/-- Every summary is in order. -/
theorem sums_ofFindings (found : List Finding) : (ofFindings found).Sums found := by
  have hcause := splits_byCause found
  have hempty : (ofFindings found).byCause.isEmpty = true ↔ found = [] := by
    rw [List.isEmpty_iff]
    constructor
    · intro hnil
      refine List.eq_nil_iff_forall_not_mem.mpr fun f hf ↦ ?_
      have hmem := hcause.covers f hf
      rw [hnil] at hmem
      cases hmem
    · rintro rfl
      rfl
  have htexts : List.Forall₂ (fun g text ↦ Recommends found g.1 text) (ofFindings found).byCause
      ((ofFindings found).byCause.map fun g ↦ recommendation g.1 g.2) := by
    refine List.forall₂_map_right_iff.mpr (List.forall₂_same.mpr fun g hg ↦ ?_)
    rw [hcause.group g hg]
    exact recommends_recommendation found g.1
  constructor
  case total => rfl
  case byFile => exact ⟨splits_groupBy _ _, inOrder_groupBy _ _⟩
  case byCause => exact ⟨hcause, pairwise_byCause found⟩
  case bySeverity => exact ⟨splits_groupBy _ _, inOrder_groupBy _ _⟩
  case byCode => exact fun _ _ ↦ mem_byCode
  case byCodeOrder => exact pairwise_byCode found
  case criticalFiles => exact fun _ ↦ mem_criticalFiles
  case criticalFilesOrder => exact pairwise_criticalFiles found
  case recommendations =>
    intro hfound
    rwa [recommendations_eq, if_neg (mt hempty.mp hfound)]
  case clean =>
    refine ⟨fun hclean ↦ by_contra fun hfound ↦ ?_, fun hfound ↦ ?_⟩
    · rw [recommendations_eq, if_neg (mt hempty.mp hfound)] at hclean
      rw [hclean] at htexts
      generalize (ofFindings found).byCause = groups at htexts
      cases htexts with
      | cons hfirst _ => exact ne_clean_of_recommends hfirst rfl
    · rw [recommendations_eq, if_pos (hempty.mpr hfound)]

end AnalysisSummary

end Remedy
