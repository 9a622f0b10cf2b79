import Mathlib.Data.Prod.Lex
import Mathlib.Data.String.Basic
import Remedy.Proofs.Diagnostic.RoundTrip

/-!
# The order of findings, and findings that are read again

Findings are compared by priority, file, line and column, that is by the lexicographic order of
these (`Finding.le_iff_rank_le`), so that sorting them puts them in order (`pairwise_findings`) and
leaves findings that are in order as they are.

`read_rendered` says what becomes of diagnostics that are rendered and read again, of findings whose
diagnostics are, and of a single diagnostic that was not read before.
-/

set_option autoImplicit false

namespace Remedy

open Diagnostic

namespace Finding

/-- Where a finding is. -/
def place (f : Finding) : String ×ₗ ℕ ×ₗ ℕ :=
  toLex (f.file, toLex (f.diagnostic.line, f.diagnostic.column))

theorem placeLe_iff (a b : Finding) : placeLe a b = true ↔ a.place ≤ b.place := by
  unfold placeLe place
  split
  · rename_i hfile
    simp [Prod.Lex.toLex_le_toLex, hfile]
  · rename_i hfile
    simp [Prod.Lex.toLex_le_toLex, hfile]

/-- What findings are ordered by. -/
def rank (f : Finding) : ℕ ×ₗ String ×ₗ ℕ ×ₗ ℕ :=
  toLex (f.priority, toLex (f.file, toLex (f.diagnostic.line, f.diagnostic.column)))

theorem le_iff_rank_le {a b : Finding} : le a b = true ↔ a.rank ≤ b.rank := by
  have hplace := placeLe_iff a b
  unfold place at hplace
  simp [le, rank, Prod.Lex.toLex_le_toLex, hplace]

theorem le_trans (a b c : Finding) (hab : le a b = true) (hbc : le b c = true) : le a c = true := by
  rw [le_iff_rank_le] at *
  exact hab.trans hbc

theorem le_total (a b : Finding) : (le a b || le b a) = true := by
  rw [Bool.or_eq_true, le_iff_rank_le, le_iff_rank_le]
  exact Std.le_total

/-- The finding of a diagnostic that was written and read again. -/
def reread (f : Finding) : Finding := { f with diagnostic := f.diagnostic.reread }

end Finding

variable {extra : ExtraCodes} {ds : List Diagnostic}

theorem pairwise_findings (extra : ExtraCodes) (ds : List Diagnostic) :
    (findings extra ds).Pairwise fun a b ↦ Finding.le a b = true :=
  List.pairwise_mergeSort Finding.le_trans Finding.le_total _

theorem eq_ofDiagnostic_of_mem_findings {f : Finding} (h : f ∈ findings extra ds) :
    f.diagnostic ∈ ds ∧ f = Finding.ofDiagnostic extra f.diagnostic := by
  obtain ⟨d, hd, rfl⟩ := List.mem_map.mp (List.mem_mergeSort.mp h)
  exact ⟨hd, rfl⟩

/-- What findings say does not depend on the lines that are kept, nor does their order. -/
theorem findings_reread (extra : ExtraCodes) (ds : List Diagnostic) :
    findings extra ((findings extra ds).map fun f ↦ f.diagnostic.reread) =
      (findings extra ds).map Finding.reread := by
  have hmap : ((findings extra ds).map fun f ↦ f.diagnostic.reread).map
      (Finding.ofDiagnostic extra) = (findings extra ds).map Finding.reread := by
    rw [List.map_map]
    refine List.map_congr_left fun f hf ↦ ?_
    rw [(eq_ofDiagnostic_of_mem_findings hf).2]
    rfl
  unfold findings at hmap ⊢
  rw [hmap]
  exact List.mergeSort_of_pairwise (List.pairwise_map.mpr (pairwise_findings extra ds))

/-- The findings of an analysis belong to diagnostics that can be written and read again. -/
theorem ends_analyze (extra : ExtraCodes) (source : Diagnostic.Source) (w : World) :
    Ends (analyze extra source) w
      (fun found _ ↦ ∃ ds : List Diagnostic, found = findings extra ds ∧
        (∀ d ∈ ds, d.WellFormed ∧ d.Short) ∧ Countable ds.length)
      fun _ _ ↦ True := by
  unfold analyze
  refine (ends_read source w).bind fun ds w ⟨hds, hcount⟩ ↦ ?_
  exact Ends.bind_any fun _ _ ↦ ⟨ds, rfl, hds, hcount⟩

theorem analyze_fst {source : Diagnostic.Source} {w : World}
    (h : (Diagnostic.read source w).1 = .ok ds) :
    (analyze extra source w).1 = .ok (findings extra ds) := by
  unfold analyze
  rw [bind_apply]
  rcases hread : Diagnostic.read source w with ⟨_ | ds', w'⟩
  · rw [hread] at h
    cases h
  · rw [hread] at h
    cases h
    rfl

/-- Rendering what was read and reading it again changes nothing but the line kept with each
diagnostic, and so does analysing what an analysis found; and a diagnostic whose line can be read is
read from its line. -/
theorem read_rendered :
    (∀ (source : Diagnostic.Source) (w w' : World) (ds : List Diagnostic),
      Diagnostic.read source w = (.ok ds, w') →
      ∀ w₁, (Diagnostic.read (.text (rendered ds)) w₁).1 = .ok (ds.map reread)) ∧
    (∀ (extra : ExtraCodes) (source : Diagnostic.Source) (w w' : World) (found : List Finding),
      analyze extra source w = (.ok found, w') →
      ∀ w₁, (analyze extra (.text (rendered (found.map Finding.diagnostic))) w₁).1 =
        .ok (found.map Finding.reread)) ∧
    ∀ d : Diagnostic, d.WellFormed → d.Short →
      ∀ w, (Diagnostic.read (.text d.format) w).1 = .ok [d.reread] := by
  refine ⟨fun source w w' ds hread w₁ ↦ ?_, fun extra source w w' found hread w₁ ↦ ?_,
    fun d hd hshort w ↦ ?_⟩
  · have hends := ends_read source w
    rw [Ends, hread] at hends
    exact read_rendered_fst hends.1 hends.2 w₁
  · have hends := ends_analyze extra source w
    rw [Ends, hread] at hends
    obtain ⟨ds, rfl, hds, hcount⟩ := hends
    have hagain : (Diagnostic.read (.text (rendered ((findings extra ds).map
        Finding.diagnostic))) w₁).1 =
          .ok (((findings extra ds).map Finding.diagnostic).map reread) := by
      refine read_rendered_fst (fun d hd ↦ ?_) (by simpa [findings] using hcount) w₁
      obtain ⟨f, hf, rfl⟩ := List.mem_map.mp hd
      exact hds _ (eq_ofDiagnostic_of_mem_findings hf).1
    rw [analyze_fst hagain, List.map_map]
    exact congrArg Except.ok (findings_reread extra ds)
  · have hds : ∀ d' ∈ [d], d'.WellFormed ∧ d'.Short := by simpa using ⟨hd, hshort⟩
    have hone : Countable [d].length := by
      rw [List.length_singleton]
      exact countable_of_inc rfl
    exact read_rendered_fst hds hone w

/-- A line with white space about its parts, another script's digit and leading zeros; and a
diagnostic whose file is itself a heading. -/
theorem read_rendered_sample :
    let text := " b (0\u0663,4):error  TS1:  x \r\n"
    let ds : List Diagnostic := [⟨"b", 3, 4, "TS1", "x", "b (0\u0663,4):error  TS1:  x"⟩]
    let d : Diagnostic := ⟨"(1,2):error T:", 5, 6, "TS3", "z: 1", ""⟩
    (Diagnostic.read (.text text) default).1 = .ok ds ∧
    (Diagnostic.read (.text (rendered ds)) default).1 = .ok (ds.map reread) ∧
    (analyze [] (.text (rendered ((findings [] ds).map Finding.diagnostic))) default).1 =
      .ok ((findings [] ds).map Finding.reread) ∧
    (Diagnostic.read (.text d.format) default).1 = .ok [d.reread] := by
  intro text ds d
  have hcount : Countable ds.length := by
    rw [show ds.length = 1 from rfl]
    exact countable_of_inc rfl
  have hread : (Diagnostic.read (.text text) default).1 = .ok ds :=
    read_text_fst (by decide) (by decide) (by decide) hcount _
  have hfound : (analyze [] (.text text) default).1 = .ok (findings [] ds) := analyze_fst hread
  have hd : d.WellFormed :=
    { file := ⟨by decide, by decide, Text.forall_mem_of_all (by decide)⟩
      message := ⟨by decide, by decide, Text.forall_mem_of_all (by decide)⟩
      code := ⟨by decide, Text.forall_mem_of_all (by decide)⟩
      line := by decide
      column := by decide
      inner := fun _ _ _ _ heq ↦ eq_nil_of_heading (by decide) heq }
  have hlimit : 10 ^ 1 ≤ 10 ^ Json.digitLimit := Nat.pow_le_pow_right (by decide) (by decide)
  have hshort : d.Short := ⟨lt_of_lt_of_le (by decide) hlimit, lt_of_lt_of_le (by decide) hlimit⟩
  obtain ⟨hagain, hanalyzed, hone⟩ := read_rendered
  exact ⟨hread, hagain _ _ _ _ (Prod.ext hread rfl) _, hanalyzed _ _ _ _ _ (Prod.ext hfound rfl) _,
    hone d hd hshort _⟩

/-- Nothing that is read has more digits than a number may be read from. -/
theorem read_ne_of_long {d : Diagnostic} (hlong : 10 ^ Json.digitLimit ≤ d.line)
    (source : Diagnostic.Source) (w : World) : (Diagnostic.read source w).1 ≠ .ok [d] := by
  intro hread
  have hends := ends_read source w
  rcases hact : Diagnostic.read source w with ⟨_ | ds, w'⟩
  · rw [hact] at hread
    cases hread
  · rw [Ends, hact] at hends
    rw [hact] at hread
    cases hread
    exact absurd (hends.1 d List.mem_cons_self).2.1 (not_lt.mpr hlong)

theorem wellFormed_and_read_ne {n : Nat} (hlong : 10 ^ Json.digitLimit ≤ n) :
    let d : Diagnostic := ⟨"a", n, 1, "TS1", "m", ""⟩
    d.WellFormed ∧
      ∀ w raw, (Diagnostic.read (.text d.format) w).1 ≠ .ok [{ d with raw := raw }] := by
  intro d
  have hfile : IsLine "a" := ⟨by decide, by decide, Text.forall_mem_of_all (by decide)⟩
  have hmessage : IsLine "m" := ⟨by decide, by decide, Text.forall_mem_of_all (by decide)⟩
  have hcode : IsRun isCodeChar "TS1".toList := ⟨by decide, Text.forall_mem_of_all (by decide)⟩
  have hfree : '(' ∉ "a".toList.tail := by decide
  have hline : 1 ≤ n := (Nat.one_le_pow _ _ (by decide)).trans hlong
  exact ⟨⟨hfile, hmessage, hcode, hline, le_rfl, fun _ _ _ _ heq ↦ eq_nil_of_heading hfree heq⟩,
    fun w _ ↦ read_ne_of_long hlong _ w⟩

/-- A line number with one digit more than a number may be read from. -/
theorem read_format_long :
    let d : Diagnostic := ⟨"a", 10 ^ Json.digitLimit, 1, "TS1", "m", ""⟩
    d.WellFormed ∧
      ∀ w raw, (Diagnostic.read (.text d.format) w).1 ≠ .ok [{ d with raw := raw }] :=
  wellFormed_and_read_ne le_rfl

end Remedy
