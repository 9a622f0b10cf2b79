import Mathlib.Data.Rat.Lemmas
import Mathlib.Tactic.FieldSimp
import Mathlib.Tactic.Positivity
import Mathlib.Tactic.Ring
import Remedy.Number

/-!
# Whole numbers as fractions

A whole number below `2 ^ 53` is a fraction exactly (`Double.ofNat_eq`), and the sum of two such
numbers is the fraction nearest to their sum (`Double.add_ofNat`). So a count that is raised one by
one is exact as long as it does not exceed `2 ^ 53` (`Double.addOne_iterate`).
-/

set_option autoImplicit false

namespace Remedy

namespace Double

/-! ### Fractions with a common factor -/

theorem roundQuotient_mul {c : ℕ} (hc : 0 < c) (num den : ℕ) :
    roundQuotient (num * c) (den * c) = roundQuotient num den := by
  have hlt : ∀ x y : ℕ, x * c < y * c ↔ x < y := fun x y ↦ Nat.mul_lt_mul_right hc
  unfold roundQuotient
  simp only [Nat.mul_div_mul_right _ _ hc, Nat.mul_mod_mul_right, ← Nat.mul_assoc, hlt]

theorem scaled_mul (num den c : ℕ) (exponent : ℤ) :
    scaled (num * c) (den * c) exponent =
      ((scaled num den exponent).1 * c, (scaled num den exponent).2 * c) := by
  unfold scaled
  split <;> simp only [Nat.mul_right_comm]

theorem log2_mul_two_pow {n : ℕ} (hn : n ≠ 0) (j : ℕ) : Nat.log2 (n * 2 ^ j) = Nat.log2 n + j := by
  induction j with
  | zero => simp
  | succ j ih =>
    have hne : n * 2 ^ j ≠ 0 := by positivity
    rw [pow_succ, ← Nat.mul_assoc, Nat.mul_comm, Nat.log2_two_mul hne, ih, Nat.add_assoc]

theorem exponentFor_mul {num den : ℕ} (hnum : num ≠ 0) (hden : den ≠ 0) (j : ℕ) :
    exponentFor (num * 2 ^ j) (den * 2 ^ j) = exponentFor num den := by
  have hguess : ((Nat.log2 (num * 2 ^ j) : ℤ) - Nat.log2 (den * 2 ^ j) - 52) =
      (Nat.log2 num : ℤ) - Nat.log2 den - 52 := by
    rw [log2_mul_two_pow hnum, log2_mul_two_pow hden]
    push_cast
    ring
  have hlt : ∀ x y : ℕ, x * 2 ^ j < y * 2 ^ j * Nat.pow 2 52 ↔ x < y * Nat.pow 2 52 := by
    intro x y
    rw [Nat.mul_right_comm]
    exact Nat.mul_lt_mul_right (by positivity)
  unfold exponentFor
  simp only [hguess, scaled_mul, hlt]

/-- A power of two in both parts of a fraction makes no difference to the number nearest to it. -/
theorem nearest_mul (negative : Bool) (num : ℕ) {den : ℕ} (hden : den ≠ 0) (j : ℕ) :
    nearest negative (num * 2 ^ j) (den * 2 ^ j) = nearest negative num den := by
  by_cases hnum : num = 0
  · subst hnum
    rw [Nat.zero_mul]
    unfold nearest
    rw [if_pos rfl, if_pos rfl]
  · have hne : num * 2 ^ j ≠ 0 := by positivity
    unfold nearest
    rw [if_neg hnum, if_neg hne, exponentFor_mul hnum hden]
    -- The limit of a mantissa is a name here, as the kernel would unfold it.
    generalize Nat.pow 2 53 = limit
    extract_lets exponent
    rw [scaled_mul]
    cases scaled num den exponent with
    | mk n d => simp only [roundQuotient_mul (Nat.two_pow_pos j)]

/-! ### Whole numbers -/

/-- A whole number of at most 53 bits is kept as it is, brought to 53 bits. -/
theorem ofNat_eq {n : ℕ} (hn : n < 2 ^ 53) :
    ∃ j : ℕ, ofNat n = .finite false (n * 2 ^ j) (-j : ℤ) := by
  by_cases hzero : n = 0
  · exact ⟨1074, by rw [hzero, Nat.zero_mul]; rfl⟩
  have hlog : Nat.log2 n ≤ 52 := Nat.lt_succ_iff.mp ((Nat.log2_lt hzero).mpr hn)
  obtain ⟨hlow, hhigh⟩ := (Nat.log2_eq_iff hzero).mp rfl
  obtain ⟨j, hj⟩ := Nat.exists_eq_add_of_le hlog
  have hguess : (Nat.log2 n : ℤ) - Nat.log2 1 - 52 = -j := by
    have hone : Nat.log2 1 = 0 := by decide
    rw [hone]
    omega
  have hbits : 2 ^ 52 ≤ n * 2 ^ j ∧ n * 2 ^ j < 2 ^ 53 := by
    constructor
    · calc 2 ^ 52 = 2 ^ Nat.log2 n * 2 ^ j := by rw [← pow_add, ← hj]
        _ ≤ n * 2 ^ j := Nat.mul_le_mul_right _ hlow
    · calc n * 2 ^ j < 2 ^ (Nat.log2 n + 1) * 2 ^ j :=
          Nat.mul_lt_mul_of_pos_right hhigh (by positivity)
        _ = 2 ^ 53 := by rw [← pow_add, Nat.add_right_comm, ← hj]
  have hscaled : scaled n 1 (-j : ℤ) = (n * 2 ^ j, 1) := by
    unfold scaled
    split
    · simp
    · obtain rfl : j = 0 := by omega
      simp
  have hexponent : exponentFor n 1 = -j := by
    unfold exponentFor
    simp only [hguess, hscaled]
    rw [if_neg (by simpa using hbits.1)]
    unfold leastExponent
    omega
  have hround : roundQuotient (n * 2 ^ j) 1 = n * 2 ^ j := by simp [roundQuotient, Nat.mod_one]
  refine ⟨j, ?_⟩
  unfold ofNat nearest
  rw [if_neg hzero, hexponent]
  dsimp only
  rw [hscaled]
  dsimp only
  rw [hround, show Nat.pow 2 53 = 2 ^ 53 from rfl, if_neg hbits.2.ne]
  dsimp only
  rw [if_neg (by unfold greatestExponent; omega)]

/-- The sum of whole numbers of at most 53 bits is rounded once. -/
theorem add_ofNat {m n : ℕ} (hm : m < 2 ^ 53) (hn : n < 2 ^ 53) :
    (ofNat m).add (ofNat n) = ofNat (m + n) := by
  obtain ⟨i, hi⟩ := ofNat_eq hm
  obtain ⟨j, hj⟩ := ofNat_eq hn
  -- Whatever power of two the sum is brought to, it is the sum.
  have hsum : ∀ k : ℕ,
      nearestScaled false (((m + n) * 2 ^ k : ℕ) : ℤ) (-k : ℤ) = ofNat (m + n) := by
    intro k
    have hnat : ((((m + n) * 2 ^ k : ℕ) : ℤ) < 0) ↔ False :=
      iff_false_intro (not_lt.mpr (Int.natCast_nonneg _))
    unfold nearestScaled ofNat
    simp only [hnat, decide_false, ite_self, Int.natAbs_natCast, neg_neg, Int.toNat_natCast]
    split
    · simpa using nearest_mul false (m + n) one_ne_zero k
    · obtain rfl : k = 0 := by omega
      simp
  rw [hi, hj]
  simp only [add, align, signed, Bool.false_eq_true, if_false, Bool.false_and]
  split
  · rename_i hle
    obtain ⟨d, rfl⟩ := Nat.exists_eq_add_of_le (show j ≤ i by omega)
    rw [← hsum (j + d)]
    congr 1
    simp only [show (-(j : ℤ) - -((j + d : ℕ) : ℤ)).toNat = d by omega, Nat.pow_eq]
    push_cast
    ring
  · rename_i hlt
    obtain ⟨d, rfl⟩ := Nat.exists_eq_add_of_le (show i ≤ j by omega)
    rw [← hsum (i + d)]
    congr 1
    simp only [show (-(i : ℤ) - -((i + d : ℕ) : ℤ)).toNat = d by omega, Nat.pow_eq]
    push_cast
    ring

theorem ofNat_two_pow : ofNat (2 ^ 53) = .finite false (2 ^ 52) 1 := by
  decide +kernel

theorem add_ofNat_of_le {m n : ℕ} (h : m + n ≤ 2 ^ 53) :
    (ofNat m).add (ofNat n) = ofNat (m + n) := by
  by_cases hm : m = 2 ^ 53
  · obtain rfl : n = 0 := by omega
    subst hm
    decide +kernel
  · by_cases hn : n = 2 ^ 53
    · obtain rfl : m = 0 := by omega
      subst hn
      decide +kernel
    · exact add_ofNat (by omega) (by omega)

theorem toRat?_ofNat {n : ℕ} (h : n ≤ 2 ^ 53) : (ofNat n).toRat? = some (n : ℚ) := by
  by_cases htop : n = 2 ^ 53
  · rw [htop, ofNat_two_pow]
    simp [toRat?, signed]
  · obtain ⟨j, hj⟩ := ofNat_eq (show n < 2 ^ 53 by omega)
    have hsigned : signed false (n * 2 ^ j) = (n : ℤ) * 2 ^ j := by simp [signed]
    rw [hj]
    simp only [toRat?, hsigned, Rat.mkRat_eq_div, neg_neg, Int.toNat_natCast, Nat.pow_eq]
    split
    · push_cast
      rw [mul_div_cancel_right₀ _ (by positivity)]
    · obtain rfl : j = 0 := by omega
      simp

/-- A count that is raised one by one is exact as long as it does not exceed `2 ^ 53`. -/
theorem addOne_iterate {m n : ℕ} (h : m + n ≤ 2 ^ 53) :
    (fun x : Double ↦ x.add (ofNat 1))^[n] (ofNat m) = ofNat (m + n) := by
  induction n with
  | zero => rfl
  | succ n ih =>
    rw [Function.iterate_succ_apply', ih (by omega), add_ofNat (by omega) (by norm_num),
      Nat.add_assoc]

theorem exponentFor_one_le {n : ℕ} (hzero : n ≠ 0) (hn : n < 2 ^ 64) : exponentFor n 1 ≤ 11 := by
  have hlog : Nat.log2 n ≤ 63 := Nat.lt_succ_iff.mp ((Nat.log2_lt hzero).mpr hn)
  have hone : Nat.log2 1 = 0 := by decide
  unfold exponentFor
  rw [hone]
  refine max_le (by decide) ?_
  split <;> omega

/-- What fits into a machine word is far from being too large for a fraction. -/
theorem exists_nearest_eq_finite {n : ℕ} (hn : n < 2 ^ 64) (negative : Bool) :
    ∃ mantissa exponent, nearest negative n 1 = .finite negative mantissa exponent := by
  by_cases hzero : n = 0
  · exact ⟨0, leastExponent, if_pos hzero⟩
  have hexponent := exponentFor_one_le hzero hn
  unfold nearest
  rw [if_neg hzero]
  -- The limit of a mantissa is a name here, as the kernel would unfold it.
  generalize Nat.pow 2 53 = limit
  extract_lets exponent
  cases scaled n 1 exponent with
  | mk num den =>
    dsimp only
    have hnot : ¬ greatestExponent < exponent ∧ ¬ greatestExponent < exponent + 1 := by
      unfold greatestExponent
      omega
    split
    · exact ⟨_, _, if_neg hnot.2⟩
    · exact ⟨_, _, if_neg hnot.1⟩

end Double

namespace Number

theorem isSome_toDouble?_natCast {n : ℕ} (hn : n < 2 ^ 64) :
    (int n).toDouble?.isSome = true := by
  obtain ⟨mantissa, exponent, h⟩ := Double.exists_nearest_eq_finite hn (decide ((n : ℤ) < 0))
  simp only [toDouble?, int?, Double.ofInt?, Int.natAbs_natCast, h, Option.isSome_some]

theorem natCast_lt_zero (n : ℕ) : (int n).lt 0 = false := by
  have hle : ¬ ((n : ℤ) < 0) := by simp
  have hcompare : compare (n : ℤ) 0 ≠ .lt := mt compare_lt_iff_lt.mp hle
  simpa [lt, compare?] using hcompare

theorem toDouble?_natCast {n : ℕ} (hn : n < 2 ^ 53) :
    (int n).toDouble? = some (Double.ofNat n) := by
  obtain ⟨j, hj⟩ := Double.ofNat_eq hn
  have hnat : ((n : ℤ) < 0) ↔ False := by simp
  have hofNat : Double.nearest false n 1 = .finite false (n * 2 ^ j) (-j : ℤ) := hj
  simp [toDouble?, int?, Double.ofInt?, hnat, hofNat, hj]

theorem toDouble?_natCast_of_le {n : ℕ} (hn : n ≤ 2 ^ 53) :
    (int n).toDouble? = some (Double.ofNat n) := by
  by_cases htop : n = 2 ^ 53
  · subst htop
    decide +kernel
  · exact toDouble?_natCast (by omega)

end Number

end Remedy
