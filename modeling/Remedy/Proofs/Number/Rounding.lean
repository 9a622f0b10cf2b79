import Mathlib.Data.Int.Log
import Mathlib.Data.Rat.Floor
import Mathlib.Order.WithBot
import Mathlib.Tactic.FieldSimp
import Mathlib.Tactic.Linarith
import Mathlib.Tactic.Positivity
import Mathlib.Tactic.Ring
import Remedy.Proofs.Number

/-!
# Rounding keeps the order

The number nearest to a fraction is not above the number nearest to a greater one
(`Double.nearest_mono`), and the number nearest to a number of 53 bits is that number
(`Double.value_nearest_self`). So a sum of numbers that are not negative is not below any of them
(`Double.le_add`), and it grows with each of them (`Double.add_le_add`), however the sums are rounded
and also where they become infinite.

Both rest on two descriptions: a quotient is rounded up to `k` just if it lies above `k - 1/2`, or at
it with an even `k` (`Double.le_roundQuotient_iff`), and the exponent of a fraction is its binary
logarithm less 52, unless that is below the least one (`Double.exponentFor_eq`).
-/

set_option autoImplicit false

namespace Remedy.Double

/-! ### Quotients -/

theorem le_roundQuotient_iff {num den : ℕ} (hden : 0 < den) (k : ℕ) :
    k ≤ roundQuotient num den ↔
      2 * (k * den) < 2 * num + den ∨ 2 * (k * den) = 2 * num + den ∧ k % 2 = 0 := by
  have hnum : num / den * den + num % den = num := Nat.div_add_mod' num den
  have hlt : num % den < den := Nat.mod_lt num hden
  unfold roundQuotient
  generalize num / den = q at hnum ⊢
  generalize num % den = r at hnum hlt ⊢
  dsimp only
  -- Only one more than the whole part is in doubt.
  rcases lt_trichotomy k (q + 1) with hk | rfl | hk
  · have hle : k * den ≤ q * den := Nat.mul_le_mul_right den (by omega)
    constructor
    · intro _
      left
      omega
    · intro _
      split
      · omega
      · split <;> omega
  · rw [Nat.add_mul, Nat.one_mul]
    split
    · omega
    · split <;> omega
  · have hle : (q + 2) * den ≤ k * den := Nat.mul_le_mul_right den hk
    rw [Nat.add_mul] at hle
    split
    · omega
    · split <;> omega

variable {num den num' den' : ℕ}

theorem div_le_div_iff_mul_le_mul (hden : 0 < den) (hden' : 0 < den') :
    (num : ℚ) / den ≤ num' / den' ↔ num * den' ≤ num' * den := by
  rw [div_le_div_iff₀ (by exact_mod_cast hden) (by exact_mod_cast hden')]
  norm_cast

theorem pos_of_div_le (hnum : 0 < num) (hden : 0 < den) (h : (num : ℚ) / den ≤ num' / den') :
    0 < num' := by
  have hq : (0 : ℚ) < num / den := by positivity
  apply Nat.pos_of_ne_zero
  rintro rfl
  rw [Nat.cast_zero, zero_div] at h
  exact absurd h (not_le.mpr hq)

theorem roundQuotient_mono (hden : 0 < den) (hden' : 0 < den')
    (h : (num : ℚ) / den ≤ num' / den') : roundQuotient num den ≤ roundQuotient num' den' := by
  rw [div_le_div_iff_mul_le_mul hden hden'] at h
  generalize hk : roundQuotient num den = k
  have hle : k ≤ roundQuotient num den := hk.ge
  rw [le_roundQuotient_iff hden] at hle
  rw [le_roundQuotient_iff hden']
  -- Both sides of the bound are brought to the product of the denominators.
  have hcross : den * (2 * num' + den') ≥ den' * (2 * num + den) := by nlinarith
  have hleft : den * (2 * (k * den')) = den' * (2 * (k * den)) := by ring
  rcases hle with hlt | ⟨heq, heven⟩
  · left
    apply Nat.lt_of_mul_lt_mul_left (a := den)
    calc den * (2 * (k * den')) = den' * (2 * (k * den)) := hleft
      _ < den' * (2 * num + den) := Nat.mul_lt_mul_of_pos_left hlt hden'
      _ ≤ den * (2 * num' + den') := hcross
  · have hle : 2 * (k * den') ≤ 2 * num' + den' := by
      apply Nat.le_of_mul_le_mul_left _ hden
      calc den * (2 * (k * den')) = den' * (2 * (k * den)) := hleft
        _ = den' * (2 * num + den) := by rw [heq]
        _ ≤ den * (2 * num' + den') := hcross
    omega

theorem roundQuotient_of_div_eq {k : ℕ} (hden : 0 < den) (h : (num : ℚ) / den = k) :
    roundQuotient num den = k := by
  have hne : (den : ℚ) ≠ 0 := by exact_mod_cast hden.ne'
  rw [div_eq_iff hne] at h
  have hnum : num = k * den := by exact_mod_cast h
  simp [roundQuotient, hnum, hden]

/-! ### Exponents -/

theorem scaled_pos (hden : 0 < den) (exponent : ℤ) : 0 < (scaled num den exponent).2 := by
  unfold scaled
  split
  · exact hden
  · exact Nat.mul_pos hden (Nat.two_pow_pos _)

theorem div_scaled (exponent : ℤ) :
    ((scaled num den exponent).1 : ℚ) / (scaled num den exponent).2 = num / den / 2 ^ exponent := by
  unfold scaled
  split
  · have hpower : (2 : ℚ) ^ exponent = (2 ^ (-exponent).toNat)⁻¹ := by
      rw [← zpow_natCast, Int.toNat_of_nonneg (by omega), ← zpow_neg, neg_neg]
    rw [hpower]
    push_cast [Nat.pow_eq]
    field_simp
  · have hpower : (2 : ℚ) ^ exponent = 2 ^ exponent.toNat := by
      rw [← zpow_natCast, Int.toNat_of_nonneg (by omega)]
    rw [hpower]
    push_cast [Nat.pow_eq]
    field_simp

theorem two_zpow_le_iff {q : ℚ} (hq : 0 < q) (k : ℤ) : (2 : ℚ) ^ k ≤ q ↔ k ≤ Int.log 2 q := by
  exact_mod_cast Int.zpow_le_iff_le_log (b := 2) one_lt_two hq

theorem lt_two_zpow_iff {q : ℚ} (hq : 0 < q) (k : ℤ) : q < 2 ^ k ↔ Int.log 2 q < k := by
  rw [← not_le, two_zpow_le_iff hq, not_le]

theorem two_zpow_log2_le {n : ℕ} (hn : 0 < n) : (2 : ℚ) ^ (Nat.log2 n : ℤ) ≤ n := by
  rw [zpow_natCast]
  exact_mod_cast Nat.log2_self_le hn.ne'

theorem lt_two_zpow_log2 (n : ℕ) : (n : ℚ) < 2 ^ ((Nat.log2 n : ℤ) + 1) := by
  rw [← Nat.cast_succ, zpow_natCast]
  exact_mod_cast Nat.lt_log2_self

/-- The logarithms of both parts give that of the fraction, but for one. -/
theorem log_div_bounds (hnum : 0 < num) (hden : 0 < den) :
    (Nat.log2 num : ℤ) - Nat.log2 den - 1 ≤ Int.log 2 ((num : ℚ) / den) ∧
      Int.log 2 ((num : ℚ) / den) ≤ (Nat.log2 num : ℤ) - Nat.log2 den := by
  have hnum' : (0 : ℚ) < num := by exact_mod_cast hnum
  have hden' : (0 : ℚ) < den := by exact_mod_cast hden
  have hq : (0 : ℚ) < num / den := by positivity
  constructor
  · rw [← two_zpow_le_iff hq, le_div_iff₀ hden']
    calc (2 : ℚ) ^ ((Nat.log2 num : ℤ) - Nat.log2 den - 1) * den
        ≤ 2 ^ ((Nat.log2 num : ℤ) - Nat.log2 den - 1) * 2 ^ ((Nat.log2 den : ℤ) + 1) := by
          gcongr
          exact (lt_two_zpow_log2 den).le
      _ = 2 ^ (Nat.log2 num : ℤ) := by
          rw [← zpow_add₀ two_ne_zero]
          congr 1
          ring
      _ ≤ num := two_zpow_log2_le hnum
  · rw [← Int.lt_add_one_iff, ← lt_two_zpow_iff hq, div_lt_iff₀ hden']
    calc (num : ℚ) < 2 ^ ((Nat.log2 num : ℤ) + 1) := lt_two_zpow_log2 num
      _ = 2 ^ ((Nat.log2 num : ℤ) - Nat.log2 den + 1) * 2 ^ (Nat.log2 den : ℤ) := by
          rw [← zpow_add₀ two_ne_zero]
          congr 1
          ring
      _ ≤ 2 ^ ((Nat.log2 num : ℤ) - Nat.log2 den + 1) * den := by
          gcongr
          exact two_zpow_log2_le hden

theorem exponentFor_eq (hnum : 0 < num) (hden : 0 < den) :
    exponentFor num den = max leastExponent (Int.log 2 ((num : ℚ) / den) - 52) := by
  have hq : (0 : ℚ) < num / den := by positivity
  have hbounds := log_div_bounds hnum hden
  unfold exponentFor
  generalize hguess : (Nat.log2 num : ℤ) - Nat.log2 den - 52 = guess
  dsimp only
  have hpos : (0 : ℚ) < (scaled num den guess).2 := by exact_mod_cast scaled_pos hden guess
  -- The guess is too large just if the fraction has less than 53 bits at it.
  have hsmall : (scaled num den guess).1 < (scaled num den guess).2 * Nat.pow 2 52 ↔
      Int.log 2 ((num : ℚ) / den) < 52 + guess := by
    rw [← lt_two_zpow_iff hq, zpow_add₀ two_ne_zero, ← div_lt_iff₀ (by positivity),
      ← div_scaled guess, div_lt_iff₀ hpos, mul_comm (_ ^ _)]
    norm_cast
  congr 1
  split
  · have hlog := hsmall.mp ‹_›
    omega
  · have hlog := mt hsmall.mpr ‹_›
    omega

theorem leastExponent_le_exponentFor (num den : ℕ) : leastExponent ≤ exponentFor num den := by
  unfold exponentFor
  exact le_max_left _ _

/-! ### Mantissas -/

/-- The mantissa of the number nearest to a fraction, which may have come to one bit too many. -/
def mantissaFor (num den : ℕ) : ℕ :=
  roundQuotient (scaled num den (exponentFor num den)).1 (scaled num den (exponentFor num den)).2

/-- The number nearest to a fraction if there were no greatest number. -/
def rounded (num den : ℕ) : ℚ := mantissaFor num den * 2 ^ exponentFor num den

theorem mantissaFor_of_div_eq {k : ℕ} (hden : 0 < den)
    (h : (num : ℚ) / den = k * 2 ^ exponentFor num den) : mantissaFor num den = k := by
  apply roundQuotient_of_div_eq (scaled_pos hden _)
  rw [div_scaled, h, mul_div_cancel_right₀ _ (by positivity)]

theorem rounded_zero (hden : 0 < den) : rounded 0 den = 0 := by
  have hzero : mantissaFor 0 den = 0 := mantissaFor_of_div_eq hden (by simp)
  simp [rounded, hzero]

theorem rounded_nonneg (num den : ℕ) : 0 ≤ rounded num den := by
  unfold rounded
  positivity

theorem mantissaFor_le (hnum : 0 < num) (hden : 0 < den) : mantissaFor num den ≤ 2 ^ 53 := by
  have hq : (0 : ℚ) < num / den := by positivity
  have hexponent : Int.log 2 ((num : ℚ) / den) < 53 + exponentFor num den := by
    rw [exponentFor_eq hnum hden]
    omega
  have hlimit : roundQuotient (2 ^ 53) 1 = 2 ^ 53 :=
    roundQuotient_of_div_eq one_pos (by norm_num)
  rw [← hlimit]
  apply roundQuotient_mono (scaled_pos hden _) one_pos
  rw [div_scaled, div_le_iff₀ (by positivity)]
  rw [Nat.cast_pow, Nat.cast_ofNat, Nat.cast_one, div_one, ← zpow_natCast,
    ← zpow_add₀ two_ne_zero]
  exact ((lt_two_zpow_iff hq _).mpr hexponent).le

theorem le_mantissaFor (hnum : 0 < num) (hden : 0 < den)
    (h : leastExponent < exponentFor num den) : 2 ^ 52 ≤ mantissaFor num den := by
  have hq : (0 : ℚ) < num / den := by positivity
  have hexponent : 52 + exponentFor num den ≤ Int.log 2 ((num : ℚ) / den) := by
    rw [exponentFor_eq hnum hden] at h ⊢
    omega
  have hlimit : roundQuotient (2 ^ 52) 1 = 2 ^ 52 :=
    roundQuotient_of_div_eq one_pos (by norm_num)
  rw [← hlimit]
  apply roundQuotient_mono one_pos (scaled_pos hden _)
  rw [div_scaled, le_div_iff₀ (by positivity)]
  rw [Nat.cast_pow, Nat.cast_ofNat, Nat.cast_one, div_one, ← zpow_natCast,
    ← zpow_add₀ two_ne_zero]
  exact (two_zpow_le_iff hq _).mpr hexponent

theorem exponentFor_mono (hnum : 0 < num) (hden : 0 < den) (hden' : 0 < den')
    (h : (num : ℚ) / den ≤ num' / den') : exponentFor num den ≤ exponentFor num' den' := by
  have hq : (0 : ℚ) < num / den := by positivity
  have hnum' := pos_of_div_le hnum hden h
  rw [exponentFor_eq hnum hden, exponentFor_eq hnum' hden']
  have hlog := Int.log_mono_right (b := 2) hq h
  omega

theorem rounded_mono (hden : 0 < den) (hden' : 0 < den') (h : (num : ℚ) / den ≤ num' / den') :
    rounded num den ≤ rounded num' den' := by
  rcases Nat.eq_zero_or_pos num with rfl | hnum
  · rw [rounded_zero hden]
    exact rounded_nonneg num' den'
  have hnum' := pos_of_div_le hnum hden h
  unfold rounded
  rcases (exponentFor_mono hnum hden hden' h).eq_or_lt with heq | hlt
  · have hmantissa : mantissaFor num den ≤ mantissaFor num' den' := by
      unfold mantissaFor
      apply roundQuotient_mono (scaled_pos hden _) (scaled_pos hden' _)
      rw [div_scaled, div_scaled, heq]
      gcongr
    rw [heq]
    gcongr
  · -- A greater exponent is not the least one, so all 53 bits are used at it.
    have hfull := le_mantissaFor hnum' hden'
      ((leastExponent_le_exponentFor num den).trans_lt hlt)
    calc (mantissaFor num den : ℚ) * 2 ^ exponentFor num den
        ≤ 2 ^ (53 : ℤ) * 2 ^ exponentFor num den := by
          gcongr
          exact_mod_cast mantissaFor_le hnum hden
      _ = 2 ^ (52 : ℤ) * 2 ^ (exponentFor num den + 1) := by
          rw [← zpow_add₀ two_ne_zero, ← zpow_add₀ two_ne_zero]
          congr 1
          ring
      _ ≤ 2 ^ (52 : ℤ) * 2 ^ exponentFor num' den' := by
          gcongr
          · norm_num
          · omega
      _ ≤ mantissaFor num' den' * 2 ^ exponentFor num' den' := by
          gcongr
          exact_mod_cast hfull

theorem rounded_of_div_eq {m : ℕ} {e : ℤ} (hden : 0 < den) (hm : m < 2 ^ 53)
    (he : leastExponent ≤ e) (h : (num : ℚ) / den = m * 2 ^ e) :
    rounded num den = m * 2 ^ e := by
  rcases Nat.eq_zero_or_pos num with rfl | hnum
  · rw [rounded_zero hden, ← h, Nat.cast_zero, zero_div]
  have hq : (0 : ℚ) < num / den := by positivity
  have hexponent : exponentFor num den ≤ e := by
    have hlog : Int.log 2 ((num : ℚ) / den) < 53 + e := by
      rw [← lt_two_zpow_iff hq, h, zpow_add₀ two_ne_zero]
      gcongr
      exact_mod_cast hm
    rw [exponentFor_eq hnum hden]
    omega
  obtain ⟨k, hk⟩ := Int.le.dest hexponent
  have hvalue : (num : ℚ) / den = (m * 2 ^ k : ℕ) * 2 ^ exponentFor num den := by
    rw [h, ← hk, zpow_add₀ two_ne_zero, zpow_natCast]
    push_cast
    ring
  rw [rounded, mantissaFor_of_div_eq hden hvalue, ← hvalue, h]

/-! ### The nearest number -/

theorem nearest_eq (negative : Bool) (hnum : 0 < num) (den : ℕ) :
    nearest negative num den =
      if mantissaFor num den = Nat.pow 2 53 then
        if greatestExponent < exponentFor num den + 1 then .infinite negative
        else .finite negative (Nat.pow 2 52) (exponentFor num den + 1)
      else if greatestExponent < exponentFor num den then .infinite negative
      else .finite negative (mantissaFor num den) (exponentFor num den) := by
  unfold nearest mantissaFor
  rw [if_neg hnum.ne']
  -- The mantissa and its limit are names here, as the kernel would unfold them.
  generalize Nat.pow 2 53 = limit
  generalize exponentFor num den = exponent
  extract_lets
  cases scaled num den exponent with
  | mk n d =>
    dsimp -zeta only
    generalize roundQuotient n d = mantissa
    dsimp only
    by_cases hcarry : mantissa = limit
    · simp only [if_pos hcarry]
      rfl
    · simp only [if_neg hcarry]
      rfl

/-- The nearest number is in lowest form, and infinite where its exponent is too large. -/
theorem exists_nearest_eq (negative : Bool) (hnum : 0 < num) (hden : 0 < den) :
    ∃ (m : ℕ) (e : ℤ), m < 2 ^ 53 ∧ leastExponent ≤ e ∧ (leastExponent < e → 2 ^ 52 ≤ m) ∧
      (m : ℚ) * 2 ^ e = rounded num den ∧
      nearest negative num den =
        if greatestExponent < e then .infinite negative else .finite negative m e := by
  have hleast := leastExponent_le_exponentFor num den
  rw [nearest_eq negative hnum, show Nat.pow 2 53 = 2 ^ 53 from rfl]
  by_cases hcarry : mantissaFor num den = 2 ^ 53
  · refine ⟨2 ^ 52, exponentFor num den + 1, by norm_num, by omega, fun _ ↦ le_rfl, ?_, ?_⟩
    · rw [rounded, hcarry, zpow_add_one₀ two_ne_zero]
      push_cast
      ring
    · exact if_pos hcarry
  · refine ⟨mantissaFor num den, exponentFor num den, ?_, hleast, ?_, rfl, if_neg hcarry⟩
    · exact lt_of_le_of_ne (mantissaFor_le hnum hden) hcarry
    · exact le_mantissaFor hnum hden

/-- A fraction, or infinity if it is too large for a number. -/
def clip (q : ℚ) : WithBot (WithTop ℚ) :=
  if 2 ^ 1024 ≤ q then ⊤ else ((q : WithTop ℚ) : WithBot (WithTop ℚ))

theorem clip_mono {q q' : ℚ} (h : q ≤ q') : clip q ≤ clip q' := by
  unfold clip
  by_cases hlarge : 2 ^ 1024 ≤ q'
  · rw [if_pos hlarge]
    exact le_top
  · rw [if_neg hlarge, if_neg fun hq ↦ hlarge (hq.trans h)]
    exact WithBot.coe_le_coe.mpr (WithTop.coe_le_coe.mpr h)

theorem two_zpow_greatest : (2 : ℚ) ^ (53 : ℤ) * 2 ^ greatestExponent = 2 ^ 1024 := by
  rw [← zpow_natCast, ← zpow_add₀ two_ne_zero]
  rfl

theorem mul_two_zpow_lt {m : ℕ} {e : ℤ} (hm : m < 2 ^ 53) (he : e ≤ greatestExponent) :
    (m : ℚ) * 2 ^ e < 2 ^ 1024 := by
  calc (m : ℚ) * 2 ^ e < 2 ^ (53 : ℤ) * 2 ^ e := by
        gcongr
        exact_mod_cast hm
    _ ≤ 2 ^ (53 : ℤ) * 2 ^ greatestExponent := by
        gcongr
        norm_num
    _ = 2 ^ 1024 := two_zpow_greatest

theorem le_mul_two_zpow {m : ℕ} {e : ℤ} (hm : 2 ^ 52 ≤ m) (he : greatestExponent < e) :
    (2 : ℚ) ^ 1024 ≤ m * 2 ^ e := by
  calc (2 : ℚ) ^ 1024 = 2 ^ (52 : ℤ) * 2 ^ (greatestExponent + 1) := by
        rw [← two_zpow_greatest, ← zpow_add₀ two_ne_zero, ← zpow_add₀ two_ne_zero]
        rfl
    _ ≤ 2 ^ (52 : ℤ) * 2 ^ e := by
        gcongr
        · norm_num
        · omega
    _ ≤ m * 2 ^ e := by
        gcongr
        exact_mod_cast hm

theorem value_nearest (hden : 0 < den) :
    (nearest false num den).value = clip (rounded num den) := by
  rcases Nat.eq_zero_or_pos num with rfl | hnum
  · rw [rounded_zero hden, clip, if_neg (not_le.mpr (by positivity))]
    simp [nearest, value, signed]
  obtain ⟨m, e, hm, he, hfull, hrounded, hnearest⟩ := exists_nearest_eq false hnum hden
  rw [hnearest, ← hrounded, clip]
  by_cases hlarge : greatestExponent < e
  · rw [if_pos hlarge, if_pos (le_mul_two_zpow (hfull (lt_trans (by decide) hlarge)) hlarge)]
    rfl
  · rw [if_neg hlarge, if_neg (not_le.mpr (mul_two_zpow_lt hm (not_lt.mp hlarge)))]
    simp [value, signed]

theorem nearest_mono (hden : 0 < den) (hden' : 0 < den') (h : (num : ℚ) / den ≤ num' / den') :
    (nearest false num den).value ≤ (nearest false num' den').value := by
  rw [value_nearest hden, value_nearest hden']
  exact clip_mono (rounded_mono hden hden' h)

/-- What rounding makes of numbers that are not negative. -/
inductive IsRounded : Double → Prop
  | infinite : IsRounded (.infinite false)
  | finite {m : ℕ} {e : ℤ} (hm : m < 2 ^ 53) (hleast : leastExponent ≤ e)
    (hgreatest : e ≤ greatestExponent) : IsRounded (.finite false m e)

theorem isRounded_nearest (hden : 0 < den) : IsRounded (nearest false num den) := by
  rcases Nat.eq_zero_or_pos num with rfl | hnum
  · exact .finite (by norm_num) le_rfl (by decide)
  obtain ⟨m, e, hm, he, -, -, hnearest⟩ := exists_nearest_eq false hnum hden
  rw [hnearest]
  split
  · exact .infinite
  · exact .finite hm he (by omega)

theorem value_nearest_self {m : ℕ} {e : ℤ} (hx : IsRounded (.finite false m e)) (hden : 0 < den)
    (h : (num : ℚ) / den = m * 2 ^ e) :
    (nearest false num den).value = (finite false m e).value := by
  cases hx with
  | finite hm hleast hgreatest =>
    rw [value_nearest hden, rounded_of_div_eq hden hm hleast h, clip,
      if_neg (not_le.mpr (mul_two_zpow_lt hm hgreatest))]
    simp [value, signed]

/-! ### Sums -/

/-- Both mantissas are brought to the lesser exponent exactly. -/
theorem align_eq (a e b f : ℤ) :
    ((align a e b f).1 : ℚ) * 2 ^ (align a e b f).2.2 = a * 2 ^ e ∧
      ((align a e b f).2.1 : ℚ) * 2 ^ (align a e b f).2.2 = b * 2 ^ f := by
  have hscale : ∀ m k l : ℤ, k ≤ l →
      ((m * (Nat.pow 2 (l - k).toNat : ℤ) : ℤ) : ℚ) * 2 ^ k = m * 2 ^ l := by
    intro m k l hkl
    obtain ⟨j, rfl⟩ := Int.le.dest hkl
    rw [add_sub_cancel_left, Int.toNat_natCast, zpow_add₀ two_ne_zero, zpow_natCast, Nat.pow_eq]
    push_cast
    ring
  unfold align
  split
  · exact ⟨rfl, hscale b e f ‹_›⟩
  · exact ⟨hscale a f e (by omega), rfl⟩

/-- The sum of two finite numbers that are not negative is the number nearest to their exact sum. -/
theorem exists_add_eq (m n : ℕ) (e f : ℤ) :
    ∃ num den : ℕ, 0 < den ∧ (num : ℚ) / den = m * 2 ^ e + n * 2 ^ f ∧
      (finite false m e).add (finite false n f) = nearest false num den := by
  obtain ⟨hleft, hright⟩ := align_eq m e n f
  have hnonneg : 0 ≤ (align m e n f).1 + (align m e n f).2.1 := by
    unfold align
    split <;> positivity
  simp only [add, signed, Bool.false_eq_true, if_false, Bool.and_self]
  generalize (align m e n f).1 = a at *
  generalize (align m e n f).2.1 = b at *
  generalize (align m e n f).2.2 = k at *
  obtain ⟨c, hc⟩ := Int.eq_ofNat_of_zero_le hnonneg
  have hsum : (c : ℚ) * 2 ^ k = m * 2 ^ e + n * 2 ^ f := by
    rw [Int.cast_natCast] at hleft hright
    rw [← hleft, ← hright, ← add_mul]
    congr 1
    exact_mod_cast hc.symm
  have hsign : (if a + b = 0 then false else decide (a + b < 0)) = false := by
    rw [hc]
    simp
  unfold nearestScaled
  rw [hsign, hc, Int.natAbs_natCast]
  split
  · refine ⟨c, Nat.pow 2 (-k).toNat, Nat.two_pow_pos _, ?_, rfl⟩
    rw [← hsum, Nat.pow_eq, Nat.cast_pow, ← zpow_natCast, Int.toNat_of_nonneg (by omega),
      Nat.cast_ofNat, zpow_neg, div_inv_eq_mul]
  · refine ⟨c * Nat.pow 2 k.toNat, 1, one_pos, ?_, rfl⟩
    rw [← hsum, Nat.pow_eq, Nat.cast_mul, Nat.cast_pow, ← zpow_natCast,
      Int.toNat_of_nonneg (by omega), Nat.cast_ofNat, Nat.cast_one, div_one]

variable {x x' y y' : Double}

theorem IsRounded.add (hx : IsRounded x) (hy : IsRounded y) : IsRounded (x.add y) := by
  cases hx with
  | infinite => cases hy <;> exact .infinite
  | @finite m e _ _ _ =>
    cases hy with
    | infinite => exact .infinite
    | @finite n f _ _ _ =>
      obtain ⟨num, den, hden, -, hadd⟩ := exists_add_eq m n e f
      rw [hadd]
      exact isRounded_nearest hden

theorem add_infinite (hx : IsRounded x) : x.add (.infinite false) = .infinite false := by
  cases hx <;> rfl

theorem infinite_add (hx : IsRounded x) : (infinite false).add x = .infinite false := by
  cases hx <;> rfl

/-- A sum is not below what is added to. -/
theorem le_add (hx : IsRounded x) (hy : IsRounded y) : x.value ≤ (x.add y).value := by
  cases hx with
  | infinite =>
    rw [infinite_add hy]
  | @finite m e hm hleast hgreatest =>
    cases hy with
    | infinite => exact le_top
    | @finite n f _ _ _ =>
      obtain ⟨num, den, hden, hsum, hadd⟩ := exists_add_eq m n e f
      obtain ⟨num', den', hden', hsum', -⟩ := exists_add_eq m 0 e 0
      rw [Nat.cast_zero, zero_mul, add_zero] at hsum'
      rw [hadd, ← value_nearest_self (.finite hm hleast hgreatest) hden' hsum']
      apply nearest_mono hden' hden
      rw [hsum, hsum']
      exact le_add_of_nonneg_right (by positivity)

theorem value_finite (m : ℕ) (e : ℤ) :
    (finite false m e).value = (((m : ℚ) * 2 ^ e : ℚ) : WithTop ℚ) := by
  simp [value, signed]

/-- What is not above a finite number is finite. -/
theorem exists_eq_finite {n : ℕ} {f : ℤ} (hx : IsRounded x)
    (h : x.value ≤ (finite false n f).value) :
    ∃ m e, x = finite false m e ∧ (m : ℚ) * 2 ^ e ≤ n * 2 ^ f := by
  rw [value_finite] at h
  cases hx with
  | infinite => exact absurd (WithBot.coe_le_coe.mp h) (not_le.mpr (WithTop.coe_lt_top _))
  | @finite m e _ _ _ =>
    rw [value_finite] at h
    exact ⟨m, e, rfl, WithTop.coe_le_coe.mp (WithBot.coe_le_coe.mp h)⟩

/-- A sum grows with both of what is added. -/
theorem add_le_add (hx : IsRounded x) (hx' : IsRounded x') (hy : IsRounded y) (hy' : IsRounded y')
    (hxx' : x.value ≤ x'.value) (hyy' : y.value ≤ y'.value) :
    (x.add y).value ≤ (x'.add y').value := by
  cases hx' with
  | infinite =>
    rw [infinite_add hy']
    exact le_top
  | @finite m' e' hm' hleast hgreatest =>
    cases hy' with
    | infinite =>
      rw [add_infinite (.finite hm' hleast hgreatest)]
      exact le_top
    | @finite n' f' _ _ _ =>
      obtain ⟨m, e, rfl, hm⟩ := exists_eq_finite hx hxx'
      obtain ⟨n, f, rfl, hn⟩ := exists_eq_finite hy hyy'
      obtain ⟨num, den, hden, hsum, hadd⟩ := exists_add_eq m n e f
      obtain ⟨num', den', hden', hsum', hadd'⟩ := exists_add_eq m' n' e' f'
      rw [hadd, hadd']
      apply nearest_mono hden hden'
      rw [hsum, hsum']
      linarith

end Remedy.Double
