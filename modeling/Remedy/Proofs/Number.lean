import Mathlib.Algebra.Order.Field.Power
import Mathlib.Algebra.Order.Ring.Rat
import Mathlib.Order.WithBot
import Mathlib.Tactic.Positivity
import Mathlib.Tactic.Ring
import Remedy.Number

/-!
# The order of numbers

Numbers are compared by their values: fractions, with minus infinity below and infinity above them
all (`Number.lt_iff`, `Number.le_iff`). So the lesser of two numbers lies below both of them, unless
one of them is not a number at all, which is neither above nor below anything. A number above zero
is one.
-/

set_option autoImplicit false

namespace Remedy

namespace Double

/-- Where a number lies: at a fraction, or below or above all of them. What is not a number is put
anywhere. -/
def value : Double → WithBot (WithTop ℚ)
  | .finite negative mantissa exponent =>
    (((signed negative mantissa : ℚ) * 2 ^ exponent : ℚ) : WithTop ℚ)
  | .infinite negative => if negative then ⊥ else ⊤
  | .nan => ⊥

theorem compare_eq_compare {α β : Type} [LinearOrder α] [LinearOrder β] {f : α → β}
    (hf : StrictMono f) (a b : α) : compare a b = compare (f a) (f b) := by
  rcases lt_trichotomy a b with h | h | h
  · rw [compare_lt_iff_lt.mpr h, compare_lt_iff_lt.mpr (hf h)]
  · rw [compare_eq_iff_eq.mpr h, compare_eq_iff_eq.mpr (congrArg f h)]
  · rw [compare_gt_iff_gt.mpr h, compare_gt_iff_gt.mpr (hf h)]

theorem mul_zpow_lt_mul_zpow {m n : ℤ} (h : m < n) (k : ℤ) :
    (m : ℚ) * 2 ^ k < (n : ℚ) * 2 ^ k := by
  have hpower : (0 : ℚ) < 2 ^ k := by positivity
  exact mul_lt_mul_of_pos_right (Int.cast_lt.mpr h) hpower

/-- Both mantissas brought to one exponent compare as the numbers do. -/
theorem compare_align (a e b f : ℤ) :
    compare (align a e b f).1 (align a e b f).2.1 =
      compare ((a : ℚ) * 2 ^ e) ((b : ℚ) * 2 ^ f) := by
  have hscale : ∀ m k l : ℤ, k ≤ l →
      (m : ℚ) * 2 ^ l = ((m * (Nat.pow 2 (l - k).toNat : ℤ) : ℤ) : ℚ) * 2 ^ k := by
    intro m k l hkl
    have hpower : (2 : ℚ) ^ l = 2 ^ (l - k).toNat * 2 ^ k := by
      rw [← zpow_natCast, ← zpow_add₀ (by norm_num), Int.toNat_of_nonneg (by omega)]
      congr 1
      omega
    rw [hpower, Nat.pow_eq]
    push_cast
    ring
  unfold align
  split
  · rw [hscale b e f ‹_›]
    exact compare_eq_compare (fun _ _ h ↦ mul_zpow_lt_mul_zpow h e) _ _
  · rw [hscale a f e (by omega)]
    exact compare_eq_compare (fun _ _ h ↦ mul_zpow_lt_mul_zpow h f) _ _

theorem compare?_eq {x y : Double} (hx : x ≠ .nan) (hy : y ≠ .nan) :
    x.compare? y = some (compare x.value y.value) := by
  have hfraction : StrictMono fun q : ℚ ↦ ((q : WithTop ℚ) : WithBot (WithTop ℚ)) :=
    WithBot.coe_strictMono.comp WithTop.coe_strictMono
  have hbelow : ∀ q : ℚ, (⊥ : WithBot (WithTop ℚ)) < ((q : WithTop ℚ) : WithBot (WithTop ℚ)) :=
    fun _ ↦ WithBot.bot_lt_coe _
  have habove : ∀ q : ℚ, ((q : WithTop ℚ) : WithBot (WithTop ℚ)) < ⊤ :=
    fun q ↦ WithBot.coe_lt_coe.mpr (WithTop.coe_lt_top q)
  have hlt : ∀ {a b : WithBot (WithTop ℚ)}, a < b → compare a b = .lt ∧ compare b a = .gt :=
    fun h ↦ ⟨compare_lt_iff_lt.mpr h, compare_gt_iff_gt.mpr h⟩
  cases x with
  | nan => exact absurd rfl hx
  | infinite s =>
    cases y with
    | nan => exact absurd rfl hy
    | infinite t => cases s <;> cases t <;> simp [compare?, value, hlt bot_lt_top]
    | finite t n f =>
      cases s with
      | true => exact congrArg some (hlt (hbelow _)).1.symm
      | false => exact congrArg some (hlt (habove _)).2.symm
  | finite s m e =>
    cases y with
    | nan => exact absurd rfl hy
    | infinite t =>
      cases t with
      | true => exact congrArg some (hlt (hbelow _)).2.symm
      | false => exact congrArg some (hlt (habove _)).1.symm
    | finite t n f =>
      simp only [compare?, value]
      rw [compare_align, compare_eq_compare hfraction]

end Double

namespace Number

def IsNumber (a : Number) : Prop := a.exact ≠ .nan

def value (a : Number) : WithBot (WithTop ℚ) := a.exact.value

theorem value_int (n : ℤ) : (int n).value = (((n : ℚ) : WithTop ℚ) : WithBot (WithTop ℚ)) := by
  have hsigned : Double.signed (decide (n < 0)) n.natAbs = n := by
    rw [Double.signed]
    simp only [decide_eq_true_eq]
    split <;> omega
  simp [value, exact, Double.value, hsigned]

section Order

variable {a b c : Number}

theorem compare?_eq (ha : a.IsNumber) (hb : b.IsNumber) :
    a.compare? b = some (compare a.value b.value) := by
  have hexact : a.exact.compare? b.exact = some (compare a.value b.value) :=
    Double.compare?_eq ha hb
  -- Integers are compared as they are, everything else by its exact value.
  unfold compare?
  split
  · have hinteger : StrictMono fun n : ℤ ↦ (((n : ℚ) : WithTop ℚ) : WithBot (WithTop ℚ)) :=
      WithBot.coe_strictMono.comp (WithTop.coe_strictMono.comp Int.cast_strictMono)
    rw [value_int, value_int, Double.compare_eq_compare hinteger]
  · exact hexact

theorem lt_iff (ha : a.IsNumber) (hb : b.IsNumber) : a.lt b = true ↔ a.value < b.value := by
  rw [lt, compare?_eq ha hb, beq_iff_eq, Option.some_inj, compare_lt_iff_lt]

theorem le_iff (ha : a.IsNumber) (hb : b.IsNumber) : a.le b = true ↔ a.value ≤ b.value := by
  rw [le, compare?_eq ha hb, Bool.or_eq_true, beq_iff_eq, beq_iff_eq, Option.some_inj,
    Option.some_inj, compare_lt_iff_lt, compare_eq_iff_eq, le_iff_lt_or_eq]

theorem eq_iff (ha : a.IsNumber) (hb : b.IsNumber) : a.eq b = true ↔ a.value = b.value := by
  rw [eq, compare?_eq ha hb, beq_iff_eq, Option.some_inj, compare_eq_iff_eq]

/-- What is compared at all is a number. -/
theorem isNumber_of_compare? {o : Ordering} (h : a.compare? b = some o) :
    a.IsNumber ∧ b.IsNumber := by
  unfold compare? at h
  split at h
  · exact ⟨nofun, nofun⟩
  · refine ⟨fun ha ↦ ?_, fun hb ↦ ?_⟩
    · rw [ha] at h
      cases h
    · rw [hb] at h
      cases hx : a.exact <;> rw [hx] at h <;> cases h

theorem isNumber_of_lt (h : a.lt b = true) : a.IsNumber ∧ b.IsNumber :=
  isNumber_of_compare? (beq_iff_eq.mp h)

theorem isNumber_of_le (h : a.le b = true) : a.IsNumber ∧ b.IsNumber := by
  rcases Bool.or_eq_true_iff.mp h with h | h
  · exact isNumber_of_compare? (beq_iff_eq.mp h)
  · exact isNumber_of_compare? (beq_iff_eq.mp h)

theorem le_trans (hab : a.le b = true) (hbc : b.le c = true) : a.le c = true := by
  obtain ⟨ha, hb⟩ := isNumber_of_le hab
  obtain ⟨-, hc⟩ := isNumber_of_le hbc
  rw [le_iff ha hb] at hab
  rw [le_iff hb hc] at hbc
  exact (le_iff ha hc).mpr (hab.trans hbc)

theorem not_le_of_lt (h : a.lt b = true) : b.le a = false := by
  obtain ⟨ha, hb⟩ := isNumber_of_lt h
  rw [← Bool.not_eq_true, le_iff hb ha, not_le]
  exact (lt_iff ha hb).mp h

theorem min_le_right (ha : a.IsNumber) (hb : b.IsNumber) : (a.min b).le b = true := by
  unfold min
  split
  · exact (le_iff hb hb).mpr le_rfl
  · rename_i h
    rw [lt_iff hb ha, not_lt] at h
    exact (le_iff ha hb).mpr h

theorem lt_min (ha : c.lt a = true) (hb : c.lt b = true) : c.lt (a.min b) = true := by
  unfold min
  split
  · exact hb
  · exact ha

theorem min_eq_left_or (a b : Number) : a.min b = a ∨ a.min b = b ∧ b.lt a = true := by
  unfold min
  split
  · exact .inr ⟨rfl, ‹_›⟩
  · exact .inl rfl

end Order

end Number

end Remedy
