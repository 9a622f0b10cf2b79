import Mathlib.Algebra.Order.Ring.Rat
import Remedy.Proofs.Quiet
import Remedy.Proofs.Returning

/-!
# What happens while time passes

Between two calls of a fixer the program logs, counts and waits. None of this can fail unless the
activity is called off (`Act.Passes`): time goes on, and of what work can see nothing but the log is
changed (`World.Later`).
-/

set_option autoImplicit false

namespace Remedy

/-- Of what work can see nothing but the log has been changed. -/
structure World.Idles (w w' : World) : Prop where
  still : w.Still w'
  bindings : w'.bindings = w.bindings
  memory : w'.memory = w.memory

/-- Time has passed in addition, and the activity is not to be called off if it was not. -/
structure World.Later (w w' : World) : Prop extends World.Idles w w' where
  now : w.now ≤ w'.now
  interrupt : w.interrupt = none → w'.interrupt = none

namespace World

variable {w w' w'' : World}

theorem Idles.refl (w : World) : Idles w w :=
  ⟨.refl w, rfl, rfl⟩

theorem Idles.trans (h : Idles w w') (h' : Idles w' w'') : Idles w w'' :=
  ⟨h.still.trans h'.still, h'.bindings.trans h.bindings, h'.memory.trans h.memory⟩

theorem Later.refl (w : World) : Later w w :=
  ⟨.refl w, le_refl w.now, id⟩

theorem Later.trans (h : Later w w') (h' : Later w' w'') : Later w w'' :=
  ⟨h.toIdles.trans h'.toIdles, h.now.trans h'.now, h'.interrupt ∘ h.interrupt⟩

end World

namespace Double

theorem not_zero_lt_negative (mantissa : ℕ) (exponent : ℤ) :
    zero.lt (.finite true mantissa exponent) = false := by
  have hcompare : ∀ k : ℕ, compare (0 : ℤ) (-(mantissa : ℤ) * (k : ℤ)) ≠ .lt := by
    intro k hlt
    have hprod := Int.mul_nonneg (Int.natCast_nonneg mantissa) (Int.natCast_nonneg k)
    have hneg := Int.compare_eq_lt.mp hlt
    rw [Int.neg_mul] at hneg
    omega
  rw [Bool.eq_false_iff]
  intro h
  unfold lt compare? zero align at h
  dsimp only [signed] at h
  split at h
  · exact hcompare _ (Option.some_inj.mp (beq_iff_eq.mp h))
  · have hone := hcompare 1
    simp only [Nat.cast_one, mul_one] at hone
    simp only [Bool.false_eq_true, if_false, Nat.cast_zero, zero_mul] at h
    exact hone (Option.some_inj.mp (beq_iff_eq.mp h))

/-- What is longer than nothing lasts. -/
theorem toRat?_nonneg {x : Double} (h : zero.lt x = true) : 0 ≤ x.toRat?.getD 0 := by
  cases x with
  | finite negative mantissa exponent =>
    cases negative with
    | false =>
      show (0 : ℚ) ≤ if exponent < 0 then mkRat (mantissa : ℤ) _ else ((mantissa : ℤ) * _ : ℤ)
      split
      · exact Rat.mkRat_nonneg (Int.natCast_nonneg _) _
      · exact Rat.intCast_nonneg.mpr
          (Int.mul_nonneg (Int.natCast_nonneg _) (Int.natCast_nonneg _))
    | true =>
      rw [not_zero_lt_negative] at h
      cases h
  | infinite negative => exact le_refl _
  | nan => exact le_refl _

end Double

namespace Act

variable {α β : Type}

theorem isFrame_idles : IsFrame World.Idles where
  refl := World.Idles.refl
  trans _ _ _ := World.Idles.trans
  record event := fun w ↦ by
    unfold Act.record
    exact ends_modify.mpr ⟨still_record event w, rfl, rfl⟩
  count tally amount labels _ :=
    keeps_count_of (fun _ _ ↦ ⟨.of_eq rfl rfl rfl, rfl, rfl⟩) amount labels
  aside _ _ _ _ _ _ := ⟨.of_eq rfl rfl rfl, rfl, rfl⟩

/-- The action takes its time, and cannot fail unless the activity is called off. -/
def Passes (act : Act α) : Prop :=
  ∀ w, w.interrupt = none → Ends act w (fun _ w' ↦ w.Later w') fun _ _ ↦ False

theorem passes_of_steady {act : Act α} (hidles : Keeps World.Idles act)
    (hsteady : ∀ start, Steady (fun interrupt now ↦ interrupt = none ∧ start ≤ now) act) :
    Passes act := fun w hw ↦
  ((hidles w).and (hsteady w.now w ⟨hw, le_refl _⟩)).mono
    (fun _ _ h ↦ ⟨h.1, h.2.2, fun _ ↦ h.2.1⟩) fun _ _ h ↦ h.2

theorem Passes.bind {act : Act α} {f : α → Act β} (h : Passes act) (hnext : ∀ a, Passes (f a)) :
    Passes (act >>= f) := by
  intro w hw
  refine ends_bind.mpr ((h w hw).mono (fun a w₁ h₁ ↦ ?_) fun _ _ ↦ False.elim)
  exact (hnext a w₁ (h₁.interrupt hw)).mono (fun _ _ h₂ ↦ h₁.trans h₂) fun _ _ ↦ id

theorem passes_record (event : Event) : Passes (record event) :=
  passes_of_steady (isFrame_idles.record event) fun _ ↦ steady_record event

theorem passes_log (level : LogLevel) (name : String) (fields : List (String × Json)) :
    Passes (log level name fields) :=
  passes_record _

theorem passes_modify {f : World → World} (hidles : ∀ w : World, w.Idles (f w))
    (hinterrupt : ∀ w, (f w).interrupt = w.interrupt) (hnow : ∀ w, (f w).now = w.now) :
    Passes (modify f) :=
  passes_of_steady (keeps_modify hidles) fun _ ↦ steady_modify hinterrupt hnow

theorem passes_giveWay : Passes giveWay :=
  passes_of_steady isFrame_idles.keeps_giveWay fun _ ↦ steady_giveWay

theorem passes_pause {seconds : Moment} (h : 0 ≤ seconds) : Passes (pause seconds) := by
  refine passes_of_steady (isFrame_idles.keeps_pause seconds) fun start w hw ↦ ?_
  refine (ends_pause seconds hw.1).mono (fun _ w' hw' ↦ ⟨hw'.1, ?_⟩) fun _ _ ↦ id
  rw [hw'.2]
  exact hw.2.trans (le_add_of_nonneg_right h)

theorem passes_since (start : Moment) : Passes (since start) :=
  passes_of_steady (isFrame_idles.keeps_since start) fun _ ↦ steady_get.bind fun _ ↦ steady_pure _

theorem passes_rest (number : Nat) (fault : Fault) (wait : Double) :
    Passes (rest number fault wait) := by
  unfold rest
  refine (passes_record _).bind fun _ ↦ ?_
  split
  · exact passes_pause (Double.toRat?_nonneg ‹_›)
  · exact passes_giveWay

/-- Counting cannot fail if the amount is not negative and fits into a counter. -/
theorem steady_count {P : Option Moment → Moment → Prop} {amount : Number}
    (hlt : amount.lt 0 = false) (hfits : amount.toDouble?.isSome = true) (tally : Meter.Tally)
    (labels : Labels) : Steady P (count tally amount labels) := by
  intro w hw
  obtain ⟨x, hx⟩ := Option.isSome_iff_exists.mp hfits
  unfold count
  refine ends_bind.mpr (ends_get.mpr ?_)
  simp only [Counter.inc, hlt, hx, Bool.false_eq_true, if_false]
  exact ends_bind.mpr (ends_set.mpr (ends_pure.mpr hw))

theorem passes_count {amount : Number} (hlt : amount.lt 0 = false)
    (hfits : amount.toDouble?.isSome = true) (tally : Meter.Tally) (labels : Labels) :
    Passes (count tally amount labels) :=
  passes_of_steady (keeps_count_of (fun _ _ ↦ ⟨.of_eq rfl rfl rfl, rfl, rfl⟩) amount labels)
    fun _ ↦ steady_count hlt hfits tally labels

theorem passes_countOne (tally : Meter.Tally) (labels : Labels) : Passes (count tally 1 labels) :=
  passes_count rfl rfl tally labels

end Act

end Remedy
