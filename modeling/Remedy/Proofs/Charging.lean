import Mathlib.Algebra.BigOperators.Group.List.Basic
import Remedy.Meter
import Remedy.Proofs.Number.Whole

/-!
# What is charged to a meter

A charge adds a whole number to one counter under some labels, or observes a duration (`Charge`), and
a meter is charged with a list of them one after the other (`Meter.charge`). Counters are fractions,
so they are only as exact as these: what a fresh meter holds after a list of charges, under labels
(`Meter.toRat?_get_charge`) or in all (`Meter.toRat?_total_charge`), is the sum of the amounts as long
as that sum does not exceed `2 ^ 53`.

What a counter holds for a label set is raised by one for each time that it is counted under these
labels (`Counter.held_raise`), so that a whole number is raised by their number, as long as it does
not exceed `2 ^ 53` (`Counter.held_raise_natCast`).
-/

set_option autoImplicit false

namespace Remedy.Counter

/-- What a counter holds for a label set, zero if nothing was added to it. -/
def held (c : Counter) (labels : Labels) : Double := (sum? labels c.sums).getD Double.zero

/-- The counter raised by one under each of the label sets, one after the other. -/
def raise (c : Counter) (counted : List Labels) : Counter :=
  counted.foldl (fun c labels ↦ (c.inc 1 labels).1) c

theorem sum?_putSum (labels labels' : Labels) (x : Double) (sums : List (Labels × Double)) :
    sum? labels' (putSum labels x sums) =
      if labels = labels' then some x else sum? labels' sums := by
  induction sums with
  | nil => simp [putSum, sum?]
  | cons entry rest ih =>
    obtain ⟨l, y⟩ := entry
    by_cases hl : l = labels
    · subst hl
      by_cases hlabels : l = labels' <;> simp [putSum, sum?, hlabels]
    · by_cases hlabels : labels = labels'
      · subst hlabels
        simp [putSum, sum?, hl, ih]
      · simp [putSum, sum?, hl, ih, hlabels]

theorem inc_one (c : Counter) (labels : Labels) :
    c.inc 1 labels =
      (⟨putSum labels ((c.held labels).add (Double.ofNat 1)) c.sums⟩, none) := by
  have hlt : (1 : Number).lt 0 = false := Number.natCast_lt_zero 1
  have hdouble : (1 : Number).toDouble? = some (Double.ofNat 1) :=
    Number.toDouble?_natCast (by decide)
  simp only [inc, hlt, hdouble, Bool.false_eq_true, if_false]
  rfl

theorem held_inc_one (c : Counter) (labels labels' : Labels) :
    (c.inc 1 labels).1.held labels' =
      if labels = labels' then (c.held labels').add (Double.ofNat 1) else c.held labels' := by
  rw [inc_one, held, sum?_putSum]
  by_cases h : labels = labels'
  · simp [h]
  · simp [h, held]

theorem held_raise (c : Counter) (counted : List Labels) (labels : Labels) :
    (c.raise counted).held labels =
      (fun x : Double ↦ x.add (Double.ofNat 1))^[counted.count labels] (c.held labels) := by
  induction counted generalizing c with
  | nil => rfl
  | cons first rest ih =>
    show ((c.inc 1 first).1.raise rest).held labels = _
    rw [ih, held_inc_one]
    by_cases h : first = labels
    · rw [if_pos h, h, List.count_cons_self, Function.iterate_succ_apply]
    · rw [if_neg h, List.count_cons_of_ne h]

theorem held_raise_natCast {c : Counter} {counted : List Labels} {labels : Labels} {k : ℕ}
    (hheld : c.held labels = Double.ofNat k) (hle : k + counted.count labels ≤ 2 ^ 53) :
    (c.raise counted).held labels = Double.ofNat (k + counted.count labels) := by
  rw [held_raise, hheld, Double.addOne_iterate hle]

end Remedy.Counter

namespace Remedy

open Meter (Tally)

namespace Number

/-- The number is this many, as an integer or as a truth value. -/
def Is (x : Number) (n : ℕ) : Prop := x.int? = some (n : ℤ)

theorem Is.add? {x y : Number} {m n : ℕ} (hx : x.Is m) (hy : y.Is n) :
    x.add? y = some (int (m + n : ℕ)) := by
  unfold Number.add?
  rw [show x.int? = _ from hx, show y.int? = _ from hy]
  rfl

/-- A fraction that is added to nothing becomes a sum of fractions. -/
theorem zero_add? (x : Double) : (0 : Number).add? (.real x) =
    some (.real ((Double.ofNat 0).add x)) := by
  have hzero : (0 : Number).toDouble? = some (Double.ofNat 0) := toDouble?_natCast (by decide)
  simp only [Number.add?, hzero]
  rfl

/-- The sum of whole numbers is not rounded. -/
theorem sum_eq {xs : List Number} {ns : List ℕ} (h : List.Forall₂ Is xs ns) :
    Number.sum xs = .ok (int (ns.sum : ℕ)) := by
  unfold Number.sum
  rw [← Nat.zero_add ns.sum]
  change List.foldlM _ (int (0 : ℕ)) xs = _
  generalize 0 = k
  induction h generalizing k with
  | nil => rfl
  | @cons _ n _ ns hx _ ih =>
    have hk : (int k).Is k := rfl
    rw [List.foldlM_cons, hk.add? hx, List.sum_cons, ← Nat.add_assoc]
    exact ih _

end Number

/-! ### Counters -/

namespace Counter

/-- The counter after amounts have been added to it, each under its labels. -/
def addAll (c : Counter) (items : List (Labels × ℕ)) : Counter :=
  items.foldl (fun c item ↦ (c.inc (.int item.2) item.1).1) c

/-- The sum of the amounts under some labels. -/
def dueUnder (labels : Labels) (items : List (Labels × ℕ)) : ℕ :=
  (items.map fun item ↦ if item.1 = labels then item.2 else 0).sum

variable {c : Counter} {labels labels' : Labels} {n k : ℕ}

theorem inc_of_is {x : Number} (h : x.Is n) : c.inc x labels = c.inc (.int n) labels := by
  cases x with
  | int m =>
    rw [show m = (n : ℤ) from Option.some.inj h]
  | real y => cases h
  | truth b =>
    have hb : ((if b then 1 else 0 : ℤ)) = n := Option.some.inj h
    rw [← hb]
    cases b <;> rfl

theorem inc_natCast (hn : n ≤ 2 ^ 53) :
    c.inc (.int n) labels =
      (⟨putSum labels ((c.held labels).add (Double.ofNat n)) c.sums⟩, none) := by
  simp only [inc, show (Number.int n).lt 0 = false from Number.natCast_lt_zero n,
    Number.toDouble?_natCast_of_le hn, Bool.false_eq_true, if_false]
  rfl

theorem held_inc_self (hheld : c.held labels = Double.ofNat k) (hle : k + n ≤ 2 ^ 53) :
    (c.inc (.int n) labels).1.held labels = Double.ofNat (k + n) := by
  rw [inc_natCast (by omega), held, sum?_putSum, if_pos rfl, hheld]
  exact Double.add_ofNat_of_le hle

theorem held_inc_of_ne (h : labels ≠ labels') (x : Number) :
    (c.inc x labels).1.held labels' = c.held labels' := by
  unfold inc
  split
  · rfl
  · dsimp only
    split
    · rw [held, sum?_putSum, if_neg h, held]
    · rw [held, sum?_putSum, if_neg h, held]

theorem held_addAll {items : List (Labels × ℕ)} (hheld : c.held labels = Double.ofNat k)
    (hle : k + dueUnder labels items ≤ 2 ^ 53) :
    (c.addAll items).held labels = Double.ofNat (k + dueUnder labels items) := by
  induction items generalizing c k with
  | nil => simpa [addAll, dueUnder] using hheld
  | cons item rest ih =>
    show ((c.inc (.int item.2) item.1).1.addAll rest).held labels = _
    by_cases h : item.1 = labels
    · have hdue : dueUnder labels (item :: rest) = item.2 + dueUnder labels rest := by
        simp [dueUnder, h]
      rw [hdue, ← Nat.add_assoc] at hle ⊢
      have hitem := held_inc_self (n := item.2) (h ▸ hheld) (by omega)
      exact ih (h ▸ hitem) hle
    · have hdue : dueUnder labels (item :: rest) = dueUnder labels rest := by
        simp [dueUnder, h]
      rw [hdue] at hle ⊢
      exact ih ((held_inc_of_ne h _).trans hheld) hle

theorem toRat?_get : (c.get labels).toRat? = (c.held labels).toRat? := by
  unfold get held
  cases sum? labels c.sums with
  | some x => rfl
  | none => decide +kernel

/-! ### Totals -/

/-- The counter that holds these whole numbers. -/
def ofCounts (counts : List (Labels × ℕ)) : Counter :=
  ⟨counts.map fun entry ↦ (entry.1, Double.ofNat entry.2)⟩

/-- Adds an amount to the number of its labels. -/
def addCount (labels : Labels) (n : ℕ) : List (Labels × ℕ) → List (Labels × ℕ)
  | [] => [(labels, n)]
  | (l, k) :: rest => if l = labels then (l, k + n) :: rest else (l, k) :: addCount labels n rest

variable {counts : List (Labels × ℕ)}

theorem sum_addCount (labels : Labels) (n : ℕ) (counts : List (Labels × ℕ)) :
    ((addCount labels n counts).map (·.2)).sum = (counts.map (·.2)).sum + n := by
  induction counts with
  | nil => simp [addCount]
  | cons entry rest ih =>
    obtain ⟨l, k⟩ := entry
    unfold addCount
    split
    · simp only [List.map_cons, List.sum_cons]
      omega
    · simp only [List.map_cons, List.sum_cons, ih]
      omega

theorem inc_ofCounts (hle : (counts.map (·.2)).sum + n ≤ 2 ^ 53) :
    ((ofCounts counts).inc (.int n) labels).1 = ofCounts (addCount labels n counts) := by
  have hsums : putSum labels (((ofCounts counts).held labels).add (Double.ofNat n))
      (ofCounts counts).sums = (ofCounts (addCount labels n counts)).sums := by
    unfold ofCounts held
    dsimp only
    induction counts with
    | nil =>
      have hzero : Double.zero = Double.ofNat 0 := by decide +kernel
      simp only [List.map_nil, sum?, putSum, addCount, List.map_cons, Option.getD_none, hzero]
      rw [Double.add_ofNat_of_le (by omega), Nat.zero_add]
    | cons entry rest ih =>
      obtain ⟨l, k⟩ := entry
      rw [List.map_cons, List.sum_cons] at hle
      by_cases h : l = labels
      · simp only [List.map_cons, sum?, putSum, addCount, if_pos h, Option.getD_some]
        rw [Double.add_ofNat_of_le (by omega)]
      · simp only [List.map_cons, sum?, putSum, addCount, if_neg h]
        rw [ih (by omega)]
  rw [inc_natCast (by omega), hsums]

theorem exists_ofCounts_addAll (counts items : List (Labels × ℕ))
    (hle : (counts.map (·.2)).sum + (items.map (·.2)).sum ≤ 2 ^ 53) :
    ∃ counts', (ofCounts counts).addAll items = ofCounts counts' ∧
      (counts'.map (·.2)).sum = (counts.map (·.2)).sum + (items.map (·.2)).sum := by
  induction items generalizing counts with
  | nil => exact ⟨counts, rfl, rfl⟩
  | cons item rest ih =>
    rw [List.map_cons, List.sum_cons] at hle
    have hsum := sum_addCount item.1 item.2 counts
    obtain ⟨counts', hcounts, hsum'⟩ := ih (addCount item.1 item.2 counts) (by omega)
    refine ⟨counts', ?_, ?_⟩
    · rw [← hcounts, ← inc_ofCounts (by omega)]
      rfl
    · rw [hsum', hsum, List.map_cons, List.sum_cons]
      omega

/-- From the first number on, a sum of whole numbers is a fraction. -/
theorem foldl_add?_counts (hle : k + (counts.map (·.2)).sum ≤ 2 ^ 53) :
    counts.foldl (fun (sum : Number) e ↦ (sum.add? (.real (Double.ofNat e.2))).getD sum)
      (.real (Double.ofNat k)) = .real (Double.ofNat (k + (counts.map (·.2)).sum)) := by
  induction counts generalizing k with
  | nil => rfl
  | cons entry rest ih =>
    rw [List.map_cons, List.sum_cons] at hle ⊢
    rw [List.foldl_cons, ← Nat.add_assoc, ← ih (by omega)]
    show List.foldl _ (Number.real ((Double.ofNat k).add (Double.ofNat entry.2))) _ = _
    rw [Double.add_ofNat_of_le (by omega)]

theorem toRat?_total (hle : (counts.map (·.2)).sum ≤ 2 ^ 53) :
    (ofCounts counts).total.toRat? = some (((counts.map (·.2)).sum : ℕ) : ℚ) := by
  have htotal : (ofCounts counts).total = counts.foldl
      (fun (sum : Number) e ↦ (sum.add? (.real (Double.ofNat e.2))).getD sum) 0 := by
    unfold total ofCounts
    exact List.foldl_map
  rw [htotal]
  cases counts with
  | nil => decide +kernel
  | cons entry rest =>
    rw [List.map_cons, List.sum_cons] at hle ⊢
    rw [List.foldl_cons, Number.zero_add?, Option.getD_some, Double.add_ofNat_of_le (by omega), Nat.zero_add,
      foldl_add?_counts hle]
    exact Double.toRat?_ofNat hle

end Counter

/-! ### Meters -/

/-- What is added to a counter, or observed, at one time. -/
inductive Charge where
  | add (tally : Tally) (labels : Labels) (amount : ℕ)
  | observe (duration : Number) (labels : Labels)

namespace Charge

/-- The meter after a charge. -/
def onto (m : Meter) : Charge → Meter
  | add tally labels amount =>
    m.setCounter tally ((m.counter tally).inc (.int amount) labels).1
  | observe duration labels =>
    { m with phaseDuration := m.phaseDuration.observe duration labels }

/-- What the charge adds to a counter, and under which labels. -/
def item? (tally : Tally) : Charge → Option (Labels × ℕ)
  | add t labels amount => if t = tally then some (labels, amount) else none
  | observe _ _ => none

def isObservation : Charge → Bool
  | add _ _ _ => false
  | observe _ _ => true

end Charge

namespace Meter

/-- The meter after charges, one after the other. -/
def charge (m : Meter) (cs : List Charge) : Meter := cs.foldl Charge.onto m

/-- What charges add to a counter. -/
def items (tally : Tally) (cs : List Charge) : List (Labels × ℕ) := cs.filterMap (·.item? tally)

/-- What charges add to a counter in all. -/
def due (tally : Tally) (cs : List Charge) : ℕ := ((items tally cs).map (·.2)).sum

variable {m : Meter} {tally : Tally} {cs cs' : List Charge}

theorem charge_append : m.charge (cs ++ cs') = (m.charge cs).charge cs' :=
  List.foldl_append

theorem items_append : items tally (cs ++ cs') = items tally cs ++ items tally cs' :=
  List.filterMap_append

theorem due_append : due tally (cs ++ cs') = due tally cs + due tally cs' := by
  rw [due, items_append, List.map_append, List.sum_append, due, due]

theorem counter_charge : (m.charge cs).counter tally = (m.counter tally).addAll (items tally cs) := by
  induction cs generalizing m with
  | nil => rfl
  | cons c rest ih =>
    show ((c.onto m).charge rest).counter tally = _
    rw [ih]
    cases c with
    | observe duration labels => cases tally <;> rfl
    | add t labels amount =>
      by_cases ht : t = tally
      · subst ht
        simp [items, Charge.item?, Charge.onto, Counter.addAll]
      · simp [items, Charge.item?, Charge.onto, counter_setCounter_of_ne _ _ ht, ht]

theorem toRat?_get_charge {labels : Labels}
    (hle : Counter.dueUnder labels (items tally cs) ≤ 2 ^ 53) :
    ((({} : Meter).charge cs |>.counter tally).get labels).toRat? =
      some ((Counter.dueUnder labels (items tally cs) : ℕ) : ℚ) := by
  have hzero : Double.zero = Double.ofNat 0 := by decide +kernel
  have hfresh : (({} : Meter).counter tally).held labels = Double.ofNat 0 := by
    rw [← hzero]
    cases tally <;> rfl
  rw [Counter.toRat?_get, counter_charge, Counter.held_addAll hfresh (by omega), Nat.zero_add]
  exact Double.toRat?_ofNat hle

theorem toRat?_total_charge (hle : due tally cs ≤ 2 ^ 53) :
    (({} : Meter).charge cs |>.counter tally).total.toRat? = some ((due tally cs : ℕ) : ℚ) := by
  have hfresh : ({} : Meter).counter tally = Counter.ofCounts [] := by cases tally <;> rfl
  obtain ⟨counts, hcounts, hsum⟩ := Counter.exists_ofCounts_addAll [] (items tally cs)
    (by simpa [due] using hle)
  rw [counter_charge, hfresh, hcounts]
  have hdue : (counts.map (·.2)).sum = due tally cs := by
    rw [hsum, due]
    simp
  rw [← hdue] at hle ⊢
  exact Counter.toRat?_total hle

theorem length_values_observe (h : Histogram) (x : Number) (labels : Labels) :
    ((h.observe x labels).values none).length = (h.values none).length + 1 := by
  unfold Histogram.observe Histogram.values
  dsimp only
  induction h.seen with
  | nil => rfl
  | cons entry rest ih =>
    obtain ⟨l, xs⟩ := entry
    unfold Histogram.putValue
    split
    · simp only [List.flatMap_cons, List.length_append, List.length_singleton]
      omega
    · simp only [List.flatMap_cons, List.length_append] at ih ⊢
      omega

theorem length_values_charge :
    ((m.charge cs).phaseDuration.values none).length =
      (m.phaseDuration.values none).length + cs.countP (·.isObservation) := by
  induction cs generalizing m with
  | nil => rfl
  | cons c rest ih =>
    show (((c.onto m).charge rest).phaseDuration.values none).length = _
    rw [ih]
    cases c with
    | add tally labels amount =>
      rw [List.countP_cons_of_neg (by simp [Charge.isObservation])]
      cases tally <;> rfl
    | observe duration labels =>
      rw [List.countP_cons_of_pos rfl, Nat.add_comm (rest.countP _), ← Nat.add_assoc]
      congr 1
      exact length_values_observe _ _ _

end Meter

end Remedy
