import Mathlib.Data.String.Basic
import Remedy.Proofs.Charging
import Remedy.Proofs.Number.Rounding

/-!
# Counters as maps from label sets to sums

Amounts are added to a counter under labels, which are a dictionary or are not given (`Raise`). Two
such labels name the same sum just if they hold the same pairs (`Given.key_eq_iff`), and what a
counter tells after any amounts have been added to it is said by `Counter.Tells`: the sum of what was
accepted under each label set, the sum over all of them, and one entry for each of them. A negative
amount is refused and changes nothing, and nothing that a counter tells ever becomes less.

Sums are kept as fractions. Each of them is added up in the order in which its amounts come and is
rounded each time, so it is the sum itself as long as that does not exceed `2 ^ 53`, and past that
it need not be (`Counter.get_ne_sum`).
-/

set_option autoImplicit false

namespace Remedy

/-! ### Label sets -/

theorem labelLe_iff (a b : String × String) :
    labelLe a b = true ↔ a.1 < b.1 ∨ a.1 = b.1 ∧ a.2 ≤ b.2 := by
  rw [labelLe, Bool.or_eq_true, Bool.and_eq_true, decide_eq_true_eq, decide_eq_true_eq,
    Bool.not_eq_true', decide_eq_false_iff_not, not_lt]

theorem labelLe_trans (a b c : String × String) (hab : labelLe a b = true)
    (hbc : labelLe b c = true) : labelLe a c = true := by
  rw [labelLe_iff] at *
  rcases hab with hab | ⟨hab, hab'⟩
  · rcases hbc with hbc | ⟨hbc, -⟩
    · exact .inl (hab.trans hbc)
    · exact .inl (hbc ▸ hab)
  · rcases hbc with hbc | ⟨hbc, hbc'⟩
    · exact .inl (hab ▸ hbc)
    · exact .inr ⟨hab.trans hbc, hab'.trans hbc'⟩

theorem labelLe_total (a b : String × String) : (labelLe a b || labelLe b a) = true := by
  rw [Bool.or_eq_true, labelLe_iff, labelLe_iff]
  rcases lt_trichotomy a.1 b.1 with h | h | h
  · exact .inl (.inl h)
  · rcases le_total a.2 b.2 with h' | h'
    · exact .inl (.inr ⟨h, h'⟩)
    · exact .inr (.inr ⟨h.symm, h'⟩)
  · exact .inr (.inl h)

theorem labelLe_antisymm (a b : String × String) (hab : labelLe a b = true)
    (hba : labelLe b a = true) : a = b := by
  rw [labelLe_iff] at *
  rcases hab with hab | ⟨hab, hab'⟩
  · rcases hba with hba | ⟨hba, -⟩
    · exact absurd hba hab.not_gt
    · exact absurd hab (hba ▸ lt_irrefl _)
  · rcases hba with hba | ⟨-, hba'⟩
    · exact absurd hba (hab ▸ lt_irrefl _)
    · exact Prod.ext hab (le_antisymm hab' hba')

/-- Labels by their names, each of which stands for one value. -/
structure Dictionary where
  pairs : List (String × String)
  distinct : (pairs.map Prod.fst).Nodup

/-- Labels as they are handed over: a dictionary, or none. -/
abbrev Given := Option Dictionary

namespace Given

variable {g h : Given}

def pairs (g : Given) : List (String × String) := (g.map Dictionary.pairs).getD []

/-- The label set under which a counter keeps what is added. -/
def key (g : Given) : Labels := Labels.ofGiven (g.map Dictionary.pairs)

/-- Both hold the same pairs, in whatever order. -/
def Same (g h : Given) : Prop := ∀ pair, pair ∈ g.pairs ↔ pair ∈ h.pairs

instance : DecidableRel Same := fun g h ↦
  decidable_of_iff (g.pairs ⊆ h.pairs ∧ h.pairs ⊆ g.pairs)
    ⟨fun hsub _ ↦ ⟨fun hpair ↦ hsub.1 hpair, fun hpair ↦ hsub.2 hpair⟩,
      fun hsame ↦ ⟨fun _ ↦ (hsame _).mp, fun _ ↦ (hsame _).mpr⟩⟩

theorem key_eq (g : Given) : g.key = Labels.ofPairs g.pairs := by
  have hempty : Labels.ofPairs [] = [] := List.mergeSort_nil
  cases g with
  | none => exact hempty.symm
  | some d =>
    show (if d.pairs.isEmpty then [] else Labels.ofPairs d.pairs) = Labels.ofPairs d.pairs
    split
    · rename_i hpairs
      rw [List.isEmpty_iff.mp hpairs, hempty]
    · rfl

theorem nodup_pairs (g : Given) : g.pairs.Nodup := by
  cases g with
  | none => exact List.nodup_nil
  | some d => exact d.distinct.of_map

theorem mem_key (g : Given) (pair : String × String) : pair ∈ g.key ↔ pair ∈ g.pairs := by
  rw [key_eq]
  exact List.mem_mergeSort

theorem key_eq_iff : g.key = h.key ↔ g.Same h := by
  constructor
  · intro hkey pair
    rw [← mem_key, hkey, mem_key]
  · intro hsame
    have hperm : g.pairs.Perm h.pairs :=
      (List.perm_ext_iff_of_nodup g.nodup_pairs h.nodup_pairs).mpr hsame
    rw [key_eq, key_eq]
    have hanti : ∀ a b, a ∈ Labels.ofPairs g.pairs → b ∈ Labels.ofPairs h.pairs →
        labelLe a b = true → labelLe b a = true → a = b := fun a b _ _ ↦ labelLe_antisymm a b
    apply List.Perm.eq_of_pairwise hanti
    · exact List.pairwise_mergeSort labelLe_trans labelLe_total _
    · exact List.pairwise_mergeSort labelLe_trans labelLe_total _
    · exact (List.mergeSort_perm _ _).trans (hperm.trans (List.mergeSort_perm _ _).symm)

/-- To ask under the labels of an entry is to ask for this entry. -/
theorem ofGiven_key (g : Given) : Labels.ofGiven (some g.key) = g.key := by
  have hsorted : Labels.ofPairs g.key = g.key := by
    apply List.mergeSort_of_pairwise
    rw [key_eq]
    exact List.pairwise_mergeSort labelLe_trans labelLe_total _
  show (if g.key.isEmpty then [] else Labels.ofPairs g.key) = g.key
  split
  · exact (List.isEmpty_iff.mp ‹_›).symm
  · exact hsorted

end Given

/-! ### Adding to a counter -/

/-- A call that adds to a counter. -/
structure Raise where
  amount : ℤ
  labels : Given

namespace Raise

/-- The amount is not negative, and not too large for a fraction. -/
def Accepted (r : Raise) : Prop := 0 ≤ r.amount ∧ (Number.int r.amount).toDouble?.isSome = true

instance : DecidablePred Accepted := fun _ ↦ inferInstanceAs (Decidable (_ ∧ _))

/-- What an amount comes to: nothing if it is not accepted. -/
def due (r : Raise) : ℕ := if r.Accepted then r.amount.toNat else 0

variable {r : Raise}

theorem not_accepted_of_neg (h : r.amount < 0) : ¬ r.Accepted := fun hr ↦ absurd hr.1 (not_le.mpr h)

theorem not_accepted_of_none (h : (Number.int r.amount).toDouble? = none) : ¬ r.Accepted := by
  intro hr
  have hsome := hr.2
  rw [h] at hsome
  cases hsome

end Raise

namespace Counter

variable {c : Counter} {labels labels' : Labels} {raises : List Raise}

/-- The counter after amounts have been added to it, one after the other. -/
def after (c : Counter) (raises : List Raise) : Counter :=
  raises.foldl (fun c r ↦ (c.inc (.int r.amount) r.labels.key).1) c

/-- The accepted amounts under some labels, in the order in which they come. -/
def amountsUnder (labels : Given) (raises : List Raise) : List ℕ :=
  (raises.filter fun r ↦ r.Accepted ∧ r.labels.Same labels).map (·.amount.toNat)

/-- All accepted amounts. -/
def amounts (raises : List Raise) : List ℕ :=
  (raises.filter fun r ↦ r.Accepted).map (·.amount.toNat)

/-- Whole numbers added up as fractions: each sum is rounded. -/
def roundedSum (ns : List ℕ) : Double := ns.foldl (fun sum n ↦ sum.add (Double.ofNat n)) Double.zero

theorem lt_zero_iff (n : ℤ) : (Number.int n).lt 0 = true ↔ n < 0 := by
  show (some (compare n 0) == some .lt) = true ↔ n < 0
  rw [beq_iff_eq, Option.some_inj, compare_lt_iff_lt]

theorem toDouble?_of_nonneg {n : ℤ} (hn : 0 ≤ n) {x : Double}
    (h : (Number.int n).toDouble? = some x) : x = Double.ofNat n.toNat := by
  obtain ⟨k, rfl⟩ := Int.eq_ofNat_of_zero_le hn
  have hsign : decide ((k : ℤ) < 0) = false := by simp
  have hdouble : Double.ofInt? k = some x := h
  unfold Double.ofInt? at hdouble
  rw [hsign, Int.natAbs_natCast] at hdouble
  split at hdouble
  · cases hdouble
  · exact (Option.some.inj hdouble).symm

/-- What adding an integer can do: it is refused, or the sum of the labels grows, or, where the
integer is too large for a fraction, the labels get an entry but no amount. -/
inductive Raised (c : Counter) (n : ℤ) (labels : Labels) : Counter × Option Fault → Prop
  | refused (h : n < 0) : Raised c n labels (c, some (.invalid .decrease))
  | added (h : 0 ≤ n) (hsome : (Number.int n).toDouble?.isSome = true) :
      Raised c n labels
        (⟨putSum labels ((c.held labels).add (Double.ofNat n.toNat)) c.sums⟩, none)
  | entered (h : 0 ≤ n) (hnone : (Number.int n).toDouble? = none) :
      Raised c n labels (⟨putSum labels (c.held labels) c.sums⟩, some (.overflow .conversion))

theorem raised_inc (c : Counter) (n : ℤ) (labels : Labels) :
    Raised c n labels (c.inc (.int n) labels) := by
  unfold inc
  by_cases hn : n < 0
  · rw [if_pos ((lt_zero_iff n).mpr hn)]
    exact .refused hn
  · rw [if_neg (mt (lt_zero_iff n).mp hn)]
    rw [not_lt] at hn
    cases hdouble : (Number.int n).toDouble? with
    | none => exact .entered hn hdouble
    | some x =>
      rw [toDouble?_of_nonneg hn hdouble]
      exact .added hn (by rw [hdouble]; rfl)

/-! ### What is held -/

theorem held_putSum (labels labels' : Labels) (x : Double) (sums : List (Labels × Double)) :
    (⟨putSum labels x sums⟩ : Counter).held labels' =
      if labels = labels' then x else (⟨sums⟩ : Counter).held labels' := by
  unfold held
  dsimp only
  rw [sum?_putSum]
  split <;> rfl

/-- What is held under some labels grows by what is accepted under them. -/
theorem held_inc (c : Counter) (r : Raise) (labels : Given) :
    (c.inc (.int r.amount) r.labels.key).1.held labels.key =
      if r.Accepted ∧ r.labels.Same labels then
        (c.held labels.key).add (Double.ofNat r.amount.toNat)
      else c.held labels.key := by
  have hraised := raised_inc c r.amount r.labels.key
  generalize c.inc (.int r.amount) r.labels.key = result at hraised
  cases hraised with
  | refused h => exact (if_neg fun hr ↦ Raise.not_accepted_of_neg h hr.1).symm
  | entered h hnone =>
    rw [if_neg fun hr ↦ Raise.not_accepted_of_none hnone hr.1]
    dsimp only
    rw [held_putSum]
    by_cases hkey : r.labels.key = labels.key
    · rw [if_pos hkey, hkey]
    · rw [if_neg hkey]
  | added h hsome =>
    dsimp only
    rw [held_putSum]
    by_cases hkey : r.labels.key = labels.key
    · rw [if_pos hkey, if_pos ⟨⟨h, hsome⟩, Given.key_eq_iff.mp hkey⟩, hkey]
    · rw [if_neg hkey, if_neg fun hr ↦ hkey (Given.key_eq_iff.mpr hr.2)]

theorem amountsUnder_cons (labels : Given) (r : Raise) (rest : List Raise) :
    amountsUnder labels (r :: rest) =
      if r.Accepted ∧ r.labels.Same labels then r.amount.toNat :: amountsUnder labels rest
      else amountsUnder labels rest := by
  unfold amountsUnder
  rw [List.filter_cons]
  simp only [decide_eq_true_eq]
  split <;> rfl

/-- What is held under some labels has been added up from what was accepted under them. -/
theorem held_after (c : Counter) (labels : Given) (raises : List Raise) :
    (c.after raises).held labels.key =
      (amountsUnder labels raises).foldl (fun sum n ↦ sum.add (Double.ofNat n))
        (c.held labels.key) := by
  induction raises generalizing c with
  | nil => rfl
  | cons r rest ih =>
    show ((c.inc (.int r.amount) r.labels.key).1.after rest).held labels.key = _
    rw [ih, held_inc, amountsUnder_cons]
    split <;> rfl

theorem foldl_add_ofNat {k : ℕ} {ns : List ℕ} (hle : k + ns.sum ≤ 2 ^ 53) :
    ns.foldl (fun sum n ↦ sum.add (Double.ofNat n)) (Double.ofNat k) =
      Double.ofNat (k + ns.sum) := by
  induction ns generalizing k with
  | nil => rfl
  | cons n rest ih =>
    rw [List.sum_cons, ← Nat.add_assoc] at hle ⊢
    rw [List.foldl_cons, Double.add_ofNat_of_le (by omega), ih hle]

theorem zero_eq_ofNat : Double.zero = Double.ofNat 0 := by decide +kernel

theorem roundedSum_eq {ns : List ℕ} (hle : ns.sum ≤ 2 ^ 53) :
    roundedSum ns = Double.ofNat ns.sum := by
  unfold roundedSum
  rw [zero_eq_ofNat, foldl_add_ofNat (by omega), Nat.zero_add]

/-! ### Entries -/

theorem keys_putSum (labels : Labels) (x : Double) (sums : List (Labels × Double)) :
    (putSum labels x sums).map Prod.fst =
      if labels ∈ sums.map Prod.fst then sums.map Prod.fst else sums.map Prod.fst ++ [labels] := by
  induction sums with
  | nil => rfl
  | cons entry rest ih =>
    obtain ⟨l, y⟩ := entry
    by_cases hl : l = labels
    · simp [putSum, hl]
    · have hl' : labels ≠ l := Ne.symm hl
      simp only [putSum, if_neg hl, List.map_cons, ih, List.mem_cons, hl', false_or]
      split <;> rfl

theorem mem_keys_putSum {labels labels' : Labels} {x : Double} {sums : List (Labels × Double)} :
    labels' ∈ (putSum labels x sums).map Prod.fst ↔
      labels' = labels ∨ labels' ∈ sums.map Prod.fst := by
  rw [keys_putSum]
  split
  · rename_i hmem
    exact ⟨.inr, fun h ↦ h.elim (fun heq ↦ heq ▸ hmem) id⟩
  · rw [List.mem_append, List.mem_singleton, or_comm]

theorem nodup_keys_putSum {labels : Labels} {x : Double} {sums : List (Labels × Double)}
    (h : (sums.map Prod.fst).Nodup) : ((putSum labels x sums).map Prod.fst).Nodup := by
  rw [keys_putSum]
  split
  · exact h
  · rename_i hmem
    exact List.nodup_append.mpr ⟨h, List.nodup_singleton _, fun _ ha _ hb hab ↦
      hmem (List.mem_singleton.mp hb ▸ hab ▸ ha)⟩

/-- Under a label set that is in the entries once, its entry is found. -/
theorem sum?_of_mem {sums : List (Labels × Double)} (hnodup : (sums.map Prod.fst).Nodup)
    {entry : Labels × Double} (h : entry ∈ sums) : sum? entry.1 sums = some entry.2 := by
  induction sums with
  | nil => cases h
  | cons first rest ih =>
    rw [List.map_cons, List.nodup_cons] at hnodup
    rcases List.mem_cons.mp h with rfl | hrest
    · exact if_pos rfl
    · have hne : first.1 ≠ entry.1 := fun heq ↦ hnodup.1 (heq ▸ List.mem_map_of_mem hrest)
      show (if first.1 = entry.1 then some first.2 else sum? entry.1 rest) = _
      rw [if_neg hne]
      exact ih hnodup.2 hrest

/-- The label sets that a counter has entries for. -/
def keys (c : Counter) : List Labels := c.sums.map Prod.fst

/-- There is one entry for each label set, and each sum has been rounded. -/
structure Sound (c : Counter) : Prop where
  nodup : c.keys.Nodup
  rounded : ∀ entry ∈ c.sums, entry.2.IsRounded

theorem isRounded_zero : Double.zero.IsRounded := .finite (by norm_num) le_rfl (by decide)

theorem isRounded_ofNat (n : ℕ) : (Double.ofNat n).IsRounded := Double.isRounded_nearest one_pos

theorem mem_sums_putSum {labels : Labels} {x : Double} {sums : List (Labels × Double)}
    {entry : Labels × Double} (h : entry ∈ putSum labels x sums) :
    entry = (labels, x) ∨ entry ∈ sums := by
  induction sums with
  | nil => exact .inl (List.mem_singleton.mp h)
  | cons first rest ih =>
    obtain ⟨l, y⟩ := first
    by_cases hl : l = labels
    · rw [putSum, if_pos hl] at h
      rcases List.mem_cons.mp h with h | h
      · exact .inl (hl ▸ h)
      · exact .inr (List.mem_cons_of_mem _ h)
    · rw [putSum, if_neg hl] at h
      rcases List.mem_cons.mp h with h | h
      · exact .inr (h ▸ List.mem_cons_self)
      · exact (ih h).imp_right (List.mem_cons_of_mem _)

theorem mem_sums_of_sum? {sums : List (Labels × Double)} {x : Double}
    (h : sum? labels sums = some x) : (labels, x) ∈ sums := by
  induction sums with
  | nil => cases h
  | cons first rest ih =>
    obtain ⟨l, y⟩ := first
    by_cases hl : l = labels
    · rw [sum?, if_pos hl] at h
      obtain rfl := Option.some.inj h
      exact hl ▸ List.mem_cons_self
    · rw [sum?, if_neg hl] at h
      exact List.mem_cons_of_mem _ (ih h)

namespace Sound

theorem fresh : Sound {} where
  nodup := List.nodup_nil
  rounded := fun _ h ↦ absurd h List.not_mem_nil

theorem held (hc : Sound c) (labels : Labels) : (c.held labels).IsRounded := by
  unfold Counter.held
  cases hsum : sum? labels c.sums with
  | none => exact isRounded_zero
  | some x => exact hc.rounded _ (mem_sums_of_sum? hsum)

theorem putSum (hc : Sound c) {x : Double} (hx : x.IsRounded) (labels : Labels) :
    Sound ⟨putSum labels x c.sums⟩ where
  nodup := nodup_keys_putSum hc.nodup
  rounded := by
    intro entry hentry
    rcases mem_sums_putSum hentry with rfl | hentry
    · exact hx
    · exact hc.rounded entry hentry

theorem inc (hc : Sound c) (n : ℤ) (labels : Labels) : Sound (c.inc (.int n) labels).1 := by
  have hraised := raised_inc c n labels
  generalize c.inc (.int n) labels = result at hraised
  cases hraised with
  | refused => exact hc
  | added => exact hc.putSum ((hc.held labels).add (isRounded_ofNat _)) labels
  | entered => exact hc.putSum (hc.held labels) labels

theorem after (hc : Sound c) (raises : List Raise) : Sound (c.after raises) := by
  induction raises generalizing c with
  | nil => exact hc
  | cons r rest ih => exact ih (hc.inc r.amount r.labels.key)

end Sound

theorem mem_keys_inc (c : Counter) (n : ℤ) :
    labels' ∈ (c.inc (.int n) labels).1.keys ↔ 0 ≤ n ∧ labels = labels' ∨ labels' ∈ c.keys := by
  have hraised := raised_inc c n labels
  generalize c.inc (.int n) labels = result at hraised
  cases hraised with
  | refused h =>
    have hnot : ¬ 0 ≤ n := not_le.mpr h
    simp [hnot]
  | added h _ => simp [keys, mem_keys_putSum, h, eq_comm]
  | entered h _ => simp [keys, mem_keys_putSum, h, eq_comm]

theorem mem_keys_after (c : Counter) (raises : List Raise) :
    labels ∈ (c.after raises).keys ↔
      (∃ r ∈ raises, 0 ≤ r.amount ∧ r.labels.key = labels) ∨ labels ∈ c.keys := by
  induction raises generalizing c with
  | nil => simp [after]
  | cons r rest ih =>
    show labels ∈ ((c.inc (.int r.amount) r.labels.key).1.after rest).keys ↔ _
    rw [ih, mem_keys_inc, List.exists_mem_cons_iff, ← or_assoc, or_comm (a := ∃ _ ∈ rest, _)]

/-! ### What a counter tells -/

theorem get_of_sum? {x : Double} (h : sum? labels c.sums = some x) : c.get labels = .real x := by
  unfold get
  rw [h]

theorem value_get (c : Counter) (labels : Labels) :
    (c.get labels).value = (c.held labels).value := by
  unfold get held
  cases sum? labels c.sums with
  | some x => rfl
  | none => decide +kernel

/-- Fractions added up from the first one on. -/
def sumOf (xs : List Double) : Double := xs.foldl Double.add (Double.ofNat 0)

theorem foldl_real (a : Double) (xs : List Double) :
    xs.foldl (fun (sum : Number) x ↦ (sum.add? (.real x)).getD sum) (.real a) =
      .real (xs.foldl Double.add a) := by
  induction xs generalizing a with
  | nil => rfl
  | cons x rest ih => exact ih (a.add x)

theorem total_eq (c : Counter) :
    c.total = if c.sums = [] then 0 else .real (sumOf (c.sums.map Prod.snd)) := by
  have htotal : c.total = (c.sums.map Prod.snd).foldl
      (fun (sum : Number) x ↦ (sum.add? (.real x)).getD sum) 0 := by
    rw [List.foldl_map]
    rfl
  rw [htotal]
  cases c.sums with
  | nil => rfl
  | cons entry rest =>
    rw [if_neg (List.cons_ne_nil _ _), List.map_cons, List.foldl_cons, Number.zero_add?,
      Option.getD_some, foldl_real]
    rfl

theorem value_total (c : Counter) : c.total.value = (sumOf (c.sums.map Prod.snd)).value := by
  rw [total_eq]
  cases c.sums with
  | nil => decide +kernel
  | cons entry rest => rw [if_neg (List.cons_ne_nil _ _)]; rfl

theorem foldlM_real (a : Double) (xs : List Double) :
    (xs.map Number.real).foldlM (fun (sum : Number) x ↦
      match sum.add? x with
      | some sum => .ok sum
      | none => .error (.overflow .conversion)) (.real a) =
      (.ok (.real (xs.foldl Double.add a)) : Except Fault Number) := by
  induction xs generalizing a with
  | nil => rfl
  | cons x rest ih => exact ih (a.add x)

theorem sum_real (xs : List Double) :
    Number.sum (xs.map Number.real) = .ok (if xs = [] then 0 else .real (sumOf xs)) := by
  cases xs with
  | nil => rfl
  | cons x rest =>
    unfold Number.sum
    rw [List.map_cons, List.foldlM_cons, Number.zero_add?, if_neg (List.cons_ne_nil _ _)]
    exact foldlM_real _ rest

/-- The total is what the sums under the labels of the entries add up to. -/
theorem sum_get (hc : Sound c) (hkeys : ∀ key ∈ c.keys, Labels.ofGiven (some key) = key) :
    Number.sum (c.sums.map fun entry ↦ c.get (Labels.ofGiven (some entry.1))) = .ok c.total := by
  have hget : (c.sums.map fun entry ↦ c.get (Labels.ofGiven (some entry.1))) =
      (c.sums.map Prod.snd).map Number.real := by
    rw [List.map_map]
    apply List.map_congr_left
    intro entry hentry
    rw [hkeys entry.1 (List.mem_map_of_mem hentry)]
    exact get_of_sum? (sum?_of_mem hc.nodup hentry)
  rw [hget, sum_real, total_eq]
  simp only [List.map_eq_nil_iff]

/-! ### Nothing becomes less -/

theorem foldl_add_mono {xs : List Double} {a b : Double} (ha : a.IsRounded) (hb : b.IsRounded)
    (hab : a.value ≤ b.value) (hxs : ∀ x ∈ xs, x.IsRounded) :
    (xs.foldl Double.add a).value ≤ (xs.foldl Double.add b).value := by
  induction xs generalizing a b with
  | nil => exact hab
  | cons x rest ih =>
    have hx := hxs x List.mem_cons_self
    exact ih (ha.add hx) (hb.add hx) (Double.add_le_add ha hb hx hx hab le_rfl)
      fun y hy ↦ hxs y (List.mem_cons_of_mem _ hy)

/-- A sum over all entries grows with the sum under some labels. -/
theorem foldl_add_putSum_mono {sums : List (Labels × Double)} {a b x : Double}
    (ha : a.IsRounded) (hb : b.IsRounded) (hx : x.IsRounded) (hab : a.value ≤ b.value)
    (hsums : ∀ entry ∈ sums, entry.2.IsRounded)
    (hle : ((sum? labels sums).getD Double.zero).value ≤ x.value) :
    ((sums.map Prod.snd).foldl Double.add a).value ≤
      (((putSum labels x sums).map Prod.snd).foldl Double.add b).value := by
  induction sums generalizing a b with
  | nil => exact hab.trans (Double.le_add hb hx)
  | cons entry rest ih =>
    obtain ⟨l, y⟩ := entry
    have hy : y.IsRounded := hsums _ List.mem_cons_self
    have hrest : ∀ entry ∈ rest, entry.2.IsRounded :=
      fun entry hentry ↦ hsums entry (List.mem_cons_of_mem _ hentry)
    by_cases hl : l = labels
    · rw [sum?, if_pos hl] at hle
      rw [putSum, if_pos hl]
      apply foldl_add_mono (ha.add hy) (hb.add hx) (Double.add_le_add ha hb hy hx hab hle)
      intro z hz
      obtain ⟨entry, hentry, rfl⟩ := List.mem_map.mp hz
      exact hrest entry hentry
    · rw [sum?, if_neg hl] at hle
      rw [putSum, if_neg hl]
      exact ih (ha.add hy) (hb.add hy) (Double.add_le_add ha hb hy hy hab le_rfl) hrest hle

/-- Each sum, and their total, is at least what it was, and no entry is lost. -/
structure Below (c c' : Counter) : Prop where
  get : ∀ labels, (c.get labels).le (c'.get labels) = true
  total : c.total.le c'.total = true
  keys : c.keys ⊆ c'.keys

theorem isNumber_real {x : Double} (hx : x.IsRounded) : (Number.real x).IsNumber := by
  cases hx <;> exact nofun

theorem Sound.isNumber_get (hc : Sound c) (labels : Labels) : (c.get labels).IsNumber := by
  unfold Counter.get
  cases hsum : sum? labels c.sums with
  | none => exact nofun
  | some x => exact isNumber_real (hc.rounded _ (mem_sums_of_sum? hsum))

theorem isRounded_sumOf {xs : List Double} (hxs : ∀ x ∈ xs, x.IsRounded) :
    (sumOf xs).IsRounded := by
  unfold sumOf
  generalize ha : Double.ofNat 0 = a
  have hrounded : a.IsRounded := ha ▸ isRounded_ofNat 0
  clear ha
  induction xs generalizing a with
  | nil => exact hrounded
  | cons x rest ih =>
    exact ih (fun y hy ↦ hxs y (List.mem_cons_of_mem _ hy)) _
      (hrounded.add (hxs x List.mem_cons_self))

theorem Sound.isNumber_total (hc : Sound c) : c.total.IsNumber := by
  rw [total_eq]
  split
  · exact nofun
  · apply isNumber_real
    apply isRounded_sumOf
    intro x hx
    obtain ⟨entry, hentry, rfl⟩ := List.mem_map.mp hx
    exact hc.rounded entry hentry

namespace Below

variable {c' c'' : Counter}

theorem refl (hc : Sound c) : Below c c where
  get := fun labels ↦ (Number.le_iff (hc.isNumber_get labels) (hc.isNumber_get labels)).mpr le_rfl
  total := (Number.le_iff hc.isNumber_total hc.isNumber_total).mpr le_rfl
  keys := fun _ h ↦ h

theorem trans (h : Below c c') (h' : Below c' c'') : Below c c'' where
  get := fun labels ↦ Number.le_trans (h.get labels) (h'.get labels)
  total := Number.le_trans h.total h'.total
  keys := fun _ hkey ↦ h'.keys (h.keys hkey)

/-- A greater sum under some labels makes nothing less. -/
theorem putSum (hc : Sound c) {x : Double} (hx : x.IsRounded)
    (hle : (c.held labels).value ≤ x.value) : Below c ⟨Counter.putSum labels x c.sums⟩ where
  get := by
    intro labels'
    have hc' := hc.putSum hx labels
    rw [Number.le_iff (hc.isNumber_get labels') (hc'.isNumber_get labels'), value_get, value_get,
      held_putSum]
    split
    · rename_i h
      exact h ▸ hle
    · exact le_rfl
  total := by
    rw [Number.le_iff hc.isNumber_total (hc.putSum hx labels).isNumber_total, value_total,
      value_total]
    exact foldl_add_putSum_mono (isRounded_ofNat 0) (isRounded_ofNat 0) hx le_rfl hc.rounded hle
  keys := fun _ h ↦ mem_keys_putSum.mpr (.inr h)

theorem inc (hc : Sound c) (n : ℤ) (labels : Labels) : Below c (c.inc (.int n) labels).1 := by
  have hraised := raised_inc c n labels
  generalize c.inc (.int n) labels = result at hraised
  cases hraised with
  | refused => exact refl hc
  | added =>
    have hn := isRounded_ofNat n.toNat
    exact putSum hc ((hc.held labels).add hn) (Double.le_add (hc.held labels) hn)
  | entered => exact putSum hc (hc.held labels) le_rfl

theorem after (hc : Sound c) (raises : List Raise) : Below c (c.after raises) := by
  induction raises generalizing c with
  | nil => exact refl hc
  | cons r rest ih =>
    exact (inc hc r.amount r.labels.key).trans (ih (hc.inc r.amount r.labels.key))

end Below

/-! ### Exact sums -/

theorem exists_held_ofCounts (counts : List (Labels × ℕ)) (labels : Labels) :
    ∃ k ≤ (counts.map (·.2)).sum, (ofCounts counts).held labels = Double.ofNat k := by
  induction counts with
  | nil => exact ⟨0, le_rfl, zero_eq_ofNat⟩
  | cons entry rest ih =>
    obtain ⟨l, n⟩ := entry
    obtain ⟨k, hk, hheld⟩ := ih
    rw [List.map_cons, List.sum_cons]
    have hcons : (ofCounts ((l, n) :: rest)).held labels =
        if l = labels then Double.ofNat n else (ofCounts rest).held labels := by
      unfold held ofCounts
      rw [List.map_cons, sum?]
      split <;> rfl
    rw [hcons]
    split
    · exact ⟨n, by omega, rfl⟩
    · exact ⟨k, by omega, hheld⟩

theorem exists_ofCounts_inc {counts : List (Labels × ℕ)} {r : Raise}
    (hle : (counts.map (·.2)).sum + r.due ≤ 2 ^ 53) :
    ∃ counts', ((ofCounts counts).inc (.int r.amount) r.labels.key).1 = ofCounts counts' ∧
      (counts'.map (·.2)).sum = (counts.map (·.2)).sum + r.due := by
  have hraised := raised_inc (ofCounts counts) r.amount r.labels.key
  unfold Raise.due at *
  generalize hresult : (ofCounts counts).inc (.int r.amount) r.labels.key = result at hraised
  cases hraised with
  | refused h =>
    rw [if_neg (Raise.not_accepted_of_neg h)]
    exact ⟨counts, rfl, rfl⟩
  | added h hsome =>
    have hamount : r.amount = (r.amount.toNat : ℤ) := (Int.toNat_of_nonneg h).symm
    rw [if_pos ⟨h, hsome⟩] at hle ⊢
    refine ⟨addCount r.labels.key r.amount.toNat counts, ?_, sum_addCount _ _ _⟩
    rw [← inc_ofCounts hle, ← hamount, hresult]
  | entered h hnone =>
    rw [if_neg (Raise.not_accepted_of_none hnone)] at hle ⊢
    -- An entry without an amount is what adding nothing gives.
    obtain ⟨k, hk, hheld⟩ := exists_held_ofCounts counts r.labels.key
    refine ⟨addCount r.labels.key 0 counts, ?_, sum_addCount _ _ _⟩
    rw [← inc_ofCounts hle, inc_natCast (by omega), hheld, Double.add_ofNat_of_le (by omega)]
    rfl

theorem sum_amounts_cons (r : Raise) (rest : List Raise) :
    (amounts (r :: rest)).sum = r.due + (amounts rest).sum := by
  unfold amounts Raise.due
  rw [List.filter_cons]
  simp only [decide_eq_true_eq]
  split
  · rw [List.map_cons, List.sum_cons]
  · rw [Nat.zero_add]

theorem exists_ofCounts_after {counts : List (Labels × ℕ)} (raises : List Raise)
    (hle : (counts.map (·.2)).sum + (amounts raises).sum ≤ 2 ^ 53) :
    ∃ counts', (ofCounts counts).after raises = ofCounts counts' ∧
      (counts'.map (·.2)).sum = (counts.map (·.2)).sum + (amounts raises).sum := by
  induction raises generalizing counts with
  | nil => exact ⟨counts, rfl, rfl⟩
  | cons r rest ih =>
    rw [sum_amounts_cons] at hle ⊢
    have hfirst : (counts.map (·.2)).sum + r.due ≤ 2 ^ 53 := by omega
    obtain ⟨counts₁, hinc, hsum₁⟩ := exists_ofCounts_inc hfirst
    obtain ⟨counts₂, hafter, hsum₂⟩ := @ih counts₁ (by omega)
    refine ⟨counts₂, ?_, by omega⟩
    show ((ofCounts counts).inc (.int r.amount) r.labels.key).1.after rest = _
    rw [hinc, hafter]

/-! ### The law of counters -/

/-- What a counter tells after amounts have been added to it. -/
structure Tells (c : Counter) (raises : List Raise) : Prop where
  /-- Under some labels, what was accepted under the same pairs, added up in order. -/
  get : ∀ labels : Given,
    (c.get labels.key).eq (.real (roundedSum (amountsUnder labels raises))) = true
  get_exact : ∀ labels : Given, (amountsUnder labels raises).sum ≤ 2 ^ 53 →
    (c.get labels.key).toRat? = some ((amountsUnder labels raises).sum : ℚ)
  /-- In all, what the entries have under their labels, added up in order. -/
  total : Number.sum (c.sums.map fun entry ↦ c.get (Labels.ofGiven (some entry.1))) = .ok c.total
  total_exact : (amounts raises).sum ≤ 2 ^ 53 → c.total.toRat? = some ((amounts raises).sum : ℚ)
  entry : ∀ entry ∈ c.sums, c.get (Labels.ofGiven (some entry.1)) = .real entry.2
  nodup : c.keys.Nodup
  accepted : ∀ r ∈ raises, r.Accepted → r.labels.key ∈ c.keys
  origin : ∀ key ∈ c.keys, ∃ r ∈ raises, 0 ≤ r.amount ∧ r.labels.key = key

theorem tells_after (raises : List Raise) : Tells (({} : Counter).after raises) raises := by
  have hsound : Sound (({} : Counter).after raises) := Sound.fresh.after raises
  have hkeys : ∀ key ∈ (({} : Counter).after raises).keys,
      ∃ r ∈ raises, 0 ≤ r.amount ∧ r.labels.key = key := by
    intro key hkey
    exact ((mem_keys_after {} raises).mp hkey).resolve_right List.not_mem_nil
  have hofGiven : ∀ key ∈ (({} : Counter).after raises).keys,
      Labels.ofGiven (some key) = key := by
    intro key hkey
    obtain ⟨r, -, -, rfl⟩ := hkeys key hkey
    exact r.labels.ofGiven_key
  have hheld : ∀ labels : Given, (({} : Counter).after raises).held labels.key =
      roundedSum (amountsUnder labels raises) := fun labels ↦ held_after {} labels raises
  constructor
  · intro labels
    have hrounded : (roundedSum (amountsUnder labels raises)).IsRounded :=
      hheld labels ▸ hsound.held labels.key
    rw [Number.eq_iff (hsound.isNumber_get _) (isNumber_real hrounded), value_get, hheld]
    rfl
  · intro labels hle
    rw [toRat?_get, hheld, roundedSum_eq hle]
    exact Double.toRat?_ofNat hle
  · exact sum_get hsound hofGiven
  · intro hle
    obtain ⟨counts, hafter, hsum⟩ := @exists_ofCounts_after [] raises (by simpa using hle)
    rw [List.map_nil, List.sum_nil, Nat.zero_add] at hsum
    have hfresh : ({} : Counter) = ofCounts [] := rfl
    rw [hfresh, hafter, toRat?_total (hsum ▸ hle), hsum]
  · intro entry hentry
    rw [hofGiven entry.1 (List.mem_map_of_mem hentry)]
    exact get_of_sum? (sum?_of_mem hsound.nodup hentry)
  · exact hsound.nodup
  · intro r hr haccepted
    exact (mem_keys_after {} raises).mpr (.inl ⟨r, hr, haccepted.1, rfl⟩)
  · exact hkeys

/-- A counter is a map from label sets to sums: labels with the same pairs name the same sum, what
is told of the sums is so after any calls, a negative amount is refused without a trace, and nothing
becomes less by further calls. -/
theorem keeps_sums (raises more : List Raise) :
    (∀ g h : Given, g.key = h.key ↔ g.Same h) ∧
      Tells (({} : Counter).after raises) raises ∧
      (∀ (c : Counter) (r : Raise), r.amount < 0 →
        c.inc (.int r.amount) r.labels.key = (c, some (.invalid .decrease)) ∧
          (Fault.invalid .decrease).kind = .value) ∧
      (∀ (c : Counter) (r : Raise), r.Accepted →
        (c.inc (.int r.amount) r.labels.key).2 = none) ∧
      Below (({} : Counter).after raises) (({} : Counter).after (raises ++ more)) := by
  refine ⟨fun _ _ ↦ Given.key_eq_iff, tells_after raises, ?_, ?_, ?_⟩
  · intro c r hr
    have hraised := raised_inc c r.amount r.labels.key
    generalize c.inc (.int r.amount) r.labels.key = result at hraised ⊢
    cases hraised with
    | refused h => exact ⟨rfl, rfl⟩
    | added h _ => exact absurd h (not_le.mpr hr)
    | entered h _ => exact absurd h (not_le.mpr hr)
  · intro c r hr
    have hraised := raised_inc c r.amount r.labels.key
    generalize c.inc (.int r.amount) r.labels.key = result at hraised ⊢
    cases hraised with
    | refused h => exact absurd hr (Raise.not_accepted_of_neg h)
    | added => rfl
    | entered _ hnone => exact absurd hr (Raise.not_accepted_of_none hnone)
  · unfold after
    rw [List.foldl_append]
    exact Below.after (Sound.fresh.after raises) more

/-- An amount, one that is refused, and another under the first labels in another order. -/
def lintRaises : List Raise :=
  [⟨2, some ⟨[("kind", "lint"), ("status", "failed")], by decide⟩⟩, ⟨-1, none⟩,
    ⟨3, some ⟨[("status", "failed"), ("kind", "lint")], by decide⟩⟩]

theorem keeps_lint_sums :
    (({} : Counter).after lintRaises).total.toRat? = some ((5 : ℕ) : ℚ) ∧
      Given.key none ∉ (({} : Counter).after lintRaises).keys := by
  have htells := (keeps_sums lintRaises []).2.1
  constructor
  · exact htells.total_exact (by decide +kernel)
  · intro hkey
    obtain ⟨r, hr, hamount, hlabels⟩ := htells.origin _ hkey
    have hsame : r.labels.Same none := Given.key_eq_iff.mp hlabels
    revert hr hamount hsame
    clear hkey hlabels
    revert r
    decide +kernel

/-- Past `2 ^ 53` a sum need not be exact. -/
theorem get_ne_sum : ¬ ∀ (raises : List Raise) (labels : Given),
    ((({} : Counter).after raises).get labels.key).toRat? =
      some ((amountsUnder labels raises).sum : ℚ) := by
  intro h
  have hraises := h [⟨2 ^ 53, none⟩, ⟨1, none⟩] none
  revert hraises
  decide +kernel

end Counter

end Remedy
