import Remedy.Proofs.Actions

/-!
# Actions that come to the same from two states

An action may not read what two states differ in. It then comes to the same from both, and leaves
each of them as it is (`Agrees`). If it reads more than that, it can still come to the same as far as
a function of the outcome tells (`AgreeOn`): what is listed from two states in which different items
are found is the same apart from these (`agreeOn_filterMapM`).
-/

set_option autoImplicit false

namespace Remedy

variable {ε σ α β γ : Type}

/-- From both states the action comes to the same, and it leaves each of them as it is. -/
def Agrees (act : ExceptT ε (StateM σ) α) (s s' : σ) : Prop :=
  ∃ outcome, act s = (outcome, s) ∧ act s' = (outcome, s')

section Agreement

variable {act : ExceptT ε (StateM σ) α} {s s' : σ}

theorem Agrees.eq (h : Agrees act s s') : (act s').1 = (act s).1 := by
  obtain ⟨outcome, hs, hs'⟩ := h
  rw [hs, hs']

theorem agrees_pure (a : α) : Agrees (pure a : ExceptT ε (StateM σ) α) s s' :=
  ⟨.ok a, rfl, rfl⟩

theorem agrees_throw (e : ε) : Agrees (throw e : ExceptT ε (StateM σ) α) s s' :=
  ⟨.error e, rfl, rfl⟩

theorem Agrees.bind {f : α → ExceptT ε (StateM σ) β} (h : Agrees act s s')
    (hnext : ∀ a, act s = (.ok a, s) → Agrees (f a) s s') : Agrees (act >>= f) s s' := by
  obtain ⟨outcome, hs, hs'⟩ := h
  cases outcome with
  | error e => exact ⟨.error e, by rw [bind_apply, hs], by rw [bind_apply, hs']⟩
  | ok a =>
    obtain ⟨outcome, hf, hf'⟩ := hnext a hs
    exact ⟨outcome, by rw [bind_apply, hs]; exact hf, by rw [bind_apply, hs']; exact hf'⟩

theorem Agrees.guard {c : Prop} [Decidable c] {e : ε} {f : PUnit → ExceptT ε (StateM σ) β}
    (h : ¬ c → Agrees (f ⟨⟩) s s') : Agrees (if c then throw e >>= f else f ⟨⟩) s s' := by
  split
  · exact agrees_throw e
  · exact h ‹_›

theorem agrees_filterM {f : γ → ExceptT ε (StateM σ) Bool} {xs : List γ}
    (h : ∀ x ∈ xs, Agrees (f x) s s') : Agrees (xs.filterM f) s s' := by
  have haux : ∀ done : List γ, Agrees (xs.filterAuxM f done) s s' := by
    induction xs with
    | nil => exact agrees_pure
    | cons x rest ih =>
      obtain ⟨hx, hrest⟩ := List.forall_mem_cons.mp h
      exact fun done ↦ hx.bind fun answer _ ↦ ih hrest (bif answer then x :: done else done)
  exact (haux []).bind fun ys _ ↦ agrees_pure ys.reverse

theorem agrees_filterMapM {f : γ → ExceptT ε (StateM σ) (Option α)} {xs : List γ}
    (h : ∀ x ∈ xs, Agrees (f x) s s') : Agrees (xs.filterMapM f) s s' := by
  induction xs with
  | nil =>
    rw [List.filterMapM_nil]
    exact agrees_pure []
  | cons x rest ih =>
    obtain ⟨hx, hrest⟩ := List.forall_mem_cons.mp h
    rw [List.filterMapM_cons]
    refine hx.bind fun found _ ↦ ?_
    cases found with
    | none => exact ih hrest
    | some a => exact (ih hrest).bind fun ys _ ↦ agrees_pure (a :: ys)

theorem agrees_foldlM {f : β → γ → ExceptT ε (StateM σ) β} {xs : List γ}
    (h : ∀ x ∈ xs, ∀ b, Agrees (f b x) s s') (b : β) : Agrees (xs.foldlM f b) s s' := by
  induction xs generalizing b with
  | nil => exact agrees_pure b
  | cons x rest ih =>
    obtain ⟨hx, hrest⟩ := List.forall_mem_cons.mp h
    rw [List.foldlM_cons]
    exact (hx b).bind fun b' _ ↦ ih hrest b'

end Agreement

/-! ### As far as a function tells -/

/-- From one state the first action comes to the same as the second one from the other state, as far
as `f` tells, and each leaves its state as it is. -/
def AgreeOn (f : α → β) (act act' : ExceptT ε (StateM σ) α) (s s' : σ) : Prop :=
  ∃ outcome outcome', act s = (outcome, s) ∧ act' s' = (outcome', s') ∧
    outcome'.map f = outcome.map f

section AgreementOn

variable {f : α → β} {act act' act'' : ExceptT ε (StateM σ) α} {s s' s'' : σ}

theorem Agrees.on (h : Agrees act s s') (f : α → β) : AgreeOn f act act s s' := by
  obtain ⟨outcome, hs, hs'⟩ := h
  exact ⟨outcome, outcome, hs, hs', rfl⟩

theorem AgreeOn.agrees (h : AgreeOn id act act s s') : Agrees act s s' := by
  obtain ⟨outcome, outcome', hs, hs', heq⟩ := h
  obtain rfl : outcome' = outcome := by cases outcome' <;> cases outcome <;> exact heq
  exact ⟨outcome', hs, hs'⟩

theorem AgreeOn.symm (h : AgreeOn f act act' s s') : AgreeOn f act' act s' s := by
  obtain ⟨outcome, outcome', hs, hs', heq⟩ := h
  exact ⟨outcome', outcome, hs', hs, heq.symm⟩

theorem AgreeOn.trans (h : AgreeOn f act act' s s') (h' : AgreeOn f act' act'' s' s'') :
    AgreeOn f act act'' s s'' := by
  obtain ⟨outcome, outcome₁, hs, hs₁, heq⟩ := h
  obtain ⟨outcome₂, outcome', hs₂, hs', heq'⟩ := h'
  cases hs₁.symm.trans hs₂
  exact ⟨outcome, outcome', hs, hs', heq'.trans heq⟩

theorem AgreeOn.bind {δ ζ : Type} {g : δ → ζ} {next next' : α → ExceptT ε (StateM σ) δ}
    (h : AgreeOn f act act' s s')
    (hnext : ∀ a a', act s = (.ok a, s) → act' s' = (.ok a', s') → f a' = f a →
      AgreeOn g (next a) (next' a') s s') :
    AgreeOn g (act >>= next) (act' >>= next') s s' := by
  obtain ⟨outcome, outcome', hs, hs', heq⟩ := h
  cases outcome with
  | error e =>
    cases outcome' with
    | error e' =>
      cases heq
      exact ⟨.error e, .error e, by rw [bind_apply, hs], by rw [bind_apply, hs'], rfl⟩
    | ok a' => cases heq
  | ok a =>
    cases outcome' with
    | error e' => cases heq
    | ok a' =>
      obtain ⟨found, found', hf, hf', hsame⟩ := hnext a a' hs hs' (Except.ok.inj heq)
      exact ⟨found, found', by rw [bind_apply, hs]; exact hf, by rw [bind_apply, hs']; exact hf',
        hsame⟩

theorem agreeOn_pure {a a' : α} (h : f a' = f a) :
    AgreeOn f (pure a : ExceptT ε (StateM σ) α) (pure a') s s' :=
  ⟨.ok a, .ok a', rfl, rfl, congrArg Except.ok h⟩

variable {find : γ → ExceptT ε (StateM σ) (Option α)} {keep : γ → Bool} {keep' : α → Bool}
  {xs ys : List γ}

/-- What is found of items that are left out is left out as well. -/
theorem agreeOn_filterMapM_filter (hread : ∀ x ∈ xs, keep x = true → Agrees (find x) s s)
    (hout : ∀ x ∈ xs, keep x = false → ∃ found, find x s = (.ok found, s) ∧
      ∀ a ∈ found, keep' a = false) :
    AgreeOn (List.filter keep') (xs.filterMapM find) ((xs.filter keep).filterMapM find) s s := by
  induction xs with
  | nil => exact (agrees_pure []).on _
  | cons x rest ih =>
    obtain ⟨hfirst, hrest⟩ := List.forall_mem_cons.mp hread
    obtain ⟨hfirst', hrest'⟩ := List.forall_mem_cons.mp hout
    have hnext := ih hrest hrest'
    rw [List.filterMapM_cons, List.filter_cons]
    cases hkeep : keep x with
    | true =>
      rw [if_pos rfl, List.filterMapM_cons]
      refine ((hfirst hkeep).on id).bind fun found found' _ _ heq ↦ ?_
      obtain rfl : found' = found := heq
      cases found' with
      | none => exact hnext
      | some a =>
        refine hnext.bind fun as as' _ _ heq ↦ agreeOn_pure ?_
        rw [List.filter_cons, List.filter_cons, heq]
    | false =>
      rw [if_neg Bool.false_ne_true]
      obtain ⟨found, hfound, hdrop⟩ := hfirst' hkeep
      obtain ⟨outcome, outcome', hs, hs', heq⟩ := hnext
      cases found with
      | none =>
        refine ⟨outcome, outcome', ?_, hs', heq⟩
        rw [bind_apply, hfound]
        exact hs
      | some a =>
        refine ⟨outcome.map (a :: ·), outcome', ?_, hs', ?_⟩
        · rw [bind_apply, hfound]
          show (rest.filterMapM find >>= fun as ↦ pure (a :: as)) s = _
          rw [bind_apply, hs]
          cases outcome <;> rfl
        · rw [heq]
          cases outcome with
          | error e => rfl
          | ok as =>
            refine congrArg Except.ok (List.filter_cons_of_neg ?_).symm
            rw [hdrop a rfl]
            exact Bool.false_ne_true

/-- In two lists that differ only in items that are left out, the same is found as far as it is not
left out. -/
theorem agreeOn_filterMapM (hsame : ys.filter keep = xs.filter keep)
    (hagrees : ∀ x ∈ xs, keep x = true → Agrees (find x) s s')
    (hout : ∀ x ∈ xs, keep x = false → ∃ found, find x s = (.ok found, s) ∧
      ∀ a ∈ found, keep' a = false)
    (hout' : ∀ y ∈ ys, keep y = false → ∃ found, find y s' = (.ok found, s') ∧
      ∀ a ∈ found, keep' a = false) :
    AgreeOn (List.filter keep') (xs.filterMapM find) (ys.filterMapM find) s s' := by
  have hread : ∀ x ∈ xs, keep x = true → Agrees (find x) s s := fun x hx hkeep ↦ by
    obtain ⟨outcome, hs, -⟩ := hagrees x hx hkeep
    exact ⟨outcome, hs, hs⟩
  have hread' : ∀ y ∈ ys, keep y = true → Agrees (find y) s' s' := fun y hy hkeep ↦ by
    have hmem : y ∈ xs.filter keep := hsame ▸ List.mem_filter.mpr ⟨hy, hkeep⟩
    obtain ⟨outcome, -, hs'⟩ := hagrees y (List.mem_filter.mp hmem).1 hkeep
    exact ⟨outcome, hs', hs'⟩
  have hkept : Agrees ((xs.filter keep).filterMapM find) s s' :=
    agrees_filterMapM fun x hx ↦ hagrees x (List.mem_filter.mp hx).1 (List.mem_filter.mp hx).2
  have hright := (agreeOn_filterMapM_filter hread' hout').symm
  rw [hsame] at hright
  exact (agreeOn_filterMapM_filter hread hout).trans ((hkept.on _).trans hright)

end AgreementOn

end Remedy
