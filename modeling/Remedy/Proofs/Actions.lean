import Mathlib.Data.List.Forall2
import Remedy.Retry

/-!
# How actions end

An action leaves a state behind whether or not it fails, so what is said of it has two parts: what
holds of the value and the state if it returns, and what holds of the fault and the state if it
fails. `Ends act s ok bad` says both of `act` begun in `s`. The laws below take an action apart
along its steps; `Ends.bind` is the one that the specifications of longer actions are put together
with.

`Raises` says of an action which faults it can fail with, wherever it is begun, and `Keeps` how the
state that it leaves is related to the one that it was begun in. Both pass from the parts of an
action to the whole.
-/

set_option autoImplicit false

namespace Remedy

variable {ε σ α β : Type}

/-- What has a value in two steps has one in each. -/
theorem exists_of_bind_eq_ok {x : Except ε α} {f : α → Except ε β} {b : β}
    (h : (x >>= f) = .ok b) : ∃ a, x = .ok a ∧ f a = .ok b := by
  cases x with
  | error e => cases h
  | ok a => exact ⟨a, rfl, h⟩

/-- `act`, begun in `s`, ends in one of two ways: with a value and a state of which `ok` holds, or
with an error and a state of which `bad` holds. -/
def Ends (act : ExceptT ε (StateM σ) α) (s : σ) (ok : α → σ → Prop) (bad : ε → σ → Prop) : Prop :=
  match act s with
  | (.ok a, t) => ok a t
  | (.error e, t) => bad e t

section Steps

variable {act : ExceptT ε (StateM σ) α} {s : σ} {bad bad' : ε → σ → Prop}

theorem ends_pure {a : α} {ok : α → σ → Prop} :
    Ends (pure a : ExceptT ε (StateM σ) α) s ok bad ↔ ok a s :=
  Iff.rfl

theorem ends_throw {e : ε} {ok : α → σ → Prop} :
    Ends (throw e : ExceptT ε (StateM σ) α) s ok bad ↔ bad e s :=
  Iff.rfl

theorem ends_get {ok : σ → σ → Prop} :
    Ends (get : ExceptT ε (StateM σ) σ) s ok bad ↔ ok s s :=
  Iff.rfl

theorem ends_set {t : σ} {ok : PUnit → σ → Prop} :
    Ends (set t : ExceptT ε (StateM σ) PUnit) s ok bad ↔ ok ⟨⟩ t :=
  Iff.rfl

theorem ends_modify {f : σ → σ} {ok : PUnit → σ → Prop} :
    Ends (modify f : ExceptT ε (StateM σ) PUnit) s ok bad ↔ ok ⟨⟩ (f s) :=
  Iff.rfl

theorem bind_apply (act : ExceptT ε (StateM σ) α) (f : α → ExceptT ε (StateM σ) β) (s : σ) :
    (act >>= f) s =
      match act s with
      | (.ok a, t) => f a t
      | (.error e, t) => (.error e, t) := by
  show (ExceptT.bind act f) s = _
  rcases hact : act s with ⟨_ | _, t⟩
  · simp [ExceptT.bind, ExceptT.mk, bind, StateT.bind, hact, ExceptT.bindCont]
    rfl
  · simp [ExceptT.bind, ExceptT.mk, bind, StateT.bind, hact, ExceptT.bindCont]

theorem ends_bind {f : α → ExceptT ε (StateM σ) β} {ok : β → σ → Prop} :
    Ends (act >>= f) s ok bad ↔ Ends act s (fun a t ↦ Ends (f a) t ok bad) bad := by
  unfold Ends
  rw [bind_apply]
  rcases act s with ⟨_ | _, t⟩ <;> rfl

theorem ends_tryCatch {handler : ε → ExceptT ε (StateM σ) α} {ok : α → σ → Prop} :
    Ends (tryCatch act handler) s ok bad ↔
      Ends act s ok fun e t ↦ Ends (handler e) t ok bad := by
  show Ends (ExceptT.tryCatch act handler) s ok bad ↔ _
  unfold Ends
  rcases hact : act s with ⟨_ | _, t⟩
  · simp [ExceptT.tryCatch, ExceptT.mk, bind, StateT.bind, hact]
  · simp [ExceptT.tryCatch, ExceptT.mk, bind, StateT.bind, hact]
    rfl

theorem Ends.guard {c : Prop} [Decidable c] {e : ε} {f : PUnit → ExceptT ε (StateM σ) β}
    {ok : β → σ → Prop} (hfail : c → bad e s) (hnext : ¬ c → Ends (f ⟨⟩) s ok bad) :
    Ends (if c then throw e >>= f else f ⟨⟩) s ok bad := by
  split
  · exact hfail ‹c›
  · exact hnext ‹¬ c›

theorem Ends.mono {ok ok' : α → σ → Prop} (h : Ends act s ok bad)
    (hok : ∀ a t, ok a t → ok' a t) (hbad : ∀ e t, bad e t → bad' e t) :
    Ends act s ok' bad' := by
  unfold Ends at *
  rcases hact : act s with ⟨_ | _, t⟩
  · rw [hact] at h
    exact hbad _ _ h
  · rw [hact] at h
    exact hok _ _ h

theorem Ends.bind {f : α → ExceptT ε (StateM σ) β} {Q : α → σ → Prop}
    {ok : β → σ → Prop} (h : Ends act s Q bad)
    (hnext : ∀ a t, Q a t → Ends (f a) t ok bad) : Ends (act >>= f) s ok bad :=
  ends_bind.mpr (h.mono hnext fun _ _ he ↦ he)

/-- What holds of the state however the action ends. -/
theorem Ends.state {P : σ → Prop} (h : Ends act s (fun _ t ↦ P t) fun _ t ↦ P t) :
    P (act s).2 := by
  unfold Ends at h
  rcases hact : act s with ⟨_ | _, t⟩ <;> rw [hact] at h <;> exact h

theorem Ends.and {ok ok' : α → σ → Prop} (h : Ends act s ok bad) (h' : Ends act s ok' bad') :
    Ends act s (fun a t ↦ ok a t ∧ ok' a t) (fun e t ↦ bad e t ∧ bad' e t) := by
  unfold Ends at *
  rcases hact : act s with ⟨_ | _, t⟩ <;> rw [hact] at h h' <;> exact ⟨h, h'⟩

theorem ends_self : Ends act s (fun a t ↦ act s = (.ok a, t)) fun e t ↦ act s = (.error e, t) := by
  unfold Ends
  split
  · rename_i h
    exact h
  · rename_i h
    exact h

theorem ends_of_eq {ok : α → σ → Prop} {a : α} {t : σ} (h : act s = (.ok a, t)) :
    Ends act s ok bad ↔ ok a t := by
  unfold Ends
  rw [h]

theorem ends_of_error {ok : α → σ → Prop} {e : ε} {t : σ} (h : act s = (.error e, t)) :
    Ends act s ok bad ↔ bad e t := by
  unfold Ends
  rw [h]

/-- An action that can fail in one way only fails so. -/
theorem fails_of_ends {e : ε} {t : σ}
    (h : Ends act s (fun _ _ ↦ False) fun e' t' ↦ t' = t ∧ e' = e) :
    act s = (.error e, t) := by
  unfold Ends at h
  rcases hact : act s with ⟨_ | _, t'⟩
  · rw [hact] at h
    obtain ⟨rfl, rfl⟩ := h
    rfl
  · rw [hact] at h
    exact h.elim

/-- An action that can end in one way only ends so. -/
theorem run_of_ends {a : α} {t : σ} (h : Ends act s (fun a' t' ↦ t' = t ∧ a' = a) fun _ _ ↦ False) :
    act s = (.ok a, t) := by
  unfold Ends at h
  rcases hact : act s with ⟨_ | _, t'⟩
  · rw [hact] at h
    exact h.elim
  · rw [hact] at h
    obtain ⟨rfl, rfl⟩ := h
    rfl

/-- An action that cannot fail returns. -/
theorem Ends.exists_ok {ok : α → σ → Prop} (h : Ends act s ok fun _ _ ↦ False) :
    ∃ a t, act s = (.ok a, t) ∧ ok a t := by
  unfold Ends at h
  rcases hact : act s with ⟨_ | a, t⟩
  · rw [hact] at h
    exact h.elim
  · rw [hact] at h
    exact ⟨a, t, rfl, h⟩

/-- An action that cannot return fails, and leaves a state behind. -/
theorem Ends.exists_fault (h : Ends act s (fun _ _ ↦ False) bad) :
    ∃ e t, act s = (.error e, t) ∧ bad e t := by
  unfold Ends at h
  rcases hact : act s with ⟨e | a, t⟩
  · rw [hact] at h
    exact ⟨e, t, rfl, h⟩
  · rw [hact] at h
    exact h.elim

theorem Ends.exists_error {P : ε → Prop} (h : Ends act s (fun _ _ ↦ False) fun e _ ↦ P e) :
    ∃ e, P e ∧ (act s).1 = .error e := by
  obtain ⟨e, t, hact, he⟩ := h.exists_fault
  exact ⟨e, he, by rw [hact]⟩

theorem ends_of_forall {ok : α → σ → Prop} (hok : ∀ a t, ok a t) (hbad : ∀ e t, bad e t) :
    Ends act s ok bad := by
  unfold Ends
  split
  · exact hok _ _
  · exact hbad _ _

/-- A first part of which nothing has to be known. -/
theorem Ends.bind_any {f : α → ExceptT ε (StateM σ) β} {ok : β → σ → Prop}
    (hnext : ∀ a t, Ends (f a) t ok fun _ _ ↦ True) : Ends (act >>= f) s ok fun _ _ ↦ True :=
  ends_bind.mpr (ends_of_forall hnext fun _ _ ↦ trivial)

/-- Actions that go the same way from a state end the same way. -/
theorem bind_congr_of_ends {act' : ExceptT ε (StateM σ) α} {f g : α → ExceptT ε (StateM σ) β}
    (h : act s = act' s) (hnext : Ends act' s (fun a t ↦ f a t = g a t) fun _ _ ↦ True) :
    (act >>= f) s = (act' >>= g) s := by
  rw [bind_apply, bind_apply, h]
  unfold Ends at hnext
  rcases hact : act' s with ⟨_ | a, t⟩
  · rfl
  · rw [hact] at hnext
    exact hnext

/-- What leaves the state as it is may be done once for each element of a list. -/
theorem ends_mapM_of_mem {γ : Type} {f : γ → ExceptT ε (StateM σ) α} {Q : γ → α → Prop}
    {xs : List γ} (h : ∀ x ∈ xs, Ends (f x) s (fun y t ↦ t = s ∧ Q x y) bad) :
    Ends (xs.mapM f) s (fun ys t ↦ t = s ∧ List.Forall₂ Q xs ys) bad := by
  induction xs with
  | nil =>
    rw [List.mapM_nil]
    exact ends_pure.mpr ⟨rfl, .nil⟩
  | cons x rest ih =>
    obtain ⟨hx, hrest⟩ := List.forall_mem_cons.mp h
    rw [List.mapM_cons]
    refine hx.bind ?_
    rintro y t ⟨rfl, hy⟩
    refine (ih hrest).bind ?_
    rintro ys t ⟨rfl, hys⟩
    exact ends_pure.mpr ⟨rfl, .cons hy hys⟩

theorem ends_mapM {γ : Type} {f : γ → ExceptT ε (StateM σ) α} {Q : γ → α → Prop} {P : ε → Prop}
    (h : ∀ x, Ends (f x) s (fun y t ↦ t = s ∧ Q x y) fun e t ↦ t = s ∧ P e) (xs : List γ) :
    Ends (xs.mapM f) s (fun ys t ↦ t = s ∧ List.Forall₂ Q xs ys) fun e t ↦ t = s ∧ P e :=
  ends_mapM_of_mem fun x _ ↦ h x

/-- So it may to find the answers of those that have one. -/
theorem ends_filterMapM {γ : Type} {f : γ → ExceptT ε (StateM σ) (Option α)}
    {Q : γ → Option α → Prop} {xs : List γ}
    (h : ∀ x ∈ xs, Ends (f x) s (fun y t ↦ t = s ∧ Q x y) bad) :
    Ends (xs.filterMapM f) s
      (fun ys t ↦ t = s ∧ ∀ x ∈ xs, ∃ y, Q x y ∧ ∀ a, y = some a → a ∈ ys) bad := by
  induction xs with
  | nil =>
    rw [List.filterMapM_nil]
    exact ends_pure.mpr ⟨rfl, by simp⟩
  | cons x rest ih =>
    obtain ⟨hx, hrest⟩ := List.forall_mem_cons.mp h
    rw [List.filterMapM_cons]
    refine hx.bind ?_
    rintro (_ | a) t ⟨rfl, hy⟩
    · refine (ih hrest).mono ?_ fun _ _ h ↦ h
      rintro ys t ⟨rfl, hys⟩
      exact ⟨rfl, List.forall_mem_cons.mpr ⟨⟨none, hy, nofun⟩, hys⟩⟩
    · refine (ih hrest).bind ?_
      rintro ys t ⟨rfl, hys⟩
      refine ends_pure.mpr ⟨rfl, List.forall_mem_cons.mpr ⟨⟨some a, hy, ?_⟩, fun x hx ↦ ?_⟩⟩
      · rintro _ ⟨⟩
        exact List.mem_cons_self
      · obtain ⟨y, hy, hmem⟩ := hys x hx
        exact ⟨y, hy, fun a ha ↦ List.mem_cons_of_mem _ (hmem a ha)⟩

/-- And to find those that pass. -/
theorem ends_filterM {γ : Type} {f : γ → ExceptT ε (StateM σ) Bool} {Q : γ → Bool → Prop}
    {xs : List γ} (h : ∀ x ∈ xs, Ends (f x) s (fun y t ↦ t = s ∧ Q x y) bad) :
    Ends (xs.filterM f) s (fun ys t ↦ t = s ∧ ∀ x ∈ xs, ∃ y, Q x y ∧ (y = true → x ∈ ys)) bad := by
  have haux : ∀ done : List γ, Ends (xs.filterAuxM f done) s
      (fun ys t ↦ t = s ∧ done ⊆ ys ∧ ∀ x ∈ xs, ∃ y, Q x y ∧ (y = true → x ∈ ys)) bad := by
    induction xs with
    | nil => exact fun done ↦ ends_pure.mpr ⟨rfl, List.Subset.refl _, by simp⟩
    | cons x rest ih =>
      intro done
      obtain ⟨hx, hrest⟩ := List.forall_mem_cons.mp h
      refine hx.bind ?_
      rintro y t ⟨rfl, hy⟩
      refine (ih hrest (bif y then x :: done else done)).mono ?_ fun _ _ h ↦ h
      rintro ys t ⟨rfl, hdone, hys⟩
      cases y with
      | false => exact ⟨rfl, hdone, List.forall_mem_cons.mpr ⟨⟨false, hy, nofun⟩, hys⟩⟩
      | true =>
        obtain ⟨hmem, hdone⟩ := List.cons_subset.mp hdone
        exact ⟨rfl, hdone, List.forall_mem_cons.mpr ⟨⟨true, hy, fun _ ↦ hmem⟩, hys⟩⟩
  refine (haux []).bind ?_
  rintro ys t ⟨rfl, -, hys⟩
  refine ends_pure.mpr ⟨rfl, fun x hx ↦ ?_⟩
  obtain ⟨y, hy, hmem⟩ := hys x hx
  exact ⟨y, hy, fun h ↦ List.mem_reverse.mpr (hmem h)⟩

theorem ends_ask {f : σ → Except ε α} :
    Ends (fun s ↦ (f s, s) : ExceptT ε (StateM σ) α) s (fun y t ↦ t = s ∧ f s = .ok y)
      fun e t ↦ t = s ∧ f s = .error e := by
  unfold Ends
  dsimp only
  cases f s with
  | ok y => exact ⟨rfl, rfl⟩
  | error e => exact ⟨rfl, rfl⟩

/-- All that has been asked is all that is answered. -/
theorem eq_filterMap_of_answers {γ : Type} {f : γ → Except ε α} {xs : List γ} {ys : List α}
    (h : List.Forall₂ (fun x y ↦ f x = .ok y) xs ys) :
    ys = xs.filterMap fun x ↦ (f x).toOption := by
  induction h with
  | nil => rfl
  | cons hy _ ih => rw [List.filterMap_cons, hy, ih]; rfl

end Steps

section Attempts

variable {act : ExceptT Fault (StateM σ) α} {s : σ} {bad : Fault → σ → Prop}

theorem ends_attempt {ok : Except Fault α → σ → Prop} :
    Ends (attempt act) s ok bad ↔
      Ends act s (fun a t ↦ ok (.ok a) t) (fun e t ↦ ok (.error e) t) := by
  unfold Ends attempt
  rcases act s with ⟨_ | _, t⟩ <;> rfl

theorem andThenAlways_congr {act' : ExceptT Fault (StateM σ) α} (h : act s = act' s)
    (last : ExceptT Fault (StateM σ) Unit) :
    Remedy.andThenAlways act last s = Remedy.andThenAlways act' last s := by
  have hattempt : attempt act s = attempt act' s := by
    unfold attempt
    rw [h]
  unfold Remedy.andThenAlways
  rw [bind_apply, bind_apply, hattempt]

theorem Ends.andThenAlways {last : ExceptT Fault (StateM σ) Unit} {ok : α → σ → Prop}
    (h : Ends act s (fun a t ↦ Ends last t (fun _ u ↦ ok a u) bad)
      fun e t ↦ Ends last t (fun _ u ↦ bad e u) bad) :
    Ends (andThenAlways act last) s ok bad := by
  unfold Remedy.andThenAlways
  exact ends_bind.mpr (ends_attempt.mpr (h.mono (fun _ _ ha ↦ ends_bind.mpr ha)
    fun _ _ he ↦ ends_bind.mpr he))

end Attempts

/-! ### Files -/

namespace Act

variable {act : FileAct α} {w : World} {bad : Fault → World → Prop}

theorem ends_tryFiles {ok : Except FileError α → World → Prop} :
    Ends (tryFiles act) w ok bad ↔
      Ends act w.files (fun a t ↦ ok (.ok a) { w with files := t })
        fun e t ↦ ok (.error e) { w with files := t } := by
  unfold Ends tryFiles
  dsimp only
  rcases act w.files with ⟨_ | _, t⟩ <;> rfl

theorem ends_onFiles {ok : α → World → Prop} :
    Ends (onFiles act) w ok bad ↔
      Ends act w.files (fun a t ↦ ok a { w with files := t })
        fun e t ↦ bad (.file e) { w with files := t } :=
  ends_bind.trans ends_tryFiles

end Act

/-! ### Faults -/

/-- Every fault that `act` can fail with satisfies `P`. -/
def Raises (P : Fault → Prop) (act : ExceptT Fault (StateM σ) α) : Prop :=
  ∀ s, Ends act s (fun _ _ ↦ True) fun e _ ↦ P e

section Raises

variable {P : Fault → Prop} {act : ExceptT Fault (StateM σ) α}

theorem Raises.mono {P' : Fault → Prop} (h : Raises P act) (hsub : ∀ e, P e → P' e) :
    Raises P' act :=
  fun s ↦ (h s).mono (fun _ _ h ↦ h) fun e _ ↦ hsub e

/-- An action that cannot fail may be followed by whatever can. -/
theorem Raises.thenEnds {f : α → ExceptT Fault (StateM σ) β} {s : σ} {ok : β → σ → Prop}
    {bad : Fault → σ → Prop} (h : Raises (fun _ ↦ False) act)
    (hnext : ∀ a t, Ends (f a) t ok bad) : Ends (act >>= f) s ok bad :=
  ends_bind.mpr ((h s).mono (fun a t _ ↦ hnext a t) fun _ _ ↦ False.elim)

theorem raises_pure (a : α) : Raises P (pure a : ExceptT Fault (StateM σ) α) :=
  fun _ ↦ trivial

theorem raises_throw {e : Fault} (h : P e) : Raises P (throw e : ExceptT Fault (StateM σ) α) :=
  fun _ ↦ h

theorem raises_get : Raises P (get : ExceptT Fault (StateM σ) σ) :=
  fun _ ↦ trivial

theorem raises_set (s : σ) : Raises P (set s : ExceptT Fault (StateM σ) PUnit) :=
  fun _ ↦ trivial

theorem raises_modify (f : σ → σ) : Raises P (modify f : ExceptT Fault (StateM σ) PUnit) :=
  fun _ ↦ trivial

theorem Raises.bind {f : α → ExceptT Fault (StateM σ) β} (h : Raises P act)
    (hnext : ∀ a, Raises P (f a)) : Raises P (act >>= f) :=
  fun s ↦ (h s).bind fun a t _ ↦ hnext a t

theorem Raises.guard {c : Prop} [Decidable c] {e : Fault}
    {f : PUnit → ExceptT Fault (StateM σ) β} (he : P e) (hnext : Raises P (f ⟨⟩)) :
    Raises P (if c then throw e >>= f else f ⟨⟩) :=
  fun s ↦ Ends.guard (fun _ ↦ he) fun _ ↦ hnext s

theorem raises_mapM {γ : Type} {f : γ → ExceptT Fault (StateM σ) α} (h : ∀ a, Raises P (f a))
    (xs : List γ) : Raises P (xs.mapM f) := by
  induction xs with
  | nil =>
    rw [List.mapM_nil]
    exact raises_pure _
  | cons x xs ih =>
    rw [List.mapM_cons]
    exact (h x).bind fun _ ↦ ih.bind fun _ ↦ raises_pure _

theorem raises_forM {γ : Type} {f : γ → ExceptT Fault (StateM σ) PUnit}
    (h : ∀ a, Raises P (f a)) (xs : List γ) : Raises P (xs.forM f) := by
  induction xs with
  | nil => exact raises_pure _
  | cons x xs ih =>
    show Raises P (f x >>= fun _ ↦ xs.forM f)
    exact (h x).bind fun _ ↦ ih

theorem raises_attempt : Raises P (attempt act) :=
  fun s ↦ ends_attempt.mpr (by unfold Ends; split <;> trivial)

theorem Raises.attemptThen {f : Except Fault α → ExceptT Fault (StateM σ) β} (h : Raises P act)
    (hok : ∀ a, Raises P (f (.ok a))) (herror : ∀ e, P e → Raises P (f (.error e))) :
    Raises P (attempt act >>= f) := by
  intro s
  refine ends_bind.mpr (ends_attempt.mpr ((h s).mono (fun a t _ ↦ hok a t) fun e t he ↦ ?_))
  exact herror e he t

theorem Raises.andThenAlways {last : ExceptT Fault (StateM σ) Unit} (h : Raises P act)
    (hlast : Raises P last) : Raises P (andThenAlways act last) := by
  intro s
  refine Ends.andThenAlways ((h s).mono (fun a t _ ↦ hlast t) fun e t he ↦ ?_)
  exact (hlast t).mono (fun _ _ _ ↦ he) fun _ _ he ↦ he

end Raises

/-! ### States -/

/-- Wherever `act` is begun, the state that it leaves is related to the one before. -/
def Keeps (R : σ → σ → Prop) (act : ExceptT Fault (StateM σ) α) : Prop :=
  ∀ s, Ends act s (fun _ t ↦ R s t) fun _ t ↦ R s t

section Keeps

variable {R : σ → σ → Prop} {act : ExceptT Fault (StateM σ) α}

theorem keeps_iff : Keeps R act ↔ ∀ s, R s (act s).2 := by
  unfold Keeps Ends
  refine forall_congr' fun s ↦ ?_
  rcases act s with ⟨_ | _, t⟩ <;> rfl

theorem Keeps.attempt (h : Keeps R act) : Keeps R (attempt act) :=
  fun s ↦ ends_attempt.mpr (h s)

variable (hrefl : ∀ s, R s s) (htrans : ∀ s t u, R s t → R t u → R s u)

include hrefl in
theorem keeps_pure (a : α) : Keeps R (pure a : ExceptT Fault (StateM σ) α) :=
  fun s ↦ hrefl s

include hrefl in
theorem keeps_throw (e : Fault) : Keeps R (throw e : ExceptT Fault (StateM σ) α) :=
  fun s ↦ hrefl s

include hrefl in
theorem keeps_get : Keeps R (get : ExceptT Fault (StateM σ) σ) :=
  fun s ↦ hrefl s

theorem keeps_modify {f : σ → σ} (h : ∀ s, R s (f s)) :
    Keeps R (modify f : ExceptT Fault (StateM σ) PUnit) :=
  h

include htrans in
theorem Keeps.bind {f : α → ExceptT Fault (StateM σ) β} (h : Keeps R act)
    (hnext : ∀ a, Keeps R (f a)) : Keeps R (act >>= f) :=
  fun s ↦ ends_bind.mpr ((h s).mono
    (fun a t ht ↦ (hnext a t).mono (fun _ u ↦ htrans s t u ht) fun _ u ↦ htrans s t u ht)
    fun _ _ ht ↦ ht)

include htrans in
theorem Keeps.andThenAlways {last : ExceptT Fault (StateM σ) Unit} (h : Keeps R act)
    (hlast : Keeps R last) : Keeps R (andThenAlways act last) := by
  intro s
  refine Ends.andThenAlways ((h s).mono (fun a t ht ↦ ?_) fun e t ht ↦ ?_)
  · exact (hlast t).mono (fun _ u ↦ htrans s t u ht) fun _ u ↦ htrans s t u ht
  · exact (hlast t).mono (fun _ u ↦ htrans s t u ht) fun _ u ↦ htrans s t u ht

include hrefl htrans in
theorem keeps_mapM {γ : Type} {f : γ → ExceptT Fault (StateM σ) α} (h : ∀ a, Keeps R (f a))
    (xs : List γ) : Keeps R (xs.mapM f) := by
  induction xs with
  | nil =>
    rw [List.mapM_nil]
    exact keeps_pure hrefl _
  | cons x xs ih =>
    rw [List.mapM_cons]
    exact (h x).bind htrans fun _ ↦ ih.bind htrans fun _ ↦ keeps_pure hrefl _

include hrefl htrans in
theorem keeps_forM {γ : Type} {f : γ → ExceptT Fault (StateM σ) PUnit} (h : ∀ a, Keeps R (f a))
    (xs : List γ) : Keeps R (xs.forM f) := by
  induction xs with
  | nil => exact keeps_pure hrefl _
  | cons x xs ih =>
    show Keeps R (f x >>= fun _ ↦ xs.forM f)
    exact (h x).bind htrans fun _ ↦ ih

include htrans in
theorem keeps_retryFrom {p : RetryPolicy} {body : Nat → ExceptT Fault (StateM σ) α}
    {rest : Nat → Fault → Double → ExceptT Fault (StateM σ) Unit} (hrefl : ∀ s, R s s)
    (hbody : ∀ n, Keeps R (body n)) (hrest : ∀ n e wait, Keeps R (rest n e wait))
    (left number : Nat) : Keeps R (retryFrom p body rest left number) := by
  induction left generalizing number with
  | zero => exact hbody number
  | succ left ih =>
    refine (hbody number).attempt.bind htrans fun outcome ↦ ?_
    cases outcome with
    | ok a => exact keeps_pure hrefl a
    | error e =>
      dsimp only
      split
      · exact (hrest number e _).bind htrans fun _ ↦ ih (number + 1)
      · exact keeps_throw hrefl e

end Keeps

/-! ### Attempts -/

/-- An invariant that holds when the attempt of a number is begun, and again after the wait that
follows a failure which is worth another attempt, makes every row of attempts end as one of them
does. -/
theorem ends_retryFrom_numbered {p : RetryPolicy} {body : Nat → ExceptT Fault (StateM σ) α}
    {rest : Nat → Fault → Double → ExceptT Fault (StateM σ) Unit} {I : Nat → σ → Prop}
    {ok : Nat → α → σ → Prop} {bad : Nat → Fault → σ → Prop}
    (hbody : ∀ n s, I n s → Ends (body n) s (ok n) (bad n))
    (hrest : ∀ n e s, bad n e s → p.covers e →
      Ends (rest n e (p.wait n)) s (fun _ t ↦ I (n + 1) t) (bad n))
    (left number : Nat) (s : σ) (hs : I number s) :
    Ends (retryFrom p body rest left number) s (fun a t ↦ ∃ n, number ≤ n ∧ ok n a t)
      fun e t ↦ ∃ n, number ≤ n ∧ bad n e t := by
  induction left generalizing number s with
  | zero =>
    exact (hbody number s hs).mono (fun a t ha ↦ ⟨number, Nat.le_refl _, ha⟩)
      fun e t he ↦ ⟨number, Nat.le_refl _, he⟩
  | succ left ih =>
    refine ends_bind.mpr (ends_attempt.mpr ((hbody number s hs).mono (fun a t ha ↦ ?_) ?_))
    · exact ends_pure.mpr ⟨number, Nat.le_refl _, ha⟩
    intro e t he
    dsimp only
    split
    · refine ((hrest number e t he ‹_›).mono (fun _ _ h ↦ h) fun e t he ↦ ?_).bind fun _ u hu ↦ ?_
      · exact ⟨number, Nat.le_refl _, he⟩
      · exact (ih (number + 1) u hu).mono
          (fun a t ⟨n, hn, ha⟩ ↦ ⟨n, Nat.le_of_succ_le hn, ha⟩)
          fun e t ⟨n, hn, he⟩ ↦ ⟨n, Nat.le_of_succ_le hn, he⟩
    · exact ends_throw.mpr ⟨number, Nat.le_refl _, he⟩

/-- If every failure is worth another attempt, and there is nothing that keeps it from being made,
attempts are made until one succeeds or none is left. -/
theorem ends_retryFrom_covered {p : RetryPolicy} {body : Nat → ExceptT Fault (StateM σ) α}
    {rest : Nat → Fault → Double → ExceptT Fault (StateM σ) Unit} {I : Nat → σ → Prop}
    {P : Nat → α → σ → Prop} {Q : Nat → Fault → σ → Prop}
    (hbody : ∀ n s, I n s → Ends (body n) s (P n) fun e t ↦ p.covers e = true ∧ Q n e t)
    (hrest : ∀ n e s, Q n e s →
      Ends (rest n e (p.wait n)) s (fun _ t ↦ I (n + 1) t) fun _ _ ↦ False)
    (left number : Nat) (s : σ) (hs : I number s) :
    Ends (retryFrom p body rest left number) s (fun a t ↦ ∃ n ≤ number + left, P n a t)
      fun e t ↦ Q (number + left) e t := by
  induction left generalizing number s with
  | zero =>
    exact (hbody number s hs).mono (fun a t ha ↦ ⟨number, Nat.le_refl _, ha⟩) fun e t he ↦ he.2
  | succ left ih =>
    refine ends_bind.mpr (ends_attempt.mpr ((hbody number s hs).mono (fun a t ha ↦ ?_) ?_))
    · exact ends_pure.mpr ⟨number, Nat.le_add_right _ _, ha⟩
    rintro e t ⟨hcovers, he⟩
    dsimp only
    rw [if_pos hcovers]
    refine ends_bind.mpr ((hrest number e t he).mono (fun _ u hu ↦ ?_) fun _ _ ↦ False.elim)
    rw [show number + (left + 1) = number + 1 + left by omega]
    exact ih (number + 1) u hu

/-- So does an invariant that leads to the same wherever the attempts end. -/
theorem ends_retryFrom {p : RetryPolicy} {body : Nat → ExceptT Fault (StateM σ) α}
    {rest : Nat → Fault → Double → ExceptT Fault (StateM σ) Unit} {I : Nat → σ → Prop}
    {ok : α → σ → Prop} {bad : Fault → σ → Prop}
    (hbody : ∀ n s, I n s → Ends (body n) s ok bad)
    (hrest : ∀ n e s, bad e s → p.covers e →
      Ends (rest n e (p.wait n)) s (fun _ t ↦ I (n + 1) t) bad)
    (left number : Nat) (s : σ) (hs : I number s) :
    Ends (retryFrom p body rest left number) s ok bad := by
  have h : Ends (retryFrom p body rest left number) s (fun a t ↦ ∃ n, number ≤ n ∧ ok a t)
      fun e t ↦ ∃ n, number ≤ n ∧ bad e t :=
    ends_retryFrom_numbered hbody hrest left number s hs
  exact h.mono (fun _ _ ⟨_, _, h⟩ ↦ h) fun _ _ ⟨_, _, h⟩ ↦ h

end Remedy
