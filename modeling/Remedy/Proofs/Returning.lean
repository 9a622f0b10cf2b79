import Remedy.Proofs.Actions
import Remedy.World

/-!
# Actions that return, and when

Logging takes no time and returns; waiting returns unless the whole activity is called off
(`Act.Steady`, `Act.Returns`), and takes as long as it is to take (`Act.ends_pause`). Work that is
raced against a deadline misses it or ends as it ends, and the race is over at the deadline or when
the work ends (`Act.ends_race_course`).
-/

set_option autoImplicit false

namespace Remedy

namespace Course

variable {α : Type}

/-- Whether the work does not end before its time is up. -/
def misses (c : Course α) (timeout : Number) : Bool := c.isBusyAfter timeout || c.endless

/-- How the work comes out if it is raced against a deadline. -/
def settled (c : Course α) (timeout : Number) : Settled α :=
  if c.misses timeout then .overdue else .ended c.outcome

/-- How long it is waited for. -/
def lasting (c : Course α) (timeout : Number) : Moment :=
  if c.misses timeout then Moment.ofSeconds timeout else c.delay

/-- The work ends or has a deadline that it can miss. -/
def Limited (c : Course α) (timeout : Number) : Prop :=
  c.endless = true → timeout ≠ .real (.infinite false)

end Course

namespace Act

variable {α β : Type} {P : Option Moment → Moment → Prop}

/-- The action returns, and what holds of the moment at which the activity is to be called off and of
the present one goes on to hold. -/
def Steady (P : Option Moment → Moment → Prop) (act : Act α) : Prop :=
  ∀ w, P w.interrupt w.now → Ends act w (fun _ w' ↦ P w'.interrupt w'.now) fun _ _ ↦ False

/-- The action returns, unless the activity is called off. -/
abbrev Returns (act : Act α) : Prop := Steady (fun interrupt _ ↦ interrupt = none) act

theorem steady_pure (a : α) : Steady P (pure a : Act α) :=
  fun _ h ↦ h

theorem steady_get : Steady P get :=
  fun _ h ↦ h

theorem steady_modify {f : World → World} (hinterrupt : ∀ w, (f w).interrupt = w.interrupt)
    (hnow : ∀ w, (f w).now = w.now) : Steady P (modify f) := by
  intro w hw
  refine ends_modify.mpr ?_
  rw [hinterrupt, hnow]
  exact hw

/-- What follows an action that returns. -/
theorem Steady.next {act : Act α} {f : α → Act β} {w : World} {ok : β → World → Prop}
    {bad : Fault → World → Prop} (h : Steady P act) (hw : P w.interrupt w.now)
    (hnext : ∀ a w', P w'.interrupt w'.now → Ends (f a) w' ok bad) : Ends (act >>= f) w ok bad :=
  ends_bind.mpr ((h w hw).mono hnext fun _ _ ↦ False.elim)

theorem Steady.bind {act : Act α} {f : α → Act β} (h : Steady P act)
    (hnext : ∀ a, Steady P (f a)) : Steady P (act >>= f) :=
  fun _ hw ↦ h.next hw fun a w' hw' ↦ hnext a w' hw'

theorem steady_record (event : Event) : Steady P (record event) :=
  steady_modify (fun _ ↦ rfl) fun _ ↦ rfl

theorem steady_log (level : LogLevel) (name : String) (fields : List (String × Json)) :
    Steady P (log level name fields) :=
  steady_record _

theorem steady_forM {γ : Type} {f : γ → Act PUnit} (h : ∀ a, Steady P (f a)) (xs : List γ) :
    Steady P (xs.forM f) := by
  induction xs with
  | nil => exact steady_pure _
  | cons x xs ih =>
    show Steady P (f x >>= fun _ ↦ xs.forM f)
    exact (h x).bind fun _ ↦ ih

theorem steady_withBound {bound : List (String × Json)} {act : Act α} (h : Steady P act) :
    Steady P (withBound bound act) := by
  unfold withBound
  refine steady_get.bind fun w ↦ (steady_modify ?_ ?_).bind fun _ ↦ fun w' hw' ↦ ?_
  · exact fun _ ↦ rfl
  · exact fun _ ↦ rfl
  · refine Ends.andThenAlways ((h w' hw').mono (fun _ _ hw ↦ ?_) fun _ _ ↦ False.elim)
    exact ends_modify.mpr hw

theorem steady_giveWay : Steady P giveWay := by
  unfold giveWay
  refine steady_get.bind fun w ↦ (steady_modify ?_ ?_).bind fun _ ↦ ?_
  · exact fun _ ↦ rfl
  · exact fun _ ↦ rfl
  · exact steady_forM (fun _ ↦ steady_withBound (steady_log _ _ _)) _

/-- Unless the activity is called off, a wait takes its time. -/
theorem ends_pause (seconds : Moment) {w : World} (hw : w.interrupt = none) :
    Ends (pause seconds) w (fun _ w' ↦ w'.interrupt = none ∧ w'.now = w.now + seconds)
      fun _ _ ↦ False := by
  unfold pause
  refine Steady.next (P := fun interrupt now ↦ interrupt = none ∧ now = w.now) steady_giveWay
    ⟨hw, rfl⟩ fun _ w₁ h₁ ↦ ends_bind.mpr (ends_get.mpr ?_)
  obtain ⟨hnone, hnow⟩ := h₁
  dsimp only
  split
  · rename_i hmoment
    rw [hnone] at hmoment
    cases hmoment
  · exact ends_set.mpr ⟨hnone, by rw [hnow]⟩

theorem returns_pause (seconds : Moment) : Returns (pause seconds) :=
  fun _ hw ↦ (ends_pause seconds hw).mono (fun _ _ h ↦ h.1) fun _ _ ↦ id

theorem returns_waitForever : Returns waitForever := by
  intro w hw
  unfold waitForever
  refine ends_bind.mpr (ends_get.mpr ?_)
  rw [hw]
  exact ends_pure.mpr hw

/-- A timeout ends when it is over, unless it is never over. -/
theorem ends_expire (timeout : Number) {w : World} (hw : w.interrupt = none) :
    Ends (expire timeout) w
      (fun _ w' ↦ w'.interrupt = none ∧
        (timeout ≠ .real (.infinite false) → w'.now = w.now + Moment.ofSeconds timeout))
      fun _ _ ↦ False := by
  unfold expire
  split
  · exact (returns_waitForever w hw).mono (fun _ _ h ↦ ⟨h, fun hne ↦ absurd rfl hne⟩)
      fun _ _ ↦ id
  · exact (ends_pause _ hw).mono (fun _ _ h ↦ ⟨h.1, fun _ ↦ h.2⟩) fun _ _ ↦ id

/-- Work that is raced against a deadline misses it or ends as it ends. -/
theorem ends_race_settled (work : Work α) (timeout : Number) (w : World) :
    Ends (race work timeout) w
      (fun settled _ ↦ settled = .overdue ∨ settled = .ended (work w.toSite).1.outcome)
      fun _ _ ↦ True := by
  unfold race begin
  refine ends_bind.mpr (ends_bind.mpr (ends_get.mpr (ends_bind.mpr (ends_set.mpr ?_))))
  refine Ends.bind_any fun _ w ↦ ends_pure.mpr (Ends.guard (fun _ ↦ trivial) fun _ ↦ ?_)
  dsimp only
  split
  · exact Ends.bind_any fun _ w ↦ Ends.bind_any fun _ w ↦ Ends.bind_any fun _ w ↦
      ends_pure.mpr (.inl rfl)
  · exact Ends.bind_any fun _ w ↦ Ends.bind_any fun _ w ↦ ends_pure.mpr (.inr rfl)

/-- How the race comes out and when it is over, unless no clock can take the timeout. -/
theorem ends_race_course (work : Work α) (timeout : Number) {w : World} (hw : w.interrupt = none) :
    Ends (race work timeout) w
      (fun settled w' ↦ settled = (work w.toSite).1.settled timeout ∧ w'.interrupt = none ∧
        ((work w.toSite).1.Limited timeout →
          w'.now = w.now + (work w.toSite).1.lasting timeout))
      fun e _ ↦ e = .overflow .conversion ∧ timeout.toDouble? = none := by
  unfold race begin
  refine ends_bind.mpr (ends_bind.mpr (ends_get.mpr (ends_bind.mpr (ends_set.mpr ?_))))
  refine Steady.next (P := fun interrupt now ↦ interrupt = none ∧ now = w.now)
    (steady_forM steady_record _) ⟨hw, rfl⟩ fun _ w₁ h₁ ↦ ends_pure.mpr ?_
  obtain ⟨hnone, hnow⟩ := h₁
  refine Ends.guard (fun h ↦ ⟨rfl, Option.isNone_iff_eq_none.mp h⟩) fun _ ↦ ?_
  dsimp only
  split
  · rename_i hmisses
    have hmisses : (work w.toSite).1.misses timeout = true := hmisses
    refine ends_bind.mpr ((ends_expire timeout hnone).mono ?_ fun _ _ ↦ False.elim)
    rintro _ w₂ ⟨hnone₂, htime⟩
    refine ends_bind.mpr (ends_modify.mpr (ends_bind.mpr (ends_modify.mpr (ends_pure.mpr ?_))))
    refine ⟨(if_pos hmisses).symm, hnone₂, fun hlimited ↦ ?_⟩
    rw [Course.lasting, if_pos hmisses, ← hnow]
    refine htime ?_
    rintro rfl
    -- Work that has all the time there is misses no deadline unless it goes on for ever.
    exact hlimited hmisses rfl
  · rename_i hends
    have hends : ¬ (work w.toSite).1.misses timeout = true := hends
    refine ends_bind.mpr ((ends_pause _ hnone).mono ?_ fun _ _ ↦ False.elim)
    rintro _ w₂ ⟨hnone₂, htime⟩
    refine Steady.next (P := fun interrupt now ↦ interrupt = none ∧ now = w₂.now)
      (steady_forM steady_record _) ⟨hnone₂, rfl⟩ fun _ w₃ h₃ ↦ ends_pure.mpr ?_
    refine ⟨(if_neg hends).symm, h₃.1, fun _ ↦ ?_⟩
    rw [Course.lasting, if_neg hends, h₃.2, htime, hnow]

/-- Work that is raced against a deadline misses it or ends as it ends, unless no clock can take the
timeout. -/
theorem ends_race_outcome (work : Work α) (timeout : Number) {w : World} (hw : w.interrupt = none) :
    Ends (race work timeout) w
      (fun settled _ ↦ settled = .overdue ∨ settled = .ended (work w.toSite).1.outcome)
      fun e _ ↦ e = .overflow .conversion := by
  refine (ends_race_course work timeout hw).mono ?_ fun _ _ h ↦ h.1
  rintro _ _ ⟨rfl, -⟩
  unfold Course.settled
  split
  · exact .inl rfl
  · exact .inr rfl

end Act

end Remedy
