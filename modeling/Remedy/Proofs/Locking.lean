import Remedy.Lock
import Remedy.Proofs.Quiet

/-!
# What taking and giving up a lock does to files

The file of a lock is where its path leads. Taking the lock and giving it up again touches this file
and the log (`RunLock.ends_acquire`, `RunLock.ends_release`); what is touched while locks are taken
and given up is said by `World.Changes`.
-/

set_option autoImplicit false

namespace Remedy

open FileTree

/-- Files have been touched at the routes in `only` and in the log, if any. Locks may have been
taken and given up. -/
def World.Changes (only : Route → Prop) (w w' : World) : Prop :=
  w.Touches only { w' with locks := w.locks }

section Changes

variable {only only' : Route → Prop} {w w' w'' : World}

theorem World.Touches.changes (h : w.Touches only w') : w.Changes only w' :=
  ⟨h.log, rfl, h.files⟩

theorem World.Changes.refl (only : Route → Prop) (w : World) : w.Changes only w :=
  World.Touches.refl only w

theorem World.Changes.trans (h : w.Changes only w') (h' : w'.Changes only w'') :
    w.Changes only w'' := by
  have hnext : World.Touches only { w' with locks := w.locks } { w'' with locks := w.locks } :=
    ⟨h'.log, rfl, h'.files⟩
  exact World.Touches.trans h hnext

theorem World.Changes.mono (h : w.Changes only w') (hsub : ∀ r, only r → only' r) :
    w.Changes only' w' :=
  World.Touches.mono h hsub

end Changes

/-- Opening a file at its end makes it if it is not there, and leaves it as it is otherwise. -/
theorem FileAct.ends_openEnd {t : FileTree} {p : Path} (ht : t.Sound) (hp : p.isAbsolute = true) :
    Ends (openEnd p) t
      (fun r t' ↦ t.traced p = .done r ∧ Edits (· = r) t t' ∧
        t'.bytes? r = some ((t.bytes? r).getD []))
      fun _ t' ↦ t' = t := by
  unfold openEnd
  refine ends_bind.mpr (ends_place.mpr ?_)
  cases hwalk : t.walk p with
  | error e => rfl
  | ok place =>
    obtain ⟨htraced, hshows⟩ := walk_ok ht hp hwalk
    cases place with
    | «at» r node =>
      cases node with
      | file old mode =>
        exact ends_pure.mpr ⟨htraced, .refl ht, by rw [bytes?_of_look hshows]; rfl⟩
      | directory changed => exact ends_throw.mpr rfl
      | link target => exact ends_throw.mpr rfl
    | free d name =>
      obtain ⟨hd, hfree, -⟩ := hshows
      refine ends_bind.mpr (ends_modify.mpr (ends_pure.mpr ⟨htraced, ?_, ?_⟩))
      · refine edits_add_file ht hd ?_ ?_ _ _
        · rw [HasDirectory, hfree]
          exact fun h ↦ by cases h
        · rw [link?, hfree]
      · have hnone : t.bytes? (d ++ [name]) = none := by rw [bytes?, hfree]
        rw [hnone]
        exact bytes?_of_look (by rw [look_add, if_pos rfl]; rfl)

namespace RunLock

variable {l : RunLock} {w : World} {route : Route}

theorem heldFile_released (owner : Nat) (locks : List (Route × Nat)) :
    heldFile owner (locks.filter fun h ↦ h.2 != owner) = none := by
  induction locks with
  | nil => rfl
  | cons lock rest ih =>
    obtain ⟨r, o⟩ := lock
    by_cases ho : o = owner
    · rw [List.filter_cons_of_neg (by simp [ho]), ih]
    · rw [List.filter_cons_of_pos (by simpa using ho), heldFile, if_neg ho, ih]

theorem ends_overwrite (route : Route) (text : String) (w : World) :
    Ends (overwrite route text) w
      (fun _ w' ↦ w'.locks = w.locks ∧ w.Touches (· = route) w') fun _ _ ↦ False := by
  unfold overwrite
  refine Act.ends_onFiles.mpr (ends_modify.mpr ?_)
  dsimp only
  split
  · rename_i content mode hnode
    refine ⟨rfl, rfl, rfl, fun hw ↦ ?_⟩
    exact (edits_set_file hw ⟨content, mode, look_of_node? hnode⟩ _ _).toBecomes.mono fun _ ↦ .inl
  · exact ⟨rfl, .refl _ w⟩

/-- One attempt either takes the lock or leaves everything as it is. -/
theorem ends_poll (l : RunLock) (route : Route) (w : World) :
    Ends (l.poll route) w
      (fun taken w' ↦ if taken then heldFile l.owner w'.locks = some route ∧
        w.Changes (· = route) w' else w' = w) fun _ _ ↦ False := by
  unfold poll
  refine ends_bind.mpr (ends_get.mpr ?_)
  split
  · exact ends_pure.mpr rfl
  refine ends_bind.mpr (ends_set.mpr ((ends_overwrite _ _ _).mono (fun _ _ h ↦ h)
    (fun _ _ h ↦ h) |>.bind ?_))
  rintro _ w' ⟨hlocks, htouches⟩
  refine ends_pure.mpr ?_
  rw [if_pos rfl, hlocks]
  exact ⟨by simp [heldFile], htouches.log, rfl, htouches.files⟩

/-- Refusing never succeeds. -/
theorem ends_refuse (l : RunLock) (route : Route) (w : World) :
    Ends (l.refuse route) w (fun _ _ ↦ False) fun _ _ ↦ True := by
  unfold refuse
  exact Ends.bind_any fun _ _ ↦ Ends.bind_any fun _ _ ↦ ends_throw.mpr trivial

/-- As long as polls fail, polling keeps what they and the pauses between them keep. It ends as the
first poll that succeeds does, or as a refusal. -/
theorem ends_pollUntil_of {P Q : World → Prop} {bad : Fault → World → Prop}
    (hpoll : ∀ w, P w → Ends (l.poll route) w (fun taken w' ↦ if taken then Q w' else P w') bad)
    (hrefuse : ∀ w, P w → Ends (l.refuse route) w (fun _ ↦ Q) bad)
    (hpause : ∀ w, P w → Ends (Act.pause pollInterval) w (fun _ ↦ P) bad)
    (deadline : Moment) (polls : Nat) (hw : P w) :
    Ends (l.pollUntil route deadline polls) w (fun _ ↦ Q) bad := by
  induction polls generalizing w with
  | zero =>
    unfold pollUntil
    refine (hpoll w hw).bind fun taken w' h ↦ ?_
    cases taken with
    | true => exact ends_pure.mpr h
    | false => exact hrefuse w' h
  | succ polls ih =>
    unfold pollUntil
    refine (hpoll w hw).bind fun taken w' h ↦ ?_
    cases taken with
    | true => exact ends_pure.mpr h
    | false =>
      refine ends_bind.mpr (ends_get.mpr ?_)
      split
      · exact hrefuse w' h
      · exact (hpause w' h).bind fun _ _ ↦ ih

/-- Polling ends with the first poll if that takes the lock. -/
theorem ends_pollUntil_of_taken {ok : Unit → World → Prop} {bad : Fault → World → Prop}
    {w' : World} (hpoll : l.poll route w = (.ok true, w')) (hok : ok () w') (deadline : Moment)
    (polls : Nat) : Ends (l.pollUntil route deadline polls) w ok bad := by
  cases polls with
  | zero =>
    unfold pollUntil
    exact ends_bind.mpr ((ends_of_eq hpoll).mpr (ends_pure.mpr hok))
  | succ polls =>
    unfold pollUntil
    exact ends_bind.mpr ((ends_of_eq hpoll).mpr (ends_pure.mpr hok))

/-- If polling comes to an end without a failure, the lock is taken. -/
theorem ends_pollUntil (l : RunLock) (route : Route) (deadline : Moment) (polls : Nat) (w : World) :
    Ends (l.pollUntil route deadline polls) w
      (fun _ w' ↦ heldFile l.owner w'.locks = some route ∧ w.Changes (· = route) w')
      fun _ _ ↦ True := by
  refine ends_pollUntil_of (P := fun w₁ ↦ w.Changes (· = route) w₁) (fun w₁ hw₁ ↦ ?_)
    (fun w₁ _ ↦ ?_) (fun w₁ hw₁ ↦ ?_) deadline polls (.refl _ w)
  · refine (ends_poll l route w₁).mono (fun taken w₂ h ↦ ?_) fun _ _ h ↦ h.elim
    cases taken with
    | true => exact ⟨h.1, hw₁.trans h.2⟩
    | false =>
      obtain rfl : w₂ = w₁ := h
      exact hw₁
  · exact (ends_refuse l route w₁).mono (fun _ _ h ↦ h.elim) fun _ _ h ↦ h
  · refine (Act.still_pause _ w₁).mono (fun _ w₂ h ↦ ?_) fun _ _ _ ↦ trivial
    exact hw₁.trans (h.undisturbed.mono fun _ ↦ False.elim).changes

/-- The file of a lock has been opened: directories on the way to it may have been made, and then
the file. -/
structure Opens (l : RunLock) (t : FileTree) (route : Route) (t₁ t₂ : FileTree) : Prop where
  traced : t.traced l.path = .done route
  grows : FileAct.Grows t t₁
  opened : FileAct.openEnd l.path t₁ = (.ok route, t₂)
  edits : Edits (· = route) t₁ t₂
  bytes : t₂.bytes? route = some ((t.bytes? route).getD [])

theorem Opens.becomes {t t₁ t₂ : FileTree} (h : l.Opens t route t₁ t₂) :
    Becomes (· = route) t t₂ :=
  (h.grows.mono fun _ ↦ False.elim).trans h.edits.toBecomes

/-- To take a lock is to open its file, which may fail, though not because of the lock, and to poll
then. -/
theorem ends_acquire_of_opens {timeout : Option Number} {ok : Unit → World → Prop}
    {bad : Fault → World → Prop} (hw : w.files.Sound) (hpath : l.path.isAbsolute = true)
    (hfree : l.isHeld w = false)
    (hbad : ∀ e t, (∀ path text, e ≠ .locked path text) → FileAct.Grows w.files t →
      bad e { w with files := t })
    (hopens : ∀ route t₁ t₂, l.Opens w.files route t₁ t₂ → ∀ deadline polls,
      Ends (l.pollUntil route deadline polls) { w with files := t₂ }
        (fun _ w' ↦ Ends (Act.log .debug "run_lock_acquired" [("path", l.path.text)]) w' ok bad)
        bad) :
    Ends (l.acquire timeout) w ok bad := by
  have hfile : ∀ (cause : FileError) path text, Fault.file cause ≠ .locked path text := by simp
  unfold acquire
  refine ends_bind.mpr (ends_get.mpr ?_)
  rw [if_neg (by simp [hfree])]
  refine Ends.guard (fun _ ↦ hbad _ w.files (by simp) (.refl hw)) fun _ ↦ ?_
  refine ends_bind.mpr (Act.ends_onFiles.mpr ((FileAct.ends_makePath (p := l.path.parent) hpath
    hw).mono ?_ fun e t hgrows ↦ hbad _ t (hfile e) hgrows))
  rintro _ t₁ ⟨hgrows, -⟩
  refine ends_bind.mpr (Act.ends_onFiles.mpr (((FileAct.ends_openEnd hgrows.sound hpath).and
    ends_self).mono ?_ ?_))
  · rintro route t₂ ⟨⟨htraced, hedits, hbytes⟩, hopened⟩
    rw [traced_congr hgrows.alters.links hpath] at htraced
    rw [hgrows.alters.bytes route id] at hbytes
    refine ends_bind.mpr (ends_get.mpr (ends_bind.mpr ?_))
    exact hopens route t₁ t₂ ⟨htraced, hgrows, hopened, hedits, hbytes⟩ _ _
  · rintro e _ ⟨rfl, -⟩
    exact hbad _ _ (hfile e) hgrows

/-- Taking a lock that is not held makes and touches its file at most. -/
theorem ends_acquire (l : RunLock) (timeout : Option Number) (hw : w.files.Sound)
    (hpath : l.path.isAbsolute = true) (hfree : heldFile l.owner w.locks = none) :
    Ends (l.acquire timeout) w
      (fun _ w' ↦ ∃ r, w.files.traced l.path = .done r ∧ heldFile l.owner w'.locks = some r ∧
        w.Changes (· = r) w')
      fun _ _ ↦ True := by
  refine ends_acquire_of_opens hw hpath (by simp [isHeld, hfree]) (fun _ _ _ _ ↦ trivial) ?_
  intro route t₁ t₂ hopens deadline polls
  have hopened : w.Changes (· = route) { w with files := t₂ } :=
    ⟨rfl, rfl, fun _ ↦ hopens.becomes.mono fun _ ↦ .inl⟩
  refine (ends_pollUntil l route deadline polls _).mono ?_ fun _ _ _ ↦ trivial
  rintro _ w₁ ⟨hheld, hchanges⟩
  refine Act.ends_log fun w₂ hstill ↦ ⟨route, hopens.traced, ?_, ?_⟩
  · rw [hstill.undisturbed.locks]
    exact hheld
  · exact (hopened.trans hchanges).trans (hstill.undisturbed.mono fun _ ↦ False.elim).changes

/-- Giving up a lock that is held empties its file. -/
theorem ends_release (l : RunLock) (hheld : heldFile l.owner w.locks = some route) :
    Ends l.release w
      (fun _ w' ↦ heldFile l.owner w'.locks = none ∧ w.Changes (· = route) w')
      fun _ _ ↦ False := by
  unfold release
  refine ends_bind.mpr (ends_get.mpr ?_)
  rw [hheld]
  refine ((ends_overwrite route "" w).mono (fun _ _ h ↦ h) fun _ _ h ↦ h).bind ?_
  rintro _ w₁ ⟨hlocks, htouches⟩
  refine ends_bind.mpr (ends_modify.mpr (Act.ends_log fun w₂ hstill ↦ ⟨?_, ?_⟩))
  · rw [hstill.undisturbed.locks]
    exact heldFile_released _ _
  · have hdropped : w.Changes (· = route)
        { w₁ with locks := w₁.locks.filter fun h ↦ h.2 != l.owner } :=
      ⟨htouches.log, rfl, htouches.files⟩
    exact hdropped.trans (hstill.undisturbed.mono fun _ ↦ False.elim).changes

/-- Giving up a lock does not fail, held or not. -/
theorem ends_release_ok (l : RunLock) (w : World) :
    Ends l.release w (fun _ _ ↦ True) fun _ _ ↦ False := by
  cases hheld : heldFile l.owner w.locks with
  | some route => exact (ends_release l hheld).mono (fun _ _ _ ↦ trivial) fun _ _ h ↦ h
  | none =>
    unfold release
    refine ends_bind.mpr (ends_get.mpr ?_)
    rw [hheld]
    exact ends_pure.mpr trivial

end RunLock

end Remedy
