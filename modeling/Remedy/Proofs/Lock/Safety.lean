import Remedy.Proofs.Lock.Protocol

/-!
# Safety of the lock

Taking a lock and giving it up are rows of the steps of `Parties.Step`: an activity that takes the
lock comes to hold it (`Ordered.ends_acquire`), or fails and leaves the locks and the file as they
were (`Parties.Fruitless`), and one that holds the lock gives it up (`Ordered.release_of_held`). So
whatever activities do, their standing remains one that can come about, and
`Parties.safe_of_steps` says what is true in all of these.
-/

set_option autoImplicit false

namespace Remedy

open FileTree

namespace Parties

variable {p : Parties} {route : Route} {s s' : Standing} {a : ℕ} {w : World} {e : Fault}

/-- An activity has failed to take the lock: it is where it was before, the locks and the file are
as they were, and if somebody else is said to hold the lock, then in the words of the file. -/
structure Fruitless (p : Parties) (route : Route) (s : Standing) (a : ℕ) (e : Fault) (w : World) :
    Prop where
  steps : p.Steps route s (s.put a .idle w)
  apart : s.world.Apart route w
  names : ∀ path text, e = .locked path text →
    path = (p.lock a).path.text ∧ s.world.Names route text

theorem steps_of_apart (hlog : s.world.logFile ≠ some route) (h : s.world.Apart route w) :
    p.Steps route s ⟨w, s.stage⟩ :=
  .single (.others h.locks (h.bytes hlog))

/-- What fails after steps that left the locks and the file alone has failed from the beginning. -/
theorem Fruitless.of_steps (h : p.Fruitless route s' a e w)
    (hlog : s.world.logFile ≠ some route) (hsteps : p.Steps route s s')
    (hput : s'.put a .idle w = s.put a .idle w) (hapart : s.world.Apart route s'.world) :
    p.Fruitless route s a e w := by
  refine ⟨hsteps.trans (hput ▸ h.steps), hapart.trans h.apart, fun path text he ↦ ?_⟩
  obtain ⟨hpath, hnames⟩ := h.names path text he
  exact ⟨hpath, (hapart.names_iff hlog).mp hnames⟩

/-- Who has not opened the file yet may fail for other reasons. -/
theorem fruitless_of_idle (hstage : s.stage a = .idle) (hlog : s.world.logFile ≠ some route)
    (hapart : s.world.Apart route w) (he : ∀ path text, e ≠ .locked path text) :
    p.Fruitless route s a e w := by
  refine ⟨?_, hapart, fun path text heq ↦ absurd heq (he path text)⟩
  rw [Standing.put_eq_of_stage hstage]
  exact steps_of_apart hlog hapart

namespace Ordered

/-! ### Asking for the lock -/

theorem drop_of_not_locks (h : p.Ordered route s) (ha : ¬ (s.stage a).Locks)
    (hlocks : w.locks = s.world.locks) : (p.lock a).drop w = (.ok (), w) := by
  rw [RunLock.drop_eq, p.owner, hlocks, h.owned.filter_eq_self ha, ← hlocks]

/-- Whoever waits may give up at any time. -/
theorem steps_idle (h : p.Ordered route s) (hstage : s.stage a = .waiting)
    (hlog : s.world.logFile ≠ some route) (hapart : s.world.Apart route w) :
    p.Steps route s (s.put a .idle w) := by
  refine (steps_of_apart hlog hapart).tail (.givesUp (.inl hstage) (w := w) ?_)
  exact h.drop_of_not_locks (by simp [hstage, Stage.Locks]) hapart.locks

/-- Who has asked in vain may give up, and the fault tells what the file holds. -/
theorem fruitless_of_denied (h : p.Ordered route s) (hstage : s.stage a = .waiting)
    (hlog : s.world.logFile ≠ some route)
    (hdenied : (p.lock a).Denied route (World.Apart route) s.world e w) :
    p.Fruitless route s a e w := by
  refine ⟨h.steps_idle hstage hlog hdenied.rel, hdenied.rel, fun path text he ↦ ?_⟩
  obtain ⟨hpath, w₁, hapart, hnames⟩ := hdenied.names path text he
  exact ⟨hpath, (hapart.names_iff hlog).mp hnames⟩

theorem ends_refuse (h : p.Ordered route s) (hstage : s.stage a = .waiting)
    (hlog : s.world.logFile ≠ some route) :
    Ends ((p.lock a).refuse route) s.world (fun _ _ ↦ False) fun e w ↦
      p.Fruitless route s a e w ∧
        ((∃ path text, e = .locked path text) ∨ ∃ cause, e = .undecodable cause) :=
  ((RunLock.ends_refuse_denied (isFrame_apart route).toIsPassing _ _ _).and
    (RunLock.raises_refuse (p.lock a) route s.world)).mono (fun _ _ hnever ↦ hnever.1)
    fun _ _ hdenied ↦ ⟨h.fruitless_of_denied hstage hlog hdenied.1, hdenied.2⟩

/-- If nobody has the lock, then asking for it once is enough. -/
theorem poll_of_free (h : p.Ordered route s) (hstage : s.stage a = .waiting)
    (hprocess : s.world.process = p.process a) (hfree : holderOf route s.world.locks = none) :
    ∃ w, (p.lock a).poll route s.world = (.ok true, w) ∧ p.Steps route s (s.put a .held w) ∧
      w.logFile = s.world.logFile := by
  have hfile : s.world.files.bytes? route ≠ none := by
    simpa [hstage, Stage.Expects] using h.expects a
  obtain ⟨w₁, w₂, w₃, hpoll, htake, hprocess₁, hempty, hprocess₂, hsign⟩ :=
    RunLock.poll_of_free (p.lock a) hfree hfile
  have hchanges := (ends_of_eq hpoll).mp (RunLock.ends_poll (p.lock a) route s.world)
  have htaken : p.Step route s (s.put a .taken w₁) := by
    refine .moves hprocess ?_
    rw [hstage]
    exact htake
  have hemptied : p.Step route (s.put a .taken w₁) (s.put a .emptied w₂) := by
    have hmoves := Step.moves (p := p) (s := s.put a .taken w₁) (a := a) (hprocess₁.trans hprocess)
      (by simpa using hempty)
    simpa using hmoves
  have hheld : p.Step route (s.put a .emptied w₂) (s.put a .held w₃) := by
    have hmoves := Step.moves (p := p) (s := s.put a .emptied w₂) (a := a)
      (hprocess₂.trans hprocess) (by simpa using hsign)
    simpa using hmoves
  exact ⟨w₃, hpoll, ((Relation.ReflTransGen.single htaken).tail hemptied).tail hheld,
    hchanges.2.log⟩

/-! ### Taking the lock and giving it up -/

theorem holderOf_eq_none_iff (h : p.Ordered route s) :
    holderOf route s.world.locks = none ↔ ∀ a, ¬ (s.stage a).Locks := by
  simp [h.owned.holderOf_eq_none_iff]

theorem isHeld_iff (h : p.Ordered route s) :
    (p.lock a).isHeld s.world = true ↔ (s.stage a).Locks := by
  unfold RunLock.isHeld
  rw [p.owner]
  by_cases ha : (s.stage a).Locks
  · simp [h.owned.heldFile_of_locks ha, ha]
  · simp [h.owned.heldFile_of_not_locks ha, ha]

/-- Once the file is open, the lock is taken if nobody has it, and otherwise it is not. -/
theorem ends_pollUntil (h : p.Ordered route s) (hstage : s.stage a = .waiting)
    (hprocess : s.world.process = p.process a) (hlog : s.world.logFile ≠ some route)
    (deadline : Moment) (polls : ℕ) :
    Ends ((p.lock a).pollUntil route deadline polls) s.world
      (fun _ w ↦ (∀ b, ¬ (s.stage b).Locks) ∧ p.Steps route s (s.put a .held w) ∧
        w.logFile = s.world.logFile)
      fun e w ↦ (∃ b, (s.stage b).Locks) ∧ p.Fruitless route s a e w := by
  cases hfree : holderOf route s.world.locks with
  | none =>
    obtain ⟨w, hpoll, hsteps⟩ := h.poll_of_free hstage hprocess hfree
    have hnobody := h.holderOf_eq_none_iff.mp hfree
    exact RunLock.ends_pollUntil_of_taken hpoll ⟨hnobody, hsteps⟩ deadline polls
  | some holder =>
    have hsomebody : ∃ b, (s.stage b).Locks := by
      by_contra hnobody
      rw [h.holderOf_eq_none_iff.mpr (not_exists.mp hnobody)] at hfree
      cases hfree
    refine (RunLock.ends_pollUntil_of_busy (isFrame_apart route).toIsPassing _ (fun _ _ h ↦ h.locks)
      (by simp [hfree]) deadline polls).mono ?_ ?_
    · exact fun _ _ hnever ↦ hnever.elim
    · exact fun _ _ hdenied ↦ ⟨hsomebody, h.fruitless_of_denied hstage hlog hdenied⟩

/-- An activity that takes the lock comes to hold it if nobody has it, and fails otherwise; it fails
as well if the file cannot be opened or no clock can take the timeout. -/
theorem ends_acquire (h : p.Ordered route s) (hstage : s.stage a = .idle)
    (hprocess : s.world.process = p.process a) (hlog : s.world.logFile ≠ some route)
    (hsound : s.world.files.Sound) (htraced : s.world.files.traced (p.lock a).path = .done route)
    (timeout : Option Number) :
    Ends ((p.lock a).acquire timeout) s.world
      (fun _ w ↦ (∀ b, ¬ (s.stage b).Locks) ∧ p.Steps route s (s.put a .held w))
      (p.Fruitless route s a) := by
  have hgrown : ∀ t, FileAct.Grows s.world.files t →
      s.world.Apart route { s.world with files := t } :=
    fun t hgrows ↦ ⟨rfl, rfl, rfl, fun _ ↦ hgrows.alters.bytes route id⟩
  have hfree : (p.lock a).isHeld s.world = false := by
    rw [Bool.eq_false_iff, ne_eq, h.isHeld_iff]
    simp [hstage, Stage.Locks]
  refine RunLock.ends_acquire_of_opens hsound (p.absolute a) hfree
    (fun e t he hgrows ↦ fruitless_of_idle hstage hlog (hgrown t hgrows) he) ?_
  intro route' t₁ t₂ hopens deadline polls
  obtain rfl : route = route' := Resolved.done.inj (htraced.symm.trans hopens.traced)
  have hsteps : p.Steps route s (s.put a .waiting { s.world with files := t₂ }) := by
    refine (steps_of_apart hlog (hgrown t₁ hopens.grows)).tail ?_
    exact .opens (s := ⟨{ s.world with files := t₁ }, s.stage⟩) hstage hopens.grows.sound
      hopens.opened
  have hiff : ∀ b, ((s.put a .waiting { s.world with files := t₂ }).stage b).Locks ↔
      (s.stage b).Locks :=
    fun _ ↦ Standing.locks_put (by simp [hstage, Stage.Locks])
  refine ((h.steps hsteps).ends_pollUntil (a := a) (by simp) hprocess hlog deadline polls).mono
    ?_ ?_
  · rintro _ w ⟨hnobody, hheld, hlogFile⟩
    refine (isFrame_apart route).ends_log fun w' hapart ↦ ?_
    refine ⟨fun b hb ↦ hnobody b ((hiff b).mpr hb), ?_⟩
    simp only [Standing.put_put] at hheld
    exact (hsteps.trans hheld).trans
      (steps_of_apart (s := s.put a .held w) (hlogFile ▸ hlog) hapart)
  · rintro e w ⟨⟨b, hb⟩, hfruitless⟩
    -- Somebody has the lock, so the file was there and has been left as it was.
    have hthere := (h.expects b).there ((hiff b).mp hb)
    have hunchanged : s.world.Apart route { s.world with files := t₂ } := by
      refine ⟨rfl, rfl, rfl, fun _ ↦ ?_⟩
      obtain ⟨content, hcontent⟩ := Option.ne_none_iff_exists'.mp hthere
      rw [hopens.bytes, hcontent]
      rfl
    exact hfruitless.of_steps hlog hsteps (by simp) hunchanged

/-- An activity that gives the lock up leaves the file empty and the lock to everybody. -/
theorem release_of_held (h : p.Ordered route s) (hstage : s.stage a = .held)
    (hprocess : s.world.process = p.process a) (hlog : s.world.logFile ≠ some route) :
    ∃ w, (p.lock a).release s.world = (.ok (), w) ∧ p.Steps route s (s.put a .idle w) ∧
      w.files.bytes? route = some [] := by
  have hlocks : (s.stage a).Locks := .inr (.inr (.inl hstage))
  have hfile : RunLock.heldFile (p.lock a).owner s.world.locks = some route := by
    rw [p.owner]
    exact h.owned.heldFile_of_locks hlocks
  obtain ⟨w₁, w₂, w₃, hrelease, hclear, hprocess₁, hdrop, hrecord⟩ :=
    RunLock.release_of_held (p.lock a) hfile
  have hcleared : p.Step route s (s.put a .cleared w₁) := by
    refine .moves hprocess ?_
    rw [hstage]
    exact hclear
  have hdropped : p.Step route (s.put a .cleared w₁) (s.put a .idle w₂) := by
    have hmoves := Step.moves (p := p) (s := s.put a .cleared w₁) (a := a)
      (hprocess₁.trans hprocess) (by simpa using hdrop)
    simpa using hmoves
  rw [RunLock.move_held] at hclear
  cases hclear
  rw [RunLock.move_cleared, p.owner] at hdrop
  cases hdrop
  have hapart : World.Apart route _ w₃ :=
    (ends_of_eq hrecord).mp ((isFrame_apart route).keeps_log _ _ _ _)
  refine ⟨w₃, hrelease, ?_, ?_⟩
  · exact ((Relation.ReflTransGen.single hcleared).tail hdropped).trans
      (steps_of_apart (s := s.put a .idle _) hlog hapart)
  · rw [hapart.bytes hlog]
    exact bytes?_filled ((h.expects a).there hlocks) []

/-- Once the one who has the lock no longer has it, nobody has. -/
theorem free_of_step (h : p.Ordered route s) (ha : (s.stage a).Locks) (hstep : p.Step route s s')
    (ha' : ¬ (s'.stage a).Locks) (b : ℕ) : ¬ (s'.stage b).Locks := by
  obtain ⟨c, hothers⟩ := hstep.stage_eq
  obtain rfl : a = c := by
    by_contra hne
    rw [hothers a hne] at ha'
    exact ha' ha
  by_cases hb : b = a
  · rw [hb]
    exact ha'
  · rw [hothers b hb]
    exact fun hlocks ↦ hb (h.owned.eq_of_locks hlocks ha rfl)

end Ordered

/-! ### Safety -/

/-- What is true of the lock whenever nobody interferes with its file. -/
structure Safe (p : Parties) (route : Route) (s : Standing) : Prop where
  /-- The lock is granted to one activity at most. -/
  exclusive : ∀ a b, (s.stage a).Locks → (s.stage b).Locks → a = b
  isHeld_iff : ∀ a, (p.lock a).isHeld s.world = true ↔ (s.stage a).Locks
  /-- While the lock is held, the file names the holder. -/
  holder : ∀ a, s.stage a = .held → s.world.files.bytes? route = some (p.line a)
  /-- While somebody has the lock, asking for it changes nothing. -/
  busy : ∀ a b, (s.stage a).Locks → (p.lock b).poll route s.world = (.ok false, s.world)
  /-- As long as nobody has it, whoever asks for it is granted the lock. -/
  free : (∀ a, ¬ (s.stage a).Locks) → ∀ b, ∃ w,
    (p.lock b).poll route s.world = (.ok true, w) ∧ (p.lock b).isHeld w = true
  /-- So it is from the moment on at which the one who had the lock has it no longer. -/
  frees : ∀ a s', (s.stage a).Locks → p.Step route s s' → ¬ (s'.stage a).Locks → ∀ b, ∃ w,
    (p.lock b).poll route s'.world = (.ok true, w) ∧ (p.lock b).isHeld w = true
  /-- Who has waited in vain reports what the file holds at this moment, if that is a text. -/
  refuses : s.world.logFile ≠ some route → ∀ a, s.stage a = .waiting →
    Ends ((p.lock a).refuse route) s.world (fun _ _ ↦ False) fun e w ↦
      p.Fruitless route s a e w ∧
        ((∃ path text, e = .locked path text) ∨ ∃ cause, e = .undecodable cause)
  /-- Taking the lock is a row of steps, whether it succeeds or not. -/
  acquires : s.world.logFile ≠ some route → ∀ a timeout, s.stage a = .idle →
    s.world.process = p.process a → s.world.files.Sound →
    s.world.files.traced (p.lock a).path = .done route →
    Ends ((p.lock a).acquire timeout) s.world
      (fun _ w ↦ (∀ b, ¬ (s.stage b).Locks) ∧ p.Steps route s (s.put a .held w))
      (p.Fruitless route s a)
  /-- Giving the lock up is one that leaves the file empty. -/
  releases : s.world.logFile ≠ some route → ∀ a, s.stage a = .held →
    s.world.process = p.process a →
    ∃ w, (p.lock a).release s.world = (.ok (), w) ∧ p.Steps route s (s.put a .idle w) ∧
      w.files.bytes? route = some []
  acquire_held : ∀ a timeout, (s.stage a).Locks →
    (p.lock a).acquire timeout s.world = (.ok (), s.world)
  release_free : ∀ a, ¬ (s.stage a).Locks → (p.lock a).release s.world = (.ok (), s.world)

/-- Whatever activities do with a lock, in any order, and whenever one of them gives up or comes to
a sudden end: the lock is safe. -/
theorem safe_of_steps {s₀ : Standing} (hlocks : s₀.world.locks = [])
    (hidle : ∀ a, s₀.stage a = .idle) (hsteps : p.Steps route s₀ s) : p.Safe route s := by
  have hordered : p.Ordered route s := (Ordered.of_idle hlocks hidle).steps hsteps
  have hfree : ∀ {s'}, p.Ordered route s' → (∀ a, ¬ (s'.stage a).Locks) → ∀ b, ∃ w,
      (p.lock b).poll route s'.world = (.ok true, w) ∧ (p.lock b).isHeld w = true := by
    intro s' hordered' hnobody b
    have hnone := hordered'.holderOf_eq_none_iff.mpr hnobody
    exact ⟨_, RunLock.poll_eq_of_free (p.lock b) hnone, by simp [RunLock.isHeld, RunLock.heldFile]⟩
  constructor
  case exclusive =>
    intro a b ha hb
    exact hordered.owned.eq_of_locks ha hb rfl
  case isHeld_iff => exact fun a ↦ hordered.isHeld_iff
  case holder =>
    intro a ha
    simpa [ha, Stage.Expects] using hordered.expects a
  case busy =>
    intro a b ha
    refine RunLock.poll_of_busy (p.lock b) (Option.ne_none_iff_isSome.mp fun hnone ↦ ?_)
    exact hordered.holderOf_eq_none_iff.mp hnone a ha
  case free => exact hfree hordered
  case frees =>
    intro a s' ha hstep ha'
    exact hfree (hordered.step hstep) (hordered.free_of_step ha hstep ha')
  case refuses => exact fun hlog a hstage ↦ hordered.ends_refuse hstage hlog
  case acquires =>
    intro hlog a timeout hstage hprocess hsound htraced
    exact hordered.ends_acquire hstage hprocess hlog hsound htraced timeout
  case releases =>
    intro hlog a hstage hprocess
    exact hordered.release_of_held hstage hprocess hlog
  case acquire_held =>
    intro a timeout ha
    refine run_of_ends (ends_bind.mpr (ends_get.mpr ?_))
    rw [if_pos (hordered.isHeld_iff.mpr ha)]
    exact ends_pure.mpr ⟨rfl, rfl⟩
  case release_free =>
    intro a ha
    have hnone : RunLock.heldFile (p.lock a).owner s.world.locks = none := by
      simpa [RunLock.isHeld] using mt hordered.isHeld_iff.mp ha
    refine run_of_ends (ends_bind.mpr (ends_get.mpr ?_))
    rw [hnone]
    exact ends_pure.mpr ⟨rfl, rfl⟩

/-- Two activities, among others, that share a project. -/
def sharing : Parties where
  lock a := { RunLock.ofProject (Route.path ["p"]) defaultBackupDirectory with
    runId := if a = 0 then "first" else "second"
    owner := a }
  process _ := 1
  owner _ := rfl
  absolute _ := rfl

/-- A project in which a sudden end has left the file of the lock behind. -/
def deserted : Standing where
  world := { (default : World) with
    files := ⟨[(["p"], .directory 0), (["p", defaultBackupDirectory], .directory 0),
      (["p", defaultBackupDirectory, lockName], .file (Text.encode "pid=7 run_id=gone\n") 420)],
      0, []⟩ }
  stage _ := .idle

/-- The first activity takes the lock that has been left behind, and the second one is refused. -/
theorem safe_of_steps_sharing :
    ∃ w, (sharing.lock 0).acquire none deserted.world = (.ok (), w) ∧
      sharing.Safe ["p", defaultBackupDirectory, lockName] (deserted.put 0 .held w) ∧
      w.files.bytes? ["p", defaultBackupDirectory, lockName] =
        some (Text.encode "pid=1 run_id=first\n") ∧
      ((sharing.lock 1).acquire none w).1.mapError Fault.message =
        .error "Another run holds /p/.error-fix-backups/.run.lock (pid=1 run_id=first)" := by
  have hbegun : sharing.Safe ["p", defaultBackupDirectory, lockName] deserted :=
    safe_of_steps rfl (fun _ ↦ rfl) .refl
  have hsound : deserted.world.files.Sound := sound_of_entries (by decide) (by decide)
  have hacquires := hbegun.acquires (by decide) 0 none rfl rfl hsound (by decide +kernel)
  have heval : ((sharing.lock 0).acquire none deserted.world).1.toOption = some () ∧
      ((sharing.lock 1).acquire none ((sharing.lock 0).acquire none deserted.world).2).1.mapError
        Fault.message =
        .error "Another run holds /p/.error-fix-backups/.run.lock (pid=1 run_id=first)" := by
    decide +kernel
  rcases htaken : (sharing.lock 0).acquire none deserted.world with ⟨e | ⟨⟩, w⟩
  · rw [htaken] at heval
    cases heval.1
  rw [htaken] at heval
  have hsafe : sharing.Safe ["p", defaultBackupDirectory, lockName] (deserted.put 0 .held w) :=
    safe_of_steps rfl (fun _ ↦ rfl) ((ends_of_eq htaken).mp hacquires).2
  exact ⟨w, rfl, hsafe, hsafe.holder 0 (by simp), heval.2⟩

end Parties

end Remedy
