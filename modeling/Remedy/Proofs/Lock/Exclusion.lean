import Remedy.Proofs.Lock.Protocol

/-!
# Locks on several files

What `Parties.Step` is for locks on one file, `Parties.Turn` is for locks whose paths lead wherever
they lead: each activity has the lock on the file that it has opened. As long as nobody replaces
what lies on the way to a lock, activities keep to the files to which their paths lead
(`Parties.Coherent`), so that two of them never have their locks at once if the paths lead to one
file (`Coherent.eq_of_locks`).
-/

set_option autoImplicit false

namespace Remedy

open FileTree

/-- A standing together with the file that each activity has opened. -/
structure Traffic extends Standing where
  file : ℕ → Route

namespace Parties

/-- One thing that happens. What activities do to the project while they have a lock is of the last
kind, as is everything that goes on besides: no lock is taken or dropped, and the paths of the locks
lead where they led before. -/
inductive Turn (p : Parties) (t : Traffic) : Traffic → Prop
  | opens {a : ℕ} {route : Route} {files : FileTree} (hstage : t.stage a = .idle)
      (hopen : FileAct.openEnd (p.lock a).path t.world.files = (.ok route, files)) :
      Turn p t
        ⟨t.put a .waiting { t.world with files := files }, Function.update t.file a route⟩
  | moves {a : ℕ} {stage : Stage} {w : World}
      (hmove : (p.lock a).move (t.file a) (t.stage a) t.world = (.ok stage, w)) :
      Turn p t ⟨t.put a stage w, t.file⟩
  | givesUp {a : ℕ} {w : World}
      (hstage : t.stage a = .waiting ∨ t.stage a = .taken ∨ t.stage a = .emptied)
      (hdrop : (p.lock a).drop t.world = (.ok (), w)) : Turn p t ⟨t.put a .idle w, t.file⟩
  | crashes {a : ℕ} {w : World} (hdrop : (p.lock a).drop t.world = (.ok (), w)) :
      Turn p t ⟨t.put a .gone w, t.file⟩
  | works {w : World} (hlocks : w.locks = t.world.locks) (hsound : w.files.Sound)
      (hways : ∀ a, w.files.traced (p.lock a).path = t.world.files.traced (p.lock a).path) :
      Turn p t ⟨⟨w, t.stage⟩, t.file⟩

/-- Things that happen one after the other. -/
abbrev Turns (p : Parties) : Traffic → Traffic → Prop :=
  Relation.ReflTransGen p.Turn

end Parties

/-- The file of the lock is open. -/
def Stage.Opened (stage : Stage) : Prop :=
  stage ≠ .idle ∧ stage ≠ .gone

theorem Stage.Locks.opened {stage : Stage} (h : stage.Locks) : stage.Opened := by
  cases stage <;> simp_all [Locks, Opened]

namespace RunLock

theorem opened_of_move {l : RunLock} {route : Route} {w w' : World} {stage stage' : Stage}
    (h : l.move route stage w = (.ok stage', w')) (hopened : stage'.Opened) : stage.Opened := by
  cases stage with
  | idle | gone =>
    cases h
    exact hopened
  | _ => simp [Stage.Opened]

end RunLock

namespace Parties

variable {p : Parties} {ways : ℕ → Resolved} {t t' : Traffic} {a b : ℕ} {stage : Stage} {w : World}

/-- Each activity that has been granted its lock holds the lock on the file that it has opened,
which is the one that its path leads to. -/
structure Coherent (p : Parties) (ways : ℕ → Resolved) (t : Traffic) : Prop where
  sound : t.world.files.Sound
  traced : ∀ a, t.world.files.traced (p.lock a).path = ways a
  leads : ∀ a, (t.stage a).Opened → ways a = .done (t.file a)
  owned : Owned t.file t.stage t.world.locks

namespace Coherent

theorem traced_of_links (h : p.Coherent ways t)
    (hlinks : ∀ r, w.files.link? r = t.world.files.link? r) (a : ℕ) :
    w.files.traced (p.lock a).path = ways a :=
  (traced_congr hlinks (p.absolute a)).trans (h.traced a)

/-- What one activity does with the file that it has opened leaves all in order. -/
theorem put (h : p.Coherent ways t) (hsound : w.files.Sound)
    (hlinks : ∀ r, w.files.link? r = t.world.files.link? r)
    (hopened : stage.Opened → (t.stage a).Opened)
    (howned : Owned t.file (Function.update t.stage a stage) w.locks) :
    p.Coherent ways ⟨t.put a stage w, t.file⟩ := by
  refine ⟨hsound, h.traced_of_links hlinks, fun b hb ↦ h.leads b ?_, howned⟩
  by_cases hba : b = a
  · subst hba
    exact hopened (by simpa using hb)
  · simpa [hba] using hb

theorem opens (h : p.Coherent ways t) {route : Route} {files : FileTree}
    (hstage : t.stage a = .idle)
    (hopen : FileAct.openEnd (p.lock a).path t.world.files = (.ok route, files)) :
    p.Coherent ways
      ⟨t.put a .waiting { t.world with files := files }, Function.update t.file a route⟩ := by
  obtain ⟨htraced, hedits, -⟩ :=
    (ends_of_eq hopen).mp (FileAct.ends_openEnd h.sound (p.absolute a))
  have hbecomes := hedits.toBecomes
  refine ⟨hbecomes.sound, h.traced_of_links hbecomes.alters.links, fun b hb ↦ ?_, ?_⟩
  · by_cases hba : b = a
    · subst hba
      simpa [← h.traced b] using htraced
    · simpa [hba] using h.leads b (by simpa [hba] using hb)
  · have hidle : Owned t.file (Function.update t.stage a .waiting) t.world.locks :=
      h.owned.update (by simp [hstage, Stage.Locks])
    refine ⟨fun r b ↦ ?_, h.owned.single⟩
    rw [Standing.put_world, hidle.mem_iff]
    by_cases hba : b = a
    · subst hba
      simp [Stage.Locks]
    · simp [hba, Standing.put]

theorem moves (h : p.Coherent ways t)
    (hmove : (p.lock a).move (t.file a) (t.stage a) t.world = (.ok stage, w)) :
    p.Coherent ways ⟨t.put a stage w, t.file⟩ := by
  have hchanges : t.world.Changes (· = t.file a) w :=
    (ends_of_eq hmove).mp (RunLock.keeps_move (p.lock a) (t.file a) (t.stage a) t.world)
  have hbecomes := hchanges.files h.sound
  refine h.put hbecomes.sound hbecomes.alters.links (RunLock.opened_of_move hmove) ?_
  rcases RunLock.locks_of_move hmove with ⟨hlocks, hiff⟩ | ⟨hfree, hlocks, hnot, hstage⟩ |
    ⟨hlocks, hstage⟩
  · rw [hlocks]
    exact h.owned.update hiff
  · rw [hlocks, p.owner]
    exact h.owned.take hfree hnot hstage
  · rw [hlocks, p.owner]
    exact h.owned.drop hstage

theorem drop (h : p.Coherent ways t) (hlocks : ¬ stage.Locks)
    (hopened : stage.Opened → (t.stage a).Opened)
    (hdrop : (p.lock a).drop t.world = (.ok (), w)) :
    p.Coherent ways ⟨t.put a stage w, t.file⟩ := by
  rw [RunLock.drop_eq, p.owner] at hdrop
  cases hdrop
  exact h.put h.sound (fun _ ↦ rfl) hopened (h.owned.drop hlocks)

theorem turn (h : p.Coherent ways t) (hturn : p.Turn t t') : p.Coherent ways t' := by
  cases hturn with
  | opens hstage hopen => exact h.opens hstage hopen
  | moves hmove => exact h.moves hmove
  | givesUp _ hdrop => exact h.drop (by simp [Stage.Locks]) (by simp [Stage.Opened]) hdrop
  | crashes hdrop => exact h.drop (by simp [Stage.Locks]) (by simp [Stage.Opened]) hdrop
  | works hlocks hsound hways =>
    refine ⟨hsound, fun a ↦ (hways a).trans (h.traced a), h.leads, ?_⟩
    rw [hlocks]
    exact h.owned

theorem turns (h : p.Coherent ways t) (hturns : p.Turns t t') : p.Coherent ways t' := by
  induction hturns with
  | refl => exact h
  | tail _ hturn ih => exact ih.turn hturn

/-- In the beginning nobody has a lock. -/
theorem of_idle (hsound : t.world.files.Sound) (hlocks : t.world.locks = [])
    (hidle : ∀ a, t.stage a = .idle) :
    p.Coherent (fun a ↦ t.world.files.traced (p.lock a).path) t := by
  refine ⟨hsound, fun _ ↦ rfl, fun a ha ↦ absurd (hidle a) ha.1, ⟨fun route a ↦ ?_, ?_⟩⟩
  · simp [hlocks, hidle a, Stage.Locks]
  · intro route a b ha
    simp [hlocks] at ha

/-- Two activities whose paths lead to one file never have their locks at once. -/
theorem eq_of_locks (h : p.Coherent ways t) (hways : ways a = ways b) (ha : (t.stage a).Locks)
    (hb : (t.stage b).Locks) : a = b := by
  have hfile : Resolved.done (t.file a) = .done (t.file b) := by
    rw [← h.leads a ha.opened, hways, h.leads b hb.opened]
  exact h.owned.eq_of_locks ha hb (Resolved.done.inj hfile)

end Coherent

/-- Whoever opens a file on which nobody has a lock gets in. -/
theorem turns_of_free {route : Route} (hstage : t.stage a = .idle)
    (hopen : FileAct.openEnd (p.lock a).path t.world.files = (.ok route, t.world.files))
    (hfile : t.world.files.bytes? route ≠ none) (hfree : holderOf route t.world.locks = none) :
    p.Turns t ⟨t.put a .held { t.world with
      locks := (route, a) :: t.world.locks
      files := t.world.files.filled route
        (Text.encode ((p.lock a).holderLine t.world.process)) },
      Function.update t.file a route⟩ := by
  obtain ⟨w₁, w₂, w₃, hpoll, htake, -, hempty, -, hsign⟩ :=
    RunLock.poll_of_free (p.lock a) hfree hfile
  rw [RunLock.poll_eq_of_free _ hfree, p.owner] at hpoll
  cases hpoll
  have hopened := Turn.opens (p := p) hstage hopen
  have hmoves : ∀ {stage stage' : Stage} {w w' : World},
      (p.lock a).move route stage w = (.ok stage', w') →
      p.Turn ⟨t.put a stage w, Function.update t.file a route⟩
        ⟨t.put a stage' w', Function.update t.file a route⟩ := by
    intro stage stage' w w' hmove
    have hturn : p.Turn ⟨t.put a stage w, Function.update t.file a route⟩
        ⟨(t.put a stage w).put a stage' w', Function.update t.file a route⟩ :=
      .moves (by simpa using hmove)
    simpa using hturn
  exact (((Relation.ReflTransGen.single hopened).tail (hmoves htake)).tail (hmoves hempty)).tail
    (hmoves hsign)

end Parties

end Remedy
