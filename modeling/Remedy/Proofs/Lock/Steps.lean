import Remedy.Proofs.Faults
import Remedy.Proofs.Locking

/-!
# The steps of taking and giving up a lock

An activity opens the file of the lock, asks for the lock until it is granted, empties the file and
writes its line; to give the lock up it empties the file and drops the lock. `RunLock.move` is one
such step. An attempt to take a lock that succeeds is a row of three steps (`RunLock.poll_of_free`),
and giving a lock up is a row of two (`RunLock.release_of_held`). An activity that asks for a lock
while another one has it is denied it in the end (`RunLock.ends_pollUntil_of_busy`).
-/

set_option autoImplicit false

namespace Remedy

open FileTree

/-! ### Files that are written over -/

section Files

variable {t : FileTree} {r route : Route}

theorem FileTree.store_store (r : Route) (node node' : Node) (entries : List (Route × Node)) :
    store r node' (store r node entries) = store r node' entries := by
  induction entries with
  | nil => simp [store]
  | cons entry rest ih =>
    obtain ⟨r', n⟩ := entry
    by_cases h : r' = r
    · simp [store, h]
    · simp [store, h, ih]

theorem FileTree.set_set (t : FileTree) (r : Route) (node node' : Node) :
    (t.set r node).set r node' = t.set r node' := by
  simp only [set, store_store]

theorem FileTree.bytes?_set_of_ne (h : route ≠ r) (node : Node) :
    (t.set r node).bytes? route = t.bytes? route := by
  rw [bytes?, bytes?, look_set, if_neg h]

/-- The tree in which a file holds something else, if it is one. -/
def FileTree.filled (t : FileTree) (r : Route) (content : Text.Bytes) : FileTree :=
  match t.node? r with
  | some (.file _ mode) => t.set r (.file content mode)
  | _ => t

theorem FileTree.bytes?_filled (h : t.bytes? r ≠ none) (content : Text.Bytes) :
    (t.filled r content).bytes? r = some content := by
  obtain ⟨old, hold⟩ := Option.ne_none_iff_exists'.mp h
  obtain ⟨mode, hlook⟩ := look_of_bytes? hold
  unfold filled
  rw [node?_of_look hlook fun _ h ↦ by cases h]
  exact bytes?_of_look (by rw [look_set, if_pos rfl]; rfl)

theorem FileTree.filled_filled (t : FileTree) (r : Route) (content content' : Text.Bytes) :
    (t.filled r content).filled r content' = t.filled r content' := by
  cases hnode : t.node? r with
  | none => simp [filled, hnode]
  | some node => cases node <;> simp [filled, hnode, node?_set, set_set]

/-- What is appended to an empty file is all that it holds. -/
theorem FileAct.append_of_empty (h : t.bytes? r = some []) (content : Text.Bytes) :
    append r content t = (.ok (), t.filled r content) := by
  obtain ⟨mode, hlook⟩ := look_of_bytes? h
  have hnode := node?_of_look hlook fun _ h ↦ by cases h
  refine run_of_ends (ends_modify.mpr ⟨?_, rfl⟩)
  simp [filled, hnode]

/-- What is appended to another file changes nothing. -/
theorem FileAct.bytes?_append_of_ne (h : route ≠ r) (content : Text.Bytes) (t : FileTree) :
    (append r content t).2.bytes? route = t.bytes? route := by
  have hends : Ends (append r content) t (fun _ t' ↦ t'.bytes? route = t.bytes? route)
      fun _ t' ↦ t'.bytes? route = t.bytes? route := by
    refine ends_modify.mpr ?_
    split
    · exact bytes?_set_of_ne h _
    · rfl
  exact hends.state

end Files

/-! ### What does not concern a lock -/

/-- Neither the locks nor what the file of a lock holds have changed, unless it is the log. -/
structure World.Apart (route : Route) (w w' : World) : Prop where
  locks : w'.locks = w.locks
  process : w'.process = w.process
  log : w'.logFile = w.logFile
  bytes : w.logFile ≠ some route → w'.files.bytes? route = w.files.bytes? route

theorem World.Apart.trans {route : Route} {w w' w'' : World} (h : w.Apart route w')
    (h' : w'.Apart route w'') : w.Apart route w'' where
  locks := h'.locks.trans h.locks
  process := h'.process.trans h.process
  log := h'.log.trans h.log
  bytes hlog := (h'.bytes (h.log ▸ hlog)).trans (h.bytes hlog)

theorem isFrame_apart (route : Route) : Act.IsFrame (World.Apart route) where
  refl _ := ⟨rfl, rfl, rfl, fun _ ↦ rfl⟩
  trans _ _ _ := .trans
  aside _ _ _ _ _ _ := ⟨rfl, rfl, rfl, fun _ ↦ rfl⟩
  record event w := by
    refine ends_modify.mpr ⟨rfl, rfl, rfl, fun hlog ↦ ?_⟩
    dsimp only
    split
    · rename_i r hr _
      refine FileAct.bytes?_append_of_ne ?_ _ _
      rintro rfl
      exact hlog hr
    · rfl
  count _ amount labels _ :=
    Act.keeps_count_of (fun _ _ ↦ ⟨rfl, rfl, rfl, fun _ ↦ rfl⟩) amount labels

/-- The text that the file of a lock holds, without the white space at its ends. A file that is
not there holds none. -/
def World.Names (route : Route) (text : String) (w : World) : Prop :=
  match w.files.bytes? route with
  | some content => ∃ decoded, Text.decodeStrict content = .ok decoded ∧
      text = String.ofList (Text.strip (Text.lineFeeds decoded.toList))
  | none => text = ""

theorem World.Apart.names_iff {route : Route} {w w' : World} {text : String} (h : w.Apart route w')
    (hlog : w.logFile ≠ some route) : w'.Names route text ↔ w.Names route text := by
  unfold World.Names
  rw [h.bytes hlog]

/-! ### Steps -/

/-- How far an activity has got with a lock. -/
inductive Stage where
  /-- The file of the lock is not open. -/
  | idle
  /-- The file is open and the lock is asked for. -/
  | waiting
  /-- The lock is granted, and the file holds what it held before. -/
  | taken
  | emptied
  /-- The file names the holder. -/
  | held
  /-- The file is empty again, and the lock is not yet dropped. -/
  | cleared
  /-- The activity has come to a sudden end. -/
  | gone
  deriving DecidableEq

/-- The lock is granted. -/
def Stage.Locks (stage : Stage) : Prop :=
  stage = .taken ∨ stage = .emptied ∨ stage = .held ∨ stage = .cleared

namespace RunLock

/-- Asks for the lock on a file, which is granted if nobody holds it. -/
def ask (l : RunLock) (route : Route) : Act Bool := do
  let w ← get
  if (holderOf route w.locks).isSome then return false
  set { w with locks := (route, l.owner) :: w.locks }
  return true

/-- Adds the line of the holder to the file. -/
def sign (l : RunLock) (route : Route) : Act Unit := do
  let w ← get
  Act.onFiles (FileAct.append route (Text.encode (l.holderLine w.process)))

/-- Drops the lock, if it is held. -/
def drop (l : RunLock) : Act Unit :=
  modify fun w => { w with locks := w.locks.filter fun h => h.2 != l.owner }

/-- One step of an activity that takes a lock and gives it up again. -/
def move (l : RunLock) (route : Route) : Stage → Act Stage
  | .waiting => do if ← l.ask route then return .taken else return .waiting
  | .taken => do
    overwrite route ""
    return .emptied
  | .emptied => do
    l.sign route
    return .held
  | .held => do
    overwrite route ""
    return .cleared
  | .cleared => do
    l.drop
    return .idle
  | stage => return stage

variable {l : RunLock} {route : Route} {w w' : World}

theorem move_waiting_of_busy (h : (holderOf route w.locks).isSome = true) :
    l.move route .waiting w = (.ok .waiting, w) := by
  refine run_of_ends (ends_bind.mpr ?_)
  unfold ask
  refine ends_bind.mpr (ends_get.mpr ?_)
  rw [if_pos h]
  exact ends_pure.mpr (ends_pure.mpr ⟨rfl, rfl⟩)

theorem move_waiting_of_free (h : holderOf route w.locks = none) :
    l.move route .waiting w = (.ok .taken, { w with locks := (route, l.owner) :: w.locks }) := by
  refine run_of_ends (ends_bind.mpr ?_)
  unfold ask
  refine ends_bind.mpr (ends_get.mpr ?_)
  rw [if_neg (by simp [h])]
  exact ends_bind.mpr (ends_set.mpr (ends_pure.mpr (ends_pure.mpr ⟨rfl, rfl⟩)))

theorem overwrite_eq (route : Route) (text : String) (w : World) :
    overwrite route text w =
      (.ok (), { w with files := w.files.filled route (Text.encode text) }) :=
  rfl

theorem move_taken (l : RunLock) (route : Route) (w : World) :
    l.move route .taken w = (.ok .emptied, { w with files := w.files.filled route [] }) :=
  rfl

theorem move_emptied_eq (l : RunLock) (route : Route) (w : World) :
    l.move route .emptied w =
      (.ok .held, { w with files :=
        (FileAct.append route (Text.encode (l.holderLine w.process)) w.files).2 }) :=
  rfl

/-- What is written to the file once it has been emptied is the line of the holder. -/
theorem move_emptied (l : RunLock) (h : w.files.bytes? route = some []) :
    l.move route .emptied w =
      (.ok .held,
        { w with files := w.files.filled route (Text.encode (l.holderLine w.process)) }) := by
  rw [move_emptied_eq, FileAct.append_of_empty h]

theorem move_held (l : RunLock) (route : Route) (w : World) :
    l.move route .held w = (.ok .cleared, { w with files := w.files.filled route [] }) :=
  rfl

theorem drop_eq (l : RunLock) (w : World) :
    l.drop w = (.ok (), { w with locks := w.locks.filter fun h ↦ h.2 != l.owner }) :=
  rfl

theorem move_cleared (l : RunLock) (route : Route) (w : World) :
    l.move route .cleared w =
      (.ok .idle, { w with locks := w.locks.filter fun h ↦ h.2 != l.owner }) :=
  rfl

/-- A step touches the file of the lock at most. -/
theorem keeps_move (l : RunLock) (route : Route) (stage : Stage) :
    Keeps (World.Changes (· = route)) (l.move route stage) := by
  intro w
  have hfill : ∀ text, w.Changes (· = route)
      { w with files := w.files.filled route (Text.encode text) } := fun text ↦
    ((ends_of_eq (overwrite_eq route text w)).mp (ends_overwrite route text w)).2.changes
  cases stage with
  | idle | gone => exact ends_pure.mpr (.refl _ w)
  | waiting =>
    cases hfree : holderOf route w.locks with
    | none => exact (ends_of_eq (move_waiting_of_free hfree)).mpr ⟨rfl, rfl, .refl⟩
    | some holder =>
      exact (ends_of_eq (move_waiting_of_busy (by simp [hfree]))).mpr (.refl _ w)
  | taken => exact (ends_of_eq (move_taken l route w)).mpr (hfill "")
  | emptied =>
    refine (ends_of_eq (move_emptied_eq l route w)).mpr ⟨rfl, rfl, fun hw ↦ ?_⟩
    exact (ends_modify.mp (FileAct.ends_append hw route _)).1.toBecomes.mono fun _ ↦ .inl
  | held => exact (ends_of_eq (move_held l route w)).mpr (hfill "")
  | cleared => exact (ends_of_eq (move_cleared l route w)).mpr ⟨rfl, rfl, .refl⟩

/-- What a step has to do with the locks: it leaves them alone, takes the lock if nobody holds it,
or drops it. -/
theorem locks_of_move {stage stage' : Stage} (h : l.move route stage w = (.ok stage', w')) :
    (w'.locks = w.locks ∧ (stage'.Locks ↔ stage.Locks)) ∨
      (holderOf route w.locks = none ∧ w'.locks = (route, l.owner) :: w.locks ∧
        ¬ stage.Locks ∧ stage'.Locks) ∨
      (w'.locks = w.locks.filter (fun h ↦ h.2 != l.owner) ∧ ¬ stage'.Locks) := by
  cases stage with
  | idle | gone =>
    cases h
    exact .inl ⟨rfl, Iff.rfl⟩
  | waiting =>
    cases hfree : holderOf route w.locks with
    | none =>
      rw [move_waiting_of_free hfree] at h
      cases h
      exact .inr (.inl ⟨rfl, rfl, by simp [Stage.Locks]⟩)
    | some holder =>
      rw [move_waiting_of_busy (by simp [hfree])] at h
      cases h
      exact .inl ⟨rfl, Iff.rfl⟩
  | taken =>
    rw [move_taken] at h
    cases h
    exact .inl ⟨rfl, by simp [Stage.Locks]⟩
  | emptied =>
    rw [move_emptied_eq] at h
    cases h
    exact .inl ⟨rfl, by simp [Stage.Locks]⟩
  | held =>
    rw [move_held] at h
    cases h
    exact .inl ⟨rfl, by simp [Stage.Locks]⟩
  | cleared =>
    rw [move_cleared] at h
    cases h
    exact .inr (.inr ⟨rfl, by simp [Stage.Locks]⟩)

/-! ### Rows of steps -/

/-- An attempt that fails leaves everything as it is. -/
theorem poll_of_busy (l : RunLock) (h : (holderOf route w.locks).isSome = true) :
    l.poll route w = (.ok false, w) := by
  refine run_of_ends ?_
  unfold poll
  refine ends_bind.mpr (ends_get.mpr ?_)
  rw [if_pos h]
  exact ends_pure.mpr ⟨rfl, rfl⟩

theorem poll_eq_of_free (l : RunLock) (h : holderOf route w.locks = none) :
    l.poll route w =
      (.ok true, { w with
        locks := (route, l.owner) :: w.locks
        files := w.files.filled route (Text.encode (l.holderLine w.process)) }) := by
  refine run_of_ends ?_
  unfold poll
  refine ends_bind.mpr (ends_get.mpr ?_)
  rw [if_neg (by simp [h])]
  refine ends_bind.mpr (ends_set.mpr (ends_bind.mpr ?_))
  exact (ends_of_eq (overwrite_eq route _ _)).mpr (ends_pure.mpr ⟨rfl, rfl⟩)

/-- An attempt that succeeds comes to the same as three steps. -/
theorem poll_of_free (l : RunLock) (h : holderOf route w.locks = none)
    (hfile : w.files.bytes? route ≠ none) :
    ∃ w₁ w₂ w₃, l.poll route w = (.ok true, w₃) ∧
      l.move route .waiting w = (.ok .taken, w₁) ∧ w₁.process = w.process ∧
      l.move route .taken w₁ = (.ok .emptied, w₂) ∧ w₂.process = w.process ∧
      l.move route .emptied w₂ = (.ok .held, w₃) := by
  refine ⟨_, _, _, poll_eq_of_free l h, move_waiting_of_free h, rfl, move_taken l route _, rfl, ?_⟩
  rw [move_emptied l (bytes?_filled hfile []), filled_filled]

/-- Giving a lock up comes to the same as two steps, and a record of it. -/
theorem release_of_held (l : RunLock) (h : heldFile l.owner w.locks = some route) :
    ∃ w₁ w₂ w₃, l.release w = (.ok (), w₃) ∧
      l.move route .held w = (.ok .cleared, w₁) ∧ w₁.process = w.process ∧
      l.move route .cleared w₁ = (.ok .idle, w₂) ∧
      Act.log .debug "run_lock_released" [("path", l.path.text)] w₂ = (.ok (), w₃) := by
  refine ⟨_, _, _, run_of_ends ?_, move_held l route w, rfl, move_cleared l route _, rfl⟩
  unfold release
  refine ends_bind.mpr (ends_get.mpr ?_)
  rw [h]
  exact ends_bind.mpr ((ends_of_eq (overwrite_eq route _ w)).mpr ⟨rfl, rfl⟩)

/-! ### Asking in vain -/

/-- An activity has asked for the lock in vain: as long as it was waiting, the world has changed as
`R` says, and if it is the lock that it fails for, then the fault gives the text that the file held
at that moment. Otherwise the activity has been called off, or the file held no text. -/
structure Denied (l : RunLock) (route : Route) (R : World → World → Prop) (w : World) (e : Fault)
    (w' : World) : Prop where
  rel : R w w'
  names : ∀ path text, e = .locked path text →
    path = l.path.text ∧ ∃ w₁, R w w₁ ∧ w₁.Names route text
  cause : (∃ path text, e = .locked path text) ∨ e = .cancelled "" ∨
    ∃ w₁, R w w₁ ∧ ∀ text, ¬ w₁.Names route text

/-- What was in vain from a later moment on was so from the beginning. -/
theorem Denied.after {l : RunLock} {route : Route} {R : World → World → Prop} {w w₁ w' : World}
    {e : Fault} (h : l.Denied route R w₁ e w') (htrans : ∀ w w' w'', R w w' → R w' w'' → R w w'')
    (hrel : R w w₁) : l.Denied route R w e w' where
  rel := htrans _ _ _ hrel h.rel
  names path text he := by
    obtain ⟨hpath, w₂, hrel₂, htext⟩ := h.names path text he
    exact ⟨hpath, w₂, htrans _ _ _ hrel hrel₂, htext⟩
  cause := h.cause.imp id (Or.imp id fun ⟨w₂, hrel₂, hnone⟩ ↦ ⟨w₂, htrans _ _ _ hrel hrel₂, hnone⟩)

theorem ends_readHolder (route : Route) (w : World) :
    Ends (readHolder route) w (fun text w' ↦ w' = w ∧ w.Names route text)
      fun e w' ↦ w' = w ∧ (∃ cause, e = .undecodable cause) ∧ ∀ text, ¬ w.Names route text := by
  unfold readHolder World.Names
  refine ends_bind.mpr (ends_get.mpr ?_)
  cases hnode : w.files.node? route with
  | none =>
    have hbytes : w.files.bytes? route = none := by simp [bytes?, look, hnode]
    exact ends_pure.mpr ⟨rfl, by rw [hbytes]⟩
  | some node =>
    have hlook := look_of_node? hnode
    cases node with
    | file content mode =>
      have hbytes : w.files.bytes? route = some content := bytes?_of_look hlook
      dsimp only
      rw [hbytes]
      cases hdecoded : Text.decodeStrict content with
      | ok decoded => exact ends_pure.mpr ⟨rfl, decoded, hdecoded, rfl⟩
      | error cause =>
        refine ends_throw.mpr ⟨rfl, ⟨cause, rfl⟩, ?_⟩
        rintro text ⟨decoded, hok, -⟩
        rw [hdecoded] at hok
        cases hok
    | directory | link =>
      have hbytes : w.files.bytes? route = none := by simp [bytes?, hlook, Node.still]
      exact ends_pure.mpr ⟨rfl, by rw [hbytes]⟩

/-- Who has asked in vain fails because of the lock, or because what the file holds is no text. -/
theorem raises_refuse (l : RunLock) (route : Route) :
    Raises (fun e ↦ (∃ path text, e = .locked path text) ∨ ∃ cause, e = .undecodable cause)
      (l.refuse route) := by
  have hread : Raises (fun e ↦ ∃ cause, e = .undecodable cause) (readHolder route) := fun w ↦
    (ends_readHolder route w).mono (fun _ _ _ ↦ trivial) fun _ _ h ↦ h.2.1
  unfold refuse
  refine (hread.mono fun _ ↦ .inr).bind fun text ↦ (Act.raises_log _ _ _).bind fun _ ↦ ?_
  exact raises_throw (.inl ⟨_, _, rfl⟩)

section Vain

variable {R : World → World → Prop} (hR : Act.IsPassing R)

include hR

theorem ends_refuse_denied (l : RunLock) (route : Route) (w : World) :
    Ends (l.refuse route) w (fun _ _ ↦ False) (l.Denied route R w) := by
  unfold refuse
  refine ends_bind.mpr ((ends_readHolder route w).mono ?_ ?_)
  · rintro text _ ⟨rfl, hnames⟩
    refine ends_bind.mpr (hR.ends_log fun w' hrel ↦ ends_throw.mpr ⟨hrel, ?_, .inl ⟨_, _, rfl⟩⟩)
    rintro _ _ ⟨⟩
    exact ⟨rfl, _, hR.refl _, hnames⟩
  · rintro _ w ⟨rfl, ⟨cause, rfl⟩, hnone⟩
    exact ⟨hR.refl _, fun _ _ he ↦ (by cases he), .inr (.inr ⟨w, hR.refl _, hnone⟩)⟩

/-- As long as somebody has the lock, asking for it is in vain. -/
theorem ends_pollUntil_of_busy (l : RunLock) (hlocks : ∀ w w', R w w' → w'.locks = w.locks)
    (hbusy : (holderOf route w.locks).isSome = true) (deadline : Moment) (polls : ℕ) :
    Ends (l.pollUntil route deadline polls) w (fun _ _ ↦ False) (l.Denied route R w) := by
  refine ends_pollUntil_of (P := fun w₁ ↦ R w w₁ ∧ (holderOf route w₁.locks).isSome = true)
    (Q := fun _ ↦ False) ?_ ?_ ?_ deadline polls ⟨hR.refl w, hbusy⟩
  · rintro w₁ hw₁
    exact (ends_of_eq (poll_of_busy l hw₁.2)).mpr hw₁
  · rintro w₁ ⟨hrel, -⟩
    exact (ends_refuse_denied hR l route w₁).mono (fun _ _ ↦ id)
      fun _ _ hdenied ↦ hdenied.after hR.trans hrel
  · rintro w₁ ⟨hrel, hbusy⟩
    refine ((hR.keeps_pause _ w₁).and (Act.raises_pause_cancelled _ w₁)).mono ?_ ?_
    · rintro _ w₂ ⟨hrel', -⟩
      exact ⟨hR.trans _ _ _ hrel hrel', by rwa [hlocks w₁ w₂ hrel']⟩
    · rintro _ w₂ ⟨hrel', rfl⟩
      exact ⟨hR.trans _ _ _ hrel hrel', fun _ _ he ↦ (by cases he), .inr (.inl rfl)⟩

end Vain

end RunLock

end Remedy
