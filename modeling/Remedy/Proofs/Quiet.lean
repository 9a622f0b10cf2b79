import Remedy.Proofs.Tree.Replacement

/-!
# What the program itself does to files

Counting, logging and waiting touch no file but the one that the log is written to, if it is there,
and make no directory (`Act.Still`); the log goes on in that file (`Act.Quiet`). Work that is raced
against a deadline does what it does to the site when it is begun, and everything after that is
still (`Act.ends_race`). What waiting does to a world is said once for all relations that are kept
as time passes (`Act.IsPassing`), and by bookkeeping (`Act.IsFrame`).

`World.Touches` is the frame of an action on the world: the regular files outside of the given
routes and of the log are as they were, and so are all links and directories.
-/

set_option autoImplicit false

namespace Remedy

open FileTree

/-- The file that the log is written to. -/
def World.logFile (w : World) : Option Route := w.journal.sink.bind (·.file)

/-- Files have been touched at the routes in `only` and in the log, if any. No lock has been taken
or given up. -/
structure World.Touches (only : Route → Prop) (w w' : World) : Prop where
  log : w'.logFile = w.logFile
  locks : w'.locks = w.locks
  files : w.files.Sound → Becomes (fun r ↦ only r ∨ w.logFile = some r) w.files w'.files

namespace World.Touches

variable {only only' : Route → Prop} {w w' w'' : World}

theorem refl (only : Route → Prop) (w : World) : Touches only w w :=
  ⟨rfl, rfl, .refl⟩

theorem trans (h : Touches only w w') (h' : Touches only w' w'') : Touches only w w'' := by
  refine ⟨h'.log.trans h.log, h'.locks.trans h.locks, fun hw ↦ ?_⟩
  have hfiles := h'.files (h.files hw).sound
  rw [h.log] at hfiles
  exact (h.files hw).trans hfiles

theorem mono (h : Touches only w w') (hsub : ∀ r, only r → only' r) : Touches only' w w' :=
  ⟨h.log, h.locks, fun hw ↦ (h.files hw).mono fun r ↦ Or.imp_left (hsub r)⟩

/-- What does not concern the files touches nothing. -/
theorem of_eq (hfiles : w'.files = w.files) (hlog : w'.logFile = w.logFile)
    (hlocks : w'.locks = w.locks) : Touches only w w' :=
  ⟨hlog, hlocks, fun hw ↦ by rw [hfiles]; exact .refl hw⟩

end World.Touches

/-- What has been changed of the files, the log left out, touches them. -/
theorem World.touches_of_becomes {only : Route → Prop} {w w' : World}
    (hlog : w'.logFile = w.logFile) (hlocks : w'.locks = w.locks)
    (h : Becomes only w.files w'.files) : w.Touches only w' :=
  ⟨hlog, hlocks, fun _ ↦ h.mono fun _ ↦ .inl⟩

/-- The regular files outside of the routes in `only` and of the log are as they were. Links and
directories need not be. -/
structure World.Spares (only : Route → Prop) (w w' : World) : Prop where
  log : w'.logFile = w.logFile
  sound : w'.files.Sound
  bytes : ∀ r, ¬ only r → w.logFile ≠ some r → w'.files.bytes? r = w.files.bytes? r

section Spared

variable {only : Route → Prop} {w w' w'' : World}

theorem World.Touches.spares (h : w.Touches only w') (hw : w.files.Sound) : w.Spares only w' :=
  ⟨h.log, (h.files hw).sound, fun r honly hlog ↦
    (h.files hw).alters.bytes r fun hor ↦ hor.elim honly hlog⟩

theorem World.Spares.trans (h : w.Spares only w') (h' : w'.Spares only w'') :
    w.Spares only w'' := by
  refine ⟨h'.log.trans h.log, h'.sound, fun r honly hlog ↦ ?_⟩
  exact (h'.bytes r honly (h.log ▸ hlog)).trans (h.bytes r honly hlog)

theorem World.Spares.mono {only' : Route → Prop} (h : w.Spares only w')
    (hsub : ∀ r, only r → only' r) : w.Spares only' w' :=
  ⟨h.log, h.sound, fun r honly ↦ h.bytes r fun hr ↦ honly (hsub r hr)⟩

end Spared

/-- What is touched is the log and nothing else. -/
abbrev World.Undisturbed : World → World → Prop := World.Touches fun _ ↦ False

/-- What is touched after the log has been written is what was to be touched. -/
theorem World.Undisturbed.touches {only : Route → Prop} {w w₁ w' : World} {only' : Route → Prop}
    (h : w.Undisturbed w₁) (hw : w.files.Sound) (htouches : w₁.Touches only w')
    (hsub : ∀ r, w₁.files.bytes? r = w.files.bytes? r → only r → only' r) : w.Touches only' w' := by
  have hbefore := h.files hw
  have hafter := htouches.files hbefore.sound
  rw [h.log] at hafter
  refine ⟨htouches.log.trans h.log, htouches.locks.trans h.locks, fun _ ↦
    (hbefore.mono fun r hr ↦ .inr (hr.resolve_left id)).trans (hafter.mono fun r hr ↦ ?_)⟩
  by_cases hlog : w.logFile = some r
  · exact .inr hlog
  · have hsame := hbefore.alters.bytes r fun hor ↦ hor.elim id hlog
    exact .inl (hsub r hsame (hr.resolve_right hlog))

/-- In addition nothing is there that was not, what is a directory was one, and the clock of the
files stands still. -/
structure World.Still (w w' : World) : Prop where
  undisturbed : w.Undisturbed w'
  tick : w'.files.tick = w.files.tick
  flat : ∀ r, w'.files.HasDirectory r → w.files.HasDirectory r
  free : ∀ r, w.files.look r = none → w'.files.look r = none

namespace World.Still

variable {w w' w'' : World}

theorem refl (w : World) : Still w w :=
  ⟨.refl _ w, rfl, fun _ ↦ id, fun _ ↦ id⟩

theorem trans (h : Still w w') (h' : Still w' w'') : Still w w'' :=
  ⟨h.undisturbed.trans h'.undisturbed, h'.tick.trans h.tick, fun r ↦ h.flat r ∘ h'.flat r,
    fun r ↦ h'.free r ∘ h.free r⟩

/-- What does not concern the files leaves them as they are. -/
theorem of_eq (hfiles : w'.files = w.files) (hlog : w'.logFile = w.logFile)
    (hlocks : w'.locks = w.locks) : Still w w' :=
  ⟨.of_eq hfiles hlog hlocks, congrArg FileTree.tick hfiles, fun r ↦ by rw [hfiles]; exact id,
    fun r ↦ by rw [hfiles]; exact id⟩

/-- A directory that is reached was reached before. -/
theorem walk (h : Still w w') (hw : w.files.Sound) {whole : Bool} {names : List String} {r : Route}
    (hwalk : Walk w'.files whole linkLimit [] names (.at r (.directory 0))) :
    Walk w.files whole linkLimit [] names (.at r (.directory 0)) :=
  have hfiles := h.undisturbed.files hw
  hwalk.flat hfiles.alters.links h.flat hfiles.sound hfiles.sound.root

theorem vacant (h : Still w w') (hw : w.files.Sound) {p : Path} {name : String}
    (hvacant : w.files.Vacant p name) : w'.files.Vacant p name :=
  fun d hwalk ↦ h.free _ (hvacant d (h.walk hw hwalk))

end World.Still

namespace Act

variable {α β : Type}

/-- The action touches the log and nothing else. -/
def Quiet (act : Act α) : Prop := Keeps World.Undisturbed act

/-- The action is quiet and makes nothing. -/
def Still (act : Act α) : Prop := Keeps World.Still act

theorem Still.quiet {act : Act α} (h : Still act) : Quiet act :=
  fun w ↦ (h w).mono (fun _ _ h ↦ h.undisturbed) fun _ _ h ↦ h.undisturbed

theorem still_pure (a : α) : Still (pure a) :=
  keeps_pure World.Still.refl a

theorem still_throw (e : Fault) : Still (throw e : Act α) :=
  keeps_throw World.Still.refl e

theorem still_modify {f : World → World} (hfiles : ∀ w, (f w).files = w.files)
    (hlog : ∀ w, (f w).logFile = w.logFile) (hlocks : ∀ w, (f w).locks = w.locks) :
    Still (modify f) :=
  keeps_modify fun w ↦ .of_eq (hfiles w) (hlog w) (hlocks w)

theorem Still.bind {act : Act α} {f : α → Act β} (h : Still act) (hnext : ∀ a, Still (f a)) :
    Still (act >>= f) :=
  Keeps.bind (fun _ _ _ ↦ .trans) h hnext

theorem Still.guard {c : Prop} [Decidable c] {e : Fault} {f : PUnit → Act α} (h : Still (f ⟨⟩)) :
    Still (if c then throw e >>= f else f ⟨⟩) :=
  fun w ↦ Ends.guard (fun _ ↦ .refl w) fun _ ↦ h w

theorem still_foldlM {γ : Type} {f : β → γ → Act β} (h : ∀ b c, Still (f b c)) (b : β)
    (xs : List γ) : Still (xs.foldlM f b) := by
  induction xs generalizing b with
  | nil => exact still_pure b
  | cons x xs ih =>
    rw [List.foldlM_cons]
    exact (h b x).bind ih

theorem still_ofExcept (outcome : Except Fault α) : Still (ofExcept outcome) := by
  intro w
  unfold Ends ofExcept
  cases outcome with
  | ok a => exact .refl w
  | error e => exact .refl w

/-! ### Logging -/

/-- What is appended to a file changes nothing but what it holds. -/
theorem ends_append_flat (t : FileTree) (r : Route) (content : Text.Bytes) :
    Ends (FileAct.append r content) t
      (fun _ t' ↦ t'.tick = t.tick ∧ (∀ q, t'.HasDirectory q → t.HasDirectory q) ∧
        ∀ q, t.look q = none → t'.look q = none)
      fun _ _ ↦ False := by
  refine ends_modify.mpr ?_
  split
  · rename_i old mode hnode
    refine ⟨rfl, fun q hq ↦ ?_, fun q hq ↦ ?_⟩
    · rw [HasDirectory, look_set] at hq
      split at hq
      · cases hq
      · exact hq
    · rw [look_set, if_neg, hq]
      rintro rfl
      rw [look_of_node? hnode] at hq
      cases hq
  · exact ⟨rfl, fun _ ↦ id, fun _ ↦ id⟩

theorem still_record (event : Event) : Still (record event) := by
  refine keeps_modify fun w ↦ ?_
  dsimp only
  split
  · rename_i route hroute hprints
    obtain ⟨htick, hflat, hfree⟩ := ends_modify.mp (ends_append_flat w.files route
      (Text.encode ((w.journal.inContext event).line.compact ++ "\n")))
    refine ⟨⟨rfl, rfl, fun hw ↦ ?_⟩, htick, hflat, hfree⟩
    have happend := FileAct.ends_append hw route
      (Text.encode ((w.journal.inContext event).line.compact ++ "\n"))
    have hedits := (ends_modify.mp happend).1
    exact hedits.toBecomes.mono fun r hr ↦ .inr (hroute.trans (congrArg some hr.symm))
  · exact .of_eq rfl rfl rfl

theorem still_log (level : LogLevel) (name : String) (fields : List (String × Json)) :
    Still (log level name fields) :=
  still_record _

/-- Logging cannot fail. -/
theorem ends_log {level : LogLevel} {name : String} {fields : List (String × Json)} {w : World}
    {ok : Unit → World → Prop} {bad : Fault → World → Prop}
    (h : ∀ w', w.Still w' → ok () w') : Ends (log level name fields) w ok bad :=
  ends_modify.mpr (h _ (still_log level name fields w))

theorem still_bindField (name : String) (value : Json) : Still (bindField name value) :=
  still_modify (fun _ ↦ rfl) (fun _ ↦ rfl) fun _ ↦ rfl

theorem still_unbindField (name : String) : Still (unbindField name) :=
  still_modify (fun _ ↦ rfl) (fun _ ↦ rfl) fun _ ↦ rfl

/-- Counting changes the counter and nothing else, whether or not it fails. -/
theorem keeps_count_of {R : World → World → Prop} {tally : Meter.Tally}
    (h : ∀ w c, R w { w with meter := w.meter.setCounter tally c }) (amount : Number)
    (labels : Labels) : Keeps R (count tally amount labels) := by
  intro w
  unfold count
  refine ends_bind.mpr (ends_get.mpr ?_)
  rcases (w.meter.counter tally).inc amount labels with ⟨c, fault⟩
  refine ends_bind.mpr (ends_set.mpr ?_)
  cases fault with
  | none => exact h w c
  | some e => exact h w c

theorem still_count (tally : Meter.Tally) (amount : Number) (labels : Labels) :
    Still (count tally amount labels) :=
  keeps_count_of (fun _ _ ↦ .of_eq rfl rfl rfl) amount labels

/-! ### Bookkeeping -/

/-- A relation between a world and one that comes out of it as time passes: by recording events, and
by changing what is bound to the log, the time and what has been abandoned. That the activity is to
be called off may be forgotten. -/
structure IsPassing (R : World → World → Prop) : Prop where
  refl : ∀ w, R w w
  trans : ∀ w w' w'', R w w' → R w' w'' → R w w''
  record : ∀ event, Keeps R (Act.record event)
  aside : ∀ (w : World) bound now interrupt abandoned, (w.interrupt = none → interrupt = none) →
    R w { w with
      journal := { w.journal with bound := bound }
      now := now
      interrupt := interrupt
      abandoned := abandoned }

/-- A relation between a world and one that comes out of it by bookkeeping: as time passes, and by
counting other things than checks. -/
structure IsFrame (R : World → World → Prop) : Prop extends IsPassing R where
  count : ∀ tally amount labels, tally ≠ .validationChecks → Keeps R (count tally amount labels)

theorem isFrame_still : IsFrame World.Still where
  refl := World.Still.refl
  trans _ _ _ := World.Still.trans
  record := still_record
  count tally amount labels _ := still_count tally amount labels
  aside _ _ _ _ _ _ := .of_eq rfl rfl rfl

namespace IsPassing

variable {R : World → World → Prop} (hR : IsPassing R)

include hR

theorem keeps_pure (a : α) : Keeps R (pure a : Act α) :=
  Remedy.keeps_pure hR.refl a

theorem keeps_throw (e : Fault) : Keeps R (throw e : Act α) :=
  Remedy.keeps_throw hR.refl e

theorem keeps_get : Keeps R (get : Act World) :=
  Remedy.keeps_get hR.refl

theorem keeps_ofExcept (outcome : Except Fault α) : Keeps R (ofExcept outcome) := by
  cases outcome with
  | ok a => exact hR.keeps_pure a
  | error e => exact hR.keeps_throw e

theorem keeps_bind {act : Act α} {f : α → Act β} (h : Keeps R act) (hnext : ∀ a, Keeps R (f a)) :
    Keeps R (act >>= f) :=
  h.bind hR.trans hnext

theorem keeps_guard {c : Prop} [Decidable c] {e : Fault} {f : PUnit → Act β}
    (h : Keeps R (f ⟨⟩)) : Keeps R (if c then throw e >>= f else f ⟨⟩) :=
  fun w ↦ Ends.guard (fun _ ↦ hR.refl w) fun _ ↦ h w

theorem keeps_log (level : LogLevel) (name : String) (fields : List (String × Json)) :
    Keeps R (log level name fields) :=
  hR.record _

/-- Logging cannot fail. -/
theorem ends_log {level : LogLevel} {name : String} {fields : List (String × Json)} {w : World}
    {ok : Unit → World → Prop} {bad : Fault → World → Prop} (h : ∀ w', R w w' → ok () w') :
    Ends (log level name fields) w ok bad :=
  ends_modify.mpr (h _ (hR.record _ w))

theorem keeps_forM {γ : Type} {f : γ → Act PUnit} (h : ∀ a, Keeps R (f a)) (xs : List γ) :
    Keeps R (xs.forM f) :=
  Remedy.keeps_forM hR.refl hR.trans h xs

theorem keeps_withBound {bound : List (String × Json)} {act : Act α} (h : Keeps R act) :
    Keeps R (withBound bound act) := by
  have hbound : ∀ bound, Keeps R (modify fun w : World ↦
      { w with journal := { w.journal with bound := bound } }) := fun bound ↦
    keeps_modify fun w ↦ hR.aside w bound _ _ _ id
  unfold withBound
  exact hR.keeps_bind hR.keeps_get fun w ↦ hR.keeps_bind (hbound bound) fun _ ↦
    h.andThenAlways hR.trans (hbound _)

theorem keeps_giveWay : Keeps R giveWay := by
  have hforget : Keeps R (modify fun w : World ↦ { w with abandoned := [] }) :=
    keeps_modify fun w ↦ hR.aside w _ _ _ [] id
  unfold giveWay
  exact hR.keeps_bind hR.keeps_get fun w ↦ hR.keeps_bind hforget fun _ ↦
    hR.keeps_forM (fun _ ↦ hR.keeps_withBound (hR.keeps_log _ _ _)) _

theorem keeps_pause (seconds : Moment) : Keeps R (pause seconds) := by
  unfold pause
  refine hR.keeps_bind hR.keeps_giveWay fun _ ↦ ?_
  intro w
  refine ends_bind.mpr (ends_get.mpr ?_)
  dsimp only
  split
  · split
    · exact ends_bind.mpr (ends_set.mpr (ends_throw.mpr (hR.aside w _ _ none _ fun _ ↦ rfl)))
    · exact ends_set.mpr (hR.aside w _ _ _ _ id)
  · exact ends_set.mpr (hR.aside w _ _ _ _ id)

theorem keeps_waitForever : Keeps R waitForever := by
  unfold waitForever
  refine hR.keeps_bind hR.keeps_get fun w ↦ ?_
  split
  · split
    · exact hR.keeps_pause _
    · exact hR.keeps_pure _
  · exact hR.keeps_pure _

theorem keeps_expire (timeout : Number) : Keeps R (expire timeout) := by
  unfold expire
  split
  · exact hR.keeps_waitForever
  · exact hR.keeps_pause _

theorem keeps_since (start : Moment) : Keeps R (since start) := by
  unfold since
  exact hR.keeps_bind hR.keeps_get fun _ ↦ hR.keeps_pure _

/-- What work does to the site is done when it is begun; all that follows is bookkeeping. -/
theorem ends_race (work : Work α) (timeout : Number) (w : World) :
    Ends (race work timeout) w
      (fun _ w' ↦ R { w with toSite := (work w.toSite).2 } w')
      fun _ w' ↦ R { w with toSite := (work w.toSite).2 } w' := by
  have hbegin : Ends (begin work) w
      (fun _ w' ↦ R { w with toSite := (work w.toSite).2 } w')
      fun _ w' ↦ R { w with toSite := (work w.toSite).2 } w' := by
    unfold begin
    refine ends_bind.mpr (ends_get.mpr (ends_bind.mpr (ends_set.mpr ?_)))
    exact (hR.keeps_forM hR.record _ _).bind fun _ w' h ↦ ends_pure.mpr h
  unfold race
  refine hbegin.bind fun course w₁ h₁ ↦ ?_
  -- The rest is bookkeeping wherever it is begun.
  have hfollows : ∀ {act : Act (Settled α)}, Keeps R act →
      Ends act w₁ (fun _ w' ↦ R { w with toSite := (work w.toSite).2 } w')
        fun _ w' ↦ R { w with toSite := (work w.toSite).2 } w' := fun h ↦
    (h w₁).mono (fun _ _ ↦ hR.trans _ _ _ h₁) fun _ _ ↦ hR.trans _ _ _ h₁
  refine hfollows fun w₂ ↦ ?_
  refine Ends.guard (fun _ ↦ hR.refl _) fun _ ↦ ?_
  dsimp only
  split
  · refine hR.keeps_bind (hR.keeps_expire timeout) (fun _ ↦ hR.keeps_bind ?_ fun _ ↦ ?_) w₂
    · exact keeps_modify fun w ↦ hR.aside w _ _ _ _ id
    · exact hR.keeps_bind (hR.keeps_log _ _ _) fun _ ↦ hR.keeps_pure _
  · refine hR.keeps_bind (hR.keeps_pause _) (fun _ ↦ ?_) w₂
    exact hR.keeps_bind (hR.keeps_forM hR.record _) fun _ ↦ hR.keeps_pure _

end IsPassing

theorem still_giveWay : Still giveWay :=
  isFrame_still.keeps_giveWay

theorem still_pause (seconds : Moment) : Still (pause seconds) :=
  isFrame_still.keeps_pause seconds

theorem still_since (start : Moment) : Still (since start) :=
  isFrame_still.keeps_since start

theorem still_rest (number : Nat) (fault : Fault) (wait : Double) :
    Still (rest number fault wait) := by
  unfold rest
  refine (still_record _).bind fun _ ↦ ?_
  split
  · exact still_pause _
  · exact still_giveWay

theorem ends_race (work : Work α) (timeout : Number) (w : World) :
    Ends (race work timeout) w
      (fun _ w' ↦ World.Still { w with toSite := (work w.toSite).2 } w')
      fun _ w' ↦ World.Still { w with toSite := (work w.toSite).2 } w' :=
  isFrame_still.ends_race work timeout w

end Act

end Remedy
