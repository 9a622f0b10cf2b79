import Remedy.Proofs.Tree.Objects

/-!
# Replacing a file step by step

Replacing the content of a file makes the directories above it, opens a draft beside it, writes the
content to the draft and forces it to the disk, gives the draft the mode of the file, moves it over
the file and clears it away. A step may fail for whatever reason; once the draft is to be opened, it
is cleared away then, too. `Replacing.Run` says which stages and trees are come to in this way. For
clearing the draft away itself, only the failures count that the tree gives rise to.

What the operations do as a program is one of these runs (`Replacing.run_replaceContent`).
-/

set_option autoImplicit false

namespace Remedy

open FileTree

namespace FileAct

variable {t : FileTree} {p q : Path}

/-! ### What the operations do -/

/-- A directory is made at a name that is free. -/
theorem ends_makeDirectory_free :
    Ends (makeDirectory p) t
      (fun _ t' ↦ ∃ d name, t.walkToLink p = .ok (.free d name) ∧
        t' = t.add d name (.directory t.later.tick))
      fun _ t' ↦ t' = t := by
  unfold makeDirectory
  apply ends_bind.mpr
  apply ends_linkPlace.mpr
  split
  · rename_i found hwalk
    cases found with
    | «at» r node => exact ends_throw.mpr rfl
    | free d name => exact ends_modify.mpr ⟨d, name, hwalk, rfl⟩
  · rfl

/-- Where a path leads to nothing, the file that is opened is new. -/
theorem ends_openEmpty_found :
    Ends (openEmpty p) t
      (fun route t' ↦ t.target? p ≠ none ∨ ∃ d name, t.walk p = .ok (.free d name) ∧
        route = d ++ [name] ∧ t' = t.add d name (.file [] 0o644))
      fun _ t' ↦ t' = t := by
  unfold openEmpty
  apply ends_bind.mpr
  apply ends_place.mpr
  cases hwalk : t.walk p with
  | error e => rfl
  | ok found =>
    cases found with
    | free d name =>
      exact ends_bind.mpr (ends_modify.mpr (ends_pure.mpr (.inr ⟨d, name, rfl, rfl, rfl⟩)))
    | «at» r node =>
      cases node with
      | file content mode =>
        apply ends_bind.mpr
        apply ends_modify.mpr
        apply ends_pure.mpr
        left
        simp [target?, led?, hwalk, seen?]
      | directory changed => exact ends_throw.mpr rfl
      | link target => exact ends_throw.mpr rfl

/-- What is appended to a file is appended to what it holds. -/
theorem append_of_look {r : Route} {written piece : Text.Bytes} {mode : Nat}
    (h : t.look r = some (.file written mode)) :
    append r piece t = (.ok (), t.set r (.file (written ++ piece) mode)) := by
  apply run_of_ends
  unfold append
  apply ends_modify.mpr
  rw [node?_of_look h nofun]
  exact ⟨rfl, rfl⟩

/-- Gives a draft the mode of what a path leads to, if it leads to anything. -/
def copyMode (p q : Path) : FileAct Unit := do
  if ← present p then setMode q (← mode p)

end FileAct

/-- The mode of what a path leads to, or else that of a new file. -/
def FileTree.modeAt (t : FileTree) (p : Path) : Nat :=
  if p.hasNul then 0o644
  else
    match t.target? p with
    | some (_, .file _ mode) => mode
    | some _ => 0o755
    | none => 0o644

namespace FileAct

variable {t : FileTree} {p q : Path}

theorem modeAt_of_walk {r : Route} {node : Node} (hnul : p.hasNul = false)
    (h : t.walk p = .ok (.at r node)) :
    t.modeAt p = match node with
      | .file _ mode => mode
      | _ => 0o755 := by
  have htarget : t.target? p = some (r, node.still) := seen?_eq_some.mpr ⟨_, h, rfl⟩
  unfold modeAt
  rw [hnul, htarget]
  cases node <;> rfl

theorem modeAt_of_none (h : p.hasNul = false → ∀ r node, t.walk p ≠ .ok (.at r node)) :
    t.modeAt p = 0o644 := by
  unfold modeAt
  split
  · rfl
  · rename_i hnul
    have htarget : t.target? p = none := by
      rw [Option.eq_none_iff_forall_ne_some]
      rintro ⟨r, node⟩ hsome
      obtain ⟨place, hwalk, hstill⟩ := seen?_eq_some.mp hsome
      cases place with
      | free d name => cases hstill
      | «at» r' node' => exact h (by simpa using hnul) r' node' hwalk
    rw [htarget]

/-- A new file is given the mode. -/
theorem ends_copyMode :
    Ends (copyMode p q) t
      (fun _ t' ↦ ∀ r content, t.walk q = .ok (.at r (.file content 0o644)) →
        t' = t.set r (.file content (t.modeAt p)) ∨ t.modeAt p = 0o644 ∧ t' = t)
      fun _ t' ↦ t' = t := by
  have hset : ∀ m, m = t.modeAt p → Ends (setMode q m) t
      (fun _ t' ↦ ∀ r content, t.walk q = .ok (.at r (.file content 0o644)) →
        t' = t.set r (.file content (t.modeAt p)) ∨ t.modeAt p = 0o644 ∧ t' = t)
      fun _ t' ↦ t' = t := by
    rintro m rfl
    unfold setMode
    apply ends_bind.mpr
    apply ends_place.mpr
    cases t.walk q with
    | error e => rfl
    | ok found =>
      cases found with
      | free d name => exact ends_throw.mpr rfl
      | «at» r node =>
        cases node with
        | file content mode =>
          apply ends_modify.mpr
          rintro _ _ ⟨⟩
          exact .inl rfl
        | directory changed => exact ends_pure.mpr nofun
        | link target => exact ends_pure.mpr nofun
  unfold copyMode
  refine ((ends_holds p _ t).mono (fun _ _ h ↦ h) fun _ _ h ↦ h.1).bind ?_
  rintro answer t ⟨rfl, hanswer⟩
  cases answer with
  | true =>
    obtain ⟨hnul, r', node, hwalk, -⟩ := hanswer.mp rfl
    have hmode := modeAt_of_walk hnul hwalk
    unfold mode
    apply ends_bind.mpr
    apply ends_bind.mpr
    apply ends_place.mpr
    rw [hwalk]
    cases node with
    | file content' m => exact hset m hmode.symm
    | directory changed => exact hset 0o755 hmode.symm
    | link target => exact hset 0o755 hmode.symm
  | false =>
    apply ends_pure.mpr
    intro _ _ _
    right
    refine ⟨modeAt_of_none ?_, rfl⟩
    intro hnul r' node hwalk
    cases hanswer.mpr ⟨hnul, r', node, hwalk, rfl⟩

theorem fillAndMove_eq (p : Path) (content : Text.Bytes) (tag : String) :
    fillAndMove p content tag = (do
      let route ← openEmpty (draft p tag)
      append route content
      copyMode p (draft p tag)
      move (draft p tag) p) := by
  unfold fillAndMove copyMode
  refine bind_congr fun route ↦ bind_congr fun _ ↦ ?_
  rw [bind_assoc]
  refine bind_congr fun there ↦ ?_
  cases there with
  | true => rw [if_pos rfl, if_pos rfl, bind_assoc]
  | false => rw [if_neg Bool.false_ne_true, if_neg Bool.false_ne_true, pure_bind]

/-- What is moved is put in the place of what is no directory. -/
theorem ends_move_found :
    Ends (move p q) t
      (fun _ t' ↦ ∃ source node place, t.walkToLink p = .ok (.at source node) ∧
        t.walkToLink q = .ok place ∧ (∀ r, place.still ≠ .at r (.directory 0)) ∧
        t' = (t.remove source).add place.route.dropLast (place.route.getLast?.getD "") node)
      fun _ t' ↦ t' = t := by
  unfold move
  apply ends_bind.mpr
  apply ends_get.mpr
  cases hp : t.walkToLink p with
  | error e => exact ends_throw.mpr rfl
  | ok found =>
    cases found with
    | free d name => exact ends_throw.mpr rfl
    | «at» source node =>
      cases hq : t.walkToLink q with
      | error e => exact ends_throw.mpr rfl
      | ok place =>
        cases place with
        | free d name =>
          refine ends_set.mpr ⟨source, node, _, rfl, rfl, (fun _ h ↦ by cases h), ?_⟩
          simp [Place.route]
        | «at» target node' =>
          cases node' with
          | directory changed => exact ends_throw.mpr rfl
          | file content mode =>
            exact ends_set.mpr ⟨source, node, _, rfl, rfl, (fun _ h ↦ by cases h), rfl⟩
          | link other =>
            exact ends_set.mpr ⟨source, node, _, rfl, rfl, (fun _ h ↦ by cases h), rfl⟩

/-- Where there is nothing, nothing is taken away. -/
theorem ends_unlinkIfThere_of_none (h : t.object? p = none) :
    Ends (unlinkIfThere p) t (fun _ t' ↦ t' = t) fun _ t' ↦ t' = t := by
  unfold unlinkIfThere unlink
  apply ends_tryCatch.mpr
  apply ends_bind.mpr
  apply ends_linkPlace.mpr
  have hrefused : ∀ e : FileError, Ends (if e.errno = .notFound then (return () : FileAct Unit)
      else throw e) t (fun _ t' ↦ t' = t) fun _ t' ↦ t' = t := by
    intro e
    split
    · exact ends_pure.mpr rfl
    · exact ends_throw.mpr rfl
  cases hwalk : t.walkToLink p with
  | error e => exact hrefused _
  | ok found =>
    cases found with
    | free d name => exact ends_throw.mpr (hrefused _)
    | «at» r node => simp [object?, led?, hwalk, seen?] at h

theorem unlinkIfThere_of_free {d : Route} {name : String}
    (h : t.walkToLink p = .ok (.free d name)) : unlinkIfThere p t = (.ok (), t) := by
  apply run_of_ends
  unfold unlinkIfThere unlink
  apply ends_tryCatch.mpr
  apply ends_bind.mpr
  apply ends_linkPlace.mpr
  rw [h]
  exact ends_throw.mpr (ends_pure.mpr ⟨rfl, rfl⟩)

theorem unlinkIfThere_of_file {r : Route} {content : Text.Bytes} {mode : Nat}
    (h : t.walkToLink p = .ok (.at r (.file content mode))) :
    unlinkIfThere p t = (.ok (), t.remove r) := by
  apply run_of_ends
  unfold unlinkIfThere unlink
  apply ends_tryCatch.mpr
  apply ends_bind.mpr
  apply ends_linkPlace.mpr
  rw [h]
  exact ends_modify.mpr ⟨rfl, rfl⟩

end FileAct

/-- New content that is to be put in the place of what is at a path. -/
structure Replacing where
  path : Path
  content : Text.Bytes
  /-- What is peculiar to the name of the draft. -/
  tag : String

namespace Replacing

/-! ### Stages -/

/-- How far replacing a file has come. -/
inductive Stage where
  /-- The directories above are being made. -/
  | making
  | opening
  /-- The draft is open, and the rest of the content is to be written. -/
  | writing (route : Route) (rest : Text.Bytes)
  /-- The draft is to be given the mode. -/
  | copying
  | moving
  /-- The outcome is known, and the draft is to be cleared away. -/
  | clearing (outcome : Except FileError Unit)
  | ended (outcome : Except FileError Unit)

/-- The stages in which a failure leads to the draft's being cleared away. -/
def Stage.Tried : Stage → Prop
  | .opening | .writing _ _ | .copying | .moving => True
  | .making | .clearing _ | .ended _ => False

def draft (c : Replacing) : Path := FileAct.draft c.path c.tag

def draftName (c : Replacing) : String := FileAct.draftName c.path.name c.tag

/-- One step. A stage does what it is there for, pieces of the content being as long or short as they
may be, or it fails. That a draft is forced to the disk changes nothing in the tree. An error in
clearing the draft away takes the place of the outcome. -/
inductive Step (c : Replacing) : Stage → FileTree → Stage → FileTree → Prop
  | make {q : Path} {t t' : FileTree} (hq : q.Above c.path.parent)
      (h : FileAct.makeDirectory q t = (.ok (), t')) : Step c .making t .making t'
  | made (t : FileTree) : Step c .making t .opening t
  | giveUp (t : FileTree) (e : FileError) : Step c .making t (.ended (.error e)) t
  | «open» {t t' : FileTree} {route : Route}
      (h : FileAct.openEmpty c.draft t = (.ok route, t')) :
      Step c .opening t (.writing route c.content) t'
  | write {t t' : FileTree} {route : Route} {piece rest : Text.Bytes}
      (h : FileAct.append route piece t = (.ok (), t')) :
      Step c (.writing route (piece ++ rest)) t (.writing route rest) t'
  | sync (t : FileTree) (route : Route) : Step c (.writing route []) t .copying t
  | copy {t t' : FileTree} (h : FileAct.copyMode c.path c.draft t = (.ok (), t')) :
      Step c .copying t .moving t'
  | move {t t' : FileTree} (h : FileAct.move c.draft c.path t = (.ok (), t')) :
      Step c .moving t (.clearing (.ok ())) t'
  | fail (stage : Stage) (h : stage.Tried) (t : FileTree) (e : FileError) :
      Step c stage t (.clearing (.error e)) t
  | clear {t t' : FileTree} {cleared outcome : Except FileError Unit}
      (h : FileAct.unlinkIfThere c.draft t = (cleared, t')) :
      Step c (.clearing outcome) t (.ended (cleared >>= fun _ ↦ outcome)) t'

/-- What is come to from a tree by steps. -/
inductive Run (c : Replacing) (t : FileTree) : Stage → FileTree → Prop
  | start : Run c t .making t
  | step {stage stage' : Stage} {t₁ t₂ : FileTree} (h : Run c t stage t₁)
      (hstep : c.Step stage t₁ stage' t₂) : Run c t stage' t₂

variable {c : Replacing} {t t₁ t' t'' : FileTree} {d : Route}

/-! ### The program as a run -/

theorem ends_ensureDirectory (mayExist : Bool) {q : Path} (hq : q.Above c.path.parent)
    (h : c.Run t .making t') :
    Ends (FileAct.ensureDirectory q mayExist) t' (fun _ t'' ↦ c.Run t .making t'')
      fun _ t'' ↦ t'' = t' := by
  unfold FileAct.ensureDirectory
  apply ends_tryCatch.mpr
  refine (ends_self.and FileAct.ends_makeDirectory_free).mono ?_ ?_
  · rintro _ t'' ⟨hmade, -⟩
    exact h.step (.make hq hmade)
  · rintro e t' ⟨-, rfl⟩
    split
    · exact ends_throw.mpr rfl
    · refine ((FileAct.ends_holds _ _ _).mono (fun _ _ h ↦ h.1) fun _ _ h ↦ h.1).bind ?_
      rintro answer t' rfl
      split
      · exact ends_pure.mpr h
      · exact ends_throw.mpr rfl

/-- The directories above are made one by one. -/
theorem ends_makeDirectories (mayExist : Bool) (depth : Nat) {q : Path} (hq : q.Above c.path.parent)
    (h : c.Run t .making t') :
    Ends (FileAct.makeDirectories mayExist depth q) t' (fun _ t'' ↦ c.Run t .making t'')
      fun _ t'' ↦ c.Run t .making t'' := by
  have hensure : ∀ {mayExist q t'}, q.Above c.path.parent → c.Run t .making t' →
      Ends (FileAct.ensureDirectory q mayExist) t' (fun _ t'' ↦ c.Run t .making t'')
        fun _ t'' ↦ c.Run t .making t'' := by
    intro mayExist q t' hq h
    refine (ends_ensureDirectory mayExist hq h).mono (fun _ _ h ↦ h) ?_
    rintro e t' rfl
    exact h
  induction depth generalizing mayExist q t' with
  | zero => exact hensure hq h
  | succ depth ih =>
    unfold FileAct.makeDirectories
    apply ends_tryCatch.mpr
    refine (hensure hq h).mono (fun _ _ h ↦ h) ?_
    intro e t' h
    split
    · exact (ih true ((Path.Above.parent q).trans hq) h).bind fun _ _ h ↦ hensure hq h
    · exact ends_throw.mpr h

/-- From the draft's being opened on, each failure leads to its being cleared away. -/
theorem ends_fillAndMove (h : c.Run t .opening t') :
    Ends (FileAct.fillAndMove c.path c.content c.tag) t'
      (fun _ t'' ↦ c.Run t (.clearing (.ok ())) t'')
      fun e t'' ↦ c.Run t (.clearing (.error e)) t'' := by
  rw [FileAct.fillAndMove_eq]
  refine ((ends_self.and FileAct.ends_openEmpty_found).mono (fun _ _ h ↦ h.1) ?_).bind ?_
  · rintro e t' ⟨-, rfl⟩
    exact h.step (.fail .opening trivial _ e)
  intro route t₁ hopened
  have hwriting := h.step (.open hopened)
  refine (ends_self.mono (fun _ _ h ↦ h) ?_).bind ?_
  · intro e t₂ happend
    cases happend
  intro _ t₂ happended
  rw [← List.append_nil c.content] at hwriting
  have hcopying := (hwriting.step (.write happended)).step (.sync t₂ route)
  refine ((ends_self.and FileAct.ends_copyMode).mono (fun _ _ h ↦ h.1) ?_).bind ?_
  · rintro e t₂ ⟨-, rfl⟩
    exact hcopying.step (.fail .copying trivial _ e)
  intro _ t₃ hcopied
  have hmoving := hcopying.step (.copy hcopied)
  refine (ends_self.and FileAct.ends_move_found).mono ?_ ?_
  · rintro _ t₄ ⟨hmoved, -⟩
    exact hmoving.step (.move hmoved)
  · rintro e t₃ ⟨-, rfl⟩
    exact hmoving.step (.fail .moving trivial _ e)

/-- What the operations do is one of the runs. -/
theorem run_replaceContent (c : Replacing) (t : FileTree) :
    c.Run t (.ended (FileAct.replaceContent c.path c.content c.tag t).1)
      (FileAct.replaceContent c.path c.content c.tag t).2 := by
  have hends : Ends (FileAct.replaceContent c.path c.content c.tag) t
      (fun _ t' ↦ c.Run t (.ended (.ok ())) t') fun e t' ↦ c.Run t (.ended (.error e)) t' := by
    unfold FileAct.replaceContent
    refine ((ends_makeDirectories true _ (.refl _) .start).mono (fun _ _ h ↦ h) ?_).bind ?_
    · intro e t' h
      exact h.step (.giveUp t' e)
    intro _ t₁ hmaking
    have hopening := hmaking.step (.made t₁)
    -- However the attempt ends, the draft is cleared away.
    have hcleared : ∀ {outcome t₂} {last : FileAct Unit}, c.Run t (.clearing outcome) t₂ →
        (∀ t₃, c.Run t (.ended outcome) t₃ → Ends last t₃ (fun _ t' ↦ c.Run t (.ended (.ok ())) t')
          fun e t' ↦ c.Run t (.ended (.error e)) t') →
        Ends (FileAct.unlinkIfThere c.draft >>= fun _ ↦ last) t₂
          (fun _ t' ↦ c.Run t (.ended (.ok ())) t') fun e t' ↦ c.Run t (.ended (.error e)) t' := by
      intro outcome t₂ last hclearing hlast
      refine (ends_self.mono (fun _ _ h ↦ h) ?_).bind ?_
      · intro e t₃ hclear
        exact hclearing.step (.clear hclear)
      · intro _ t₃ hclear
        exact hlast t₃ (hclearing.step (.clear hclear))
    apply ends_bind.mpr
    apply FileAct.ends_attempt.mpr
    refine (ends_fillAndMove hopening).mono ?_ ?_
    · intro _ t₂ hclearing
      exact hcleared hclearing fun t₃ hended ↦ ends_pure.mpr hended
    · intro e t₂ hclearing
      exact hcleared hclearing fun t₃ hended ↦ ends_throw.mpr hended
  unfold Ends at hends
  rcases hrun : FileAct.replaceContent c.path c.content c.tag t with ⟨_ | _, t'⟩
  · rw [hrun] at hends
    exact hends
  · rw [hrun] at hends
    exact hends

end Replacing

end Remedy
