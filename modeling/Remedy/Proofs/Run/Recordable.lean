import Remedy.Proofs.Backup.Room
import Remedy.Proofs.Run.Bearing
import Remedy.Proofs.Run.Declining
import Remedy.Proofs.Run.Refusals

/-!
# Runs whose files can be recorded

A run is aborted only where files cannot be recorded before a fixer has been called. The first time
that is done, all files of the run are recorded at once; if each of them can be read or is missing,
this is done just if there is room for the snapshot (`Store.ends_snapshot_room`). From then on a phase
takes its part of that snapshot, until a fixer has been called. So whether a run whose files can be
recorded (`Bench.Recordable`) is aborted depends on the room for the snapshot alone
(`Bench.Crowded`), whatever fixers and probes do and however the run ends
(`RunAct.ends_run_recordable`). A file that can be read may have no room, because its path is too
long for a name (`RunAct.aborted_of_farBelow`).

Two relations carry this. Most of a run does not abort it, and does not touch its files unless a fixer
has been called (`Bench.Advances`). Where files are put back or checked, they are touched; but then
the run is about to end, and all that is left to be said is that it is not aborted (`Bench.Spares`).
What is known of the files until a fixer is called is that they are in the snapshot of all files, and
that no snapshot is held under the name of a phase that is still to come (`Bench.Covered`).
-/

set_option autoImplicit false

namespace Remedy

open FileTree

namespace Bench

variable {b b' b'' : Bench}

/-! ### Runs that go on -/

/-- The run has not been aborted meanwhile. -/
def Spares (b b' : Bench) : Prop :=
  b.context.state ≠ .aborted → b'.context.state ≠ .aborted

theorem Spares.refl (b : Bench) : b.Spares b :=
  id

theorem Spares.trans (h : b.Spares b') (h' : b'.Spares b'') : b.Spares b'' :=
  h' ∘ h

/-- The run has not been aborted meanwhile, and unless a fixer has been called, nothing has been
touched but the log. -/
structure Advances (b b' : Bench) : Prop where
  spares : b.Spares b'
  store : b'.store = b.store
  context : b.context.Stays b'.context
  still : b'.context.mutated = false → b.world.Still b'.world

theorem Advances.refl (b : Bench) : b.Advances b :=
  ⟨.refl b, rfl, .refl _, fun _ ↦ .refl _⟩

theorem Advances.trans (h : b.Advances b') (h' : b'.Advances b'') : b.Advances b'' where
  spares := h.spares.trans h'.spares
  store := h'.store.trans h.store
  context := h.context.trans h'.context
  still hnone := (h.still (h'.context.mutated hnone)).trans (h'.still hnone)

theorem Calm.advances (h : b.Calm b') (hspares : b.Spares b') : b.Advances b' :=
  ⟨hspares, h.store, h.context, fun _ ↦ h.still⟩

theorem Rests.advances (h : b.Rests b') : b.Advances b' :=
  h.toCalm.advances fun hstate ↦ h.state ▸ hstate

/-- After a fixer has been called, anything may have been done to the files. -/
theorem Advances.of_mutated (h : b.context.mutated = true) (w : World) :
    b.Advances { b with world := w } :=
  ⟨id, rfl, .refl _, fun hnone ↦ nomatch h.symm.trans hnone⟩

theorem Advances.mutated (h : b.Advances b') (hb : b.context.mutated = true) :
    b'.context.mutated = true := by
  by_contra hnone
  rw [h.context.mutated (Bool.eq_false_iff.mpr hnone)] at hb
  cases hb

/-- The run has not been aborted meanwhile, and has come to its end or goes on. -/
structure Leaves (b b' : Bench) : Prop where
  spares : b.Spares b'
  advances : b'.context.isFinished = false → b.Advances b'

theorem Advances.leaves (h : b.Advances b') : b.Leaves b' :=
  ⟨h.spares, fun _ ↦ h⟩

theorem Leaves.before (h : b.Advances b') (h' : b'.Leaves b'') : b.Leaves b'' :=
  ⟨h.spares.trans h'.spares, fun hgoing ↦ h.trans (h'.advances hgoing)⟩

end Bench

open Bench

namespace RunAct

variable {α β : Type} {phase : Phase} {files : List Route} {snapshot : Option Snapshot}

/-- Wherever it is begun, the action does not abort the run, and either ends it or lets it go on. -/
def Leaving (act : RunAct α) : Prop :=
  ∀ b, Ends act b (fun _ b' ↦ b.Leaves b') fun _ b' ↦ b.Spares b'

theorem leaving_of_advances {act : RunAct α} (h : Keeps Advances act) : Leaving act :=
  fun b ↦ (h b).mono (fun _ _ ↦ Advances.leaves) fun _ _ ↦ Advances.spares

theorem Leaving.after {act : RunAct α} {f : α → RunAct β} (h : Keeps Advances act)
    (hnext : ∀ a, Leaving (f a)) : Leaving (act >>= f) :=
  fun b ↦ ends_bind.mpr ((h b).mono
    (fun a b₁ h₁ ↦ (hnext a b₁).mono (fun _ _ h₂ ↦ h₂.before h₁) fun _ _ h₂ ↦ h₁.spares.trans h₂)
    fun _ _ h₁ ↦ h₁.spares)

/-! ### Calling fixers -/

theorem Calmly.advances {act : RunAct α} (h : Calmly act) : Keeps Advances act :=
  fun b ↦ (h b).mono (fun _ _ ↦ Rests.advances) fun _ _ ↦ Rests.advances

theorem advances_bind {act : RunAct α} {f : α → RunAct β} (h : Keeps Advances act)
    (hnext : ∀ a, Keeps Advances (f a)) : Keeps Advances (act >>= f) :=
  Keeps.bind (fun _ _ _ ↦ .trans) h hnext

/-- A run is aborted only by a move to that state. -/
theorem advances_moveTo {target : RunState} (htarget : target ≠ .aborted) (name : Option String)
    (reason : String) : Keeps Advances (moveTo target name reason) :=
  fun b ↦ (ends_moveCalmly target name reason b).mono
    (fun _ _ ⟨hcalm, hstate, _⟩ ↦ hcalm.advances fun _ ↦ hstate ▸ htarget)
    fun _ _ hsame ↦ hsame ▸ .refl b

theorem advances_callFixer (fixer : Fixer) (phase : Phase) (files : List Route) (number : Nat) :
    Keeps Advances (callFixer fixer phase files number) := by
  -- What follows the mark may touch the files.
  have hmarked : ∀ {b c : Bench} {act : RunAct FixReport}, b.Advances c →
      c.context.mutated = true →
      Keeps (fun b b' ↦ b.context.mutated = true → b.Advances b') act →
      Ends act c (fun _ b' ↦ b.Advances b') fun _ b' ↦ b.Advances b' :=
    fun hfirst hmutated hact ↦ (hact _).mono (fun _ _ h ↦ hfirst.trans (h hmutated))
      fun _ _ h ↦ hfirst.trans (h hmutated)
  have htrans : ∀ b b' b'' : Bench, (b.context.mutated = true → b.Advances b') →
      (b'.context.mutated = true → b'.Advances b'') → b.context.mutated = true → b.Advances b'' :=
    fun _ _ _ h h' hb ↦ (h hb).trans (h' ((h hb).mutated hb))
  have hrefl : ∀ b : Bench, b.context.mutated = true → b.Advances b := fun b _ ↦ .refl b
  unfold callFixer
  refine advances_bind (calmly_count _ _ _).advances fun _ ↦ ?_
  refine advances_bind (calmly_log _ _ _).advances fun _ b ↦ ends_bind.mpr (ends_update.mpr ?_)
  refine hmarked (c := b.change _) ⟨id, rfl, ⟨rfl, rfl, rfl, rfl, nofun⟩, nofun⟩ rfl ?_
  split
  · exact keeps_throw hrefl _
  refine (keeps_get hrefl).bind htrans fun b ↦ Keeps.bind htrans ?_ fun _ ↦ ?_
  · exact keeps_modify fun b _ ↦ ⟨id, rfl, .refl _, fun _ ↦ .refl _⟩
  refine Keeps.bind htrans (keeps_iff.mpr fun b hmutated ↦ .of_mutated hmutated _) fun settled b ↦ ?_
  exact ((calmly_judge phase number settled).advances b).mono (fun _ _ h _ ↦ h) fun _ _ h _ ↦ h

theorem advances_attempts (fixer : Fixer) (phase : Phase) (files : List Route) (policy : RetryPolicy)
    (left number : Nat) :
    Keeps Advances (retryFrom policy (attemptPhase fixer phase files)
      (fun number fault wait ↦ lift (Act.rest number fault wait)) left number) := by
  have hattempt : ∀ number, Keeps Advances (attemptPhase fixer phase files number) := by
    intro number
    unfold attemptPhase
    refine advances_bind (keeps_modify fun _ ↦ ⟨id, rfl, .refl _, fun _ ↦ .refl _⟩) fun _ ↦ ?_
    dsimp only
    split
    · exact advances_bind (advances_moveTo (by decide) _ _) fun _ ↦ advances_callFixer _ _ _ _
    · exact advances_callFixer _ _ _ _
  exact keeps_retryFrom (fun _ _ _ ↦ .trans) .refl hattempt
    (fun _ _ _ ↦ (calmly_lift (Act.still_rest _ _ _)).advances) _ _

/-! ### Results -/

theorem spares_bind {act : RunAct α} {f : α → RunAct β} (h : Keeps Spares act)
    (hnext : ∀ a, Keeps Spares (f a)) : Keeps Spares (act >>= f) :=
  Keeps.bind (fun _ _ _ ↦ .trans) h hnext

theorem Calmly.spares {act : RunAct α} (h : Calmly act) : Keeps Spares act :=
  fun b ↦ (h.advances b).mono (fun _ _ ↦ Advances.spares) fun _ _ ↦ Advances.spares

theorem spares_moveTo {target : RunState} (htarget : target ≠ .aborted) (name : Option String)
    (reason : String) : Keeps Spares (moveTo target name reason) :=
  fun b ↦ (advances_moveTo htarget name reason b).mono (fun _ _ ↦ Advances.spares)
    fun _ _ ↦ Advances.spares

theorem spares_lift (act : Act α) : Keeps Spares (lift act) :=
  keeps_iff.mpr fun _ ↦ id

/-- Putting files back ends the run. -/
theorem leaving_rollBack (phase : Phase) (snapshot : Snapshot) (message : String) (attempts : Nat)
    (elapsed : Number) : Leaving (rollBack phase snapshot message attempts elapsed) := by
  have hspares : Keeps Spares (rollBack phase snapshot message attempts elapsed) := by
    unfold rollBack
    refine spares_bind (spares_moveTo (by decide) _ _) fun _ ↦ ?_
    refine spares_bind (spares_lift _) fun _ ↦ spares_bind (spares_lift _).attempt fun outcome ↦ ?_
    split
    · refine spares_bind (calmly_fail _).spares fun _ ↦ ?_
      exact spares_bind (calmly_record _).spares fun _ ↦ spares_moveTo (by decide) _ _
    · exact keeps_throw Spares.refl _
    · refine spares_bind (calmly_count _ _ _).spares fun _ ↦ ?_
      refine spares_bind (calmly_fail _).spares fun _ ↦ ?_
      exact spares_bind (calmly_record _).spares fun _ ↦ spares_moveTo (by decide) _ _
  have hmoved : ∀ (target : RunState) (name : Option String) (reason : String) (b : Bench),
      target.isTerminal = true → Ends (moveTo target name reason) b
        (fun _ b' ↦ b'.context.isFinished = true) fun _ _ ↦ True := by
    intro target name reason b htarget
    refine (ends_moveCalmly target name reason b).mono ?_ fun _ _ _ ↦ trivial
    rintro _ b' ⟨-, rfl, -⟩
    exact htarget
  intro b
  have hends : Ends (rollBack phase snapshot message attempts elapsed) b
      (fun _ b' ↦ b'.context.isFinished = true) fun _ _ ↦ True := by
    unfold rollBack
    refine Ends.bind_any fun _ _ ↦ Ends.bind_any fun _ _ ↦ Ends.bind_any fun outcome b₁ ↦ ?_
    split
    · exact Ends.bind_any fun _ _ ↦ Ends.bind_any fun _ _ ↦ hmoved _ _ _ _ rfl
    · exact ends_throw.mpr trivial
    · refine Ends.bind_any fun _ _ ↦ Ends.bind_any fun _ _ ↦ Ends.bind_any fun _ _ ↦ ?_
      exact hmoved _ _ _ _ rfl
  exact ((hspares b).and hends).mono
    (fun _ _ ⟨h, hfinished⟩ ↦ ⟨h, fun hgoing ↦ nomatch hfinished.symm.trans hgoing⟩)
    fun _ _ h ↦ h.1

theorem leaving_settleFailure (phase : Phase) (snapshot : Option Snapshot) (message : String)
    (attempts : Nat) (elapsed : Number) :
    Leaving (settleFailure phase snapshot message attempts elapsed) := by
  unfold settleFailure
  refine .after (calmly_count _ _ _).advances fun _ ↦ .after (calmly_count _ _ _).advances fun _ ↦ ?_
  refine .after (calmly_log _ _ _).advances fun _ ↦ .after (keeps_get .refl) fun b ↦ ?_
  dsimp only
  split
  · exact leaving_rollBack _ _ _ _ _
  · refine leaving_of_advances (advances_bind (calmly_record _).advances fun _ ↦ ?_)
    split
    · refine advances_bind (Calmly.advances (calmly_update ?_ ?_)) fun _ ↦ ?_
      · exact fun _ ↦ ⟨rfl, rfl, rfl, rfl, id⟩
      · exact fun _ ↦ rfl
      · exact advances_moveTo (by decide) _ _
    · exact keeps_pure .refl _

theorem leaving_remedy (crew : Crew) (phase : Phase) (files : List Route)
    (snapshot : Option Snapshot) : Leaving (remedy crew phase files snapshot) := by
  unfold remedy
  split
  · exact .after (calmly_log _ _ _).advances fun _ ↦ leaving_settleFailure _ _ _ _ _
  rename_i fixer hfixer
  unfold carryOut
  refine .after (keeps_get .refl) fun b ↦ .after (keeps_get .refl) fun b' ↦ ?_
  refine .after (advances_attempts fixer phase files _ _ _).attempt fun outcome ↦ ?_
  refine .after (calmly_lift (Act.still_since _)).advances fun elapsed ↦ ?_
  refine .after (keeps_get .refl) fun b ↦ ?_
  dsimp only
  split
  · exact leaving_of_advances (calmly_settleSuccess _ _ _ _).advances
  · split
    · exact .after (calmly_observeDuration _ _).advances fun _ ↦ leaving_settleFailure _ _ _ _ _
    · exact leaving_of_advances (keeps_throw .refl _)

end RunAct

/-! ### What is known until a fixer is called -/

namespace Bench

variable {part : List Phase} {b b' : Bench}

/-- The files of the phases are in the snapshot, and nothing is held under their names yet. -/
structure Covered (s : Snapshot) (part : List Phase) (b : Bench) : Prop where
  sound : b.world.files.Sound
  runId : s.runId = b.context.runId
  files : ∀ phase ∈ part, ∀ p ∈ phase.files,
    (b.world.files.traced ((Route.path b.context.project).join p)).route ∈ s.paths
  free : ∀ phase ∈ part, b.store.get b.context.runId phase.fixerRef = none
  refs : (part.map (·.fixerRef)).Nodup

/-- If files are to be recorded, the snapshot of all files is there for the phases that are left,
until a fixer is called. -/
structure Provided (whole : Option Snapshot) (part : List Phase) (b : Bench) : Prop where
  backup : b.context.config.backupEnabled = true
  covered : part ≠ [] → b.context.config.dryRun = false → b.context.mutated = false →
    ∃ s, whole = some s ∧ b.Covered s part

theorem Covered.advances {s : Snapshot} (h : b.Covered s part) (hb : b.Advances b')
    (hnone : b'.context.mutated = false) : b'.Covered s part := by
  have htouches := (hb.still hnone).undisturbed.files h.sound
  refine ⟨htouches.sound, h.runId.trans hb.context.runId.symm, fun phase hphase p hp ↦ ?_, ?_, h.refs⟩
  · rw [hb.context.project, traced_congr htouches.alters.links (Path.isAbsolute_join _ _)]
    exact h.files phase hphase p hp
  · rw [hb.store, hb.context.runId]
    exact h.free

theorem Provided.advances {whole : Option Snapshot} (h : b.Provided whole part)
    (hb : b.Advances b') : b'.Provided whole part where
  backup := hb.context.config ▸ h.backup
  covered hpart hdry hnone := by
    obtain ⟨s, hs, hcovered⟩ := h.covered hpart (hb.context.config ▸ hdry) (hb.context.mutated hnone)
    exact ⟨s, hs, hcovered.advances hb hnone⟩

theorem Provided.tail {whole : Option Snapshot} {phase : Phase}
    (h : b.Provided whole (phase :: part)) : b.Provided whole part where
  backup := h.backup
  covered _ hdry hnone := by
    obtain ⟨s, hs, hcovered⟩ := h.covered (List.cons_ne_nil _ _) hdry hnone
    exact ⟨s, hs, { hcovered with
      files := fun q hq ↦ hcovered.files q (List.mem_cons_of_mem _ hq)
      free := fun q hq ↦ hcovered.free q (List.mem_cons_of_mem _ hq)
      refs := (List.nodup_cons.mp hcovered.refs).2 }⟩

end Bench

namespace RunAct

section Phases

variable {crew : Crew} {whole : Option Snapshot} {phase : Phase} {rest : List Phase} {b : Bench}

/-- The files of a phase are recorded, unless a fixer has been called. -/
theorem ends_phaseSnapshot_provided (h : b.Provided whole (phase :: rest))
    (hdry : b.context.config.dryRun = false) {files : List Route}
    (hfiles : b.context.mutated = false → ∀ s, whole = some s → ∀ r ∈ files, r ∈ s.paths) :
    Ends (phaseSnapshot phase files whole) b
      (fun _ b' ↦ b'.context.state = b.context.state ∧ b'.Provided whole rest)
      fun _ b' ↦ b'.context.state = b.context.state ∧ b'.context.mutated = true := by
  cases hmutated : b.context.mutated with
  | true =>
    refine (ends_phaseSnapshot phase files whole b).mono ?_ ?_
    · rintro s b' ⟨hcontext, -⟩
      rw [hcontext]
      refine ⟨rfl, ?_, fun _ _ hnone ↦ ?_⟩
      · rw [hcontext]
        exact h.backup
      · rw [hcontext] at hnone
        exact nomatch hmutated.symm.trans hnone
    · rintro e b' ⟨-, hcontext, -⟩
      rw [hcontext]
      exact ⟨rfl, hmutated⟩
  | false =>
    obtain ⟨s, rfl, hcovered⟩ := h.covered (List.cons_ne_nil _ _) hdry hmutated
    have hcovers : s.covers files = true := by
      rw [Snapshot.covers, List.all_eq_true]
      intro r hr
      obtain ⟨content, hfind, -⟩ := Snapshot.find?_of_mem (hfiles hmutated s rfl r hr)
      exact Option.isSome_iff_exists.mpr ⟨content, hfind⟩
    obtain ⟨part, hpart⟩ := Snapshot.exists_restrict hcovers phase.fixerRef
    obtain ⟨hrunId, hkey, -, -⟩ := Snapshot.restrict_eq hpart
    have hfree : b.store.get part.runId part.key = none := by
      rw [hrunId, hkey, hcovered.runId]
      exact hcovered.free phase List.mem_cons_self
    refine ends_phaseSnapshot_of ?_ ?_ fun hnot ↦ ?_
    · rintro _ e ⟨⟩ - he
      exact nomatch he.symm.trans hpart
    rotate_left
    · exact nomatch hcovers.symm.trans (hnot s rfl hmutated)
    rintro _ _ ⟨⟩ - hpart'
    obtain rfl := Except.ok.inj (hpart.symm.trans hpart')
    unfold Store.record
    refine Ends.guard (fun hheld ↦ ?_) fun _ ↦ ?_
    · rw [hfree] at hheld
      cases hheld
    refine ends_bind.mpr (Act.ends_log fun w hstill ↦ ends_pure.mpr ?_)
    obtain ⟨hfirst, hothers⟩ := List.nodup_cons.mp hcovered.refs
    refine ⟨rfl, h.backup, fun _ _ _ ↦ ⟨s, rfl, ?_⟩⟩
    have hcalm := hcovered.advances (Rests.inWorld b hstill).advances hmutated
    refine { hcalm with
      files := fun q hq ↦ hcalm.files q (List.mem_cons_of_mem _ hq)
      free := fun q hq ↦ ?_
      refs := hothers }
    show (b.store.hold part).get b.context.runId q.fixerRef = none
    rw [Store.get_hold, hcovered.free q (List.mem_cons_of_mem _ hq), Option.none_or, if_neg]
    rintro ⟨-, hsame⟩
    have heq : phase.fixerRef = q.fixerRef := hkey.symm.trans hsame
    exact hfirst (List.mem_map.mpr ⟨q, hq, heq.symm⟩)

theorem ends_runPhase_provided (h : b.Provided whole (phase :: rest))
    (hgoing : b.context.state ≠ .aborted) :
    Ends (runPhase crew whole phase) b
      (fun _ b' ↦ b'.context.state ≠ .aborted ∧
        (b'.context.isFinished = false → b'.Provided whole rest))
      fun _ b' ↦ b'.context.state ≠ .aborted := by
  have hleaves : ∀ {c : Bench} {act : RunAct Unit}, c.context.state = b.context.state →
      c.Provided whole rest → Leaving act →
      Ends act c (fun _ b' ↦ b'.context.state ≠ .aborted ∧
        (b'.context.isFinished = false → b'.Provided whole rest))
        fun _ b' ↦ b'.context.state ≠ .aborted := by
    intro c act hsame hprovided hact
    rw [← hsame] at hgoing
    exact (hact c).mono
      (fun _ _ hl ↦ ⟨hl.spares hgoing, fun hnone ↦ hprovided.advances (hl.advances hnone)⟩)
      fun _ _ hs ↦ hs hgoing
  refine ends_runPhase_of ((ends_filesOf_asked phase b).mono ?_ fun _ _ h ↦ h.1 ▸ hgoing)
  rintro files b ⟨rfl, hfiles, -⟩ fields
  refine ends_lift.mpr (Act.ends_log fun w hstill ↦ ?_)
  have hprovided := h.advances (Rests.inWorld b hstill).advances
  constructor
  case rehearsed =>
    exact fun _ ↦ hleaves (c := { b with world := w }) rfl hprovided.tail
      (leaving_of_advances (calmly_rehearse phase files).advances)
  case unrecorded => exact fun _ hno ↦ nomatch h.backup.symm.trans hno
  intro hdry _
  have hpaths : b.context.mutated = false → ∀ s, whole = some s → ∀ r ∈ files, r ∈ s.paths := by
    rintro hmutated s rfl r hr
    obtain ⟨_, hsome, hcovered⟩ := h.covered (List.cons_ne_nil _ _) hdry hmutated
    obtain rfl := Option.some.inj hsome
    obtain ⟨p, hp, hresolve⟩ := (hfiles r).mp hr
    exact route_of_resolve hresolve ▸ hcovered.files phase List.mem_cons_self p hp
  refine (ends_phaseSnapshot_provided hprovided hdry hpaths).mono ?_ ?_
  · rintro s b₁ ⟨hsame, hrest⟩
    exact hleaves hsame hrest (leaving_remedy _ _ _ _)
  · rintro e b₁ ⟨hsame, hmutated⟩
    have hgoing₁ : b₁.context.state ≠ .aborted := hsame.trans_ne hgoing
    refine ⟨fun _ ↦ ends_settleUnrecorded_iff.mpr ?_, fun _ ↦ hgoing₁⟩
    rw [if_pos hmutated]
    refine (ends_moveCalmly _ _ _ _).mono ?_ fun _ _ hstays ↦ hstays ▸ hgoing₁
    rintro _ b₂ ⟨-, hfailed, -⟩
    rw [RunContext.isFinished, hfailed]
    exact ⟨by decide, fun hgoes ↦ by cases hgoes⟩

theorem spares_runValidation (crew : Crew) : Keeps Spares (runValidation crew) := by
  unfold runValidation
  refine spares_bind (keeps_get .refl) fun b ↦ ?_
  dsimp only
  split
  · split
    · exact keeps_modify fun _ ↦ id
    · exact spares_bind (spares_moveTo (by decide) _ _) fun _ ↦
        spares_bind (spares_lift _) fun _ ↦ keeps_modify fun _ ↦ id
  · exact keeps_pure .refl _

theorem spares_conclude : Keeps Spares conclude := by
  unfold conclude
  refine spares_bind (keeps_get .refl) fun b ↦ ?_
  dsimp only
  split
  · exact spares_moveTo (by decide) _ _
  · split
    · exact spares_bind (keeps_modify fun _ ↦ id) fun _ ↦ spares_moveTo (by decide) _ _
    · exact spares_bind (keeps_modify fun _ ↦ id) fun _ ↦ spares_moveTo (by decide) _ _

/-- With the snapshot of all files at hand, no phase aborts the run. -/
theorem ends_runPhases_provided {part : List Phase} (h : b.Provided whole part)
    (hgoing : b.context.state ≠ .aborted) :
    Ends (runPhases crew whole part) b (fun _ b' ↦ b'.context.state ≠ .aborted)
      fun _ b' ↦ b'.context.state ≠ .aborted := by
  refine ends_runPhases_of (P := fun part b ↦ b.Provided whole part ∧ b.context.state ≠ .aborted)
    ?_ ?_ ⟨h, hgoing⟩
  · rintro b ⟨-, hgoing⟩
    exact ((spares_bind (spares_runValidation crew) fun _ ↦ spares_conclude) b).mono
      (fun _ _ hspares ↦ hspares hgoing) fun _ _ hspares ↦ hspares hgoing
  · rintro phase rest b ⟨h, hgoing⟩
    refine (advances_moveTo (by decide) _ _ b).mono (fun _ b₁ hmoved ↦ ?_)
      fun _ _ h ↦ h.spares hgoing
    have hentered : b₁.Advances (b₁.entered phase) :=
      ⟨id, rfl, .refl _, fun _ ↦ Act.still_bindField "phase" phase.name _⟩
    have hadvances := hmoved.trans hentered
    refine (ends_runPhase_provided (h.advances hadvances) (hadvances.spares hgoing)).mono ?_
      fun _ _ h ↦ h
    rintro _ b₂ ⟨hgoing₂, h₂⟩
    have hunbound : b₂.Advances (b₂.unbound "phase") :=
      ⟨id, rfl, .refl _, fun _ ↦ Act.still_unbindField "phase" _⟩
    exact ⟨fun _ ↦ hgoing₂, fun hunfinished ↦ ⟨(h₂ hunfinished).advances hunbound, hgoing₂⟩⟩

end Phases

end RunAct

/-! ### What is known beforehand -/

namespace Bench

/-- The files that the paths lead to can be recorded for the run if there is room for this. -/
structure Recordable (paths : List Path) (b : Bench) : Prop where
  sound : b.world.files.Sound
  project : b.store.project = b.context.project
  receives : b.store.Receives b.context.runId runKey paths b.world.files
  /-- Where the paths lead leads to itself. -/
  settled : ∀ p ∈ paths, ∀ r, b.world.files.resolve ((Route.path b.store.project).join p) = .ok r →
    b.world.files.resolve (Route.path r) = .ok r

/-- The snapshot of all files that the run would record. -/
def whole (paths : List Path) (b : Bench) : Snapshot :=
  b.store.picture b.context.runId runKey paths b.world.files

/-- Files are to be recorded, but there is no room for this. -/
structure Crowded (phases : List Phase) (paths : List Path) (b : Bench) : Prop where
  phases : phases ≠ []
  earnest : b.context.config.dryRun = false
  room : ¬ (b.whole paths).HasRoom b.store.project

/-- The names of the snapshots of the phases differ from each other and are not in use, nor are they
that of the snapshot of all files. -/
structure NamesFree (phases : List Phase) (b : Bench) : Prop where
  free : ∀ phase ∈ phases, b.store.get b.context.runId phase.fixerRef = none
  refs : (phases.map (·.fixerRef)).Nodup
  keys : ∀ phase ∈ phases, phase.fixerRef ≠ runKey

variable {paths : List Path} {phases part : List Phase} {b b' : Bench}

theorem NamesFree.perm (h : b.NamesFree phases) (hperm : part.Perm phases) : b.NamesFree part where
  free phase hphase := h.free phase (hperm.mem_iff.mp hphase)
  refs := (hperm.map _).nodup_iff.mpr h.refs
  keys phase hphase := h.keys phase (hperm.mem_iff.mp hphase)

section Alike

variable (hstill : b.world.Still b'.world) (halike : b.world.Alike b'.world)
  (hstore : b'.store = b.store) (hrunId : b'.context.runId = b.context.runId)

include hstill halike hstore hrunId in
theorem Recordable.alike (h : b.Recordable paths)
    (hproject : b'.context.project = b.context.project) : b'.Recordable paths := by
  refine ⟨(hstill.undisturbed.files h.sound).sound, ?_, ?_, ?_⟩
  · rw [hstore, hproject]
    exact h.project
  · rw [hstore, hrunId]
    exact h.receives.alike halike h.sound
  · intro p hp r hr
    rw [hstore, halike.resolve (Path.isAbsolute_join _ _)] at hr
    exact (halike.resolve rfl).trans (h.settled p hp r hr)

include halike hstore hrunId

theorem hasRoom_alike : (b'.whole paths).HasRoom b'.store.project ↔
    (b.whole paths).HasRoom b.store.project := by
  rw [whole, hstore, hrunId]
  exact Store.picture_hasRoom_alike halike

theorem crowded_alike (hconfig : b'.context.config = b.context.config) (hperm : part.Perm phases) :
    b'.Crowded part paths ↔ b.Crowded phases paths := by
  have hroom : (b'.whole paths).HasRoom b'.store.project ↔ (b.whole paths).HasRoom b.store.project :=
    hasRoom_alike halike hstore hrunId
  have hnil : part = [] ↔ phases = [] := by rw [← List.length_eq_zero_iff, hperm.length_eq,
    List.length_eq_zero_iff]
  constructor
  · rintro ⟨hpart, hearnest, hnone⟩
    exact ⟨mt hnil.mpr hpart, hconfig ▸ hearnest, mt hroom.mpr hnone⟩
  · rintro ⟨hphases, hearnest, hnone⟩
    exact ⟨mt hnil.mp hphases, hconfig ▸ hearnest, mt hroom.mp hnone⟩

end Alike

end Bench

namespace RunAct

section Recording

variable {paths : List Path} {phases : List Phase} {b : Bench}

/-- The snapshot of all files is taken just if there is room for it, and holds whatever the paths
lead to. -/
theorem ends_takeSnapshot_recordable (h : b.Recordable paths) {files : List Route}
    (hfiles : ∀ r, r ∈ files ↔ ∃ p ∈ paths,
      b.world.files.resolve ((Route.path b.store.project).join p) = .ok r) :
    Ends (takeSnapshot runKey files) b
      (fun s b' ↦ (b.whole paths).HasRoom b.store.project ∧
        b'.context = b.context.keep s ∧ b'.store = b.store.hold s ∧ b'.world.files.Sound ∧
        s.runId = b.context.runId ∧ s.key = runKey ∧
        ∀ p ∈ paths, (b'.world.files.traced ((Route.path b.store.project).join p)).route ∈ s.paths)
      fun e b' ↦ ¬ (b.whole paths).HasRoom b.store.project ∧ e.isA .backup = true ∧
        b'.context = b.context := by
  refine ends_takeSnapshot_of ((((Act.still_giveWay b.world).and
    (Act.isFrame_alike.keeps_giveWay b.world)).and
      (Act.raises_giveWay (P := fun _ ↦ False) b.world)).mono ?_ fun _ _ h ↦ h.2.elim)
  rintro _ w ⟨⟨hstill, halike⟩, -⟩
  have hw : ({ b with world := w } : Bench).Recordable paths := .alike hstill halike rfl rfl h rfl
  have hroom : (({ b with world := w } : Bench).whole paths).HasRoom b.store.project ↔
      (b.whole paths).HasRoom b.store.project := hasRoom_alike halike rfl rfl
  have hask : ∀ r, r ∈ files ↔ ∃ p ∈ paths,
      w.files.resolve ((Route.path b.store.project).join p) = .ok r := by
    simpa only [halike.resolve (Path.isAbsolute_join _ _)] using hfiles
  -- A second time, the paths lead where they have led before.
  have hagain : ∀ r ∈ files, w.files.resolve (Route.path r) = .ok r := by
    intro r hr
    obtain ⟨p, hp, hpr⟩ := (hask r).mp hr
    exact hw.settled p hp r hpr
  refine ((b.store.ends_snapshot_room hw.sound (hw.receives.of_routed hask hagain)).and
    (b.store.ends_snapshot hw.sound hw.receives.place.absolute _)).mono ?_ ?_
  · rintro _ w' ⟨⟨henough, rfl⟩, htaken⟩
    rw [Store.picture_routed hask hagain] at henough
    have hbecomes := htaken.touches.files hw.sound
    refine ⟨hroom.mp henough, rfl, rfl, hbecomes.sound, rfl, rfl, fun p hp ↦ ?_⟩
    obtain ⟨r, hr, -⟩ := hw.receives.files p hp
    have hroute : (w'.files.traced ((Route.path b.store.project).join p)).route = r := by
      rw [traced_congr hbecomes.alters.links (Path.isAbsolute_join _ _)]
      exact route_of_resolve hr
    refine hroute ▸ List.mem_map.mpr ⟨_, List.mem_map_of_mem (Store.mem_routes.mpr ?_), rfl⟩
    exact ⟨_, List.mem_map_of_mem ((hask r).mpr ⟨p, hp, hr⟩), hagain r ((hask r).mpr ⟨p, hp, hr⟩)⟩
  · rintro e w' ⟨⟨hnone, cause, rfl⟩, -⟩
    rw [Store.picture_routed hask hagain] at hnone
    exact ⟨mt hroom.mpr hnone, rfl, rfl⟩

/-- The run is aborted at once if there is no room for the snapshot of all files. -/
theorem ends_recordAll_recordable (h : b.Recordable paths)
    (hpaths : ∀ p, p ∈ paths ↔ ∃ phase ∈ phases, p ∈ phase.files) (hnames : b.NamesFree phases)
    (hbackup : b.context.config.backupEnabled = true) (hstate : b.context.state = .backingUp) :
    Ends (recordAll phases) b
      (fun whole b' ↦ (b'.context.state = .aborted ↔ b.Crowded phases paths) ∧
        (¬ b.Crowded phases paths → b'.Provided whole phases)) fun _ _ ↦ False := by
  have hgoing : b.context.state ≠ .aborted := hstate ▸ nofun
  have hidle : ∀ {P : Prop}, phases = [] ∨ b.context.config.dryRun = true → phases ≠ [] →
      b.context.config.dryRun = false → P := fun hnothing hsome hearnest ↦
    absurd hnothing (by simp [hsome, hearnest])
  refine ends_recordAll_of ?_
  constructor
  case idle =>
    intro hnothing
    have hroomy : ¬ b.Crowded phases paths := fun ⟨hsome, hearnest, _⟩ ↦
      hidle hnothing hsome hearnest
    exact ⟨iff_of_false hgoing hroomy, fun _ ↦ ⟨hbackup, fun hsome hearnest ↦
      hidle hnothing hsome hearnest⟩⟩
  case unbacked => exact fun hunbacked ↦ absurd hunbacked (by simp [hbackup])
  case recorded =>
    intro hsome hearnest _
    have hfollowed : ∀ phase ∈ phases, ∀ p ∈ phase.files, ∃ r,
        b.world.files.resolve ((Route.path b.context.project).join p) = .ok r := by
      intro phase hphase p hp
      obtain ⟨r, hr, -⟩ := h.receives.files p ((hpaths p).mpr ⟨phase, hphase, hp⟩)
      exact ⟨r, h.project ▸ hr⟩
    refine (ends_filesOfAll_followed hfollowed).mono ?_ fun _ _ h ↦ h
    rintro files b ⟨rfl, hfiles⟩
    refine (ends_takeSnapshot_recordable h fun r ↦ ?_).mono ?_ ?_
    · simp only [hfiles, hpaths, h.project]
      grind
    · rintro s b' ⟨hroom, hcontext, hstore, hsound, hrunId, hkey, hall⟩
      have hroomy : ¬ b.Crowded phases paths := fun hcrowded ↦ hcrowded.room hroom
      refine ⟨iff_of_false ?_ hroomy,
        fun _ ↦ ⟨?_, fun _ _ _ ↦ ⟨s, rfl, hsound, ?_, ?_, ?_, hnames.refs⟩⟩⟩
      · rw [hcontext]
        exact hgoing
      · rw [hcontext]
        exact hbackup
      · rw [hcontext]
        exact hrunId
      · intro phase hphase p hp
        rw [hcontext]
        exact h.project ▸ hall p ((hpaths p).mpr ⟨phase, hphase, hp⟩)
      · intro phase hphase
        have hother : s.key ≠ phase.fixerRef := hkey ▸ (hnames.keys phase hphase).symm
        rw [hcontext, hstore, Store.get_hold_of_ne hother]
        exact hnames.free phase hphase
    · rintro e b' ⟨hnone, hrefused, hcontext⟩
      have hcrowded : b.Crowded phases paths := ⟨hsome, hearnest, hnone⟩
      refine ⟨fun _ ↦ ends_moveTo_of_next ?_ fun w hw ↦
        ⟨iff_of_true rfl hcrowded, fun hroomy ↦ absurd hcrowded hroomy⟩, fun hnot ↦ hnot hrefused⟩
      show RunState.aborted ∈ b'.context.state.next
      rw [hcontext, hstate]
      decide

theorem ends_execute_recordable (crew : Crew) (h : b.Recordable paths)
    (hpaths : ∀ p, p ∈ paths ↔ ∃ phase ∈ phases, p ∈ phase.files) (hnames : b.NamesFree phases)
    (hbackup : b.context.config.backupEnabled = true) (hstate : b.context.state = .idle) :
    Ends (execute crew phases) b
      (fun _ b' ↦ b'.context.state = .aborted ↔ b.Crowded phases paths)
      fun _ b' ↦ b'.context.state = .aborted ↔ b.Crowded phases paths := by
  have hnext : .backingUp ∈ b.context.state.next := by
    rw [hstate]
    decide
  refine ends_execute_of (ends_moveTo_logged hnext fun level name fields ↦ ends_lift.mpr ?_)
  refine (((Act.still_log level name fields b.world).and
    (Act.isFrame_alike.keeps_log level name fields b.world)).and
      (Act.raises_log (P := fun _ ↦ False) level name fields b.world)).mono ?_ fun _ _ h ↦ h.2.elim
  rintro _ w ⟨⟨hstill, halike⟩, -⟩
  let b₁ : Bench := { b.moved .backingUp none "" with world := w }
  have hcrowded : b₁.Crowded phases paths ↔ b.Crowded phases paths :=
    crowded_alike (b := b) halike rfl rfl rfl (.refl _)
  have hrecordable : b₁.Recordable paths := Recordable.alike (b := b) hstill halike rfl rfl h rfl
  refine (ends_recordAll_recordable hrecordable hpaths { hnames with } hbackup rfl).mono ?_
    fun _ _ ↦ False.elim
  rintro whole b₂ ⟨haborted, hprovided⟩
  rw [hcrowded] at haborted hprovided
  refine ⟨fun _ ↦ haborted, fun hgoing ↦ ?_⟩
  have hroomy : ¬ b.Crowded phases paths := by
    intro hyes
    rw [RunContext.isFinished, haborted.mpr hyes] at hgoing
    exact absurd hgoing (by decide)
  exact (ends_runPhases_provided (hprovided hroomy) (mt haborted.mp hroomy)).mono
    (fun _ _ hnot ↦ iff_of_false hnot hroomy) fun _ _ hnot ↦ iff_of_false hnot hroomy

end Recording

/-- A run whose files can be recorded is aborted just if there is no room for this, whatever the
fixers and the checks do and however it ends. -/
theorem ends_run_recordable (crew : Crew) {phases : List Phase} {paths : List Path}
    {world : World} {store : Store} {runId : String} {project : Route} {config : RunConfig}
    (h : (Bench.fresh world store runId project config).Recordable paths)
    (hpaths : ∀ p, p ∈ paths ↔ ∃ phase ∈ phases, p ∈ phase.files)
    (hnames : (Bench.fresh world store runId project config).NamesFree phases)
    (hbackup : config.backupEnabled = true) :
    Ends (run crew phases) (.fresh world store runId project config)
      (fun _ b ↦ b.context.state = .aborted ↔
        (Bench.fresh world store runId project config).Crowded phases paths)
      fun _ b ↦ b.context.state = .aborted ↔
        (Bench.fresh world store runId project config).Crowded phases paths := by
  refine ends_run_of fun fields ↦ ends_lift.mpr ?_
  refine (((Act.still_log _ _ _ _).and (Act.isFrame_alike.keeps_log _ _ _ _)).and
    (Act.raises_log (P := fun _ ↦ False) _ _ _ _)).mono ?_ fun _ _ h ↦ h.2.elim
  rintro _ w ⟨⟨hstill, halike⟩, -⟩
  have hperm := List.mergeSort_perm phases fun p q ↦ p.priority ≤ q.priority
  let b₀ : Bench := .fresh world store runId project config
  let b₁ : Bench := { b₀ with world := w }
  have hready : b₁.Recordable paths :=
    Recordable.alike (b := b₀) ((Act.still_bindField "run_id" runId world).trans hstill) halike rfl rfl
      h rfl
  have hends := ends_execute_recordable (b := b₁) crew hready
    (fun p ↦ (hpaths p).trans (by simp only [hperm.mem_iff])) { hnames.perm hperm with } hbackup rfl
  rw [show b₁.Crowded _ paths ↔ b₀.Crowded phases paths from
    crowded_alike (b := b₀) halike rfl rfl rfl hperm] at hends
  generalize b₀.Crowded phases paths = crowded at *
  have hlift : ∀ {α : Type} (act : Act α) {b : Bench}, (b.context.state = .aborted ↔ crowded) →
      Ends (lift act) b (fun _ b' ↦ b'.context.state = .aborted ↔ crowded)
        fun _ b' ↦ b'.context.state = .aborted ↔ crowded := fun act b hb ↦
    ends_lift.mpr ((ends_self (s := b.world)).mono (fun _ _ _ ↦ hb) fun _ _ _ ↦ hb)
  refine hends.mono (fun _ b hb ↦ ?_) fun _ _ hb ↦ hb
  exact (hlift _ (b := b.left) hb).mono (fun _ b' hb' ↦ ⟨fun _ _ ↦ hb', fun _ _ _ ↦ hlift _ hb'⟩)
    fun _ _ hb ↦ hb

end RunAct

/-! ### Runs of findings -/

/-- The files of a plan are those that the findings are in. -/
theorem PlannerConfig.IsPlan.mem_files {c : PlannerConfig} {found : List Finding}
    {phases : List Phase} (h : c.IsPlan found phases) (p : Path) :
    p ∈ found.map (fun f ↦ Path.ofString f.file) ↔ ∃ phase ∈ phases, p ∈ phase.files := by
  simp only [Phase.files, List.mem_mergeSort, mem_distinct, List.mem_map, ← h.partition.mem_iff,
    List.mem_flatMap]
  grind

theorem PlannerConfig.IsPlan.eq_nil_iff {c : PlannerConfig} {found : List Finding}
    {phases : List Phase} (h : c.IsPlan found phases) : phases = [] ↔ found = [] := by
  constructor
  · rintro rfl
    exact h.partition.symm.eq_nil
  · rintro rfl
    refine List.eq_nil_iff_forall_not_mem.mpr fun phase hphase ↦ ?_
    exact absurd ((h.causes phase.cause).mp (List.mem_map_of_mem hphase)) List.not_mem_nil

/-- Files each of which can be read or is missing are recorded just if there is room for the
snapshot, and then it holds whatever is read of them. Findings in any order have a plan; and if the
files that they are in can be recorded, a run of it that records files is aborted just if there are
findings, but no room for the snapshot. -/
theorem recorded_of_room (s : Store) {w : World} (hw : w.files.Sound) :
    (∀ runId key files, s.Receives runId key files w.files →
      Ends (s.snapshot runId key files) w
        (fun taken _ ↦ (s.picture runId key files w.files).HasRoom s.project ∧
          taken = (s.picture runId key files w.files, s.hold (s.picture runId key files w.files)))
        fun e _ ↦ ¬ (s.picture runId key files w.files).HasRoom s.project ∧
          ∃ cause, e = .backup (.unwritable (s.location runId key).text cause)) ∧
    ∀ (c : PlannerConfig) (found : List Finding), c.Sound → ∃ phases,
      (∀ w, (plan c found w).1 = .ok phases) ∧ c.IsPlan found phases ∧
      ∀ (crew : Crew) (runId : String) (config : RunConfig),
        config.backupEnabled = true → config.dryRun = false → (∀ key, s.get runId key = none) →
        let paths := found.map fun f ↦ Path.ofString f.file
        let b := Bench.fresh w s runId s.project config
        b.Recordable paths → Ends (RunAct.run crew phases) b
          (fun _ b' ↦ b'.context.state = .aborted ↔
            found ≠ [] ∧ ¬ (s.picture runId runKey paths w.files).HasRoom s.project)
          fun _ b' ↦ b'.context.state = .aborted ↔
            found ≠ [] ∧ ¬ (s.picture runId runKey paths w.files).HasRoom s.project := by
  refine ⟨fun runId key files h ↦ s.ends_snapshot_room hw h, fun c found hc ↦ ?_⟩
  obtain ⟨phases, hphases, hplan⟩ := exists_plan hc found
  refine ⟨phases, hphases, hplan, fun crew runId config hbackup hdry hfresh ↦ ?_⟩
  intro paths b hrecordable
  have hcrowded : b.Crowded phases paths ↔
      found ≠ [] ∧ ¬ (s.picture runId runKey paths w.files).HasRoom s.project :=
    ⟨fun h ↦ ⟨mt hplan.eq_nil_iff.mpr h.phases, h.room⟩,
      fun h ↦ ⟨mt hplan.eq_nil_iff.mp h.1, hdry, h.2⟩⟩
  rw [← hcrowded]
  exact RunAct.ends_run_recordable crew hrecordable hplan.mem_files
    ⟨fun _ _ ↦ hfresh _, hplan.refs, fun phase hphase ↦ (hplan.keys phase hphase).2⟩ hbackup

section Sample

open Store

/-- In a project without backups there is room for the directory of a snapshot. -/
theorem extensible_ofProject {t : FileTree}
    (hwalk : t.walkWithin true linkLimit [] ["p"] = .ok (.at ["p"] (.directory 0)))
    (hlook : t.look ["p", defaultBackupDirectory] = none) :
    t.Extensible ((Store.ofProject ["p"] defaultBackupDirectory).location "run-1" runKey) where
  absolute := rfl
  short := by decide
  way := by
    refine ⟨["p"], ["p"], defaultBackupDirectory, ["run-1", runKey], rfl,
      walk_of_walkWithin hwalk, hlook, ?_⟩
    simp only [List.forall_mem_cons]
    exact ⟨⟨by decide, by decide⟩, ⟨by decide, by decide⟩, ⟨by decide, by decide⟩, nofun⟩

/-- What is recorded of the sample. -/
theorem picture_sample :
    sampleStore.picture "run-1" runKey (sampleNames.map Path.ofString) sampleWorld.files =
      sampleSnapshot := by
  have hroutes : sampleStore.routes (sampleNames.map Path.ofString) sampleWorld.files =
      [["p", "a.ts"], ["p", "b.ts"]] := by
    simp only [routes, mergeSort_le]
    decide
  unfold picture
  rw [hroutes]
  rfl

/-- Where the paths of the sample lead. -/
theorem resolve_sample (name : String) (hname : name ∈ sampleNames) :
    sampleWorld.files.resolve ((Route.path sampleStore.project).join (Path.ofString name)) =
        .ok ["p", name] ∧
      sampleWorld.files.resolve (Route.path ["p", name]) = .ok ["p", name] := by
  have hoptions : ∀ name ∈ sampleNames,
      (sampleWorld.files.resolve
        ((Route.path sampleStore.project).join (Path.ofString name))).toOption = some ["p", name] ∧
      (sampleWorld.files.resolve (Route.path ["p", name])).toOption = some ["p", name] := by
    decide
  exact ⟨eq_ok_of_toOption (hoptions name hname).1, eq_ok_of_toOption (hoptions name hname).2⟩

theorem receives_sample :
    sampleStore.Receives "run-1" runKey (sampleNames.map Path.ofString) sampleWorld.files where
  names := by decide
  unheld := rfl
  nul := rfl
  place := extensible_ofProject rfl (by decide)
  files p hp := by
    obtain ⟨name, hname, rfl⟩ := List.mem_map.mp hp
    refine ⟨_, (resolve_sample name hname).1, fun e he ↦ ?_⟩
    obtain rfl | rfl := List.mem_pair.mp hname
    · obtain rfl : (⟨.notFound, "/p/b.ts", none⟩ : FileError) = e := Except.error.inj he
      rfl
    · cases he

theorem hasRoom_sample : sampleSnapshot.HasRoom sampleStore.project where
  manifest := by decide
  backups i r content hi := by
    rcases i with _ | _ | i
    · cases hi
      decide
    · cases hi
    · cases hi

theorem recordable_sample :
    (Bench.fresh sampleWorld sampleStore "run-1" sampleStore.project {}).Recordable
      (sampleNames.map Path.ofString) := by
  refine ⟨sound_sample, rfl, receives_sample, fun p hp r hr ↦ ?_⟩
  obtain ⟨name, hname, rfl⟩ := List.mem_map.mp hp
  obtain ⟨hresolve, hagain⟩ := resolve_sample name hname
  obtain rfl : r = ["p", name] := Except.ok.inj (hr.symm.trans hresolve)
  exact hagain

/-- A run of findings in the two files, and the snapshot that it takes of them. -/
theorem recorded_of_room_sample :
    let paths := sampleNames.map Path.ofString
    let found : List Finding :=
      sampleNames.map fun file ↦ ⟨⟨file, 1, 1, "TS1005", "", ""⟩, .syntactic, {}⟩
    let b := Bench.fresh sampleWorld sampleStore "run-1" sampleStore.project {}
    sampleWorld.files.Sound ∧ sampleStore.Receives "run-1" runKey paths sampleWorld.files ∧
      (∃ w, sampleStore.snapshot "run-1" runKey paths sampleWorld =
        (.ok (sampleSnapshot, sampleStore.hold sampleSnapshot), w)) ∧
      ({} : PlannerConfig).Sound ∧ b.Recordable paths ∧
      ∃ phases, (∀ w, (plan {} found w).1 = .ok phases) ∧
        Ends (RunAct.run ⟨[(.syntactic, .idle)], []⟩ phases) b
          (fun _ b ↦ b.context.state ≠ .aborted) fun _ b ↦ b.context.state ≠ .aborted := by
  intro paths found b
  have hsound : ({} : PlannerConfig).Sound := ⟨nofun, nofun⟩
  obtain ⟨hsnapshot, hruns⟩ := recorded_of_room sampleStore sound_sample
  obtain ⟨phases, hphases, -, hrun⟩ := hruns {} found hsound
  have htaken := hsnapshot _ _ _ receives_sample
  have hended := hrun ⟨[(.syntactic, .idle)], []⟩ "run-1" {} rfl rfl (fun _ ↦ rfl) recordable_sample
  rw [show (found.map fun f ↦ Path.ofString f.file) = paths from rfl] at hended
  simp only [paths, picture_sample, hasRoom_sample, not_true_eq_false, and_false, iff_false]
    at htaken hended
  obtain ⟨_, w, htaken, -, rfl⟩ := (htaken.mono (fun _ _ h ↦ h) fun _ _ h ↦ h.1.elim).exists_ok
  exact ⟨sound_sample, receives_sample, ⟨w, htaken⟩, hsound, recordable_sample, phases, hphases,
    hended⟩

end Sample

/-! ### Files far below -/

theorem Phase.files_sample (cause : RootCause) (file : String) :
    (Phase.sample cause [file]).files = [Path.ofString file] := by
  show (distinct [Path.ofString file]).mergeSort Path.le = _
  rw [show distinct [Path.ofString file] = [Path.ofString file] from rfl]
  exact List.mergeSort_singleton _

namespace Scenario

/-- A long name, but not too long. -/
def farName : String := String.ofList (List.replicate 120 'd')

/-- A project with a file two directories below, each of which has a long name. -/
def farBelow : Scenario :=
  .sample [(["p", farName], .directory 0), (["p", farName, farName], .directory 0),
      (["p", farName, farName, "f.ts"], .file (Text.encode "old") 0o644)]
    [.sample .syntactic [farName ++ "/" ++ farName ++ "/f.ts"]]

theorem files_farBelow :
    farBelow.phases.flatMap Phase.files = [⟨.none, [farName, farName, "f.ts"]⟩] := by
  -- The characters of the path are found without reading the bytes of the name.
  have hchars : ∀ cs : List Char, (String.ofList cs ++ "/" ++ String.ofList cs ++ "/f.ts").toList =
      cs ++ '/' :: (cs ++ ['/', 'f', '.', 't', 's']) := by simp
  have hpath : Path.ofString (farName ++ "/" ++ farName ++ "/f.ts") =
      Path.ofChars (List.replicate 120 'd' ++
        '/' :: (List.replicate 120 'd' ++ ['/', 'f', '.', 't', 's'])) :=
    congrArg Path.ofChars (hchars _)
  show (Phase.sample _ [_]).files ++ [] = _
  rw [List.append_nil, Phase.files_sample, hpath]
  decide +kernel

/-- What there is in the project, and where the path of the file leads. -/
theorem tree_farBelow :
    let t := farBelow.world.files
    (∀ e ∈ t.entries, t.HasDirectory e.1.dropLast) ∧
      t.look ["p", defaultBackupDirectory] = none ∧
      (t.content (Route.path ["p", farName, farName, "f.ts"])).toOption = some (Text.encode "old") ∧
      (t.resolve ((Route.path farBelow.store.project).join
        ⟨.none, [farName, farName, "f.ts"]⟩)).toOption = some ["p", farName, farName, "f.ts"] ∧
      (t.resolve (Route.path ["p", farName, farName, "f.ts"])).toOption =
        some ["p", farName, farName, "f.ts"] := by
  decide +kernel

theorem resolve_farBelow {p : Path} (hp : p ∈ farBelow.phases.flatMap Phase.files) :
    farBelow.world.files.resolve ((Route.path farBelow.store.project).join p) =
        .ok ["p", farName, farName, "f.ts"] ∧
      farBelow.world.files.resolve (Route.path ["p", farName, farName, "f.ts"]) =
        .ok ["p", farName, farName, "f.ts"] := by
  rw [files_farBelow, List.mem_singleton] at hp
  subst hp
  obtain ⟨-, -, -, hjoined, hroute⟩ := tree_farBelow
  exact ⟨Store.eq_ok_of_toOption hjoined, Store.eq_ok_of_toOption hroute⟩

theorem content_farBelow :
    farBelow.world.files.content (Route.path ["p", farName, farName, "f.ts"]) =
      .ok (Text.encode "old") :=
  Store.eq_ok_of_toOption tree_farBelow.2.2.1

theorem recordable_farBelow :
    farBelow.bench.Recordable (farBelow.phases.flatMap Phase.files) where
  sound := sound_of_entries (by decide) tree_farBelow.1
  project := rfl
  receives := {
    names := by decide
    unheld := rfl
    nul := rfl
    place := extensible_ofProject rfl tree_farBelow.2.1
    files := fun p hp ↦ ⟨_, (resolve_farBelow hp).1, fun e he ↦
      nomatch content_farBelow.symm.trans he⟩ }
  settled p hp r hr := by
    obtain ⟨hresolve, hagain⟩ := resolve_farBelow hp
    obtain rfl := Except.ok.inj (hr.symm.trans hresolve)
    exact hagain

theorem whole_farBelow :
    (farBelow.bench.whole (farBelow.phases.flatMap Phase.files)).files =
      [(["p", farName, farName, "f.ts"], some (Text.encode "old"))] := by
  have hresolve := (resolve_farBelow (p := ⟨.none, [farName, farName, "f.ts"]⟩) (by
    rw [files_farBelow]
    exact List.mem_singleton_self _)).1
  rw [files_farBelow]
  refine (Store.picture_singleton hresolve).trans ?_
  rw [content_farBelow]
  rfl

/-- What the backup file is called of a file below two directories with the same name. -/
theorem backupName_below (cs : List Char) :
    backupName 0 (Path.text ⟨.none, [String.ofList cs, String.ofList cs, "f.ts"]⟩) =
      Calendar.padded 4 0 ++ "-" ++
        String.ofList (((cs ++ '/' :: (cs ++ ['/', 'f', '.', 't', 's'])).flatMap
          fun c ↦ if c = '/' ∨ c = '\\' then ['_', '_'] else [c]).dropWhile (· = '_')) := by
  have hchars : (Path.text ⟨.none, [String.ofList cs, String.ofList cs, "f.ts"]⟩).toList =
      cs ++ '/' :: (cs ++ ['/', 'f', '.', 't', 's']) := by
    simp [Path.text, Path.PathRoot.text]
  rw [backupName, hchars]

/-- The name of the backup file is made of both names, and there is no room for it. -/
theorem crowded_farBelow :
    farBelow.bench.Crowded farBelow.phases (farBelow.phases.flatMap Phase.files) := by
  refine ⟨List.cons_ne_nil _ _, rfl, fun hroom ↦ ?_⟩
  have hfits := (hroom.backups 0 _ _ (by rw [whole_farBelow]; rfl)).2
  have hname : backupName 0
      (farBelow.bench.store.project.shownFrom ["p", farName, farName, "f.ts"]) = _ :=
    backupName_below (List.replicate 120 'd')
  rw [Snapshot.backup, Path.name_child, hname] at hfits
  exact absurd hfits (by decide +kernel)

end Scenario

/-- The file can be read, and no name on the way to it is too long; but a snapshot of it cannot be
written, and the run is aborted. -/
theorem RunAct.aborted_of_farBelow :
    let x := Scenario.farBelow
    let files := x.phases.flatMap Phase.files
    x.world.files.Sound ∧ x.store.Receives x.runId runKey files x.world.files ∧
      (∀ p ∈ files, p.names.length = 3 ∧ ∀ name ∈ p.names, name.utf8ByteSize ≤ 120) ∧
      Ends (x.store.snapshot x.runId runKey files) x.world (fun _ _ ↦ False)
        (fun e _ ↦ e.isA .backup = true) ∧
      x.config.backupEnabled = true ∧
      Ends (RunAct.run x.crew x.phases) x.bench (fun _ b ↦ b.context.state = .aborted)
        fun _ b ↦ b.context.state = .aborted := by
  intro x files
  have hrecordable : x.bench.Recordable files := Scenario.recordable_farBelow
  have hcrowded : x.bench.Crowded x.phases files := Scenario.crowded_farBelow
  have hnames : x.bench.NamesFree x.phases :=
    ⟨fun _ _ ↦ rfl, List.nodup_singleton _, fun phase hphase ↦ by
      rw [List.mem_singleton.mp hphase]
      decide⟩
  refine ⟨hrecordable.sound, hrecordable.receives, ?_, ?_, rfl, ?_⟩
  · rw [show files = _ from Scenario.files_farBelow]
    decide +kernel
  · exact (x.store.ends_snapshot_room hrecordable.sound hrecordable.receives).mono
      (fun _ _ h ↦ hcrowded.room h.1) fun _ _ h ↦ by
        obtain ⟨-, cause, rfl⟩ := h
        rfl
  · have hends := ends_run_recordable x.crew hrecordable (fun _ ↦ List.mem_flatMap) hnames rfl
    exact hends.mono (fun _ _ h ↦ h.mpr hcrowded) fun _ _ h ↦ h.mpr hcrowded

end Remedy
