import Remedy.Proofs.Passing
import Remedy.Proofs.Run.Recording

/-!
# Runs guard their files

Throughout a run every call of a fixer is backed by snapshots, whether or not the run returns, and
when the run has come to its end, its files are left as the state says (`Scenario.ends_run`).

While a phase is carried out, attempts and waits keep the phase engaged
(`Scenario.Engaged.ends_attempts`); an engaged phase that is settled leaves the run steady, or has
ended it (`Scenario.Leaves`). If the phase is mendable, nothing is in the way of putting back what
was recorded of it (`Scenario.Engaged.ends_restore_mendable`), so that the run does not get stuck.
-/

set_option autoImplicit false

namespace Remedy

open FileTree

/-- Counting one thing more cannot fail. -/
theorem RunAct.ends_countOne (tally : Meter.Tally) (cause : RootCause) (b : Bench) :
    Ends (RunAct.count tally 1 cause) b (fun _ b' ↦ b.Rests b') fun _ _ ↦ False := by
  have hsteady : Act.Steady (fun _ _ ↦ True) (Act.count tally 1 [("root_cause", cause.name)]) :=
    Act.steady_count rfl rfl tally _
  refine RunAct.ends_lift.mpr (((Act.still_count tally 1 _ b.world).and
    (hsteady b.world trivial)).mono ?_ ?_)
  · exact fun _ w h ↦ .inWorld b h.1
  · exact fun _ w h ↦ h.2

namespace Scenario

variable {x : Scenario} {whole : Option Snapshot} {phase : Phase} {start : Scene}
  {files : List Route} {s : Snapshot} {b b' : Bench}

/-- In a tame scenario the files of the phase can be put back one by one. -/
theorem Engaged.restorable (h : x.Engaged whole phase start files s b) (hx : x.Proper)
    (hphase : phase ∈ x.phases) (htame : x.Tame) :
    Restorable b.world.files b.world.logFile (· ∈ files) ∧
      (∀ r ∈ files, r ∈ s.paths ∧ ¬ x.Reserved start.files r) ∧
      ∀ e ∈ s.files, e.1 ∈ files ∧ e.2 = start.files.bytes? e.1 := by
  have hbefore : ∀ r, b.world.files.link? r = x.world.files.link? r := (h.tame htame).links
  have hlinks : ∀ r, start.files.link? r = x.world.files.link? r := fun r ↦
    ((h.since htame).links r).symm.trans (hbefore r)
  have hfile : ∀ r ∈ files, x.IsPhaseFile r := fun r ↦ h.isPhaseFile hphase htame
  have hdirect : ∀ r ∈ files, start.files.Direct r := fun r hr ↦
    (htame.direct r (hfile r hr)).congr hlinks
  have hreserved : ∀ r ∈ files, ¬ x.Reserved start.files r := by
    intro r hr
    rw [reserved_congr hx hlinks]
    exact htame.outside r (hfile r hr)
  have hpaths : ∀ r ∈ files, r ∈ s.paths := fun r hr ↦ h.armed.paths r hr (hdirect r hr)
  have hentry : ∀ e ∈ s.files, e.1 ∈ files ∧ e.2 = start.files.bytes? e.1 ∧ e.1 ≠ [] := by
    intro e he
    have hmem := h.armed.only hdirect e.1 (List.mem_map_of_mem he)
    exact ⟨hmem, h.armed.entries e he (hdirect _ hmem) (hreserved _ hmem)⟩
  refine ⟨⟨?_, ?_, ?_, ?_, ?_⟩, fun r hr ↦ ⟨hpaths r hr, hreserved r hr⟩,
    fun e he ↦ ⟨(hentry e he).1, (hentry e he).2.1⟩⟩
  case refine_1 => exact fun r hr ↦ (htame.direct r (hfile r hr)).congr hbefore
  case refine_2 =>
    intro r hr
    obtain ⟨e, he, rfl⟩ := List.mem_map.mp (hpaths r hr)
    exact (hentry e he).2.2
  case refine_3 =>
    intro r hr n
    rw [hbefore, link?, (htame.drafts r (hfile r hr) n).1]
  case refine_4 =>
    intro r hr n
    obtain ⟨hlook, hphases, hown⟩ := htame.drafts r (hfile r hr) n
    rw [(h.tame htame).bytes _ fun hor ↦ hor.elim hphases hown, bytes?, hlook]
  case refine_5 =>
    intro r hr n
    obtain ⟨-, hphases, hown⟩ := htame.drafts r (hfile r hr) n
    refine ⟨fun hdraft ↦ hphases (hfile _ hdraft), fun hlog ↦ hown (.inr ?_)⟩
    exact h.log ▸ hlog

/-- No links lead to the files of a phase that is mendable. -/
theorem Engaged.direct (h : x.Engaged whole phase start files s b)
    (hmendable : x.Mendable start phase) {r : Route} (hr : r ∈ files) :
    b.world.files.Direct r := by
  have hroomy := hmendable.roomy r ((h.armed.handed r).mp hr)
  exact (hroomy.clear.direct hroomy.no_link).congr (h.within hmendable).alters.links

/-- The files of a phase that is mendable are put back. -/
theorem Engaged.ends_restore_mendable (h : x.Engaged whole phase start files s b)
    (hmendable : x.Mendable start phase) :
    Ends (Store.restore s) b.world (fun _ _ ↦ True) fun _ _ ↦ False := by
  obtain ⟨halters, hmade⟩ := h.within hmendable
  have hroomy : ∀ r ∈ files, x.Roomy start.files (x.Handed start.files phase) r := fun r hr ↦
    hmendable.roomy r ((h.armed.handed r).mp hr)
  have hdirect : ∀ r ∈ files, start.files.Direct r := fun r hr ↦
    (hroomy r hr).clear.direct (hroomy r hr).no_link
  have hmem : ∀ e ∈ s.files, e.1 ∈ files := fun e he ↦
    h.armed.only hdirect e.1 (List.mem_map_of_mem he)
  -- Where nothing was, only a directory that the run has claimed can have come to be.
  have hfree : ∀ p, p ∉ files → ¬ x.Reserved start.files p → start.files.look p = none →
      b.world.files.look p = none ∨ b.world.files.HasDirectory p := fun p hp hown ↦
    halters.none_or_directory fun hor ↦ hor.elim hp hown
  have hdrafts : Snapshot.Draftable s.files b.world.draws := fun e he n _ e' he' ↦
    ((hroomy e.1 (hmem e he)).drafts n).2.2 e'.1 ((h.armed.handed e'.1).mp (hmem e' he'))
  have hready : Snapshot.Ready s.files b.world.draws b.world.files := by
    refine ⟨h.sound, fun e he ↦ ⟨(hroomy e.1 (hmem e he)).clear.no_dots, fun p hp hne ↦ ?_⟩,
      fun e he n _ ↦ ?_⟩
    · have hfile := hroomy e.1 (hmem e he)
      rcases hfile.clear.above p hp hne with hdir | hnone
      · exact .inl (halters.directories p hdir)
      · refine (hfree p (fun hin ↦ hne ?_) (hfile.outside p hp) hnone).symm
        exact hfile.apart p ((h.armed.handed p).mp hin) hp
    · obtain ⟨hnone, hunclaimed, happart⟩ := (hroomy e.1 (hmem e he)).drafts n
      refine (hfree _ (fun hin ↦ ?_) (fun hown ↦ hunclaimed (.inl hown)) hnone).resolve_right
        fun hdir ↦ ?_
      · exact happart _ ((h.armed.handed _).mp hin) List.prefix_rfl
      · exact (hmade _ hdir).elim (not_hasDirectory_of_none hnone) hunclaimed
  refine (Store.ends_restore_recoverable s h.accepted.toCoherent hdrafts hready le_rfl).mono
    (fun _ _ _ ↦ trivial) ?_
  rintro e w ⟨failed, -, -, -, hno⟩
  refine hno fun e he ↦ ?_
  have hfile := hroomy e.1 (hmem e he)
  refine h.accepted.recoverable he h.sound ((halters.links e.1).trans hfile.no_link)
    (fun hdir ↦ (hmade e.1 hdir).elim hfile.no_directory hfile.unclaimed) (hfile.fits.passable _)
    fun hthere ↦ ?_
  obtain ⟨hcontent, hroot⟩ := h.armed.entries e he (hdirect e.1 (hmem e he))
    (hfile.outside e.1 List.prefix_rfl)
  rw [hcontent] at hthere
  refine ⟨halters.directories _ (h.armed.start_sound.above (fun hnone ↦ hthere ?_)
    (List.dropLast_prefix _) fun heq ↦ ?_), hfile.space hthere⟩
  · rw [bytes?, hnone]
  · have hlength := congrArg List.length heq
    rw [List.length_dropLast] at hlength
    exact absurd (List.length_pos_iff.mpr hroot) (by omega)

/-! ### Attempts -/

section Attempts

variable {α β : Type} {ok : β → Bench → Prop} {bad : Fault → Bench → Prop}

/-- A calm step keeps the phase engaged. -/
theorem Engaged.next (h : x.Engaged whole phase start files s b) {act : RunAct α}
    {f : α → RunAct β} (hact : RunAct.Calmly act)
    (hbad : ∀ e b', x.Engaged whole phase start files s b' → bad e b')
    (hnext : ∀ a b', x.Engaged whole phase start files s b' → Ends (f a) b' ok bad) :
    Ends (act >>= f) b ok bad :=
  ends_bind.mpr ((hact b).mono (fun a b' hrests ↦ hnext a b' (h.rests hrests))
    fun e b' hrests ↦ hbad e b' (h.rests hrests))

variable {fixer : Fixer} {number : Nat}

theorem Engaged.ends_callFixer (h : x.Engaged whole phase start files s b) (hx : x.Proper)
    (hphase : phase ∈ x.phases) (hdry : x.config.dryRun = false)
    (hfixer : x.crew.registry.get phase.fixerRef = .ok fixer) :
    Ends (RunAct.callFixer fixer phase files number) b
      (fun _ b' ↦ x.Engaged whole phase start files s b')
      fun _ b' ↦ x.Engaged whole phase start files s b' := by
  unfold RunAct.callFixer
  refine h.next (RunAct.calmly_count _ _ _) (fun _ _ h ↦ h) fun _ b₁ h ↦ ?_
  refine h.next (RunAct.calmly_log _ _ _) (fun _ _ h ↦ h) fun _ b₂ h ↦ ?_
  refine ends_bind.mpr (RunAct.ends_update.mpr ?_)
  have hmarked : x.Engaged whole phase start files s
      (b₂.change fun c ↦ { c with mutated := true }) :=
    h.rests ⟨.change b₂ ⟨rfl, rfl, rfl, rfl, fun h ↦ by cases h⟩, rfl⟩
  refine Ends.guard (fun _ ↦ hmarked) fun _ ↦ ?_
  refine ends_bind.mpr (ends_get.mpr (ends_bind.mpr (RunAct.ends_note.mpr ?_)))
  let request : FixRequest :=
    ⟨files.map Route.path, phase.findings, b₂.world.now + Moment.ofSeconds phase.timeout⟩
  obtain ⟨hnoted, hopening⟩ := hmarked.note hphase hdry (rfl : request.files = _) rfl
  refine ends_bind.mpr (RunAct.ends_lift.mpr ?_)
  have hconfined : x.Tame → Becomes (· ∈ files) b₂.world.files
      (fixer.fix request b₂.world.toSite).2.files := fun htame ↦
    htame.confined _ _ hfixer request files b₂.world.toSite rfl
      (hnoted.restorable hx hphase htame).1.direct hnoted.sound
  have hedits : x.Mendable start phase → Edits (· ∈ files) b₂.world.files
      (fixer.fix request b₂.world.toSite).2.files := fun hmendable ↦
    hmendable.edits _ hfixer request files b₂.world.toSite rfl
      (fun r hr ↦ hnoted.direct hmendable hr) hnoted.sound
  have hworked := hnoted.worked hopening rfl hphase
    (hx.sane _ _ hfixer request files b₂.world.toSite rfl hnoted.sound) hconfined hedits
  refine (Act.ends_race _ phase.timeout _).mono (fun settled w hw ↦ ?_) fun _ w hw ↦ ?_
  · have hraced := hworked.rests (.inWorld _ hw)
    exact (RunAct.calmly_judge phase number settled _).mono (fun _ _ hrests ↦ hraced.rests hrests)
      fun _ _ hrests ↦ hraced.rests hrests
  · exact hworked.rests (.inWorld _ hw)

theorem Engaged.ends_attemptPhase (h : x.Engaged whole phase start files s b) (hx : x.Proper)
    (hphase : phase ∈ x.phases) (hdry : x.config.dryRun = false)
    (hfixer : x.crew.registry.get phase.fixerRef = .ok fixer) :
    Ends (RunAct.attemptPhase fixer phase files number) b
      (fun _ b' ↦ x.Engaged whole phase start files s b')
      fun _ b' ↦ x.Engaged whole phase start files s b' := by
  unfold RunAct.attemptPhase
  refine ends_bind.mpr (ends_modify.mpr ?_)
  have hnumbered : x.Engaged whole phase start files s
      { b with progress := { b.progress with attempt := number } } :=
    h.rests ⟨⟨.refl _, rfl, .refl _, .refl⟩, rfl⟩
  dsimp only
  split
  · refine ends_bind.mpr ((RunAct.ends_moveCalmly .retrying _ _ _).mono ?_ ?_)
    · rintro _ b₁ ⟨hcalm, hstate, -⟩
      exact (hnumbered.calm hcalm (by rw [hstate]; rfl)).ends_callFixer hx hphase hdry hfixer
    · rintro _ b₁ rfl
      exact hnumbered
  · exact hnumbered.ends_callFixer hx hphase hdry hfixer

/-- However many attempts are made, the phase is engaged after them. -/
theorem Engaged.ends_attempts (h : x.Engaged whole phase start files s b) (hx : x.Proper)
    (hphase : phase ∈ x.phases) (hdry : x.config.dryRun = false)
    (hfixer : x.crew.registry.get phase.fixerRef = .ok fixer) (policy : RetryPolicy)
    (left : Nat) :
    Ends (retryFrom policy (RunAct.attemptPhase fixer phase files)
        (fun number fault wait ↦ RunAct.lift (Act.rest number fault wait)) left number) b
      (fun _ b' ↦ x.Engaged whole phase start files s b')
      fun _ b' ↦ x.Engaged whole phase start files s b' := by
  refine ends_retryFrom (I := fun _ b ↦ x.Engaged whole phase start files s b)
    (fun _ _ h ↦ h.ends_attemptPhase hx hphase hdry hfixer) ?_ _ _ _ h
  intro n e b' h' _
  exact (RunAct.calmly_lift (Act.still_rest _ _ _) b').mono (fun _ _ hrests ↦ h'.rests hrests)
    fun _ _ hrests ↦ h'.rests hrests

end Attempts

/-! ### Settling -/

variable (x) in
/-- Every call has been backed, and the files are left as the state says. -/
structure Done (b : Bench) : Prop extends x.Safe b where
  fate : x.Tame → x.Fate b

variable (x) in
/-- The run is steady and goes on, or it has come to its end. -/
def Leaves (whole : Option Snapshot) (b : Bench) : Prop :=
  x.Steady whole b ∨ b.context.state.isTerminal = true ∧ x.Done b

/-- The other states in which a run may end say nothing about its files. -/
theorem Safe.ends_moveOn (h : x.Safe b) {target : RunState}
    (htarget : target = .completed ∨ target = .failed) (name : Option String) (reason : String) :
    Ends (RunAct.moveTo target name reason) b
      (fun _ b' ↦ b'.context.state.isTerminal = true ∧ x.Done b') fun _ b' ↦ x.Safe b' := by
  obtain ⟨hterminal, hrolledBack, haborted, hfailed, hnot⟩ : target.isTerminal = true ∧
      target ≠ .rolledBack ∧ target ≠ .aborted ∧ target ≠ .rollbackFailed ∧
      ¬ target.IsStuck := by
    rcases htarget with rfl | rfl <;> decide
  refine (RunAct.ends_moveCalmly target name reason b).mono ?_ ?_
  · rintro _ b' ⟨hcalm, rfl, -⟩
    refine ⟨hterminal, h.calm hcalm (loosens_of_state rfl hnot), fun _ ↦ ?_⟩
    exact ⟨fun h ↦ absurd h hrolledBack, fun h ↦ absurd h haborted, fun h ↦ absurd h hfailed⟩
  · rintro _ b' rfl
    exact h

theorem Intact.calm {t : FileTree} (h : x.Intact t b) (hcalm : b.Calm b') : x.Intact t b' := by
  refine ⟨hcalm.world.log.trans h.log, (hcalm.world.files h.sound).sound, fun r hr ↦ ?_⟩
  rw [(alters_of_undisturbed h.sound h.log hcalm.world t).bytes r hr, h.bytes r hr]

theorem Left.calm {failed : List String} (h : x.Left start phase failed b)
    (hcalm : b.Calm b') : x.Left start phase failed b' := by
  have halters := alters_of_undisturbed h.sound h.log hcalm.world start.files
  refine ⟨hcalm.world.log.trans h.log, (hcalm.world.files h.sound).sound, h.outside, ?_⟩
  intro q hq hfailed
  rw [halters.bytes q (h.outside q hq), h.bytes q hq hfailed]

/-- What is put back in a tame scenario is what there was when the phase was begun. -/
theorem Engaged.ends_restore (h : x.Engaged whole phase start files s b) (hx : x.Proper)
    (hphase : phase ∈ x.phases) :
    Ends (Store.restore s) b.world
      (fun _ w ↦ x.Safe { b with world := w } ∧
        (x.Tame → x.Intact start.files { b with world := w }))
      fun e w ↦ x.Safe { b with world := w } ∧ (x.Tame → ∀ failed total,
        e = .rollback failed total → x.Left start phase failed { b with world := w }) := by
  by_cases htame : x.Tame
  case neg =>
    have hsafe : ∀ w, x.Safe { b with world := w } := fun w ↦
      ⟨h.guarded, fun htame' ↦ absurd htame' htame, loosens_of_goesOn h.going⟩
    exact ends_of_forall (fun _ w ↦ ⟨hsafe w, fun h ↦ absurd h htame⟩)
      fun _ w ↦ ⟨hsafe w, fun h ↦ absurd h htame⟩
  obtain ⟨hrestorable, hfiles, hentries⟩ := h.restorable hx hphase htame
  have hlog : ∀ r, ¬ x.Reserved start.files r → b.world.logFile ≠ some r :=
    fun r hr hlog ↦ hr (.inr (h.log ▸ hlog))
  have hsafe : ∀ {w}, b.world.Touches (· ∈ s.paths) w → x.Safe { b with world := w } := by
    refine fun htouches ↦ ⟨h.guarded, fun _ only hlasting all hall ↦ ?_,
      loosens_of_goesOn h.going⟩
    refine (h.stows htame only hlasting all hall).touched htouches fun r hr ↦ .inl (.inl ?_)
    obtain ⟨e, he, rfl⟩ := List.mem_map.mp hr
    exact h.isPhaseFile hphase htame (hentries e he).1
  refine (Store.ends_restore s h.sound hrestorable hentries).mono ?_ ?_
  · rintro digests w ⟨-, htouches, hrestored⟩
    have hfilesOf := htouches.files h.sound
    refine ⟨hsafe htouches, fun _ ↦ ⟨htouches.log.trans h.log, hfilesOf.sound, fun r hr ↦ ?_⟩⟩
    by_cases hmem : r ∈ s.paths
    · exact hrestored r hmem (hlog r hr)
    · have hout : r ∉ files := fun hin ↦ hmem (hfiles r hin).1
      show w.files.bytes? r = start.files.bytes? r
      rw [hfilesOf.alters.bytes r (fun hor ↦ hor.elim hmem (hlog r hr)),
        (h.since htame).bytes r fun hor ↦ hor.elim hout hr]
  · rintro e w ⟨htouches, hrestored⟩
    refine ⟨hsafe htouches, fun _ failed total he ↦ ?_⟩
    have hhanded : ∀ q, x.Handed start.files phase q → q ∈ s.paths ∧ ¬ x.Reserved start.files q :=
      fun q hq ↦ hfiles q ((h.armed.handed q).mpr hq)
    refine ⟨htouches.log.trans h.log, (htouches.files h.sound).sound, fun q hq ↦ (hhanded q hq).2,
      fun q hq hfailed ↦ ?_⟩
    obtain ⟨hmem, hreserved⟩ := hhanded q hq
    exact hrestored failed total he q hmem hfailed (hlog q hreserved)

/-- If the files of the phase that has been begun cannot be mended, none need be. -/
theorem Engaged.loosens (h : x.Engaged whole phase start files s b)
    (hbegun : begun? b'.progress.account = some start) (hnot : ¬ x.Mendable start phase) :
    x.Loosens b' := by
  intro _ start' phase' hstart' hphase' hmendable
  rw [hbegun] at hstart'
  obtain rfl := Option.some.inj hstart'
  obtain rfl : phase = phase' := by
    have hsame := h.armed.occurrence.symm.trans hphase'
    exact Occurrence.start.inj hsame
  exact hnot hmendable

theorem Engaged.ends_rollBack (h : x.Engaged whole phase start files s b) (hx : x.Proper)
    (hphase : phase ∈ x.phases) (message : String) (attempts : Nat) (elapsed : Number) :
    Ends (RunAct.rollBack phase s message attempts elapsed) b (fun _ b' ↦ x.Leaves whole b')
      fun _ b' ↦ x.Safe b' := by
  unfold RunAct.rollBack
  refine ends_bind.mpr ((RunAct.ends_moveCalmly _ _ _ _).mono ?_ ?_)
  case refine_2 =>
    rintro _ b rfl
    exact h.safe
  rintro _ b₁ ⟨hcalm, hstate, -⟩
  refine ends_bind.mpr (RunAct.ends_lift.mpr (((Act.still_giveWay b₁.world).and
    (Act.steady_giveWay (P := fun _ _ ↦ True) b₁.world trivial)).mono ?_ fun _ _ h ↦ h.2.elim))
  rintro _ w ⟨hstill, -⟩
  -- The run has moved, but its files are as they are while the phase is engaged.
  have h₂ : x.Engaged whole phase start files s { b with world := w } :=
    h.rests (.inWorld b (hcalm.still.trans hstill))
  have hmoved : ∀ w', Bench.Calm { b with world := w' } { b₁ with world := w' } := fun _ ↦
    ⟨.refl _, hcalm.store, hcalm.context, hcalm.account⟩
  have hbegun : ∀ {w' b'}, Bench.Calm { b with world := w' } b' →
      begun? b'.progress.account = some start := fun h ↦ h.account.begun?_eq.trans h₂.begun
  have hmends : Ends (Store.restore s) w (fun _ _ ↦ True)
      fun _ _ ↦ x.Mendable start phase → False := by
    by_cases hmendable : x.Mendable start phase
    · exact (h₂.ends_restore_mendable hmendable).mono (fun _ _ h ↦ h) fun _ _ h ↦ h.elim
    · exact ends_of_forall (fun _ _ ↦ trivial) fun _ _ ↦ hmendable
  refine ends_bind.mpr (ends_attempt.mpr (RunAct.ends_lift.mpr ?_))
  refine ((h₂.ends_restore hx hphase).and hmends).mono ?_ ?_
  · rintro digests w' ⟨⟨hsafe, hintact⟩, -⟩
    refine ends_bind.mpr ((RunAct.ends_countOne _ _ _).mono ?_ fun _ _ ↦ False.elim)
    intro _ b₃ hcounted
    refine (RunAct.ends_recordAndMove _ _ _ _ _ _ _ _ _ b₃).mono ?_ ?_
    · rintro _ b₄ ⟨hended, hstate, r, hlast, hname, -⟩
      have hcalm := ((hmoved w').trans hcounted.toCalm).trans hended
      have hloose : x.Loosens b₄ := loosens_of_state hstate (by decide)
      refine .inr ⟨by rw [hstate]; rfl, hsafe.calm hcalm hloose, fun htame ↦ ?_⟩
      refine ⟨fun _ ↦ ⟨start, phase, r, ?_, (hintact htame).calm hcalm⟩, ?_, ?_⟩
      · exact ⟨hbegun hcalm, h₂.armed.occurrence, hlast, hname⟩
      · exact fun hother ↦ absurd (hstate.symm.trans hother) (by decide)
      · exact fun hother ↦ absurd (hstate.symm.trans hother) (by decide)
    · rintro _ b₄ ⟨-, hblocked⟩
      rw [hcounted.state] at hblocked
      exact absurd (by rw [hstate]; decide) hblocked
  · rintro e w' ⟨⟨hsafe, hreturned⟩, hnot⟩
    have hstays : ∀ {b'}, Bench.Calm { b₁ with world := w' } b' → x.Safe b' := fun h ↦
      hsafe.calm ((hmoved w').trans h) (h₂.loosens (hbegun ((hmoved w').trans h)) hnot)
    split
    · rename_i failed total he
      cases he
      refine (RunAct.ends_recordAndMove _ _ _ _ _ _ _ _ _ _).mono ?_ ?_
      · rintro _ b₃ ⟨hended, hstate, r, hlast, hname, hdetails⟩
        have hcalm := (hmoved w').trans hended
        refine .inr ⟨by rw [hstate]; rfl, hstays hended, fun htame ↦ ?_⟩
        refine ⟨?_, ?_, fun _ ↦ ?_⟩
        · exact fun hother ↦ absurd (hstate.symm.trans hother) (by decide)
        · exact fun hother ↦ absurd (hstate.symm.trans hother) (by decide)
        exact ⟨start, phase, r, failed, ⟨hbegun hcalm, h₂.armed.occurrence, hlast, hname⟩,
          by rw [hdetails]; rfl, (hreturned htame failed total rfl).calm hcalm⟩
      · exact fun _ b₃ hended ↦ hstays hended.1
    · exact ends_throw.mpr (hstays (.refl _))
    · rename_i hok
      cases hok

theorem Engaged.ends_settleFailure (h : x.Engaged whole phase start files s b) (hx : x.Proper)
    (hphase : phase ∈ x.phases) (message : String) (attempts : Nat) (elapsed : Number) :
    Ends (RunAct.settleFailure phase (some s) message attempts elapsed) b
      (fun _ b' ↦ x.Leaves whole b') fun _ b' ↦ x.Safe b' := by
  unfold RunAct.settleFailure
  refine h.next (RunAct.calmly_count _ _ _) (fun _ _ h ↦ h.safe) fun _ b h ↦ ?_
  refine h.next (RunAct.calmly_count _ _ _) (fun _ _ h ↦ h.safe) fun _ b h ↦ ?_
  refine h.next (RunAct.calmly_log _ _ _) (fun _ _ h ↦ h.safe) fun _ b h ↦ ?_
  refine ends_bind.mpr (ends_get.mpr ?_)
  dsimp only
  split
  · rename_i hsnapshot _
    cases hsnapshot
    exact h.ends_rollBack hx hphase message attempts elapsed
  · refine h.next (RunAct.calmly_recordFailure _ _ _ _ _ _) (fun _ _ h ↦ h.safe) fun _ b h ↦ ?_
    split
    · refine ends_bind.mpr (RunAct.ends_update.mpr ?_)
      refine (Safe.ends_moveOn ?_ (.inr rfl) _ _).mono (fun _ _ ↦ .inr) fun _ _ h ↦ h
      exact h.safe.rests ⟨.change b ⟨rfl, rfl, rfl, rfl, id⟩, rfl⟩
    · exact ends_pure.mpr (.inl h.toSteady)

theorem Engaged.ends_carryOut (h : x.Engaged whole phase start files s b) (hx : x.Proper)
    (hphase : phase ∈ x.phases) (hdry : x.config.dryRun = false) {fixer : Fixer}
    (hfixer : x.crew.registry.get phase.fixerRef = .ok fixer) :
    Ends (RunAct.carryOut phase files (some s) fixer) b
      (fun _ b' ↦ x.Leaves whole b') fun _ b' ↦ x.Safe b' := by
  unfold RunAct.carryOut
  refine ends_bind.mpr (ends_get.mpr (ends_bind.mpr (ends_get.mpr ?_)))
  dsimp only
  refine ends_bind.mpr (ends_attempt.mpr ((h.ends_attempts hx hphase hdry hfixer _ _).mono ?_ ?_))
  · intro r b h
    refine h.next (RunAct.calmly_lift (Act.still_since _)) (fun _ _ h ↦ h.safe) fun _ b h ↦ ?_
    refine ends_bind.mpr (ends_get.mpr ((RunAct.calmly_settleSuccess _ _ _ _ b).mono ?_ ?_))
    · exact fun _ b' hrests ↦ .inl (h.rests hrests).toSteady
    · exact fun _ b' hrests ↦ (h.rests hrests).safe
  · intro e b h
    refine h.next (RunAct.calmly_lift (Act.still_since _)) (fun _ _ h ↦ h.safe) fun _ b h ↦ ?_
    refine ends_bind.mpr (ends_get.mpr ?_)
    dsimp only
    split
    · refine h.next (RunAct.calmly_observeDuration _ _) (fun _ _ h ↦ h.safe) fun _ b h ↦ ?_
      exact h.ends_settleFailure hx hphase _ _ _
    · exact ends_throw.mpr h.safe

theorem Engaged.ends_remedy (h : x.Engaged whole phase start files s b) (hx : x.Proper)
    (hphase : phase ∈ x.phases) (hdry : x.config.dryRun = false) :
    Ends (RunAct.remedy x.crew phase files (some s)) b (fun _ b' ↦ x.Leaves whole b')
      fun _ b' ↦ x.Safe b' := by
  unfold RunAct.remedy
  split
  · refine h.next (RunAct.calmly_log _ _ _) (fun _ _ h ↦ h.safe) fun _ b h ↦ ?_
    exact h.ends_settleFailure hx hphase _ _ _
  · exact h.ends_carryOut hx hphase hdry ‹_›

/-! ### Files that could not be recorded -/

variable (x) in
/-- If no fixer has been called, nothing has happened to the files that the run does not write to
itself. -/
structure Unrecorded (b : Bench) : Prop extends x.Safe b where
  fresh : b.context.mutated = false →
    (∀ scene ∈ b.progress.account, scene.isCall = false) ∧ x.Intact x.world.files b

theorem Tidy.unrecorded (h : x.Tidy b) (hx : x.Proper) (hstows : x.Stows b)
    (hrefuses : x.Refuses b b') : x.Unrecorded b' := by
  constructor
  case toSafe =>
    refine ⟨?_, fun htame only hlasting s hs ↦ ?_, loosens_of_goesOn ?_⟩
    · unfold Guarded
      rw [hrefuses.progress]
      exact h.guarded
    · rw [hrefuses.context] at hs
      exact (hstows htame only hlasting s hs).fresh hx (hrefuses.touches hlasting.dots)
    · rw [hrefuses.context]
      exact h.going
  case fresh =>
    rw [hrefuses.context, hrefuses.progress]
    intro hmutated
    obtain ⟨hfiles, hcalls⟩ := h.fresh hmutated
    refine ⟨hcalls, hrefuses.intact.log, hrefuses.intact.sound, fun r hr ↦ ?_⟩
    rw [hrefuses.intact.bytes r (by rw [reserved_congr hx hfiles.links]; exact hr),
      hfiles.bytes r hr]

theorem Unrecorded.rests (h : x.Unrecorded b) (hrests : b.Rests b') : x.Unrecorded b' := by
  refine ⟨h.toSafe.rests hrests, fun hmutated ↦ ?_⟩
  obtain ⟨hcalls, hintact⟩ := h.fresh (hrests.context.mutated hmutated)
  exact ⟨hrests.account.no_calls hcalls, hintact.calm hrests.toCalm⟩

theorem Unrecorded.ends_abort (h : x.Unrecorded b) (hmutated : b.context.mutated = false)
    (name : Option String) (reason : String) :
    Ends (RunAct.moveTo .aborted name reason) b
      (fun _ b' ↦ b'.context.state.isTerminal = true ∧ x.Done b') fun _ b' ↦ x.Safe b' := by
  obtain ⟨hcalls, hintact⟩ := h.fresh hmutated
  refine (RunAct.ends_moveCalmly .aborted name reason b).mono ?_ ?_
  · rintro _ b' ⟨hcalm, hstate, -⟩
    refine ⟨by rw [hstate]; rfl, h.toSafe.calm hcalm (loosens_of_state hstate (by decide)),
      fun _ ↦ ⟨?_, fun _ ↦ ?_, ?_⟩⟩
    · exact fun hother ↦ absurd (hstate.symm.trans hother) (by decide)
    · exact ⟨hcalm.account.no_calls hcalls, hintact.calm hcalm⟩
    · exact fun hother ↦ absurd (hstate.symm.trans hother) (by decide)
  · rintro _ b' rfl
    exact h.toSafe

theorem Unrecorded.ends_settleUnrecorded (h : x.Unrecorded b) (phase : Phase) (fault : Fault) :
    Ends (RunAct.settleUnrecorded phase fault) b
      (fun _ b' ↦ b'.context.state.isTerminal = true ∧ x.Done b') fun _ b' ↦ x.Safe b' := by
  unfold RunAct.settleUnrecorded
  refine ends_bind.mpr ((RunAct.calmly_refuse _ b).mono ?_ fun _ _ hrests ↦
    (h.rests hrests).toSafe)
  intro _ b₁ hrests
  have h₁ := h.rests hrests
  refine ends_bind.mpr ((RunAct.calmly_recordFailure _ _ _ _ _ _ b₁).mono ?_ fun _ _ hrests ↦
    (h₁.rests hrests).toSafe)
  intro _ b₂ hrests
  have h₂ := h₁.rests hrests
  refine ends_bind.mpr ((RunAct.calmly_fail _ b₂).mono ?_ fun _ _ hrests ↦
    (h₂.rests hrests).toSafe)
  intro _ b₃ hrests
  have h₃ := h₂.rests hrests
  refine ends_bind.mpr (ends_get.mpr ?_)
  cases hmutated : b₃.context.mutated with
  | true => exact h₃.toSafe.ends_moveOn (.inr rfl) _ _
  | false => exact h₃.ends_abort hmutated _ _

/-! ### Phases -/

/-- A phase that has just been begun is carried out. -/
theorem Begun.ends_runPhase (h : x.Begun whole phase start b) (hx : x.Proper)
    (hphase : phase ∈ x.phases) (hstart : b.world.files = start.files) :
    Ends (RunAct.runPhase x.crew whole phase) b (fun _ b' ↦ x.Leaves whole b')
      fun _ b' ↦ x.Safe b' := by
  refine RunAct.ends_runPhase_of ((h.ends_filesOf phase).mono ?_ fun _ b hb ↦ hb ▸ h.safe)
  rintro files b ⟨rfl, hfiles, -⟩ fields
  rw [hstart] at hfiles
  refine (RunAct.calmly_log _ _ _ b).mono ?_ fun _ _ hrests ↦ h.safe.rests hrests
  intro _ b₁ hrests
  have h₁ := h.calm hrests.toCalm (hrests.state ▸ h.going)
  constructor
  case rehearsed =>
    exact fun _ ↦ (RunAct.calmly_rehearse phase files b₁).mono
      (fun _ b₂ hrests ↦ .inl (h₁.toSteady.calm hrests.toCalm (hrests.state ▸ h₁.going)))
      fun _ _ hrests ↦ h₁.safe.rests hrests
  case recorded =>
    rw [h₁.config]
    refine fun hdry _ ↦ (h₁.ends_phaseSnapshot hx hphase hdry hfiles).mono
      (fun s b₂ hengaged ↦ hengaged.ends_remedy hx hphase hdry) fun e b₂ hrefuses ↦ ?_
    have hunrecorded := h₁.toTidy.unrecorded hx h₁.stows hrefuses
    refine ⟨fun _ ↦ ?_, fun _ ↦ hunrecorded.toSafe⟩
    exact (hunrecorded.ends_settleUnrecorded phase e).mono (fun _ _ ↦ .inr) fun _ _ h ↦ h
  case unrecorded =>
    rw [h₁.config, hx.backup]
    exact fun _ ↦ nofun

/-! ### Runs -/

/-- Checks call no fixer, and if backups last, they do not get in their way. -/
theorem Safe.ends_validate (h : x.Safe b) :
    Ends (RunAct.lift (validate x.crew.checks)) b (fun _ b' ↦ x.Safe b') fun _ b' ↦ x.Safe b' := by
  have hkept : ∀ only, x.Tame → x.Lasting only →
      ∀ s, Json.lookup runKey b.context.snapshots = some s →
        x.Stowed only s (validate x.crew.checks b.world).2 := fun only htame hlasting s hs ↦
    (h.stows htame only hlasting s hs).touched
      (keeps_iff.mp (touching_validate hlasting.checks) b.world) fun _ hr ↦ .inl (.inr hr)
  have hsafe : ∀ {w}, w = (validate x.crew.checks b.world).2 → x.Safe { b with world := w } :=
    fun hw ↦ ⟨h.guarded, fun htame only hlasting s hs ↦ hw ▸ hkept only htame hlasting s hs,
      h.loosens⟩
  exact RunAct.ends_lift.mpr (ends_self.mono (fun _ _ hrun ↦ hsafe (congrArg Prod.snd hrun).symm)
    fun _ _ hrun ↦ hsafe (congrArg Prod.snd hrun).symm)

theorem Safe.ends_runValidation (h : x.Safe b) :
    Ends (RunAct.runValidation x.crew) b (fun _ b' ↦ x.Safe b') fun _ b' ↦ x.Safe b' := by
  unfold RunAct.runValidation
  refine ends_bind.mpr (ends_get.mpr ?_)
  dsimp only
  split
  · split
    · exact RunAct.ends_update.mpr (h.rests ⟨.change b ⟨rfl, rfl, rfl, rfl, id⟩, rfl⟩)
    · refine ends_bind.mpr ((RunAct.ends_moveCalmly _ _ _ b).mono ?_ ?_)
      · rintro _ b₁ ⟨hcalm, hstate, -⟩
        have h₁ := h.calm hcalm (loosens_of_state hstate (by decide))
        refine h₁.ends_validate.bind fun summary b₂ h₂ ↦ ?_
        exact RunAct.ends_update.mpr (h₂.rests ⟨.change b₂ ⟨rfl, rfl, rfl, rfl, id⟩, rfl⟩)
      · rintro _ b₁ rfl
        exact h
  · exact ends_pure.mpr h

theorem Safe.ends_conclude (h : x.Safe b) :
    Ends RunAct.conclude b (fun _ b' ↦ x.Done b') fun _ b' ↦ x.Safe b' := by
  have hend : ∀ {b}, x.Safe b → ∀ {target}, target = .completed ∨ target = .failed →
      ∀ name reason, Ends (RunAct.moveTo target name reason) b (fun _ b' ↦ x.Done b')
        fun _ b' ↦ x.Safe b' := fun h _ htarget name reason ↦
    (h.ends_moveOn htarget name reason).mono (fun _ _ h ↦ h.2) fun _ _ h ↦ h
  have hchange : ∀ f : RunContext → RunContext, b.context.Stays (f b.context) →
      (f b.context).state = b.context.state → x.Safe (b.change f) := fun f hstays hstate ↦
    h.rests ⟨.change b hstays, hstate⟩
  unfold RunAct.conclude
  refine ends_bind.mpr (ends_get.mpr ?_)
  dsimp only
  split
  · exact hend h (.inl rfl) _ _
  · split
    · refine ends_bind.mpr (RunAct.ends_update.mpr (hend (hchange _ ?_ rfl) (.inl rfl) _ _))
      exact ⟨rfl, rfl, rfl, rfl, id⟩
    · refine ends_bind.mpr (RunAct.ends_update.mpr (hend (hchange _ ?_ rfl) (.inr rfl) _ _))
      exact ⟨rfl, rfl, rfl, rfl, id⟩

theorem Ended.inWorld {r : PhaseResult} (h : Ended start phase r b) (w : World) :
    Ended start phase r { b with world := w } :=
  ⟨h.begun, h.occurrence, h.last, h.name⟩

theorem Done.inWorld (h : x.Done b) {w : World} (hw : b.world.Still w) :
    x.Done { b with world := w } := by
  have hcalm := Bench.Calm.inWorld b hw
  refine ⟨h.toSafe.rests (.inWorld b hw), fun htame ↦ ?_⟩
  obtain ⟨hrolledBack, haborted, hstuck⟩ := h.fate htame
  refine ⟨fun hstate ↦ ?_, fun hstate ↦ ?_, fun hstate ↦ ?_⟩
  · obtain ⟨start, phase, r, hended, hintact⟩ := hrolledBack hstate
    exact ⟨start, phase, r, hended.inWorld w, hintact.calm hcalm⟩
  · obtain ⟨hcalls, hintact⟩ := haborted hstate
    exact ⟨hcalls, hintact.calm hcalm⟩
  · obtain ⟨start, phase, r, failed, hended, hdetails, hleft⟩ := hstuck hstate
    exact ⟨start, phase, r, failed, hended.inWorld w, hdetails, hleft.calm hcalm⟩

/-- What is still leaves a run that is done as it is. -/
theorem Done.ends_lift (h : x.Done b) {α : Type} {act : Act α} {ok : α → Bench → Prop}
    (hact : act.Still) (hok : ∀ a b', x.Done b' → ok a b') :
    Ends (RunAct.lift act) b ok fun _ b' ↦ x.Safe b' :=
  RunAct.ends_lift.mpr ((hact b.world).mono
    (fun a _ hw ↦ hok a _ (h.inWorld hw)) fun _ _ hw ↦ (h.inWorld hw).toSafe)

theorem Leaves.inWorld (h : x.Leaves whole b) {w : World} (hw : b.world.Still w) :
    x.Leaves whole { b with world := w } := by
  rcases h with hsteady | ⟨hterminal, hdone⟩
  · exact .inl (hsteady.calm (.inWorld b hw) hsteady.going)
  · exact .inr ⟨hterminal, hdone.inWorld hw⟩

/-- When a phase is begun, the scene shows the files as they are. -/
theorem Steady.begun (h : x.Steady whole b) (phase : Phase) :
    x.Begun whole phase ⟨.start phase, b.context, b.world.files⟩ (b.note (.start phase)) := by
  constructor
  case toSteady =>
    refine ⟨{ h.toTidy with fresh := ?_, guarded := ?_ }, h.stows, h.recorded⟩
    · intro hmutated
      obtain ⟨hfiles, hcalls⟩ := h.fresh hmutated
      exact ⟨hfiles, List.forall_mem_cons.mpr ⟨rfl, hcalls⟩⟩
    · intro scene back hsuffix hcall
      rcases List.suffix_cons_iff.mp hsuffix with heq | hsuffix
      · cases heq
        cases hcall
      · exact h.guarded scene back hsuffix hcall
  case begun => exact begun?_start rfl
  case occurrence => rfl
  case start_sound => exact h.sound
  case unopened => exact opening?_start rfl
  case since => exact .refl _ _
  case flat => exact fun _ ↦ id

/-- The phases are carried out one after the other. -/
theorem Steady.ends_runPhases (hx : x.Proper) (phases : List Phase)
    (hphases : ∀ phase ∈ phases, phase ∈ x.phases) (h : x.Steady whole b) :
    Ends (RunAct.runPhases x.crew whole phases) b (fun _ b' ↦ x.Done b')
      fun _ b' ↦ x.Safe b' := by
  refine RunAct.ends_runPhases_of
    (P := fun part b ↦ (∀ phase ∈ part, phase ∈ x.phases) ∧ x.Steady whole b) ?_ ?_ ⟨hphases, h⟩
  · rintro b ⟨-, h⟩
    exact h.safe.ends_runValidation.bind fun _ b₁ h₁ ↦ h₁.ends_conclude
  · rintro phase rest b ⟨hphases, h⟩
    obtain ⟨hphase, hrest⟩ := List.forall_mem_cons.mp hphases
    refine (RunAct.ends_moveCalmly _ _ _ b).mono ?_ ?_
    case refine_2 =>
      rintro _ b₁ rfl
      exact h.safe
    rintro _ b₁ ⟨hcalm, hstate, -⟩
    have h₁ := h.calm hcalm (by rw [hstate]; rfl)
    have hbegun := (h₁.begun phase).calm
      (.inWorld _ (Act.still_bindField "phase" phase.name _)) h₁.going
    refine (hbegun.ends_runPhase hx hphase rfl).mono (fun _ b₂ hleaves ↦ ?_) fun _ b₂ hsafe ↦
      hsafe.rests (.inWorld _ (Act.still_unbindField _ _))
    have hunbound : x.Leaves whole (b₂.unbound "phase") :=
      hleaves.inWorld (Act.still_unbindField _ _)
    rcases hunbound with hsteady | ⟨hterminal, hdone⟩
    · exact .of_onward hsteady.isTerminal_eq ⟨hrest, hsteady⟩
    · exact .of_ended hterminal hdone

/-! ### Whole runs -/

/-- The files of all phases are recorded, unless there are none or the run only rehearses. -/
theorem Tidy.ends_recordAll (h : x.Tidy b) (hx : x.Proper) (hquiet : x.world.Still b.world)
    (hstows : x.Stows b) (hmutated : b.context.mutated = false) {phases : List Phase}
    (hphases : ∀ phase, phase ∈ phases ↔ phase ∈ x.phases) :
    Ends (RunAct.recordAll phases) b (fun whole b' ↦ x.Leaves whole b')
      fun _ b' ↦ x.Safe b' := by
  refine RunAct.ends_recordAll_of ?_
  constructor
  case idle =>
    refine fun hidle ↦ .inl ⟨h, hstows, fun hsome hdry ↦ ?_⟩
    obtain ⟨phase, hphase⟩ := List.exists_mem_of_ne_nil _ hsome
    have hmem := (hphases phase).mpr hphase
    rcases hidle with rfl | hidle
    · cases hmem
    · rw [h.config, hdry] at hidle
      cases hidle
  case unbacked =>
    intro hunbacked
    rw [h.config, hx.backup] at hunbacked
    cases hunbacked
  case recorded =>
    intro _ _ _
    refine (ends_mapM (fun phase ↦ (h.ends_filesOf phase).mono (fun _ _ h ↦ h)
      fun _ _ h ↦ ⟨h, trivial⟩) phases).mono ?_ ?_
    case refine_2 =>
      rintro _ _ ⟨rfl, -⟩
      exact h.safe hstows
    rintro lists b ⟨rfl, hlists⟩
    have hgathers : x.Gathers b.world.files lists.flatten := by
      refine ⟨fun r ↦ ⟨fun hr ↦ ?_, ?_⟩, fun phase hphase ↦ ?_⟩
      · obtain ⟨files, hmem, hr⟩ := List.mem_flatten.mp hr
        obtain ⟨phase, hphase, hfiles, -⟩ := answered (List.Forall₂.flip hlists) hmem
        exact ⟨phase, (hphases phase).mp hphase, (hfiles r).mp hr⟩
      · rintro ⟨phase, hphase, hr⟩
        obtain ⟨files, hmem, hfiles, -⟩ := answered hlists ((hphases phase).mpr hphase)
        exact List.mem_flatten.mpr ⟨files, hmem, (hfiles r).mpr hr⟩
      · obtain ⟨files, -, -, hresolved⟩ := answered hlists ((hphases phase).mpr hphase)
        exact hresolved
    refine (h.ends_takeWhole hx hquiet hgathers).mono (fun s b₁ hsteady ↦ .inl hsteady) ?_
    intro e b₁ hrefuses
    have h₁ := h.unrecorded hx hstows hrefuses
    refine ⟨fun _ ↦ ?_, fun _ ↦ h₁.toSafe⟩
    have hrests : b₁.Rests (b₁.refused e) :=
      ⟨⟨.refl _, rfl, ⟨rfl, rfl, rfl, rfl, id⟩, .cons rfl rfl (.cons rfl rfl .refl)⟩, rfl⟩
    refine ((h₁.rests hrests).ends_abort ?_ _ _).mono (fun _ b₂ hdone ↦ .inr hdone) fun _ _ h ↦ h
    exact (congrArg RunContext.mutated hrefuses.context).trans hmutated

theorem Tidy.ends_execute (h : x.Tidy b) (hx : x.Proper) (hquiet : x.world.Still b.world)
    (hstows : x.Stows b) (hmutated : b.context.mutated = false) {phases : List Phase}
    (hphases : ∀ phase, phase ∈ phases ↔ phase ∈ x.phases) :
    Ends (RunAct.execute x.crew phases) b (fun _ b' ↦ x.Done b') fun _ b' ↦ x.Safe b' := by
  refine RunAct.ends_execute_of ((RunAct.ends_moveCalmly _ _ _ b).mono ?_ ?_)
  case refine_2 =>
    rintro _ b₁ rfl
    exact h.safe hstows
  rintro _ b₁ ⟨hcalm, hstate, -, hsame⟩
  have h₁ := h.calm hcalm (by rw [hstate]; rfl)
  refine (h₁.ends_recordAll hx (hquiet.trans hcalm.still) (hstows.calm hcalm)
    (hsame.trans hmutated) hphases).mono ?_ fun _ _ h ↦ h
  rintro whole b₂ (hsteady | ⟨hterminal, hdone⟩)
  · exact .of_onward hsteady.isTerminal_eq
      (hsteady.ends_runPhases hx phases fun phase ↦ (hphases phase).mp)
  · exact .of_ended hterminal hdone

theorem tidy_bench (hx : x.Proper) : x.Tidy x.bench where
  going := rfl
  sound := hx.sound
  log := rfl
  root := rfl
  ofProject := rfl
  runId := rfl
  project := rfl
  config := rfl
  fresh _ := ⟨.refl _ _, fun _ hscene ↦ absurd hscene List.not_mem_nil⟩
  tame _ := .refl _ _
  guarded _ _ hsuffix := absurd (List.suffix_nil.mp hsuffix) (List.cons_ne_nil _ _)

/-- Nothing has been recorded yet. -/
theorem stows_bench : x.Stows x.bench :=
  fun _ _ _ _ hs ↦ by cases hs

/-- Every call in a run is backed, however the run ends, and when it returns, its files are left as
the state says. -/
theorem ends_run (hx : x.Proper) :
    Ends (RunAct.run x.crew x.phases) x.bench (fun _ b' ↦ x.Done b') fun _ b' ↦ x.Safe b' := by
  have hphases : ∀ phase, phase ∈ (x.phases.mergeSort fun p q ↦ p.priority ≤ q.priority) ↔
      phase ∈ x.phases := fun _ ↦ List.mem_mergeSort
  refine RunAct.ends_run_of fun fields ↦ RunAct.ends_lift.mpr (Act.ends_log fun w hlogged ↦ ?_)
  have hbound := (Act.still_bindField "run_id" x.runId x.world).trans hlogged
  have hcalm := Bench.Calm.inWorld x.bench hbound
  have h := (tidy_bench hx).calm hcalm rfl
  refine (h.ends_execute hx hbound (stows_bench.calm hcalm) rfl hphases).mono ?_ ?_
  · intro _ b hdone
    have hleft : x.Done b.left :=
      (hdone.inWorld (Act.still_unbindField "run_id" _)).inWorld (Act.still_unbindField "phase" _)
    refine hleft.ends_lift (Act.still_count _ _ _) fun _ b₁ h₁ ↦ ⟨fun _ _ ↦ h₁.toSafe, ?_⟩
    exact fun fixed _ fields ↦ h₁.ends_lift (Act.still_log _ _ _) fun _ _ h₂ ↦ h₂
  · intro _ b hsafe
    have hunbound : ∀ {b} name, x.Safe b → x.Safe (b.unbound name) :=
      fun name h ↦ h.rests (.inWorld _ (Act.still_unbindField name _))
    exact hunbound "phase" (hunbound "run_id" hsafe)

end Scenario

end Remedy
