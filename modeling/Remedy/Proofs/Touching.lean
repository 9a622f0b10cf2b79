import Remedy.Analysis
import Remedy.Plan
import Remedy.Proofs.Quiet
import Remedy.Validation

/-!
# What analysis and checks do to files

Reading and analysing diagnostics and planning touch no file but the log (`still_analyze`,
`still_plan`). Checks touch what their probes touch, and so does collecting diagnostics anew
(`touching_validate`, `Act.touching_finish`).
-/

set_option autoImplicit false

namespace Remedy

open FileTree

/-- The work changes no other regular files, and no links; it may make directories. -/
def Work.Within {α : Type} (only : Route → Prop) (work : Work α) : Prop :=
  ∀ site : Site, site.files.Sound → Becomes only site.files (work site).2.files

theorem Work.Within.touches {α : Type} {only : Route → Prop} {work : Work α}
    (h : work.Within only) (w : World) :
    w.Touches only { w with toSite := (work w.toSite).2 } :=
  ⟨rfl, rfl, fun hw ↦ (h w.toSite hw).mono fun _ ↦ .inl⟩

namespace Act

variable {α β : Type} {only : Route → Prop}

/-- The action touches the files in `only` and the log. -/
def Touching (only : Route → Prop) (act : Act α) : Prop := Keeps (World.Touches only) act

theorem Still.touching {act : Act α} (h : Still act) : Touching only act := fun w ↦
  (h w).mono (fun _ _ h ↦ h.undisturbed.mono fun _ ↦ False.elim)
    fun _ _ h ↦ h.undisturbed.mono fun _ ↦ False.elim

theorem Touching.bind {act : Act α} {f : α → Act β} (h : Touching only act)
    (hnext : ∀ a, Touching only (f a)) : Touching only (act >>= f) :=
  Keeps.bind (fun _ _ _ ↦ .trans) h hnext

theorem Touching.attempt {act : Act α} (h : Touching only act) :
    Touching only (Remedy.attempt act) :=
  Keeps.attempt h

/-- Waits for work that has been started to end, and for what it then logs. -/
def await (course : Course α) : Act Unit := do
  if course.waits then pause course.delay
  if course.endless then waitForever
  course.closing.forM record

theorem finish_eq (work : Work α) :
    finish work = begin work >>= fun course ↦ await course >>= fun _ ↦ ofExcept course.outcome := by
  unfold finish await
  refine bind_congr fun course ↦ ?_
  have hok : ∀ value : α, ofExcept (.ok value) = pure value := fun _ ↦ rfl
  have herror : ∀ fault, ofExcept (.error fault) = (throw fault : Act α) := fun _ ↦ rfl
  dsimp only
  cases course.outcome <;> split <;> split <;> simp only [hok, herror, bind_assoc]

namespace IsPassing

variable {R : World → World → Prop} (hR : IsPassing R) {work : Work α}

include hR

theorem keeps_race (hwork : ∀ w : World, R w { w with toSite := (work w.toSite).2 })
    (timeout : Number) : Keeps R (race work timeout) := fun w ↦
  (hR.ends_race work timeout w).mono (fun _ _ ↦ hR.trans _ _ _ (hwork w))
    fun _ _ ↦ hR.trans _ _ _ (hwork w)

theorem ends_begin (work : Work α) (w : World) :
    Ends (begin work) w
      (fun course w' ↦ course = (work w.toSite).1 ∧ R { w with toSite := (work w.toSite).2 } w')
      fun _ w' ↦ R { w with toSite := (work w.toSite).2 } w' := by
  unfold begin
  refine ends_bind.mpr (ends_get.mpr (ends_bind.mpr (ends_set.mpr (ends_bind.mpr ?_))))
  exact (hR.keeps_forM hR.record _ _).mono (fun _ w' h ↦ ends_pure.mpr ⟨rfl, h⟩) fun _ _ h ↦ h

theorem keeps_await (course : Course α) : Keeps R (await course) := by
  have hrecorded := hR.keeps_forM hR.record course.closing
  have hclosed : Keeps R (do
      if course.endless then waitForever
      course.closing.forM Act.record) := by
    dsimp only
    split
    · exact hR.keeps_bind hR.keeps_waitForever fun _ ↦ hrecorded
    · exact hrecorded
  unfold await
  dsimp only at hclosed ⊢
  split
  · exact hR.keeps_bind (hR.keeps_pause _) fun _ ↦ hclosed
  · exact hclosed

theorem ends_finish (work : Work α) (w : World) :
    Ends (finish work) w (fun _ w' ↦ R { w with toSite := (work w.toSite).2 } w')
      fun _ w' ↦ R { w with toSite := (work w.toSite).2 } w' := by
  rw [finish_eq]
  refine (hR.ends_begin work w).bind ?_
  rintro course w₁ ⟨-, h₁⟩
  refine (hR.keeps_bind (hR.keeps_await course) fun _ ↦ hR.keeps_ofExcept _) w₁ |>.mono ?_ ?_
  · exact fun _ _ ↦ hR.trans _ _ _ h₁
  · exact fun _ _ ↦ hR.trans _ _ _ h₁

theorem keeps_finish (hwork : ∀ w : World, R w { w with toSite := (work w.toSite).2 }) :
    Keeps R (finish work) := fun w ↦
  (hR.ends_finish work w).mono (fun _ _ ↦ hR.trans _ _ _ (hwork w))
    fun _ _ ↦ hR.trans _ _ _ (hwork w)

theorem keeps_logSkipped (count : Nat) (lines : List (List Char)) :
    Keeps R (Diagnostic.logSkipped count lines) := by
  induction lines generalizing count with
  | nil => exact hR.keeps_pure _
  | cons line rest ih =>
    unfold Diagnostic.logSkipped
    exact hR.keeps_bind (hR.keeps_log _ _ _) fun _ ↦ ih _

theorem keeps_sourceText (source : Diagnostic.Source) : Keeps R (Diagnostic.sourceText source) := by
  unfold Diagnostic.sourceText
  split
  · exact hR.keeps_pure _
  · exact hR.keeps_pure _
  · exact hR.keeps_pure _
  · exact hR.keeps_bind (hR.keeps_log _ _ _) fun _ ↦ hR.keeps_pure _

end IsPassing

/-! ### Analysis and planning -/

/-- A relation that reading diagnostics keeps, which counts the lines. -/
structure IsReading (R : World → World → Prop) : Prop extends IsPassing R where
  parsed : ∀ amount labels, Keeps R (count .diagnosticsParsed amount labels)
  skipped : ∀ amount labels, Keeps R (count .diagnosticsSkipped amount labels)

theorem IsFrame.reading {R : World → World → Prop} (hR : IsFrame R) : IsReading R where
  toIsPassing := hR.toIsPassing
  parsed amount labels := hR.count _ amount labels nofun
  skipped amount labels := hR.count _ amount labels nofun

namespace IsReading

variable {R : World → World → Prop} (hR : IsReading R)

include hR

theorem keeps_read (source : Diagnostic.Source) : Keeps R (Diagnostic.read source) := by
  have hcount := fun n : Nat ↦ hR.parsed (.int n) []
  have hcountSkipped := fun n : Nat ↦ hR.skipped (.int n) []
  unfold Diagnostic.read
  refine hR.keeps_bind (hR.keeps_sourceText source) fun text ↦ ?_
  dsimp only
  split
  · exact hR.keeps_pure _
  refine hR.keeps_bind (hR.keeps_logSkipped _ _) fun _ ↦ ?_
  split
  · exact hR.keeps_throw _
  refine hR.keeps_bind (hcount _) fun _ ↦ ?_
  split
  · exact hR.keeps_pure _
  · exact hR.keeps_bind (hcountSkipped _) fun _ ↦ hR.keeps_pure _

theorem keeps_reportFor (r : CommandResult) (kind : CheckKind) (name : String) :
    Keeps R (r.reportFor kind name) := by
  unfold CommandResult.reportFor
  split
  · unfold CommandResult.compileReport
    refine hR.keeps_bind (hR.keeps_read _) fun found ↦ ?_
    split
    · split
      · exact hR.keeps_pure _
      · exact hR.keeps_pure _
    · exact hR.keeps_pure _
  · split
    · exact hR.keeps_pure _
    · exact hR.keeps_throw _
  · exact hR.keeps_pure _

end IsReading

end Act

theorem Diagnostic.still_read (source : Source) : Act.Still (read source) :=
  Act.isFrame_still.reading.keeps_read source

theorem still_analyze (extra : ExtraCodes) (source : Diagnostic.Source) :
    Act.Still (analyze extra source) := by
  unfold analyze
  exact (Diagnostic.still_read source).bind fun _ ↦ (Act.still_log _ _ _).bind fun _ ↦
    Act.still_pure _

theorem still_plan (c : PlannerConfig) (found : List Finding) : Act.Still (plan c found) := by
  unfold plan
  split
  · exact Act.still_throw _
  · exact (Act.still_log _ _ _).bind fun _ ↦ Act.still_pure _

/-! ### Checks -/

/-- A relation that is kept by what a check does but run its probe. -/
structure Act.IsChecking (R : World → World → Prop) : Prop extends Act.IsReading R where
  checked : ∀ amount labels, Keeps R (Act.count .validationChecks amount labels)
  measured : ∀ (w : World) (durations : Histogram),
    R w { w with meter := { w.meter with checkDuration := durations } }

theorem Check.keeps_judge {R : World → World → Prop} (hR : Act.IsReading R) (c : Check)
    (settled : Settled ProbeReply) : Keeps R (c.judge settled) := by
  have hconclude : ∀ outcome : Except Fault CheckResult, Keeps R (Act.ofExcept outcome) := by
    rintro (e | r)
    · exact hR.keeps_throw e
    · exact hR.keeps_pure r
  unfold judge
  split
  · exact hR.keeps_pure _
  · exact hR.keeps_pure _
  · exact hR.keeps_throw _
  · refine hR.keeps_bind (hR.keeps_reportFor _ _ _).attempt fun outcome ↦ ?_
    split
    · exact hconclude _
    · exact hR.keeps_pure _
  · exact hconclude _

namespace Act.IsChecking

variable {R : World → World → Prop} (hR : IsChecking R) {c : Check} {checks : List Check}

include hR

theorem keeps_settle (hprobe : ∀ w : World, R w { w with toSite := (c.probe w.toSite).2 }) :
    Keeps R c.settle := by
  unfold Check.settle
  refine hR.keeps_bind (hR.keeps_race hprobe c.timeout).attempt fun outcome ↦ ?_
  split
  · exact Check.keeps_judge hR.toIsReading c _
  · exact hR.keeps_pure _
  · exact hR.keeps_throw _

theorem keeps_measure (hprobe : ∀ w : World, R w { w with toSite := (c.probe w.toSite).2 }) :
    Keeps R c.measure := by
  have hconclude : ∀ outcome : Except Fault CheckResult, Keeps R (ofExcept outcome) := by
    rintro (e | r)
    · exact hR.keeps_throw e
    · exact hR.keeps_pure r
  unfold Check.measure
  refine hR.keeps_bind hR.keeps_get fun w ↦ ?_
  refine hR.keeps_bind (hR.keeps_settle hprobe).attempt fun outcome ↦ ?_
  refine hR.keeps_bind (hR.keeps_since _) fun elapsed ↦ ?_
  refine hR.keeps_bind (keeps_modify fun w ↦ hR.measured w _) fun _ ↦ ?_
  exact hR.keeps_bind (hconclude outcome) fun _ ↦ hR.keeps_pure _

theorem keeps_run (hprobe : ∀ w : World, R w { w with toSite := (c.probe w.toSite).2 }) :
    Keeps R c.run := by
  unfold Check.run
  refine hR.keeps_bind (hR.keeps_measure hprobe) fun r ↦ ?_
  refine hR.keeps_bind (hR.checked _ _) fun _ ↦ ?_
  dsimp only
  split
  · exact hR.keeps_bind (hR.keeps_log _ _ _) fun _ ↦ hR.keeps_pure _
  · exact hR.keeps_bind (hR.keeps_log _ _ _) fun _ ↦ hR.keeps_pure _

theorem keeps_skip (c : Check) (blocker : String) : Keeps R (c.skip blocker) := by
  unfold Check.skip
  refine hR.keeps_bind (hR.keeps_log _ _ _) fun _ ↦ ?_
  exact hR.keeps_bind (hR.checked _ _) fun _ ↦ hR.keeps_pure _

theorem keeps_runChecks
    (hprobes : ∀ check ∈ checks, ∀ w : World, R w { w with toSite := (check.probe w.toSite).2 })
    (blocker : Option String) : Keeps R (runChecks blocker checks) := by
  induction checks generalizing blocker with
  | nil => exact hR.keeps_pure _
  | cons c rest ih =>
    obtain ⟨hc, hrest⟩ := List.forall_mem_cons.mp hprobes
    unfold runChecks
    split
    · exact hR.keeps_bind (hR.keeps_skip c _) fun _ ↦ hR.keeps_bind (ih hrest _) fun _ ↦
        hR.keeps_pure _
    · exact hR.keeps_bind (hR.keeps_run hc) fun _ ↦ hR.keeps_bind (ih hrest _) fun _ ↦
        hR.keeps_pure _

/-- Running checks keeps what their probes keep. -/
theorem keeps_validate
    (hprobes : ∀ check ∈ checks, ∀ w : World, R w { w with toSite := (check.probe w.toSite).2 }) :
    Keeps R (validate checks) := by
  unfold validate
  refine hR.keeps_bind (hR.keeps_log _ _ _) fun _ ↦ hR.keeps_bind hR.keeps_get fun w ↦ ?_
  refine hR.keeps_bind (hR.keeps_runChecks hprobes none) fun results ↦ ?_
  exact hR.keeps_bind (hR.keeps_since _) fun _ ↦ hR.keeps_bind (hR.keeps_log _ _ _) fun _ ↦
    hR.keeps_pure _

end Act.IsChecking

/-! ### Files that are touched -/

theorem Act.isChecking_touches (only : Route → Prop) : Act.IsChecking (World.Touches only) where
  refl := .refl only
  trans _ _ _ := .trans
  record event := (still_record event).touching
  aside _ _ _ _ _ _ := ⟨rfl, rfl, .refl⟩
  parsed amount labels := (still_count _ amount labels).touching
  skipped amount labels := (still_count _ amount labels).touching
  checked amount labels := (still_count _ amount labels).touching
  measured _ _ := ⟨rfl, rfl, .refl⟩

theorem Act.touching_finish {α : Type} {only : Route → Prop} {work : Work α} (h : work.Within only) :
    Act.Touching only (Act.finish work) :=
  (isChecking_touches only).keeps_finish h.touches

/-- Running checks touches what their probes touch. -/
theorem touching_validate {only : Route → Prop} {checks : List Check}
    (h : ∀ check ∈ checks, check.probe.Within only) : Act.Touching only (validate checks) :=
  (Act.isChecking_touches only).keeps_validate fun check hcheck ↦ (h check hcheck).touches

end Remedy
