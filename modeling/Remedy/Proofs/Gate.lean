import Remedy.Proofs.Backup.Taking
import Remedy.Proofs.Charging
import Remedy.Proofs.Returning
import Remedy.Proofs.Touching

/-!
# The gate that checks are

Checks are run in order up to the first required one that fails; those after it are skipped
(`ValidationSummary.Gates`). As long as the activity is not called off and every probe that ends
with a reply ends with one that is a report, running checks returns a summary, whatever else the
probes do: fail, call themselves off or miss their deadlines (`validate_gate`). The probes of just
the checks that are not skipped are started, each once and in order (`Begun`), and each result is
counted under its status.

The steps are `Check.ends_run`, which says what running one check does, and `ends_runChecks`, by
induction on the checks.
-/

set_option autoImplicit false

namespace Remedy

/-! ### What goes on between probes -/

/-- The log has gone on, and nothing else of the site has changed. -/
structure World.Idle (w w' : World) : Prop where
  still : w.Still w'
  bindings : w'.bindings = w.bindings
  memory : w'.memory = w.memory
  uninterrupted : w.interrupt = none → w'.interrupt = none

/-- In addition no check has been counted. -/
structure World.Rests (w w' : World) : Prop extends w.Idle w' where
  checks : w'.meter.validationChecks = w.meter.validationChecks

variable {w w' w'' : World}

theorem World.Idle.refl (w : World) : w.Idle w :=
  ⟨.refl w, rfl, rfl, id⟩

theorem World.Idle.trans (h : w.Idle w') (h' : w'.Idle w'') : w.Idle w'' :=
  ⟨h.still.trans h'.still, h'.bindings.trans h.bindings, h'.memory.trans h.memory,
    h'.uninterrupted ∘ h.uninterrupted⟩

theorem World.Rests.trans (h : w.Rests w') (h' : w'.Rests w'') : w.Rests w'' :=
  ⟨h.toIdle.trans h'.toIdle, h'.checks.trans h.checks⟩

theorem isFrame_rests : Act.IsFrame World.Rests where
  refl w := ⟨.refl w, rfl⟩
  trans _ _ _ := .trans
  record event w := ends_modify.mpr ⟨⟨Act.still_record event w, rfl, rfl, id⟩, rfl⟩
  aside _ _ _ _ _ h := ⟨⟨.of_eq rfl rfl rfl, rfl, rfl, h⟩, rfl⟩
  count _ amount labels hne :=
    Act.keeps_count_of (fun _ _ ↦ ⟨⟨.of_eq rfl rfl rfl, rfl, rfl, id⟩,
      Meter.counter_setCounter_of_ne _ _ hne⟩) amount labels

theorem ends_log_idle {level : LogLevel} {name : String} {fields : List (String × Json)}
    {ok : Unit → World → Prop} {bad : Fault → World → Prop}
    (h : ∀ w', w.Idle w' → w'.meter = w.meter → ok () w') :
    Ends (Act.log level name fields) w ok bad :=
  ends_modify.mpr (h _ ⟨Act.still_log level name fields w, rfl, rfl, id⟩ rfl)

/-- Just the probes of these checks are started, each once and in order; before, between and after
them only the log goes on. -/
inductive Begun : List Check → World → World → Prop
  | nil {w w' : World} (h : w.Idle w') : Begun [] w w'
  | cons {c : Check} {rest : List Check} {w w₁ w' : World} (h : w.Idle w₁)
      (hrest : Begun rest { w₁ with toSite := (c.probe w₁.toSite).2 } w') : Begun (c :: rest) w w'

namespace Begun

variable {checks : List Check}

theorem of_idle (h : w.Idle w') (hbegun : Begun checks w' w'') : Begun checks w w'' := by
  cases hbegun with
  | nil hidle => exact .nil (h.trans hidle)
  | cons hidle hrest => exact .cons (h.trans hidle) hrest

theorem idle (hbegun : Begun checks w w') (h : w'.Idle w'') : Begun checks w w'' := by
  induction hbegun with
  | nil hidle => exact .nil (hidle.trans h)
  | cons hidle _ ih => exact .cons hidle (ih h)

/-- Probes that leave a note each time that they are started leave one each, in order. -/
theorem memory_eq {note : Check → Json} (hbegun : Begun checks w w')
    (hnote : ∀ c ∈ checks, ∀ site, (c.probe site).2.memory = site.memory ++ [note c]) :
    w'.memory = w.memory ++ checks.map note := by
  induction hbegun with
  | nil hidle => simpa using hidle.memory
  | cons hidle _ ih =>
    obtain ⟨hfirst, hrest⟩ := List.forall_mem_cons.mp hnote
    rw [ih hrest, hfirst, hidle.memory, List.map_cons, List.append_assoc]
    rfl

end Begun

/-! ### One check -/

/-- What replies are taken: reports whose details are a record, and the output of commands. -/
def ProbeReply.Proper : ProbeReply → Prop
  | .report r => ∃ details, r.details.record = .ok details
  | .output _ _ _ => True
  | .other _ => False

/-- If the probe ends with a reply, it is one that is taken. -/
def Probe.Replies (p : Probe) : Prop :=
  ∀ site reply, (p site).1.outcome = .ok reply → reply.Proper

/-- The result of a check. -/
structure CheckResult.Of (r : CheckResult) (c : Check) : Prop where
  name : r.name = c.name
  kind : r.kind = c.kind
  required : r.required = c.required

theorem CommandResult.details_lintReport {r : CommandResult} {name : String} {report : ProbeReport}
    (h : r.lintReport name = .ok report) : ∃ details, report.details.record = .ok details := by
  unfold lintReport at h
  obtain ⟨problems, -, h⟩ := exists_of_bind_eq_ok h
  obtain ⟨errors, -, h⟩ := exists_of_bind_eq_ok h
  obtain ⟨warnings, -, h⟩ := exists_of_bind_eq_ok h
  by_cases hsuccess : r.success = true
  · cases (if_pos hsuccess).symm.trans h
    exact ⟨_, rfl⟩
  · cases (if_neg hsuccess).symm.trans h
    exact ⟨_, rfl⟩

/-- What the output of a command says has a record of details. -/
theorem CommandResult.ends_reportFor (r : CommandResult) (kind : CheckKind) (name : String)
    (w : World) :
    Ends (r.reportFor kind name) w (fun report _ ↦ ∃ details, report.details.record = .ok details)
      fun _ _ ↦ True := by
  unfold reportFor
  split
  · unfold compileReport
    refine Ends.bind_any fun found w ↦ ?_
    split
    · split
      · exact ends_pure.mpr ⟨_, rfl⟩
      · exact ends_pure.mpr ⟨_, rfl⟩
    · exact ends_pure.mpr ⟨_, rfl⟩
  · split
    · rename_i report hreport
      exact ends_pure.mpr (details_lintReport hreport)
    · trivial
  · refine ends_pure.mpr ?_
    unfold plainReport
    split
    · exact ⟨_, rfl⟩
    · exact ⟨_, rfl⟩

namespace Check

theorem failure_of (c : Check) (fault : Fault) :
    (c.failure fault).Of c ∧ (c.failure fault).status = .failed := by
  unfold failure
  split
  · exact ⟨⟨rfl, rfl, rfl⟩, rfl⟩
  · split
    · exact ⟨⟨rfl, rfl, rfl⟩, rfl⟩
    · exact ⟨⟨rfl, rfl, rfl⟩, rfl⟩

/-- The result of a check that is run says whether it has passed. -/
def Answers (c : Check) (r : CheckResult) : Prop := r.Of c ∧ r.status ≠ .skipped

theorem answers_failure (c : Check) (fault : Fault) : c.Answers (c.failure fault) := by
  obtain ⟨hof, hstatus⟩ := c.failure_of fault
  exact ⟨hof, by simp [hstatus]⟩

theorem ends_conclude (c : Check) {report : ProbeReport}
    (h : ∃ details, report.details.record = .ok details) (w : World) :
    Ends (Act.ofExcept (c.conclude report)) w (fun r _ ↦ c.Answers r) fun _ _ ↦ False := by
  obtain ⟨details, hdetails⟩ := h
  unfold conclude
  rw [hdetails]
  refine ⟨⟨rfl, rfl, rfl⟩, ?_⟩
  show (if report.success then CheckStatus.passed else .failed) ≠ .skipped
  split <;> decide

theorem ends_judge (c : Check) {settled : Settled ProbeReply} {course : Course ProbeReply}
    (hsettled : settled = .overdue ∨ settled = .ended course.outcome)
    (hproper : ∀ reply, course.outcome = .ok reply → reply.Proper) (w : World) :
    Ends (c.judge settled) w (fun r _ ↦ c.Answers r) fun _ _ ↦ False := by
  rcases hsettled with rfl | rfl
  · exact ends_pure.mpr ⟨⟨rfl, rfl, rfl⟩, by simp [result]⟩
  · rcases houtcome : course.outcome with fault | reply
    · exact ends_pure.mpr (c.answers_failure fault)
    have hreply := hproper reply houtcome
    cases reply with
    | other kind => exact hreply.elim
    | report r => exact c.ends_conclude hreply w
    | output kind name r =>
      refine ends_bind.mpr (ends_attempt.mpr ((r.ends_reportFor kind name w).mono ?_ ?_))
      · exact fun report w hreport ↦ c.ends_conclude hreport w
      · exact fun fault w _ ↦ ends_pure.mpr (c.answers_failure fault)

/-- The world in which the probe of a check has been started. -/
abbrev begin (c : Check) (w : World) : World := { w with toSite := (c.probe w.toSite).2 }

theorem ends_settle {c : Check} (hreplies : c.probe.Replies) (hw : w.interrupt = none) :
    Ends c.settle w (fun r w' ↦ c.Answers r ∧ (c.begin w).Rests w') fun _ _ ↦ False := by
  unfold settle
  refine ends_bind.mpr (ends_attempt.mpr ?_)
  refine ((isFrame_rests.ends_race c.probe c.timeout w).and
    (Act.ends_race_outcome c.probe c.timeout hw)).mono ?_ ?_
  · rintro settled w' ⟨hrests, hsettled⟩
    refine ((c.ends_judge hsettled (hreplies _) w').and
      (keeps_judge isFrame_rests.reading c settled w')).mono ?_ fun _ _ h ↦ h.1
    rintro r w'' ⟨hanswers, hrests'⟩
    exact ⟨hanswers, hrests.trans hrests'⟩
  · rintro fault w' ⟨hrests, rfl⟩
    exact ends_pure.mpr ⟨c.answers_failure _, hrests⟩

theorem ends_measure {c : Check} (hreplies : c.probe.Replies) (hw : w.interrupt = none) :
    Ends c.measure w (fun r w' ↦ c.Answers r ∧ (c.begin w).Rests w') fun _ _ ↦ False := by
  unfold measure
  refine ends_bind.mpr (ends_get.mpr (ends_bind.mpr (ends_attempt.mpr ?_)))
  refine (ends_settle hreplies hw).mono ?_ fun _ _ ↦ False.elim
  rintro r w' ⟨⟨hof, hstatus⟩, hrests⟩
  exact ends_bind.mpr (ends_bind.mpr (ends_get.mpr (ends_pure.mpr (ends_bind.mpr
    (ends_modify.mpr (ends_bind.mpr (ends_pure.mpr ⟨⟨⟨hof.name, hof.kind, hof.required⟩, hstatus⟩,
      hrests.trans ⟨⟨.of_eq rfl rfl rfl, rfl, rfl, id⟩, rfl⟩⟩)))))))

/-- Checks are counted under the status of their results. -/
theorem ends_count_status (status : CheckStatus) (w : World) :
    Ends (Act.count .validationChecks 1 [("status", status.name)]) w
      (fun _ w' ↦ w.Idle w' ∧
        w'.meter.validationChecks = w.meter.validationChecks.raise [[("status", status.name)]])
      fun _ _ ↦ False := by
  unfold Act.count
  refine ends_bind.mpr (ends_get.mpr ?_)
  dsimp only
  refine ends_bind.mpr (ends_set.mpr ?_)
  have hinc := Counter.inc_one (w.meter.counter .validationChecks) [("status", status.name)]
  rw [hinc]
  refine ends_pure.mpr ⟨⟨.of_eq rfl rfl rfl, rfl, rfl, id⟩, ?_⟩
  show _ = (w.meter.validationChecks.inc 1 [("status", status.name)]).1
  rw [Counter.inc_one]
  rfl

theorem ends_run {c : Check} (hreplies : c.probe.Replies) (hw : w.interrupt = none) :
    Ends c.run w
      (fun r w' ↦ c.Answers r ∧ (c.begin w).Idle w' ∧ w'.meter.validationChecks =
        w.meter.validationChecks.raise [[("status", r.status.name)]])
      fun _ _ ↦ False := by
  unfold run
  refine (ends_measure hreplies hw).bind ?_
  rintro r w₁ ⟨hanswers, hrests⟩
  refine (ends_count_status r.status w₁).bind ?_
  rintro _ w₂ ⟨hidle, hcounted⟩
  have hcounted' : w₂.meter.validationChecks =
      w.meter.validationChecks.raise [[("status", r.status.name)]] := by
    rw [hcounted, hrests.checks]
  have hlogged : ∀ {w₃ : World}, w₂.Idle w₃ → w₃.meter = w₂.meter →
      (c.begin w).Idle w₃ ∧ w₃.meter.validationChecks =
        w.meter.validationChecks.raise [[("status", r.status.name)]] := by
    intro w₃ hlogged hmeter
    exact ⟨(hrests.toIdle.trans hidle).trans hlogged, by rw [hmeter, hcounted']⟩
  dsimp only
  split
  · exact ends_bind.mpr (ends_log_idle fun w₃ h hmeter ↦ ⟨hanswers, hlogged h hmeter⟩)
  · exact ends_bind.mpr (ends_log_idle fun w₃ h hmeter ↦ ⟨hanswers, hlogged h hmeter⟩)

theorem ends_skip (c : Check) (blocker : String) (w : World) :
    Ends (c.skip blocker) w
      (fun r w' ↦ (r.Of c ∧ r.status = .skipped) ∧ w.Idle w' ∧ w'.meter.validationChecks =
        w.meter.validationChecks.raise [[("status", r.status.name)]])
      fun _ _ ↦ False := by
  unfold skip
  refine ends_bind.mpr (ends_log_idle fun w₁ hlogged hmeter ↦ ?_)
  refine (ends_count_status .skipped w₁).bind ?_
  rintro _ w' ⟨hidle, hcounted⟩
  rw [hmeter] at hcounted
  exact ends_pure.mpr ⟨⟨⟨rfl, rfl, rfl⟩, rfl⟩, hlogged.trans hidle, hcounted⟩

end Check

/-! ### Checks in a row -/

/-- A required check that has failed. -/
def CheckResult.blocks (r : CheckResult) : Bool := r.required && r.status = .failed

/-- How many checks are run: those up to the first required one that fails. -/
def reach (results : List CheckResult) : ℕ := results.findIdx CheckResult.blocks + 1

/-- How a result is counted. -/
def CheckResult.labels (r : CheckResult) : Labels := [("status", r.status.name)]

/-- What comes of running checks in a row. -/
structure Tried (checks : List Check) (results : List CheckResult) (w w' : World) : Prop where
  answers : List.Forall₂ (fun c r ↦ r.Of c) checks results
  begun : Begun (checks.take (reach results)) w w'
  before : ∀ r ∈ results.take (reach results), r.status ≠ .skipped
  after : ∀ r ∈ results.drop (reach results), r.status = .skipped
  counted : w'.meter.validationChecks =
    w.meter.validationChecks.raise (results.map CheckResult.labels)

/-- What comes of skipping checks in a row. -/
structure PassedOver (checks : List Check) (results : List CheckResult) (w w' : World) : Prop where
  answers : List.Forall₂ (fun c r ↦ r.Of c) checks results
  idle : w.Idle w'
  skipped : ∀ r ∈ results, r.status = .skipped
  counted : w'.meter.validationChecks =
    w.meter.validationChecks.raise (results.map CheckResult.labels)

theorem ends_runChecks_some (blocker : String) (checks : List Check) (w : World) :
    Ends (runChecks (some blocker) checks) w
      (fun results w' ↦ PassedOver checks results w w') fun _ _ ↦ False := by
  induction checks generalizing w with
  | nil => exact ends_pure.mpr ⟨.nil, .refl w, by simp, rfl⟩
  | cons c rest ih =>
    unfold runChecks
    refine (c.ends_skip blocker w).bind ?_
    rintro r w₁ ⟨⟨hof, hstatus⟩, hidle, hcounted⟩
    refine (ih w₁).bind fun results w' h ↦ ends_pure.mpr ⟨.cons hof h.answers, hidle.trans h.idle,
      List.forall_mem_cons.mpr ⟨hstatus, h.skipped⟩, ?_⟩
    rw [h.counted, hcounted]
    rfl

section Tried

variable {c : Check} {rest : List Check} {r : CheckResult} {results : List CheckResult}
  {w w₁ w' : World}

/-- A check that blocks those after it is the last one that is run. -/
theorem Tried.of_blocks (hblocks : r.blocks = true) (hanswers : c.Answers r)
    (hidle : (c.begin w).Idle w₁)
    (hcounted : w₁.meter.validationChecks = w.meter.validationChecks.raise [r.labels])
    (h : PassedOver rest results w₁ w') : Tried (c :: rest) (r :: results) w w' := by
  have hreach : reach (r :: results) = 1 := by simp [reach, List.findIdx_cons, hblocks]
  constructor
  case answers => exact .cons hanswers.1 h.answers
  case begun =>
    rw [hreach]
    exact .cons (.refl w) (.nil (hidle.trans h.idle))
  case before => simpa [hreach] using hanswers.2
  case after => simpa [hreach] using h.skipped
  case counted =>
    rw [h.counted, hcounted]
    rfl

/-- Any other check leaves those after it as they are when they are run without it. -/
theorem Tried.of_not_blocks (hblocks : r.blocks = false) (hanswers : c.Answers r)
    (hidle : (c.begin w).Idle w₁)
    (hcounted : w₁.meter.validationChecks = w.meter.validationChecks.raise [r.labels])
    (h : Tried rest results w₁ w') : Tried (c :: rest) (r :: results) w w' := by
  have hreach : reach (r :: results) = reach results + 1 := by
    simp [reach, List.findIdx_cons, hblocks]
  constructor
  case answers => exact .cons hanswers.1 h.answers
  case begun =>
    rw [hreach]
    exact .cons (.refl w) (h.begun.of_idle hidle)
  case before =>
    rw [hreach]
    exact List.forall_mem_cons.mpr ⟨hanswers.2, h.before⟩
  case after => simpa [hreach] using h.after
  case counted =>
    rw [h.counted, hcounted]
    rfl

end Tried

theorem ends_runChecks {checks : List Check} (hreplies : ∀ c ∈ checks, c.probe.Replies)
    (hw : w.interrupt = none) :
    Ends (runChecks none checks) w (fun results w' ↦ Tried checks results w w')
      fun _ _ ↦ False := by
  induction checks generalizing w with
  | nil => exact ends_pure.mpr ⟨.nil, .nil (.refl w), by simp, by simp, rfl⟩
  | cons c rest ih =>
    obtain ⟨hfirst, hrest⟩ := List.forall_mem_cons.mp hreplies
    unfold runChecks
    refine (Check.ends_run hfirst hw).bind ?_
    rintro r w₁ ⟨hanswers, hidle, hcounted⟩
    have hrequired : (c.required && decide (r.status = .failed)) = r.blocks := by
      rw [CheckResult.blocks, hanswers.1.required]
    dsimp only
    rw [hrequired]
    cases hblocks : r.blocks with
    | true =>
      refine (ends_runChecks_some c.name rest w₁).bind fun results w' h ↦ ends_pure.mpr ?_
      exact .of_blocks hblocks hanswers hidle hcounted h
    | false =>
      refine (ih hrest (hidle.uninterrupted hw)).bind fun results w' h ↦ ends_pure.mpr ?_
      exact .of_not_blocks hblocks hanswers hidle hcounted h

/-! ### The summary -/

/-- The texts that belong to failed checks, in the order of the failures. -/
def failedTexts (results : List CheckResult) : List String :=
  (results.filter fun r ↦ r.status = .failed).map fun r ↦ r.kind.recommendation

theorem mem_failedTexts {results : List CheckResult} {text : String} :
    text ∈ failedTexts results ↔
      ∃ r ∈ results, r.status = .failed ∧ r.kind.recommendation = text := by
  simp [failedTexts, and_assoc]

/-- What is kept of a list without repetition stays in the order of first occurrence. -/
theorem pairwise_idxOf_distinct {α : Type} [DecidableEq α] (xs : List α) :
    (distinct xs).Pairwise fun a b ↦ xs.idxOf a < xs.idxOf b := by
  induction xs using List.reverseRecOn with
  | nil => exact .nil
  | append_singleton xs x ih =>
    have hsame : (distinct xs).Pairwise fun a b ↦ (xs ++ [x]).idxOf a < (xs ++ [x]).idxOf b := by
      refine ih.imp_of_mem fun {a b} ha hb hlt ↦ ?_
      rwa [List.idxOf_append_of_mem (mem_distinct.mp ha),
        List.idxOf_append_of_mem (mem_distinct.mp hb)]
    have hconcat : distinct (xs ++ [x]) =
        if x ∈ distinct xs then distinct xs else distinct xs ++ [x] := by
      unfold distinct
      rw [List.foldl_append]
      rfl
    rw [hconcat]
    split
    · exact hsame
    · rename_i hx
      refine List.pairwise_append.mpr ⟨hsame, List.pairwise_singleton _ _, fun a ha b hb ↦ ?_⟩
      obtain rfl := List.mem_singleton.mp hb
      rw [mem_distinct] at ha hx
      rw [List.idxOf_append_of_mem ha, List.idxOf_append_of_notMem hx]
      exact Nat.lt_add_right _ (List.idxOf_lt_length_of_mem ha)

theorem recommendationsFor_eq (results : List CheckResult) :
    recommendationsFor results =
      if failedTexts results = [] then ["All validation checks passed"]
      else distinct (failedTexts results) := by
  have hmem : ∀ text, text ∈ failedTexts results ↔ text ∈ distinct (failedTexts results) :=
    fun _ ↦ mem_distinct.symm
  unfold recommendationsFor
  dsimp only
  split
  · rename_i hnone
    have hnil : failedTexts results = [] := by
      refine List.eq_nil_iff_forall_not_mem.mpr fun text htext ↦ ?_
      rw [hmem, failedTexts, hnone] at htext
      cases htext
    rw [if_pos hnil]
  · rename_i hsome
    have hne : failedTexts results ≠ [] := fun hnil ↦ hsome (congrArg distinct hnil)
    rw [if_neg hne]
    rfl

/-- What a summary of checks is to be. -/
structure ValidationSummary.Gates (s : ValidationSummary) (checks : List Check) : Prop where
  answers : List.Forall₂ (fun c r ↦ r.Of c) checks s.results
  before : ∀ r ∈ s.results.take (reach s.results), r.status ≠ .skipped
  after : ∀ r ∈ s.results.drop (reach s.results), r.status = .skipped
  total : s.count .passed + s.count .failed + s.count .skipped = checks.length
  success : s.overallSuccess = true ↔ ∀ r ∈ s.results, r.required = true → r.status ≠ .failed
  passed : s.overallSuccess = true ↔ ∀ r ∈ s.results, r.required = true → r.status = .passed
  /-- The texts of the kinds that have failed, each where it comes up first. -/
  texts : (∃ r ∈ s.results, r.status = .failed) →
    s.recommendations.Nodup ∧
    (∀ text, text ∈ s.recommendations ↔
      ∃ r ∈ s.results, r.status = .failed ∧ r.kind.recommendation = text) ∧
    s.recommendations.Pairwise fun a b ↦
      (failedTexts s.results).idxOf a < (failedTexts s.results).idxOf b
  allPassed : s.recommendations = ["All validation checks passed"] ↔
    ∀ r ∈ s.results, r.status ≠ .failed

theorem sum_count_status (results : List CheckResult) :
    (results.filter fun r ↦ r.status = .passed).length +
      (results.filter fun r ↦ r.status = .failed).length +
      (results.filter fun r ↦ r.status = .skipped).length = results.length := by
  induction results with
  | nil => rfl
  | cons r rest ih =>
    simp only [List.filter_cons, List.length_cons]
    cases r.status <;> simp <;> omega

/-- If no required check has failed, none has been skipped. -/
theorem Tried.passed_of_not_failed {checks : List Check} {results : List CheckResult}
    (h : Tried checks results w w')
    (hfailed : ∀ r ∈ results, r.required = true → r.status ≠ .failed) :
    ∀ r ∈ results, r.required = true → r.status = .passed := by
  have hnone : results.findIdx CheckResult.blocks = results.length := by
    refine List.findIdx_eq_length.mpr fun r hr ↦ ?_
    simpa [CheckResult.blocks] using hfailed r hr
  have hall : results.take (reach results) = results := by
    rw [reach, hnone]
    exact List.take_of_length_le (Nat.le_succ _)
  intro r hr hrequired
  have hskipped : r.status ≠ .skipped := h.before r (by rwa [hall])
  have hnot := hfailed r hr hrequired
  cases hstatus : r.status with
  | passed => rfl
  | failed => exact absurd hstatus hnot
  | skipped => exact absurd hstatus hskipped

theorem Tried.gates {checks : List Check} {results : List CheckResult}
    (h : Tried checks results w w') (totalTime : Number) :
    ValidationSummary.Gates ⟨results.all fun r ↦ r.success || !r.required, results, totalTime,
      recommendationsFor results⟩ checks := by
  have hpassed : (results.all fun r ↦ r.success || !r.required) = true ↔
      ∀ r ∈ results, r.required = true → r.status = .passed := by
    simp only [List.all_eq_true, CheckResult.success, Bool.or_eq_true, decide_eq_true_eq,
      Bool.not_eq_true', ← Bool.not_eq_true, imp_iff_or_not]
  constructor
  case answers => exact h.answers
  case before => exact h.before
  case after => exact h.after
  case total => exact (sum_count_status results).trans h.answers.length_eq.symm
  case passed => exact hpassed
  case success =>
    refine hpassed.trans ⟨fun hall r hr hrequired ↦ ?_, h.passed_of_not_failed⟩
    simp [hall r hr hrequired]
  case texts =>
    rintro ⟨r, hr, hstatus⟩
    have hne : failedTexts results ≠ [] :=
      List.ne_nil_of_mem (mem_failedTexts.mpr ⟨r, hr, hstatus, rfl⟩)
    dsimp only
    rw [recommendationsFor_eq, if_neg hne]
    exact ⟨nodup_distinct _, fun text ↦ mem_distinct.trans mem_failedTexts,
      pairwise_idxOf_distinct _⟩
  case allPassed =>
    dsimp only
    rw [recommendationsFor_eq]
    constructor
    · intro heq r hr hstatus
      have hmem := mem_failedTexts.mpr ⟨r, hr, hstatus, rfl⟩
      rw [if_neg (List.ne_nil_of_mem hmem)] at heq
      have hone := mem_distinct.mpr hmem
      rw [heq] at hone
      revert hone
      cases r.kind <;> decide
    · intro hall
      refine if_pos (List.eq_nil_iff_forall_not_mem.mpr fun text htext ↦ ?_)
      obtain ⟨r, hr, hstatus, -⟩ := mem_failedTexts.mp htext
      exact hall r hr hstatus

theorem count_labels (results : List CheckResult) (status : CheckStatus) :
    (results.map CheckResult.labels).count [("status", status.name)] =
      (results.filter fun r ↦ r.status = status).length := by
  have hname : ∀ s t : CheckStatus, s.name = t.name ↔ s = t := by
    intro s t
    cases s <;> cases t <;> decide
  induction results with
  | nil => rfl
  | cons r rest ih =>
    rw [List.map_cons, List.count_cons, ih, List.filter_cons]
    by_cases hr : r.status = status <;> simp [CheckResult.labels, hname, hr]

/-- How often a status has been counted. -/
def World.counted (w : World) (status : CheckStatus) : Double :=
  w.meter.validationChecks.held [("status", status.name)]

theorem Tried.counted_eq {checks : List Check} {results : List CheckResult}
    (h : Tried checks results w w') (status : CheckStatus) :
    let n := (results.filter fun r ↦ r.status = status).length
    w'.counted status = (fun x ↦ x.add (Double.ofNat 1))^[n] (w.counted status) ∧
    ∀ k : ℕ, w.counted status = Double.ofNat k → k + n ≤ 2 ^ 53 →
      w'.counted status = Double.ofNat (k + n) := by
  simp only [← count_labels, World.counted, h.counted]
  exact ⟨Counter.held_raise _ _ _, fun k hk hle ↦ Counter.held_raise_natCast hk hle⟩

theorem Tried.of_idle {checks : List Check} {results : List CheckResult} (h : w.Idle w')
    (hmeter : w'.meter = w.meter) (htried : Tried checks results w' w'') :
    Tried checks results w w'' :=
  { htried with
    begun := htried.begun.of_idle h
    counted := by rw [htried.counted, hmeter] }

theorem Tried.idle {checks : List Check} {results : List CheckResult}
    (htried : Tried checks results w w') (h : w'.Idle w'') (hmeter : w''.meter = w'.meter) :
    Tried checks results w w'' :=
  { htried with
    begun := htried.begun.idle h
    counted := by rw [hmeter, htried.counted] }

theorem ends_validate {checks : List Check} (hreplies : ∀ c ∈ checks, c.probe.Replies)
    (hw : w.interrupt = none) :
    Ends (validate checks) w (fun s w' ↦ s.Gates checks ∧ Tried checks s.results w w')
      fun _ _ ↦ False := by
  unfold validate
  refine ends_bind.mpr (ends_log_idle fun w₀ hbefore hmeter ↦ ends_bind.mpr (ends_get.mpr ?_))
  refine (ends_runChecks hreplies (hbefore.uninterrupted hw)).bind fun results w₁ h ↦ ?_
  refine ends_bind.mpr (ends_bind.mpr (ends_get.mpr (ends_pure.mpr ?_)))
  refine ends_bind.mpr (ends_log_idle fun w₂ hafter hmeter' ↦ ends_pure.mpr ⟨h.gates _, ?_⟩)
  exact (h.of_idle hbefore hmeter).idle hafter hmeter'

/-- Running checks returns a summary. The probes of the checks that are not skipped are started,
each once and in order, and the counters grow by the numbers of results. -/
theorem validate_gate {checks : List Check} (hw : w.interrupt = none)
    (hreplies : ∀ c ∈ checks, c.probe.Replies) :
    ∃ s w', validate checks w = (.ok s, w') ∧ s.Gates checks ∧
      Begun (checks.take (reach s.results)) w w' ∧
      ∀ status : CheckStatus,
        w'.counted status =
          (fun x ↦ x.add (Double.ofNat 1))^[s.count status] (w.counted status) ∧
        ∀ k : ℕ, w.counted status = Double.ofNat k → k + s.count status ≤ 2 ^ 53 →
          w'.counted status = Double.ofNat (k + s.count status) := by
  obtain ⟨s, w', hact, hgates, htried⟩ := (ends_validate hreplies hw).exists_ok
  exact ⟨s, w', hact, hgates, htried.begun, htried.counted_eq⟩

/-- Work that leaves a note when it is started. -/
def noting (note : String) (course : Course ProbeReply) : Probe := fun site ↦
  (course, { site with memory := site.memory ++ [.str note] })

/-- An optional check calls itself off; behind it a required one misses its deadline, so that the
last one is skipped. -/
theorem validate_gate_skipped :
    let report : Course ProbeReply := .done (.report ⟨true, "fine", .obj []⟩)
    let checks : List Check :=
      [⟨"a", .compile, noting "a" report, seconds 60, true⟩,
        ⟨"b", .lint, noting "b" (.failed (.cancelled "")), seconds 60, false⟩,
        ⟨"c", .build, noting "c" { report with delay := 5 }, seconds 1, true⟩,
        ⟨"d", .compile, noting "d" report, seconds 60, true⟩]
    ∃ s w', validate checks default = (.ok s, w') ∧
      s.results.map CheckResult.status = [.passed, .failed, .failed, .skipped] ∧
      s.recommendations = [CheckKind.lint.recommendation, CheckKind.build.recommendation] ∧
      ¬ s.overallSuccess = true ∧ w'.memory = [.str "a", .str "b", .str "c"] ∧
      w'.counted .failed = Double.ofNat 2 := by
  intro report checks
  have hreplies : ∀ c ∈ checks, c.probe.Replies := by
    have hreport : ∀ note delay, Probe.Replies (noting note { report with delay := delay }) := by
      rintro note delay site _ ⟨⟩
      exact ⟨[], rfl⟩
    have hfailed : Probe.Replies (noting "b" (.failed (.cancelled ""))) := nofun
    simp only [checks, List.forall_mem_cons]
    exact ⟨hreport _ _, hfailed, hreport _ _, hreport _ _, nofun⟩
  have hnotes : ∀ c ∈ checks, ∀ site, (c.probe site).2.memory = site.memory ++ [.str c.name] := by
    simp only [checks, List.forall_mem_cons]
    exact ⟨fun _ ↦ rfl, fun _ ↦ rfl, fun _ ↦ rfl, fun _ ↦ rfl, nofun⟩
  obtain ⟨s, w', hact, hgates, hbegun, hcounted⟩ := validate_gate (w := default) rfl hreplies
  have heval : (validate checks default).1.toOption.map (fun s ↦
      (s.results.map CheckResult.status, s.recommendations, s.overallSuccess, reach s.results,
        s.count .failed)) =
      some ([.passed, .failed, .failed, .skipped],
        [CheckKind.lint.recommendation, CheckKind.build.recommendation], false, 3, 2) := by
    decide +kernel
  simp only [hact, Except.toOption, Option.map_some, Option.some.injEq, Prod.mk.injEq] at heval
  obtain ⟨hstatus, htexts, hsuccess, hreach, hfailed⟩ := heval
  refine ⟨s, w', hact, hstatus, htexts, by simp [hsuccess], ?_, ?_⟩
  · rw [hbegun.memory_eq fun c hc ↦ hnotes c (List.mem_of_mem_take hc), hreach]
    rfl
  · have hzero : (default : World).counted .failed = Double.ofNat 0 := rfl
    have hcount := (hcounted .failed).2 0 hzero
    rw [hfailed] at hcount
    exact hcount (by decide)

end Remedy
