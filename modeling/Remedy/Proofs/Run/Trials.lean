import Mathlib.Data.List.Chain
import Remedy.Proofs.Passing
import Remedy.Proofs.Run.Endings

/-!
# How often a fixer is called

What a call of a fixer comes to (`Settled.verdict`) depends on its course only: on what it replies,
and on whether that is in time. A call succeeds if and only if the reply is a count or a report of
success that is not negative (`Trial.verdict_eq_ok_iff`), provided that reports count in integers
and give their details as a record (`FixReply.Proper`).

The fixer of a phase is called until a call succeeds or none is left. The calls make up a row
(`Trials`): each is begun when the one before is over, and nothing but the log is changed in
between. `Attempting` is the invariant of the repetition, and `RunAct.ends_attempts_trials` says
where it leads.

A fixer that never ends must have a deadline (`Course.Limited`); and the timeout of the phase must
be one that a clock can take.
-/

set_option autoImplicit false

namespace Remedy

/-! ### Replies -/

/-- The integer that a report counts, if it does count in integers. -/
def FixReport.count? (r : FixReport) : Option ℤ := r.fixedCount.number?.bind Number.int?

/-- The reply is what it should be in each of its parts, if it is a report. -/
def FixReply.Proper : FixReply → Prop
  | .report r => r.count?.isSome = true ∧ ∃ fields, r.details = .obj fields
  | _ => True

/-- What the report counts can be counted, and its details make up a record. -/
structure FixReport.Countable (r : FixReport) : Prop where
  not_lt : r.fixedCount.amount.lt 0 = false
  fits : r.fixedCount.amount.toDouble?.isSome = true
  record : ∃ fields, r.details.record = .ok fields

/-- A run can bear the reply, be it a failure: reports count in numbers, and those of success can be
counted and recorded. -/
def FixReply.Bearable : FixReply → Prop
  | .count n => 0 ≤ n → (Number.int n).toDouble?.isSome = true
  | .report r => ∃ negative, isNegative? r.fixedCount = some negative ∧
      (negative = false → r.success.truthy = true →
        r.fixedCount.amount.toDouble?.isSome = true ∧ ∃ fields, r.details.record = .ok fields)
  | .other _ => True

/-- The reply says how much was fixed. -/
inductive FixReply.Fixes : FixReply → FixReport → Prop
  | count {n : ℤ} (hcount : 0 ≤ n) : Fixes (.count n) { fixedCount := n }
  | report {r : FixReport} {n : ℤ} (hsuccess : r.success.truthy = true)
      (hint : r.count? = some n) (hcount : 0 ≤ n) : Fixes (.report r) r

theorem Number.lt_zero_of_int? {x : Number} {n : ℤ} (h : x.int? = some n) :
    x.lt 0 = decide (n < 0) := by
  cases x with
  | int m =>
    cases h
    rw [Bool.eq_iff_iff, decide_eq_true_iff, ← Int.compare_eq_lt]
    exact beq_iff_eq.trans Option.some_inj
  | real y => cases h
  | truth b => cases b <;> cases h <;> rfl

theorem FixReply.isNegative?_of_count? {r : FixReport} {n : ℤ} (h : r.count? = some n) :
    isNegative? r.fixedCount = some (decide (n < 0)) := by
  unfold FixReport.count? at h
  unfold isNegative?
  cases hcount : r.fixedCount with
  | num x =>
    rw [hcount] at h
    exact congrArg some (Number.lt_zero_of_int? h)
  | bool b => cases b <;> (rw [hcount] at h; cases h; rfl)
  | _ => rw [hcount] at h; cases h

theorem FixReply.amount_lt_zero {count : Json} {negative : Bool}
    (h : isNegative? count = some negative) : count.amount.lt 0 = negative := by
  cases count with
  | num x => exact Option.some.inj h
  | bool b =>
    obtain rfl := Option.some.inj h
    cases b <;> rfl
  | _ => cases h

/-- What a reply that can be borne is taken for: a failure of the attempt, or a report that can be
counted if it is one of success. -/
theorem FixReply.Bearable.check {reply : FixReply} (h : reply.Bearable) (name : String) :
    (∃ cause, reply.check name = .error (.fixer cause)) ∨
      ∃ r, reply.check name = .ok r ∧ (r.success.truthy = true → r.Countable) := by
  have hjudged : ∀ {r : FixReport} {negative : Bool}, isNegative? r.fixedCount = some negative →
      (negative = false → r.success.truthy = true →
        r.fixedCount.amount.toDouble?.isSome = true ∧ ∃ fields, r.details.record = .ok fields) →
      (∃ cause, (FixReply.report r).check name = .error (.fixer cause)) ∨
        ∃ r', (FixReply.report r).check name = .ok r' ∧
          (r'.success.truthy = true → r'.Countable) := by
    intro r negative hnegative hgood
    cases negative with
    | true => exact .inl ⟨_, by simp [FixReply.check, bind, Except.bind, hnegative]; rfl⟩
    | false =>
      refine .inr ⟨r, by simp [FixReply.check, bind, Except.bind, hnegative], fun hsuccess ↦ ?_⟩
      obtain ⟨hfits, hrecord⟩ := hgood rfl hsuccess
      exact ⟨amount_lt_zero hnegative, hfits, hrecord⟩
  match reply with
  | .count n =>
    refine hjudged (r := { fixedCount := n }) rfl fun hnot _ ↦ ⟨h ?_, [], rfl⟩
    have hlt : (Number.int n).lt 0 = decide (n < 0) := Number.lt_zero_of_int? rfl
    rw [hlt, decide_eq_false_iff_not] at hnot
    exact Int.not_lt.mp hnot
  | .report r =>
    obtain ⟨negative, hnegative, hgood⟩ := h
    exact hjudged hnegative hgood
  | .other kind => exact .inl ⟨_, rfl⟩

/-! ### Verdicts -/

/-- What the ending of a fixer's work means for the attempt. -/
def Settled.verdict (phase : Phase) : Settled FixReply → Except Fault FixReport
  | .overdue =>
    .error (.phaseTimeout s!"{phase.name} timed out after {phase.timeout.text}s" phase.timeout)
  | .ended (.error (.cancelled _)) => .error (.fixer (.cancelled phase.name))
  | .ended (.error fault) =>
    if fault.isA .operationTimeout then .error (.phaseTimeout fault.message phase.timeout)
    else .error (.fixer (.raised phase.name fault.kind fault.message))
  | .ended (.ok reply) => do
    let r ← reply.check phase.name
    if r.success.truthy then .ok r else .error (.fixer (.reported phase.name r.message.shown))

namespace Settled

variable {phase : Phase} {settled : Settled FixReply}

theorem verdict_report {r : FixReport} {n : ℤ} (h : r.count? = some n) :
    (ended (.ok (.report r))).verdict phase =
      if n < 0 then .error (.fixer (.negative phase.name))
      else if r.success.truthy then .ok r
      else .error (.fixer (.reported phase.name r.message.shown)) := by
  by_cases hneg : n < 0 <;>
    simp [verdict, FixReply.check, bind, Except.bind, FixReply.isNegative?_of_count? h, hneg]

theorem verdict_count (n : ℤ) :
    (ended (.ok (.count n))).verdict phase =
      if n < 0 then .error (.fixer (.negative phase.name)) else .ok { fixedCount := n } :=
  verdict_report (r := { fixedCount := n }) rfl

/-- The fault of an attempt that failed. -/
inductive Fails : Fault → Prop
  | fixer (cause : FixerFault) : Fails (.fixer cause)
  | timeout (text : String) (timeout : Number) : Fails (.phaseTimeout text timeout)

theorem verdict_error (phase : Phase) (fault : Fault) :
    ∃ e, Fails e ∧ (ended (.error fault)).verdict phase = .error e := by
  unfold verdict
  split
  · exact ⟨_, .timeout _ _, rfl⟩
  · exact ⟨_, .fixer _, rfl⟩
  · split
    · exact ⟨_, .timeout _ _, rfl⟩
    · exact ⟨_, .fixer _, rfl⟩
  · rename_i hended
    cases hended

/-- An attempt succeeds if the reply says how much was fixed, and in no other case. -/
theorem verdict_eq_ok_iff {r : FixReport}
    (hproper : ∀ reply, settled = .ended (.ok reply) → reply.Proper) :
    settled.verdict phase = .ok r ↔ ∃ reply, settled = .ended (.ok reply) ∧ reply.Fixes r := by
  constructor
  · intro h
    match settled with
    | .overdue => cases h
    | .ended (.error fault) =>
      obtain ⟨e, -, hverdict⟩ := verdict_error phase fault
      rw [hverdict] at h
      cases h
    | .ended (.ok (.count n)) =>
      rw [verdict_count] at h
      split at h
      · cases h
      · cases h
        exact ⟨_, rfl, .count (Int.not_lt.mp ‹_›)⟩
    | .ended (.ok (.report r')) =>
      obtain ⟨n, hn⟩ := Option.isSome_iff_exists.mp (hproper _ rfl).1
      rw [verdict_report hn] at h
      split at h
      · cases h
      · split at h
        · cases h
          exact ⟨_, rfl, .report ‹_› hn (Int.not_lt.mp ‹_›)⟩
        · cases h
    | .ended (.ok (.other kind)) => cases h
  · rintro ⟨reply, rfl, hfixes⟩
    cases hfixes with
    | count hcount => rw [verdict_count, if_neg (Int.not_lt.mpr hcount)]
    | report hsuccess hint hcount =>
      rw [verdict_report hint, if_neg (Int.not_lt.mpr hcount), if_pos hsuccess]

/-- The verdict on work that has ended, unless it has replied with something unbearable. -/
theorem verdict_cases (hbearable : ∀ reply, settled = .ended (.ok reply) → reply.Bearable) :
    (∃ e, settled.verdict phase = .error e ∧ Fails e) ∨
      ∃ r, settled.verdict phase = .ok r ∧ r.Countable := by
  match settled with
  | .overdue => exact .inl ⟨_, rfl, .timeout _ _⟩
  | .ended (.error fault) =>
    obtain ⟨e, hfails, hverdict⟩ := verdict_error phase fault
    exact .inl ⟨e, hverdict, hfails⟩
  | .ended (.ok reply) =>
    rcases (hbearable reply rfl).check phase.name with ⟨cause, hcheck⟩ | ⟨r, hcheck, hcountable⟩
    · exact .inl ⟨_, by simp [verdict, hcheck, bind, Except.bind], .fixer cause⟩
    · cases hsuccess : r.success.truthy with
      | true =>
        exact .inr ⟨r, by simp [verdict, hcheck, bind, Except.bind, hsuccess],
          hcountable hsuccess⟩
      | false =>
        exact .inl ⟨_, by simp [verdict, hcheck, bind, Except.bind, hsuccess]; rfl, .fixer _⟩

/-- It is worth another attempt. -/
theorem Fails.covers {e : Fault} (h : Fails e) (backoff : Number) :
    ({ backoff := backoff } : RetryPolicy).covers e = true := by
  cases h <;> rfl

end Settled

/-! ### Calls -/

/-- A call of a fixer: what is asked of it, and the world that it is called in. -/
structure Trial where
  request : FixRequest
  world : World

/-- What the fixer of a phase is asked at a moment. -/
def Phase.request (phase : Phase) (files : List Route) (now : Moment) : FixRequest :=
  ⟨files.map Route.path, phase.findings, now + Moment.ofSeconds phase.timeout⟩

namespace Trial

section Definitions

variable (fixer : Fixer) (phase : Phase) (t : Trial)

def course : Course FixReply := (fixer.fix t.request t.world.toSite).1

/-- What the call comes to. -/
def verdict : Except Fault FixReport := ((t.course fixer).settled phase.timeout).verdict phase

/-- The moment at which the call has succeeded, has failed or has missed its deadline. -/
def done : Moment := t.world.now + (t.course fixer).lasting phase.timeout

/-- The world that is left then. -/
def left : World :=
  { t.world with
    toSite := (fixer.fix t.request t.world.toSite).2
    now := t.done fixer phase }

/-- The fixer returns in time and says how much was fixed. -/
def Succeeds (r : FixReport) : Prop :=
  (t.course fixer).misses phase.timeout = false ∧
    ∃ reply, (t.course fixer).outcome = .ok reply ∧ reply.Fixes r

end Definitions

end Trial

/-- A run can bear the fixer in the phase: it ends or has a deadline that it can miss, and its
replies can be borne. -/
structure Fixer.Borne (fixer : Fixer) (phase : Phase) : Prop where
  limited : ∀ request site, (fixer.fix request site).1.Limited phase.timeout
  bearable : ∀ request site reply, (fixer.fix request site).1.outcome = .ok reply → reply.Bearable

/-- The fixer can serve the phase: it ends or has a deadline that it can miss, its replies are what
they should be, and what they count fits into a counter. -/
structure Fixer.Serves (fixer : Fixer) (phase : Phase) : Prop where
  limited : ∀ request site, (fixer.fix request site).1.Limited phase.timeout
  proper : ∀ request site reply, (fixer.fix request site).1.outcome = .ok reply → reply.Proper
  fits : ∀ request site reply r, (fixer.fix request site).1.outcome = .ok reply → reply.Fixes r →
    r.fixedCount.amount.toDouble?.isSome = true

theorem Fixer.Serves.borne {fixer : Fixer} {phase : Phase} (h : fixer.Serves phase) :
    fixer.Borne phase where
  limited := h.limited
  bearable request site reply hreply := by
    match reply with
    | .count n => exact fun hcount ↦ h.fits _ _ _ _ hreply (.count hcount)
    | .report r =>
      obtain ⟨hint, fields, hfields⟩ := h.proper _ _ _ hreply
      obtain ⟨n, hn⟩ := Option.isSome_iff_exists.mp hint
      refine ⟨_, FixReply.isNegative?_of_count? hn, fun hnot hsuccess ↦ ⟨?_, fields, ?_⟩⟩
      · have hcount := Int.not_lt.mp (decide_eq_false_iff_not.mp hnot)
        exact h.fits _ _ _ _ hreply (.report hsuccess hn hcount)
      · rw [hfields]
        rfl
    | .other kind => trivial

section Calls

variable {fixer : Fixer} {phase : Phase}

theorem Course.settled_eq_ended {α : Type} {c : Course α} {timeout : Number}
    {outcome : Except Fault α} :
    c.settled timeout = .ended outcome ↔ c.misses timeout = false ∧ c.outcome = outcome := by
  unfold settled
  cases c.misses timeout <;> simp

namespace Trial

variable {t : Trial} (hserves : fixer.Serves phase)

include hserves

theorem proper_of_ended {reply : FixReply}
    (h : (t.course fixer).settled phase.timeout = .ended (.ok reply)) : reply.Proper :=
  hserves.proper _ _ _ (Course.settled_eq_ended.mp h).2

/-- A call succeeds if and only if the fixer returns in time and says how much was fixed. -/
theorem verdict_eq_ok_iff {r : FixReport} :
    t.verdict fixer phase = .ok r ↔ t.Succeeds fixer phase r := by
  refine (Settled.verdict_eq_ok_iff fun _ ↦ proper_of_ended hserves).trans ?_
  constructor
  · rintro ⟨reply, hended, hfixes⟩
    obtain ⟨hmisses, houtcome⟩ := Course.settled_eq_ended.mp hended
    exact ⟨hmisses, reply, houtcome, hfixes⟩
  · rintro ⟨hmisses, reply, houtcome, hfixes⟩
    exact ⟨reply, Course.settled_eq_ended.mpr ⟨hmisses, houtcome⟩, hfixes⟩

theorem not_succeeds {e : Fault} (h : t.verdict fixer phase = .error e) (r : FixReport) :
    ¬ t.Succeeds fixer phase r := by
  intro hsucceeds
  rw [(verdict_eq_ok_iff hserves).mpr hsucceeds] at h
  cases h

end Trial

namespace Trial

variable {t : Trial} (hborne : fixer.Borne phase)

include hborne

theorem verdict_cases :
    (∃ e, t.verdict fixer phase = .error e ∧ Settled.Fails e) ∨
      ∃ r, t.verdict fixer phase = .ok r ∧ r.Countable :=
  Settled.verdict_cases fun _ hreply ↦
    hborne.bearable _ _ _ (Course.settled_eq_ended.mp hreply).2

theorem fails_of_verdict {e : Fault} (h : t.verdict fixer phase = .error e) : Settled.Fails e := by
  rcases verdict_cases hborne with ⟨e', he', hfails⟩ | ⟨r, hr, -⟩
  · obtain rfl : e' = e := Except.error.inj (he'.symm.trans h)
    exact hfails
  · cases hr.symm.trans h

theorem countable_of_verdict {r : FixReport} (h : t.verdict fixer phase = .ok r) :
    r.Countable := by
  rcases verdict_cases hborne with ⟨e, he, -⟩ | ⟨r', hr', hcountable⟩
  · cases he.symm.trans h
  · obtain rfl : r' = r := Except.ok.inj (hr'.symm.trans h)
    exact hcountable

end Trial

/-- Calls of the fixer one after the other, from one world to another. -/
inductive Trials (fixer : Fixer) (phase : Phase) (w₀ : World) : List Trial → World → Prop
  | none {w : World} (hlater : w₀.Later w) : Trials fixer phase w₀ [] w
  | call {ts : List Trial} {t : Trial} {w : World} (h : Trials fixer phase w₀ ts t.world)
      (hlater : (t.left fixer phase).Later w) : Trials fixer phase w₀ (ts ++ [t]) w

namespace Trials

variable {w₀ w w' : World} {ts : List Trial}

theorem later (h : Trials fixer phase w₀ ts w) (hlater : w.Later w') :
    Trials fixer phase w₀ ts w' := by
  cases h with
  | none hbefore => exact .none (hbefore.trans hlater)
  | call hrow hbefore => exact .call hrow (hbefore.trans hlater)

theorem interrupt (h : Trials fixer phase w₀ ts w) (hw₀ : w₀.interrupt = Option.none) :
    w.interrupt = Option.none := by
  induction h with
  | none hlater => exact hlater.interrupt hw₀
  | call _ hlater ih => exact hlater.interrupt ih

/-- No call is begun before the one before is over. -/
theorem ordered (h : Trials fixer phase w₀ ts w) :
    ts.IsChain (fun t t' ↦ t.done fixer phase ≤ t'.world.now) ∧
      ∀ t ∈ ts.getLast?, t.done fixer phase ≤ w.now := by
  induction h with
  | none hlater => exact ⟨.nil, by simp⟩
  | call _ hlater ih =>
    constructor
    · refine List.isChain_append.mpr ⟨ih.1, .singleton _, fun t ht t' ht' ↦ ?_⟩
      cases ht'
      exact ih.2 t ht
    · intro t ht
      rw [List.getLast?_concat] at ht
      cases ht
      exact hlater.now

end Trials

end Calls

/-! ### Attempts -/

/-- The occurrences of calls of the fixer of a phase. -/
def Phase.calls (phase : Phase) (ts : List Trial) : List Occurrence :=
  ts.mapIdx fun index t ↦ .call phase (index + 1) t.request

/-- From `b₀` to `b` the fixer of the phase has been called in the given trials. -/
structure Attempting (fixer : Fixer) (phase : Phase) (files : List Route) (b₀ : Bench)
    (ts : List Trial) (b : Bench) : Prop where
  row : Trials fixer phase b₀.world ts b.world
  requests : ∀ t ∈ ts, t.request = phase.request files t.world.now
  calls : b.progress.happened = b₀.progress.happened ++ phase.calls ts
  history : b.context.history = b₀.context.history
  state : b.context.state = .executing ∨ b.context.state = .retrying

/-- Time has passed at the bench. -/
def Bench.Waits (b b' : Bench) : Prop := ∃ w, b.world.Later w ∧ b' = { b with world := w }

/-- What a call adds to the calls before it. -/
theorem Attempting.called {fixer : Fixer} {phase : Phase} {files : List Route} {b₀ b : Bench}
    {ts : List Trial} {t : Trial} {w : World} (h : Attempting fixer phase files b₀ ts b)
    (hrequest : t.request = phase.request files t.world.now) (hworld : b.world = t.world)
    (hleft : (t.left fixer phase).Later w) :
    Attempting fixer phase files b₀ (ts ++ [t])
      { (b.change fun c ↦ { c with mutated := true }).note
          (.call phase (ts.length + 1) t.request) with world := w } where
  row := .call (hworld ▸ h.row) hleft
  requests t' ht' := by
    rcases List.mem_append.mp ht' with ht' | ht'
    · exact h.requests t' ht'
    · rw [List.mem_singleton.mp ht']
      exact hrequest
  calls := by
    show (Bench.note _ _).progress.happened = _
    rw [Bench.happened_note _ rfl, Bench.happened_change, Phase.calls, List.mapIdx_concat,
      ← List.append_assoc]
    exact congrArg (· ++ _) h.calls
  history := h.history
  state := h.state

theorem Attempting.waits {fixer : Fixer} {phase : Phase} {files : List Route} {b₀ b b' : Bench}
    {ts : List Trial} (h : Attempting fixer phase files b₀ ts b) (hwaits : b.Waits b') :
    Attempting fixer phase files b₀ ts b' := by
  obtain ⟨w, hlater, rfl⟩ := hwaits
  exact { h with row := h.row.later hlater }

namespace RunAct

section Attempts

variable {α β : Type} {fixer : Fixer} {phase : Phase} {files : List Route} {b₀ b : Bench}

/-- What is done to the world while time passes. -/
theorem ends_passing {act : Act α} (hact : act.Passes) (hb : b.world.interrupt = none) :
    Ends (lift act) b (fun _ b' ↦ b.Waits b') fun _ _ ↦ False :=
  ends_lift.mpr ((hact b.world hb).mono (fun _ w hw ↦ ⟨w, hw, rfl⟩) fun _ _ ↦ id)

theorem ends_thenPassing {act : Act α} {f : α → RunAct β} {ok : β → Bench → Prop}
    {bad : Fault → Bench → Prop} (hact : act.Passes) (hb : b.world.interrupt = none)
    (hnext : ∀ a w, b.world.Later w → Ends (f a) { b with world := w } ok bad) :
    Ends (lift act >>= f) b ok bad := by
  refine ends_bind.mpr ((ends_passing hact hb).mono ?_ fun _ _ ↦ False.elim)
  rintro a _ ⟨w, hw, rfl⟩
  exact hnext a w hw

/-- A move that is allowed cannot fail. -/
theorem ends_moveTo_waits {target : RunState} {name : Option String} {reason : String}
    (hnext : target ∈ b.context.state.next) (hb : b.world.interrupt = none) :
    Ends (moveTo target name reason) b (fun _ b' ↦ (b.moved target name reason).Waits b')
      fun _ _ ↦ False :=
  ends_moveTo_logged hnext fun _ _ _ ↦
    ends_passing (b := b.moved target name reason) (Act.passes_log _ _ _) hb

theorem ends_judge_verdict {number : Nat} {settled : Settled FixReply}
    (hb : b.world.interrupt = none) :
    Ends (judge phase number settled) b
      (fun r b' ↦ settled.verdict phase = .ok r ∧ b.Waits b')
      fun e b' ↦ settled.verdict phase = .error e ∧ b.Waits b' := by
  have hoverdue : ∀ text, settled.verdict phase = .error (.phaseTimeout text phase.timeout) →
      Ends (judge.overdue phase number text) b
        (fun r b' ↦ settled.verdict phase = .ok r ∧ b.Waits b')
        fun e b' ↦ settled.verdict phase = .error e ∧ b.Waits b' := by
    intro text hverdict
    unfold judge.overdue
    refine ends_thenPassing (Act.passes_countOne _ _) hb fun _ w hw ↦ ?_
    refine ends_thenPassing (Act.passes_log _ _ _) (hw.interrupt hb) fun _ w' hw' ↦ ?_
    exact ends_throw.mpr ⟨hverdict, w', hw.trans hw', rfl⟩
  have hlogged : ∀ level name fields e, settled.verdict phase = .error e →
      Ends (log level name fields >>= fun _ ↦ throw e) b
        (fun r b' ↦ settled.verdict phase = .ok r ∧ b.Waits b')
        fun e b' ↦ settled.verdict phase = .error e ∧ b.Waits b' := by
    intro level name fields e hverdict
    refine ends_thenPassing (Act.passes_log _ _ _) hb fun _ w hw ↦ ?_
    exact ends_throw.mpr ⟨hverdict, w, hw, rfl⟩
  have hnone : b.Waits b := ⟨b.world, .refl b.world, rfl⟩
  unfold judge
  split
  · exact hoverdue _ rfl
  · exact ends_throw.mpr ⟨rfl, hnone⟩
  · split
    · exact hoverdue _ (by simp_all only [Settled.verdict, if_true])
    · exact hlogged _ _ _ _ (by simp_all [Settled.verdict])
  · split
    · rename_i hcheck
      exact ends_throw.mpr ⟨by simp [Settled.verdict, hcheck, bind, Except.bind], hnone⟩
    · rename_i r hcheck
      split
      · rename_i hsuccess
        exact ends_pure.mpr ⟨by simp [Settled.verdict, hcheck, bind, Except.bind, hsuccess], hnone⟩
      · rename_i hsuccess
        exact hlogged _ _ _ _ (by simp [Settled.verdict, hcheck, bind, Except.bind, hsuccess])

/-- How a call comes out and what it leaves. -/
theorem ends_race_trial {t : Trial} (hborne : fixer.Borne phase)
    (htimeout : phase.timeout.toDouble?.isSome = true) (hworld : t.world.interrupt = none) :
    Ends (Act.race (fixer.fix t.request) phase.timeout) t.world
      (fun settled w ↦ settled = (t.course fixer).settled phase.timeout ∧
        (t.left fixer phase).Later w) fun _ _ ↦ False := by
  refine ((Act.isFrame_idles.ends_race _ _ _).and
    (Act.ends_race_course (fixer.fix t.request) phase.timeout hworld)).mono ?_ ?_
  · rintro settled w ⟨hidles, hsettled, hinterrupt, hnow⟩
    have hbegun : (t.left fixer phase).Idles
        { t.world with toSite := (fixer.fix t.request t.world.toSite).2 } :=
      ⟨.of_eq rfl rfl rfl, rfl, rfl⟩
    exact ⟨hsettled, hbegun.trans hidles, (hnow (hborne.limited _ _)).ge, fun _ ↦ hinterrupt⟩
  · rintro e w ⟨-, -, hnone⟩
    rw [hnone] at htimeout
    cases htimeout

end Attempts

end RunAct

/-- In `b` the fixer has been called once more, and that is what came of it. -/
def Called (fixer : Fixer) (phase : Phase) (files : List Route) (b₀ : Bench) (ts : List Trial)
    (outcome : Except Fault FixReport) (b : Bench) : Prop :=
  ∃ t, t.verdict fixer phase = outcome ∧ Attempting fixer phase files b₀ (ts ++ [t]) b ∧
    b.progress.attempt = ts.length + 1

namespace RunAct

section Attempts

variable {fixer : Fixer} {phase : Phase} {files : List Route} {b₀ b : Bench} {ts : List Trial}
  (hborne : fixer.Borne phase) (htimeout : phase.timeout.toDouble?.isSome = true)
  (hb₀ : b₀.world.interrupt = none)

include hborne htimeout hb₀

theorem ends_callFixer_trial (h : Attempting fixer phase files b₀ ts b)
    (hattempt : b.progress.attempt = ts.length + 1) :
    Ends (callFixer fixer phase files (ts.length + 1)) b
      (fun r b' ↦ Called fixer phase files b₀ ts (.ok r) b')
      fun e b' ↦ Called fixer phase files b₀ ts (.error e) b' := by
  have hb := h.row.interrupt hb₀
  unfold callFixer
  refine ends_thenPassing (Act.passes_countOne _ _) hb fun _ w₁ hw₁ ↦ ?_
  refine ends_thenPassing (Act.passes_log _ _ _) (hw₁.interrupt hb) fun _ w hw₂ ↦ ?_
  have hw := hw₁.trans hw₂
  have hwaits := h.waits ⟨w, hw, rfl⟩
  refine ends_bind.mpr (ends_update.mpr (Ends.guard (fun hnone ↦ ?_) fun _ ↦ ?_))
  · rw [Option.isNone_iff_eq_none.mp hnone] at htimeout
    cases htimeout
  obtain ⟨t, rfl, hrequest⟩ : ∃ t : Trial, t.world = w ∧ t.request = phase.request files w.now :=
    ⟨⟨_, w⟩, rfl, rfl⟩
  refine ends_bind.mpr (ends_get.mpr (ends_bind.mpr (ends_note.mpr (ends_bind.mpr ?_))))
  show Ends (lift (Act.race (fixer.fix (phase.request files t.world.now)) phase.timeout))
    (Bench.note _ (.call phase (ts.length + 1) (phase.request files t.world.now))) _ _
  rw [← hrequest]
  have hinterrupt := hw.interrupt hb
  refine ends_lift.mpr ((ends_race_trial hborne htimeout hinterrupt).mono ?_
    fun _ _ ↦ False.elim)
  rintro settled w' ⟨rfl, hleft⟩
  have hcalled := (h.waits ⟨t.world, hw, rfl⟩).called hrequest rfl hleft
  refine (ends_judge_verdict (hleft.interrupt hinterrupt)).mono ?_ ?_
  · rintro r b' ⟨hverdict, hb'⟩
    refine ⟨t, hverdict, hcalled.waits hb', ?_⟩
    obtain ⟨w'', -, rfl⟩ := hb'
    exact hattempt
  · rintro e b' ⟨hverdict, hb'⟩
    refine ⟨t, hverdict, hcalled.waits hb', ?_⟩
    obtain ⟨w'', -, rfl⟩ := hb'
    exact hattempt

theorem ends_attemptPhase_trial (h : Attempting fixer phase files b₀ ts b) :
    Ends (attemptPhase fixer phase files (ts.length + 1)) b
      (fun r b' ↦ Called fixer phase files b₀ ts (.ok r) b')
      fun e b' ↦ Called fixer phase files b₀ ts (.error e) b' := by
  unfold attemptPhase
  refine ends_bind.mpr (ends_modify.mpr ?_)
  have hbegun : Attempting fixer phase files b₀ ts
      { b with progress := { b.progress with attempt := ts.length + 1 } } := { h with }
  dsimp only
  split
  · rcases h.state with hstate | hstate
    · have hmoved : Attempting fixer phase files b₀ ts
          (Bench.moved { b with progress := { b.progress with attempt := ts.length + 1 } }
            .retrying (some phase.name) s!"attempt {ts.length + 1}/{phase.maxAttempts}") :=
        { row := h.row
          requests := h.requests
          calls := (Bench.happened_moved _ _ _ _).trans h.calls
          history := h.history
          state := .inr rfl }
      refine ends_bind.mpr ((ends_moveTo_waits
        (b := { b with progress := { b.progress with attempt := ts.length + 1 } })
        (RunState.retrying_mem_next hstate) (h.row.interrupt hb₀)).mono ?_ fun _ _ ↦ False.elim)
      rintro _ b' hb'
      refine ends_callFixer_trial hborne htimeout hb₀ (hmoved.waits hb') ?_
      obtain ⟨w, -, rfl⟩ := hb'
      rfl
    · refine ends_bind.mpr (ends_moveTo (fun _ ↦ ?_) (fun hnext ↦ ?_) fun hne ↦ ?_)
      · exact ends_callFixer_trial hborne htimeout hb₀ hbegun rfl
      · exact absurd hnext (hstate ▸ RunState.not_mem_next_self .retrying)
      · exact absurd hstate hne
  · exact ends_callFixer_trial hborne htimeout hb₀ hbegun rfl

/-- The fixer is called until a call succeeds or none is left. -/
theorem ends_attempts_trials {backoff : Number} {left : ℕ}
    (hstate : b₀.context.state = .executing ∨ b₀.context.state = .retrying) :
    Ends (retryFrom { backoff := backoff } (attemptPhase fixer phase files)
        (fun number fault wait ↦ lift (Act.rest number fault wait)) left 1) b₀
      (fun r b ↦ ∃ ts, ts.length ≤ left ∧ (∀ t ∈ ts, ∃ e, t.verdict fixer phase = .error e) ∧
        Called fixer phase files b₀ ts (.ok r) b)
      fun e b ↦ ∃ ts, ts.length = left ∧ (∀ t ∈ ts, ∃ e, t.verdict fixer phase = .error e) ∧
        Called fixer phase files b₀ ts (.error e) b := by
  have hnone : Attempting fixer phase files b₀ [] b₀ :=
    ⟨.none (.refl _), by simp, (List.append_nil _).symm, rfl, hstate⟩
  refine (ends_retryFrom_covered
    (I := fun n b ↦ ∃ ts, ts.length + 1 = n ∧ (∀ t ∈ ts, ∃ e, t.verdict fixer phase = .error e) ∧
      Attempting fixer phase files b₀ ts b)
    (P := fun n r b ↦ ∃ ts, ts.length + 1 = n ∧
      (∀ t ∈ ts, ∃ e, t.verdict fixer phase = .error e) ∧ Called fixer phase files b₀ ts (.ok r) b)
    (Q := fun n e b ↦ ∃ ts, ts.length + 1 = n ∧
      (∀ t ∈ ts, ∃ e, t.verdict fixer phase = .error e) ∧
        Called fixer phase files b₀ ts (.error e) b) ?_ ?_ left 1 b₀
    ⟨[], rfl, by simp, hnone⟩).mono ?_ ?_
  · rintro n b ⟨ts, rfl, hfails, h⟩
    refine (ends_attemptPhase_trial hborne htimeout hb₀ h).mono
      (fun r b' hcalled ↦ ⟨ts, rfl, hfails, hcalled⟩) ?_
    intro e b' hcalled
    refine ⟨?_, ts, rfl, hfails, hcalled⟩
    obtain ⟨t, hverdict, -⟩ := hcalled
    exact (Trial.fails_of_verdict hborne hverdict).covers backoff
  · rintro n e b ⟨ts, rfl, hfails, t, hverdict, h, -⟩
    refine (ends_passing (Act.passes_rest _ _ _) (h.row.interrupt hb₀)).mono ?_ fun _ _ ↦ id
    intro _ b' hwaits
    refine ⟨ts ++ [t], by simp, fun t' ht' ↦ ?_, h.waits hwaits⟩
    rcases List.mem_append.mp ht' with ht' | ht'
    · exact hfails t' ht'
    · rw [List.mem_singleton.mp ht']
      exact ⟨e, hverdict⟩
  · rintro r b ⟨n, hn, ts, rfl, hfails, hcalled⟩
    exact ⟨ts, by omega, hfails, hcalled⟩
  · rintro e b ⟨ts, hn, hfails, hcalled⟩
    exact ⟨ts, by omega, hfails, hcalled⟩

end Attempts

end RunAct

end Remedy
