import Remedy.Proofs.Billing
import Remedy.Proofs.Returning
import Remedy.Proofs.Run.Steps

/-!
# What attempts charge

Most of a run charges nothing and adds no result (`Bench.Aside`). An attempt at a phase charges the
call of its fixer and, if that is overdue, that it is (`RunAct.ends_callFixer_charged`). What a row of
attempts has charged is said by `Attempted`, which is the invariant of the repetition: the number of
the attempt that was begun last is the number of calls (`RunAct.ends_attempts_charged`).

The counts that fixers reply with are charged as they are, if they are whole (`Crew.Whole`).
-/

set_option autoImplicit false

namespace Remedy

open Meter (Tally)

/-! ### Fixers with whole counts -/

/-- The count in the reply is an integer, or no number at all. -/
def FixReply.Whole : FixReply → Prop
  | .count _ => True
  | .report r => r.fixedCount.amount.int?.isSome = true
  | .other _ => True

/-- Every fixer replies with whole counts. -/
def Crew.Whole (crew : Crew) : Prop :=
  ∀ (name : String) (fixer : Fixer), crew.registry.get name = .ok fixer →
    ∀ (request : FixRequest) (site : Site) (reply : FixReply),
      (fixer.fix request site).1.outcome = .ok reply → reply.Whole

theorem Number.exists_is {x : Number} (hwhole : x.int?.isSome = true) (hlt : x.lt 0 = false) :
    ∃ n, x.Is n := by
  have hnonneg : ∀ n : ℤ, (int n).lt 0 = false → 0 ≤ n := by
    intro n h
    by_contra hneg
    have hcompare : compare n 0 = .lt := compare_lt_iff_lt.mpr (not_le.mp hneg)
    simp [lt, compare?, hcompare] at h
  cases x with
  | int n =>
    obtain ⟨k, rfl⟩ := Int.eq_ofNat_of_zero_le (hnonneg n hlt)
    exact ⟨k, rfl⟩
  | real y => cases hwhole
  | truth b => cases b
               · exact ⟨0, rfl⟩
               · exact ⟨1, rfl⟩

theorem FixReply.Whole.exists_is {reply : FixReply} (h : reply.Whole) {phase : String}
    {r : FixReport} (hcheck : reply.check phase = .ok r) : ∃ n, r.fixedCount.amount.Is n := by
  have hreport : ∀ r' : FixReport, r'.fixedCount.amount.int?.isSome = true →
      (FixReply.report r').check phase = .ok r → ∃ n, r.fixedCount.amount.Is n := by
    intro r' hwhole hcheck
    unfold FixReply.check at hcheck
    dsimp only [bind, Except.bind] at hcheck
    split at hcheck
    · cases hcheck
    · cases hcheck
    · rename_i hnegative
      cases hcheck
      refine Number.exists_is hwhole ?_
      cases hcount : r.fixedCount with
      | num x => simpa [hcount, FixReply.isNegative?, Json.amount] using hnegative
      | bool b => cases b <;> rfl
      | _ => simp [hcount, FixReply.isNegative?] at hnegative
  cases reply with
  | count n => exact hreport { fixedCount := n } rfl hcheck
  | report r' => exact hreport r' h hcheck
  | other kind => cases hcheck

/-! ### Charges between benches -/

/-- How many sets of files could not be recorded. -/
def Bench.refusals (b : Bench) : ℕ := b.progress.account.countP (·.occurrence.isRefusal)

/-- Between the benches the charges have been made, and no result has been added. -/
structure Bench.Charged (cs : List Charge) (b b' : Bench) : Prop where
  history : b'.context.history = b.context.history
  config : b'.context.config = b.context.config
  attempt : b'.progress.attempt = b.progress.attempt
  refusals : b'.refusals = b.refusals
  bills : b.world.Bills cs b'.world

/-- From one bench to the next nothing has been charged, and no result has been added. -/
abbrev Bench.Aside (b b' : Bench) : Prop := Bench.Charged [] b b'

namespace Bench

variable {b b' b'' : Bench} {cs cs' : List Charge}

theorem Charged.trans (h : b.Charged cs b') (h' : b'.Charged cs' b'') :
    b.Charged (cs ++ cs') b'' where
  history := h'.history.trans h.history
  config := h'.config.trans h.config
  attempt := h'.attempt.trans h.attempt
  refusals := h'.refusals.trans h.refusals
  bills := h.bills.trans h'.bills

theorem Charged.refl (b : Bench) : b.Aside b :=
  ⟨rfl, rfl, rfl, rfl, .refl b.world.meter⟩

theorem Charged.aside (h : b.Charged cs b') (h' : b'.Aside b'') : b.Charged cs b'' := by
  simpa using h.trans h'

theorem aside_trans (b b' b'' : Bench) (h : b.Aside b') (h' : b'.Aside b'') : b.Aside b'' :=
  h.aside h'

theorem charged_of_bills {w : World} (h : b.world.Bills cs w) : b.Charged cs { b with world := w } :=
  ⟨rfl, rfl, rfl, rfl, h⟩

theorem aside_of_unbilled {w : World} (h : b.world.Unbilled w) : b.Aside { b with world := w } :=
  charged_of_bills h

@[simp] theorem refusals_change (b : Bench) (f : RunContext → RunContext) :
    (b.change f).refusals = b.refusals := by
  simp [refusals, change, note, Occurrence.isRefusal]

theorem refusals_note (b : Bench) (o : Occurrence) :
    (b.note o).refusals = b.refusals + if o.isRefusal then 1 else 0 := by
  simp [refusals, note, List.countP_cons]

theorem aside_change {f : RunContext → RunContext} (hhistory : (f b.context).history = b.context.history)
    (hconfig : (f b.context).config = b.context.config) : b.Aside (b.change f) :=
  ⟨hhistory, hconfig, rfl, b.refusals_change f, .refl b.world.meter⟩

theorem aside_keeping {w : World} (h : b.world.Unbilled w) (store : Store) (s : Snapshot) :
    b.Aside (b.keeping w store s) :=
  ⟨rfl, rfl, rfl, refusals_change _ _, h⟩

theorem aside_note {o : Occurrence} (h : o.isRefusal = false) : b.Aside (b.note o) :=
  ⟨rfl, rfl, rfl, by rw [refusals_note, h]; rfl, .refl b.world.meter⟩

end Bench

namespace RunAct

variable {α β : Type}

theorem aside_pure (a : α) : Keeps Bench.Aside (pure a : RunAct α) :=
  keeps_pure .refl a

theorem aside_get : Keeps Bench.Aside (get : RunAct Bench) :=
  keeps_get .refl

theorem aside_bind {act : RunAct α} {f : α → RunAct β} (h : Keeps Bench.Aside act)
    (hnext : ∀ a, Keeps Bench.Aside (f a)) : Keeps Bench.Aside (act >>= f) :=
  h.bind Bench.aside_trans hnext

theorem aside_lift {act : Act α} (h : Keeps World.Unbilled act) : Keeps Bench.Aside (lift act) :=
  fun b ↦ ends_lift.mpr ((h b.world).mono (fun _ _ h ↦ Bench.aside_of_unbilled h)
    fun _ _ h ↦ Bench.aside_of_unbilled h)

theorem aside_update {f : RunContext → RunContext} (hhistory : ∀ c, (f c).history = c.history)
    (hconfig : ∀ c, (f c).config = c.config) : Keeps Bench.Aside (update f) :=
  keeps_modify fun _ ↦ Bench.aside_change (hhistory _) (hconfig _)

theorem aside_note {o : Occurrence} (h : o.isRefusal = false) : Keeps Bench.Aside (note o) :=
  keeps_modify fun _ ↦ Bench.aside_note h

theorem aside_log (level : LogLevel) (name : String) (fields : List (String × Json)) :
    Keeps Bench.Aside (log level name fields) :=
  aside_lift (Act.isOffsite_unbilled.keeps_log _ _ _)

theorem ends_moveAside (target : RunState) (phase : Option String) (reason : String) (b : Bench) :
    Ends (moveTo target phase reason) b (fun _ b' ↦ b.Aside b' ∧ b'.context.state = target)
      fun e b' ↦ b.Aside b' ∧ e.kind = .invalidTransition := by
  by_cases hnext : target ∈ b.context.state.next
  · refine ends_moveTo_logged hnext fun _ _ _ ↦ ends_lift.mpr ?_
    refine Act.isOffsite_unbilled.ends_log fun w hw ↦ ⟨?_, rfl⟩
    exact Bench.Charged.aside (Bench.aside_change rfl rfl) (Bench.aside_of_unbilled hw)
  · exact ends_moveTo (fun hsame ↦ ⟨.refl b, hsame⟩) (fun h ↦ absurd h hnext)
      fun _ _ ↦ ⟨.refl b, rfl⟩

theorem aside_moveTo (target : RunState) (phase : Option String) (reason : String) :
    Keeps Bench.Aside (moveTo target phase reason) := fun b ↦
  (ends_moveAside target phase reason b).mono (fun _ _ h ↦ h.1) fun _ _ h ↦ h.1

/-! ### Recording -/

theorem aside_filesOf (phase : Phase) : Keeps Bench.Aside (filesOf phase) := by
  have hresolve : ∀ p, Keeps Bench.Aside (resolve p) := fun p ↦ keeps_iff.mpr .refl
  unfold filesOf
  refine aside_bind (keeps_mapM .refl Bench.aside_trans hresolve _) ?_
  exact fun _ ↦ aside_pure _

theorem aside_takeSnapshot (key : String) (files : List Route) :
    Keeps Bench.Aside (takeSnapshot key files) := by
  have hR := Act.isOffsite_unbilled
  refine fun b ↦ ends_takeSnapshot_of ((hR.keeps_giveWay b.world).mono (fun _ w hw ↦ ?_)
    fun _ _ hw ↦ Bench.aside_of_unbilled hw)
  exact (Store.keeps_snapshot hR _ _ _ _ w).mono
    (fun _ _ hw' ↦ Bench.aside_keeping (hR.trans _ _ _ hw hw') _ _)
    fun _ _ hw' ↦ Bench.aside_of_unbilled (hR.trans _ _ _ hw hw')

theorem aside_phaseSnapshot (phase : Phase) (files : List Route) (whole : Option Snapshot) :
    Keeps Bench.Aside (phaseSnapshot phase files whole) := by
  refine fun b ↦ ends_phaseSnapshot_of (fun _ _ _ _ _ ↦ .refl b) (fun _ _ _ _ _ ↦ ?_)
    fun _ ↦ aside_takeSnapshot _ _ b
  exact (Store.keeps_record Act.isOffsite_unbilled _ _ _).mono
    (fun _ _ hw ↦ Bench.aside_keeping hw _ _) fun _ _ hw ↦ Bench.aside_of_unbilled hw

/-! ### Attempts -/

section Attempts

variable {b : Bench} {phase : Phase}

theorem ends_count_charged {tally : Tally} {amount : Number} {n : ℕ} (h : amount.Is n)
    (cause : RootCause) (b : Bench) :
    Ends (count tally amount cause) b (fun _ b' ↦ b.Charged [.add tally cause.labels n] b')
      fun _ _ ↦ True :=
  ends_lift.mpr ((Act.ends_count_whole h _ _).mono (fun _ _ h ↦ Bench.charged_of_bills h)
    fun _ _ h ↦ h)

theorem ends_countOne_charged (tally : Tally) (cause : RootCause) (b : Bench) :
    Ends (count tally 1 cause) b (fun _ b' ↦ b.Charged [.add tally cause.labels 1] b')
      fun _ _ ↦ False :=
  ends_lift.mpr ((Act.ends_count_one _ _ _).mono (fun _ _ h ↦ Bench.charged_of_bills h)
    fun _ _ h ↦ h)

/-- What has been charged if an attempt fails: that it was overdue, or nothing. -/
def Spent (phase : Phase) (b b' : Bench) : Prop :=
  b.Aside b' ∨ b.Charged [.overdue phase.cause] b'

theorem ends_judge_charged {number : Nat} {settled : Settled FixReply}
    (hwhole : ∀ reply, settled = .ended (.ok reply) → reply.Whole) :
    Ends (judge phase number settled) b
      (fun r b' ↦ b.Aside b' ∧ ∃ n, r.fixedCount.amount.Is n) fun _ b' ↦ Spent phase b b' := by
  have hoverdue : ∀ text, Ends (judge.overdue phase number text) b
      (fun r b' ↦ b.Aside b' ∧ ∃ n, r.fixedCount.amount.Is n) fun _ b' ↦ Spent phase b b' := by
    intro text
    unfold judge.overdue
    refine ((ends_countOne_charged _ _ _).mono (fun _ _ h ↦ h) fun _ _ h ↦ h.elim).bind ?_
    intro _ b₁ h₁
    refine ((aside_log _ _ _ b₁).mono (fun _ _ h ↦ h₁.aside h) fun _ _ h ↦ .inr (h₁.aside h)).bind ?_
    exact fun _ _ h ↦ ends_throw.mpr (.inr h)
  have hfails : ∀ {act : RunAct FixReport}, Keeps Bench.Aside act → Ends act b
      (fun _ b' ↦ b.Aside b') fun _ b' ↦ Spent phase b b' :=
    fun h ↦ (h b).mono (fun _ _ h ↦ h) fun _ _ h ↦ .inl h
  have hlogged : ∀ level name fields (e : Fault), Ends (log level name fields >>= fun _ ↦ throw e) b
      (fun (r : FixReport) b' ↦ b.Aside b' ∧ ∃ n, r.fixedCount.amount.Is n)
      fun _ b' ↦ Spent phase b b' := by
    intro level name fields e
    refine ((aside_log level name fields b).mono (fun _ _ h ↦ h) fun _ _ h ↦ .inl h).bind ?_
    exact fun _ _ h ↦ ends_throw.mpr (.inl h)
  unfold judge
  split
  · exact hoverdue _
  · exact ends_throw.mpr (.inl (.refl b))
  · split
    · exact hoverdue _
    · exact hlogged _ _ _ _
  · rename_i reply
    split
    · exact ends_throw.mpr (.inl (.refl b))
    · rename_i r hcheck
      split
      · exact ends_pure.mpr ⟨.refl b, (hwhole reply rfl).exists_is hcheck⟩
      · exact hlogged _ _ _ _

theorem ends_callFixer_charged {fixer : Fixer} (files : List Route) (number : Nat)
    (hwhole : ∀ request site reply, (fixer.fix request site).1.outcome = .ok reply → reply.Whole) :
    Ends (callFixer fixer phase files number) b
      (fun r b' ↦ b.Charged [.call phase.cause] b' ∧ ∃ n, r.fixedCount.amount.Is n)
      fun _ b' ↦ ∃ b₁, b.Charged [.call phase.cause] b₁ ∧ Spent phase b₁ b' := by
  unfold callFixer
  refine ((ends_countOne_charged _ _ _).mono (fun _ _ h ↦ h) fun _ _ h ↦ h.elim).bind ?_
  intro _ b₁ h₁
  refine ((aside_log _ _ _ b₁).mono (fun _ _ h ↦ h₁.aside h) fun _ _ h ↦ ⟨b₁, h₁, .inl h⟩).bind ?_
  intro _ b₂ h₂
  refine ends_bind.mpr (ends_update.mpr ?_)
  have h₃ := h₂.aside (Bench.aside_change (f := fun c ↦ { c with mutated := true }) rfl rfl)
  refine Ends.guard (fun _ ↦ ⟨_, h₃, .inl (.refl _)⟩) fun _ ↦ ?_
  refine ends_bind.mpr (ends_get.mpr (ends_bind.mpr (ends_note.mpr (ends_bind.mpr ?_))))
  generalize hrequest : FixRequest.mk _ _ _ = request
  have h₄ := h₃.aside (Bench.aside_note (o := .call phase number request) rfl)
  generalize ((b₂.change _).note _) = b₄ at h₄ ⊢
  have hrace : Keeps World.Unbilled (Act.race (fixer.fix request) phase.timeout) :=
    Act.isOffsite_unbilled.keeps_race (fun w ↦ Act.isOffsite_unbilled.site w _) _
  refine ends_lift.mpr (((hrace b₄.world).and (Act.ends_race_settled _ _ _)).mono ?_ ?_)
  · rintro settled w ⟨hw, hsettled⟩
    have h₅ := h₄.aside (Bench.aside_of_unbilled hw)
    refine (ends_judge_charged fun reply hreply ↦ ?_).mono (fun r b' h ↦ ⟨h₅.aside h.1, h.2⟩)
      fun _ b' h ↦ ⟨_, h₅, h⟩
    rcases hsettled with h | h
    · rw [h] at hreply
      cases hreply
    · rw [h] at hreply
      exact hwhole request _ reply (Settled.ended.inj hreply)
  · rintro e w ⟨hw, -⟩
    exact ⟨_, h₄.aside (Bench.aside_of_unbilled hw), .inl (.refl _)⟩

end Attempts

end RunAct

/-- From `b₀` on so many attempts have been made at the phase, of which at most so many were
overdue, and nothing else has been charged. -/
structure Attempted (phase : Phase) (calls overdue : ℕ) (b₀ b : Bench) : Prop where
  history : b.context.history = b₀.context.history
  config : b.context.config = b₀.context.config
  refusals : b.refusals = b₀.refusals
  charges : ∃ cs, Attempts phase.cause calls overdue cs ∧ b₀.world.Bills cs b.world

namespace Attempted

variable {phase : Phase} {calls overdue : ℕ} {b₀ b b' : Bench}

theorem none (phase : Phase) (b : Bench) : Attempted phase 0 0 b b :=
  ⟨rfl, rfl, rfl, [], .none _, .refl b.world.meter⟩

theorem charged (h : Attempted phase calls overdue b₀ b) {cs : List Charge} {calls' overdue' : ℕ}
    (h' : b.Charged cs b') (hcharges : ∀ cs₀, Attempts phase.cause calls overdue cs₀ →
      Attempts phase.cause calls' overdue' (cs₀ ++ cs)) : Attempted phase calls' overdue' b₀ b' := by
  obtain ⟨cs₀, hcs₀, hbills⟩ := h.charges
  exact ⟨h'.history.trans h.history, h'.config.trans h.config, h'.refusals.trans h.refusals,
    cs₀ ++ cs, hcharges cs₀ hcs₀, hbills.trans h'.bills⟩

theorem aside (h : Attempted phase calls overdue b₀ b) (h' : b.Aside b') :
    Attempted phase calls overdue b₀ b' :=
  h.charged h' fun _ h ↦ by simpa using h

theorem called (h : Attempted phase calls overdue b₀ b) (h' : b.Charged [.call phase.cause] b') :
    Attempted phase (calls + 1) overdue b₀ b' :=
  h.charged h' fun _ h ↦ h.call

theorem spent (h : Attempted phase calls overdue b₀ b) (h' : RunAct.Spent phase b b') :
    Attempted phase calls (overdue + 1) b₀ b' := by
  rcases h' with h' | h'
  · exact h.charged h' fun _ h ↦ by simpa using h.mono (Nat.le_succ _)
  · exact h.charged h' fun _ h ↦ h.late

end Attempted

/-- Whether the failure of an attempt is that of its phase, and not of the run. -/
def Fault.failsPhase (e : Fault) : Bool := e.isA .phaseTimeout || e.isA .fixer

theorem RetryPolicy.failsPhase_of_covers {backoff : Number} {e : Fault}
    (h : ({ backoff := backoff } : RetryPolicy).covers e = true) : e.failsPhase = true := by
  simpa [covers, Fault.failsPhase] using h

theorem Fault.not_failsPhase {e : Fault} (h : e.kind = .invalidTransition) :
    e.failsPhase = false := by
  simp [failsPhase, isA, h, FaultKind.isA, FaultKind.lineage]

namespace RunAct

section Attempts

variable {b₀ b : Bench} {phase : Phase} {fixer : Fixer} {files : List Route}

theorem ends_attemptPhase_charged {n : ℕ}
    (hwhole : ∀ request site reply, (fixer.fix request site).1.outcome = .ok reply → reply.Whole)
    (h : Attempted phase n n b₀ b) :
    Ends (attemptPhase fixer phase files (n + 1)) b
      (fun r b' ↦ (Attempted phase (n + 1) (n + 1) b₀ b' ∧ b'.progress.attempt = n + 1) ∧
        ∃ k, r.fixedCount.amount.Is k)
      fun e b' ↦ e.failsPhase = true →
        Attempted phase (n + 1) (n + 1) b₀ b' ∧ b'.progress.attempt = n + 1 := by
  have hcalled : ∀ {b₁ : Bench}, Attempted phase n n b₀ b₁ → b₁.progress.attempt = n + 1 →
      Ends (callFixer fixer phase files (n + 1)) b₁
        (fun r b' ↦ (Attempted phase (n + 1) (n + 1) b₀ b' ∧ b'.progress.attempt = n + 1) ∧
          ∃ k, r.fixedCount.amount.Is k)
        fun e b' ↦ e.failsPhase = true →
          Attempted phase (n + 1) (n + 1) b₀ b' ∧ b'.progress.attempt = n + 1 := by
    intro b₁ h₁ hattempt
    refine (ends_callFixer_charged files (n + 1) hwhole).mono ?_ ?_
    · rintro r b' ⟨hcall, hr⟩
      exact ⟨⟨(h₁.called hcall).spent (.inl (.refl b')), hcall.attempt.trans hattempt⟩, hr⟩
    · rintro e b' ⟨b₂, hcall, hspent⟩ -
      refine ⟨(h₁.called hcall).spent hspent, ?_⟩
      rcases hspent with h | h
      · exact (h.attempt.trans hcall.attempt).trans hattempt
      · exact (h.attempt.trans hcall.attempt).trans hattempt
  unfold attemptPhase
  refine ends_bind.mpr (ends_modify.mpr ?_)
  have h₁ : Attempted phase n n b₀ { b with progress := { b.progress with attempt := n + 1 } } :=
    { h with }
  dsimp only
  split
  · refine ((ends_moveAside _ _ _ _).mono (fun _ _ h ↦ h) ?_).bind ?_
    · rintro e b' ⟨-, hkind⟩ hfails
      rw [Fault.not_failsPhase hkind] at hfails
      cases hfails
    · rintro _ b' ⟨haside, -⟩
      exact hcalled (h₁.aside haside) haside.attempt
  · exact hcalled h₁ rfl

theorem ends_attempts_charged {backoff : Number} {left : ℕ}
    (hwhole : ∀ request site reply, (fixer.fix request site).1.outcome = .ok reply → reply.Whole) :
    Ends (retryFrom { backoff := backoff } (attemptPhase fixer phase files)
        (fun number fault wait ↦ lift (Act.rest number fault wait)) left 1) b
      (fun r b' ↦ ∃ n, 1 ≤ n ∧ (Attempted phase n n b b' ∧ b'.progress.attempt = n) ∧
        ∃ k, r.fixedCount.amount.Is k)
      fun e b' ↦ ∃ n, 1 ≤ n ∧ (e.failsPhase = true →
        Attempted phase n n b b' ∧ b'.progress.attempt = n) := by
  have hrest : ∀ number fault wait, Keeps World.Unbilled (Act.rest number fault wait) := by
    intro number fault wait
    unfold Act.rest
    refine Act.isOffsite_unbilled.keeps_bind (Act.isOffsite_unbilled.record _) fun _ ↦ ?_
    split
    · exact Act.isOffsite_unbilled.keeps_pause _
    · exact Act.isOffsite_unbilled.keeps_giveWay
  refine ends_retryFrom_numbered
    (I := fun number b' ↦ ∃ n, number = n + 1 ∧ Attempted phase n n b b') ?_ ?_ left 1 b
    ⟨0, rfl, .none phase b⟩
  · rintro _ b' ⟨n, rfl, h⟩
    exact ends_attemptPhase_charged hwhole h
  · intro n e b' h hcovers
    obtain ⟨hattempted, hattempt⟩ := h (RetryPolicy.failsPhase_of_covers hcovers)
    refine (aside_lift (hrest _ _ _) b').mono (fun _ b'' h' ↦ ⟨n, rfl, hattempted.aside h'⟩) ?_
    exact fun _ b'' h' _ ↦ ⟨hattempted.aside h', h'.attempt.trans hattempt⟩

end Attempts

end RunAct

end Remedy
