import Remedy.Proofs.Run.Begun
import Remedy.Proofs.Run.Rollback

/-!
# Whether rollback succeeds

What the store has accepted it puts back as long as nothing is in the way and names leave room for
drafts (`Snapshot.Unhindered`). So a run does not get stuck with the files of a phase whose fixer has
only edited what it was handed: if the phase is required and has failed, the run is rolled back
(`Scenario.recovery_of_accepted`).

Without room for drafts this is not so (`Store.not_restored_of_snapshot`).
-/

set_option autoImplicit false

namespace Remedy

open FileTree Store

/-- The phase that was begun last is the last one of those that have been begun. -/
theorem Bench.getLast?_begun {b : Bench} {start : Scene} {phase : Phase}
    (hbegun : begun? b.progress.account = some start) (hstart : start.occurrence = .start phase) :
    b.begun.getLast? = some phase := by
  unfold Bench.begun Progress.happened
  generalize b.progress.account = scenes at hbegun
  induction scenes with
  | nil => cases hbegun
  | cons scene rest ih =>
    rw [List.reverse_cons, List.map_append, List.filter_append, List.filterMap_append]
    cases hscene : scene.isStart with
    | true =>
      rw [begun?_start hscene] at hbegun
      obtain rfl := Option.some.inj hbegun
      simp [hstart, Occurrence.isChange, Occurrence.begun?]
    | false =>
      rw [begun?_cons hscene] at hbegun
      have hnone : scene.occurrence.begun? = none := by
        unfold Scene.isStart at hscene
        cases hoccurrence : scene.occurrence with
        | start => simp [hoccurrence] at hscene
        | _ => rfl
      have hlast : (([scene].map (·.occurrence)).filter (!·.isChange)).filterMap
          Occurrence.begun? = [] := by
        refine List.filterMap_eq_nil_iff.mpr fun o ho ↦ ?_
        rw [List.mem_singleton.mp (List.mem_of_mem_filter ho)]
        exact hnone
      rw [hlast, List.append_nil]
      exact ih hbegun

namespace Scenario

variable {x : Scenario} {b : Bench}

variable (x) in
/-- The run has not got stuck with a phase that is mendable. If such a phase is required and has
failed, and files could be recorded, the run is rolled back. -/
structure Recovers (b : Bench) : Prop where
  loosens : x.Loosens b
  rolledBack : ∀ start phase r, Ended start phase r b → phase.required = true →
    r.success = false → (∀ phase, .refusal phase ∉ b.progress.happened) → x.Mendable start phase →
    b.context.state = .rolledBack

/-- A required phase that has failed ends the run, and in none of the other states. -/
theorem rolledBack_of_ending {phases : List Phase} {config : RunConfig} {start : Scene}
    {phase : Phase} {r : PhaseResult} (h : RunEnding phases config b)
    (hconfig : (config.backupEnabled && config.rollbackOnFailure) = true)
    (hended : Ended start phase r b) (hrequired : phase.required = true) (hfailed : r.success = false)
    (hrecorded : ∀ phase, .refusal phase ∉ b.progress.happened)
    (hloose : ¬ b.context.state.IsStuck) : b.context.state = .rolledBack := by
  have hlength : b.context.history.length ≤ phases.length := by
    have hsame := congrArg List.length h.names
    simp only [List.length_map, List.length_take] at hsame
    omega
  have hlast := hended.last
  rw [List.getLast?_eq_getElem?] at hlast
  have hphase : phases[b.context.history.length - 1]? = some phase := by
    have hbegun := Bench.getLast?_begun hended.begun hended.occurrence
    have hpos : 0 < b.context.history.length :=
      List.length_pos_iff.mpr fun hnil ↦ by simp [hnil] at hlast
    rw [h.begun_eq_take (hrecorded none), List.getLast?_eq_getElem?, List.length_take,
      Nat.min_eq_left hlength, List.getElem?_take, if_pos (by omega)] at hbegun
    exact hbegun
  have hnot : ¬ ∀ (i : Nat) (phase : Phase) (r : PhaseResult), phases[i]? = some phase →
      b.context.history[i]? = some r → phase.required = true → r.success = true := by
    intro hall
    rw [hall _ phase r hphase hlast hrequired] at hfailed
    cases hfailed
  have hterminal := h.terminal
  cases hstate : b.context.state with
  | rolledBack => rfl
  | completed => exact absurd (h.completed_iff.mp hstate).2.1 hnot
  | failed =>
    rcases h.failed hstate hconfig with ⟨phase, hrefused⟩ | hall
    · exact absurd hrefused (hrecorded phase)
    · exact absurd hall hnot
  | aborted =>
    obtain ⟨front, phase, back, hhappened, -⟩ := h.aborted_iff.mp hstate
    exact absurd (hhappened ▸ by simp) (hrecorded phase)
  | rollbackFailed => exact absurd (.inr hstate) hloose
  | _ =>
    rw [hstate] at hterminal
    cases hterminal

/-- However a run ends that puts files back, it does not get stuck with the files of a phase that is
mendable. -/
theorem ends_run_recovers (hx : x.Proper) (hrollback : x.config.rollbackOnFailure = true) :
    Ends (RunAct.run x.crew x.phases) x.bench (fun _ b ↦ x.Recovers b) fun _ b ↦ x.Loosens b := by
  refine ((ends_run hx).and (RunAct.ends_run_ending x.crew x.phases x.world x.store x.runId
    x.project x.config)).mono ?_ fun _ _ h ↦ h.1.loosens
  rintro _ b ⟨hdone, hending⟩
  refine ⟨hdone.loosens, fun start phase r hended hrequired hfailed hrecorded hmendable ↦ ?_⟩
  refine rolledBack_of_ending hending ?_ hended hrequired hfailed hrecorded fun hstuck ↦ ?_
  · rw [hx.backup, hrollback]
    rfl
  · exact hdone.loosens hstuck start phase hended.begun hended.occurrence hmendable

/-- Whatever the store has accepted it puts back, and a run is rolled back if a required phase has
failed whose fixer has only edited what it was handed. -/
theorem recovery_of_accepted (store : Store) (x : Scenario) :
    (∀ {w₀ w₁ w : World} {store' : Store} {runId key : String} {files : List Path}
      {whole s : Snapshot}, w₀.files.Sound →
      store.snapshot runId key files w₀ = (.ok (whole, store'), w₁) →
      (s = whole ∨ ∃ routes key', whole.restrict routes key' = .ok s) →
      s.Unhindered store.project w →
      Ends (Store.restore s) w (fun paths w' ↦ paths = s.paths ∧ s.Reinstated [] w w')
        fun _ _ ↦ False) ∧
    (x.Proper → x.config.rollbackOnFailure = true →
      Ends (RunAct.run x.crew x.phases) x.bench (fun _ b ↦ x.Recovers b)
        fun _ b ↦ x.Loosens b) := by
  refine ⟨fun {w₀ w₁ w store' runId key files whole s} hw₀ htaken hpart hs ↦ ?_, ends_run_recovers⟩
  have haccepted : Snapshot.Accepted store.project whole.files :=
    (ends_of_eq htaken).mp (store.ends_snapshot_accepted hw₀ files)
  refine Store.ends_restore_accepted ?_ hs
  rcases hpart with rfl | ⟨routes, key', hpart⟩
  · exact haccepted
  · exact haccepted.restrict hpart

/-! ### A run that is rolled back -/

/-- The sample project after one file has been deleted and the other one has been made. -/
def swapped : World where
  files := ⟨[(["p"], .directory 0), (["p", "b.ts"], .file (Text.encode "new") 0o644)], 0, ["p"]⟩

theorem spacious_sample {r : Route} (hr : r ∈ sampleSnapshot.paths) (project : Route) :
    Route.Spacious project r := by
  have hfits : ∀ r ∈ sampleSnapshot.paths, (r.draft 0).Fits := by
    unfold Route.Fits
    decide
  have hnul : ∀ r ∈ sampleSnapshot.paths, r ≠ [] ∧ (Route.path r).hasNul = false := by decide
  exact .of_fits (hnul r hr).1 (hnul r hr).2 (hfits r hr) project

theorem unhindered_swapped : sampleSnapshot.Unhindered ["p"] swapped := by
  have hpaths : ∀ r ∈ sampleSnapshot.paths, r = ["p", "a.ts"] ∨ r = ["p", "b.ts"] := by decide
  constructor
  case sound => exact sound_of_entries (by decide) (by decide)
  case place =>
    constructor
    case no_link => decide
    case readable =>
      intro r hr
      rcases hpaths r hr with rfl | rfl
      · exact ⟨none, .inr ⟨["p"], "a.ts", rfl⟩⟩
      · exact ⟨some (Text.encode "new"), ["p", "b.ts"], 0o644, rfl⟩
    case above =>
      have habove : ∀ r ∈ sampleSnapshot.paths, ∀ p ∈ r.inits, p ≠ r →
          swapped.files.HasDirectory p := by decide
      exact fun e he p hp hne ↦
        .inl (habove e.1 (List.mem_map_of_mem he) p ((List.mem_inits p e.1).mpr hp) hne)
  case drafts =>
    intro r hr m _
    obtain ⟨name, heq, hname, hname'⟩ := draft_sample hr m
    rw [heq]
    refine ⟨by simp [swapped, look, node?, find, hname'.symm], fun q hq hprefix ↦ ?_⟩
    rcases hpaths q hq with rfl | rfl
    · simp [hname] at hprefix
    · simp [hname'] at hprefix
  case space => exact fun e he _ ↦ spacious_sample (List.mem_map_of_mem he) _

/-- What the tree of the sample run holds when its phase is begun. -/
structure Pictured (t : FileTree) : Prop where
  entries : t.entries.map (·.1) = [["p"], ["p", "a.ts"], ["p", defaultBackupDirectory]] ++
    [[], ["run"], ["run", "0000-a.ts"], ["run", "manifest.json"]].map
      (["p", defaultBackupDirectory, "run-1"] ++ ·)
  directories : t.look [] = some (.directory 0) ∧ t.look ["p"] = some (.directory 0)
  file : t.look ["p", "a.ts"] = some (.file (Text.encode "old") 0o644)
  resolved : (t.resolve (oneFile.path (Path.ofString "a.ts"))).toOption = some ["p", "a.ts"]
  home : t.traced oneFile.home = .done ["p", defaultBackupDirectory, "run-1"]
  claimed : ∀ names ∈ oneFile.home.names.inits, t.traced ⟨oneFile.home.root, names⟩ ∈
    ["p", defaultBackupDirectory, "run-1"].inits.map Resolved.done

instance : DecidablePred Pictured := fun _ ↦
  decidable_of_iff (_ ∧ _ ∧ _ ∧ _ ∧ _ ∧ _)
    ⟨fun ⟨h₁, h₂, h₃, h₄, h₅, h₆⟩ ↦ ⟨h₁, h₂, h₃, h₄, h₅, h₆⟩,
      fun ⟨h₁, h₂, h₃, h₄, h₅, h₆⟩ ↦ ⟨h₁, h₂, h₃, h₄, h₅, h₆⟩⟩

/-- The sample run returns after its phase has failed. -/
theorem failed_oneFile :
    ∃ b start phase r, RunAct.run oneFile.crew oneFile.phases oneFile.bench = (.ok (), b) ∧
      Ended start phase r b ∧ phase.required = true ∧ phase.files = [Path.ofString "a.ts"] ∧
      r.success = false ∧ (∀ phase, .refusal phase ∉ b.progress.happened) ∧
      Pictured start.files := by
  obtain ⟨hreturns, hbegun, hlast, hrefusals, hpictured⟩ :
      let outcome := RunAct.run oneFile.crew oneFile.phases oneFile.bench
      let b := outcome.2
      outcome.1.toOption = some () ∧
      (begun? b.progress.account).map (fun start ↦ start.occurrence.begun?.map fun phase ↦
        (phase.name, phase.required, phase.files)) =
          some (some (RootCause.syntactic.name, true, [Path.ofString "a.ts"])) ∧
      b.context.history.getLast?.map (fun r ↦ (r.phase, r.success)) =
        some (RootCause.syntactic.name, false) ∧
      b.progress.happened.countP Occurrence.isRefusal = 0 ∧
      ∀ start ∈ begun? b.progress.account, Pictured start.files := by
    decide +kernel
  rcases hrun : RunAct.run oneFile.crew oneFile.phases oneFile.bench with ⟨outcome, b⟩
  rw [hrun] at hreturns hbegun hlast hrefusals hpictured
  obtain rfl := eq_ok_of_toOption hreturns
  obtain ⟨start, hstart, hphase⟩ := Option.map_eq_some_iff.mp hbegun
  obtain ⟨phase, hoccurrence, hshown⟩ := Option.map_eq_some_iff.mp hphase
  obtain ⟨r, hr, hresult⟩ := Option.map_eq_some_iff.mp hlast
  simp only [Prod.mk.injEq] at hshown hresult
  have hbegan : start.occurrence = .start phase := by
    cases hcase : start.occurrence with
    | start => simpa [hcase, Occurrence.begun?] using hoccurrence
    | _ => simp [hcase, Occurrence.begun?] at hoccurrence
  refine ⟨b, start, phase, r, rfl, ⟨hstart, hbegan, hr, ?_⟩, hshown.2.1, hshown.2.2, hresult.2,
    fun phase hmem ↦ ?_, hpictured start hstart⟩
  · rw [hresult.1, hshown.1]
  · exact absurd rfl (List.countP_eq_zero.mp hrefusals _ hmem)

/-- The only file that is handed to the fixer is the sample file. -/
theorem eq_of_handed_oneFile {start : Scene} {phase : Phase} (h : Pictured start.files)
    (hphase : phase.files = [Path.ofString "a.ts"]) {r : Route}
    (hr : oneFile.Handed start.files phase r) : r = ["p", "a.ts"] := by
  obtain ⟨p, hp, hr⟩ := hr
  rw [hphase] at hp
  obtain rfl := List.mem_singleton.mp hp
  have hresolved := h.resolved
  rw [hr] at hresolved
  exact Option.some.inj hresolved

theorem Pictured.unclaimed {t : FileTree} (h : Pictured t) {name : String}
    (hname : name ≠ defaultBackupDirectory) : ¬ oneFile.Claimed t ["p", name] := by
  rintro (hreserved | ⟨p, ⟨hroot, hprefix⟩, hp⟩)
  · refine not_reserved_sample h.home (fun hbelow ↦ ?_) hreserved
    exact absurd hbelow.length_le (by simp)
  · have hclaimed := h.claimed p.names ((List.mem_inits _ _).mpr hprefix)
    rw [← hroot, hp] at hclaimed
    simp [hname] at hclaimed

theorem draft_oneFile (n : ℕ) : ∃ name, Route.draft ["p", "a.ts"] n = ["p", name] ∧
    name ≠ "a.ts" ∧ name ≠ defaultBackupDirectory := by
  refine ⟨_, Route.draft_concat ["p"] "a.ts" n, FileAct.draftName_ne _ _, fun heq ↦ ?_⟩
  have hchars := congrArg String.toList heq
  simp [FileAct.draftName, toString, defaultBackupDirectory] at hchars

theorem mendable_oneFile {start : Scene} {phase : Phase} (h : Pictured start.files)
    (hphase : phase.files = [Path.ofString "a.ts"]) : oneFile.Mendable start phase := by
  have hhanded : ∀ r, oneFile.Handed start.files phase r → r = ["p", "a.ts"] :=
    fun r ↦ eq_of_handed_oneFile h hphase
  constructor
  case dots => decide
  case edits =>
    intro fixer hfixer
    rw [fixer_of_sample hfixer]
    exact Fixer.editing_overwriting _
  case roomy =>
    intro r hr
    obtain rfl := hhanded r hr
    have hspace := spacious_sample (r := ["p", "a.ts"]) List.mem_cons_self oneFile.store.project
    constructor
    case clear =>
      refine ⟨by decide, fun p hp hne ↦ ?_⟩
      rcases List.prefix_concat_iff.mp (show p <+: ["p"] ++ ["a.ts"] from hp) with heq | hp
      · exact absurd heq hne
      rcases List.prefix_concat_iff.mp (show p <+: [] ++ ["p"] from hp) with rfl | hp
      · exact .inl h.directories.2
      · rw [List.prefix_nil.mp hp]
        exact .inl h.directories.1
    case no_link => rw [link?, h.file]
    case no_directory =>
      rw [HasDirectory, h.file]
      simp
    case fits =>
      unfold Route.Fits
      decide
    case space => exact fun _ ↦ hspace
    case unclaimed => exact h.unclaimed (by decide)
    case outside =>
      intro p hp
      refine not_reserved_sample h.home fun hbelow ↦ ?_
      exact absurd (hbelow.trans hp).length_le (by simp)
    case apart => exact fun q hq _ ↦ hhanded q hq
    case drafts =>
      intro n
      obtain ⟨name, heq, hname, hother⟩ := draft_oneFile n
      rw [heq]
      refine ⟨?_, h.unclaimed hother, fun q hq hprefix ↦ ?_⟩
      · by_contra hsome
        have hmem : ["p", name] ∈ start.files.entries.map (·.1) :=
          mem_of_find fun hnone ↦ hsome (by simp [look, node?, hnone])
        rw [h.entries] at hmem
        simp [hname, hother] at hmem
      · rw [hhanded q hq] at hprefix
        simp [hname] at hprefix

theorem recovery_of_oneFile :
    (oneFile.Proper ∧ oneFile.config.rollbackOnFailure = true ∧
      ∃ b start phase r, RunAct.run oneFile.crew oneFile.phases oneFile.bench = (.ok (), b) ∧
        Ended start phase r b ∧ phase.required = true ∧ r.success = false ∧
        oneFile.Mendable start phase ∧ b.context.state = .rolledBack) ∧
    ∃ store w₁, sampleStore.snapshot "run-1" "run" (sampleNames.map Path.ofString) sampleWorld =
        (.ok (sampleSnapshot, store), w₁) ∧ sampleSnapshot.Unhindered ["p"] swapped ∧
      ∃ w', restore sampleSnapshot swapped = (.ok sampleSnapshot.paths, w') ∧
        sampleSnapshot.Reinstated [] swapped w' := by
  obtain ⟨store, w₁, htaken, -⟩ := taken_sample
  obtain ⟨hrestores, hrecovers⟩ := recovery_of_accepted sampleStore oneFile
  refine ⟨⟨proper_oneFile, rfl, ?_⟩, store, w₁, htaken, unhindered_swapped, ?_⟩
  · obtain ⟨b, start, phase, r, hrun, hended, hrequired, hfiles, hfailed, hrecorded, hpictured⟩ :=
      failed_oneFile
    have hmendable := mendable_oneFile hpictured hfiles
    have hresult := (ends_of_eq hrun).mp (hrecovers proper_oneFile rfl)
    exact ⟨b, start, phase, r, hrun, hended, hrequired, hfailed, hmendable,
      hresult.rolledBack start phase r hended hrequired hfailed hrecorded hmendable⟩
  · -- Lean would run `restore` on the world itself
    have hunhindered := unhindered_swapped
    generalize swapped = w at hunhindered ⊢
    have hrestored := hrestores sound_sample htaken (.inl rfl) hunhindered
    rcases hrun : restore sampleSnapshot w with ⟨e | paths, w'⟩
    · exact ((ends_of_error hrun).mp hrestored).elim
    · obtain ⟨rfl, hreinstated⟩ := (ends_of_eq hrun).mp hrestored
      exact ⟨w', rfl, hreinstated⟩

end Scenario

end Remedy
