import Remedy.Proofs.CommandLine.Faults
import Remedy.Proofs.Pipeline.Exclusion
import Remedy.Proofs.Settings

/-!
# Reading the settings

Reading the settings changes nothing, and what is read has been found to be in order
(`Config.ends_load`). It fails with a fault that the command line answers, or a file is there that
cannot be read, or the document in it cannot (`Config.Unread`). References to fixers that have been
found to be in order do not begin with a dot, so that looking them up fails with an answered fault
at most (`Registry.answered_of_ofReferences`).
-/

set_option autoImplicit false

namespace Remedy

open FileTree Fault

/-! ### Looking at files -/

namespace Act

theorem ends_content (p : Path) (w : World) :
    Ends (onFiles (FileAct.read p)) w (fun content w' ↦ w' = w ∧ w.files.content p = .ok content)
      fun e w' ↦ w' = w ∧ ∃ cause, w.files.content p = .error cause ∧ e = .file cause := by
  refine ends_onFiles.mpr ?_
  unfold Ends
  rw [FileAct.read_eq]
  cases w.files.content p with
  | ok content => exact ⟨rfl, rfl⟩
  | error cause => exact ⟨rfl, cause, rfl, rfl⟩

/-- If it cannot be told what is at a path, it cannot be read either. -/
theorem ends_holds (p : Path) (property : Node → Bool) (w : World) :
    Ends (onFiles (FileAct.holds p property)) w (fun _ w' ↦ w' = w)
      fun e w' ↦ w' = w ∧ ∃ cause, w.files.content p = .error cause ∧
        cause.errno = .nameTooLong ∧ e = .file cause := by
  refine ends_onFiles.mpr ?_
  unfold FileAct.holds
  by_cases hnul : p.hasNul = true
  · rw [if_pos hnul]
    exact ends_pure.mpr rfl
  rw [if_neg hnul]
  refine ends_bind.mpr (ends_get.mpr ?_)
  have hread : ∀ errno, w.files.walk p = .error errno →
      w.files.content p = .error ⟨errno, p.text, none⟩ := by
    intro errno hwalk
    have hplace : FileAct.read p w.files = (.error ⟨errno, p.text, none⟩, w.files) := by
      refine fails_of_ends ?_
      unfold FileAct.read
      refine ends_bind.mpr (FileAct.ends_place.mpr ?_)
      rw [hwalk]
      exact ⟨rfl, rfl⟩
    exact congrArg Prod.fst hplace
  split
  · exact ends_pure.mpr rfl
  · exact ends_pure.mpr rfl
  · exact ends_throw.mpr ⟨rfl, _, hread _ ‹_›, rfl, rfl⟩
  · exact ends_pure.mpr rfl

end Act

namespace Config

/-! ### Documents -/

/-- The text of the settings at a path, with variables replaced. -/
def Document (w : World) (p : Path) (text : String) : Prop :=
  ∃ content plain, w.files.content p = .ok content ∧ Text.decodeStrict content = .ok plain ∧
    substitute w.bindings (String.ofList (Text.lineFeeds plain.toList)) = .ok text

/-- The ways in which reading the settings fails that nobody answers: a file is there, or not known
to be missing, and cannot be read; or the document cannot. -/
inductive Unread (w : World) (path : Option Path) : Fault → Prop
  | file {p : Path} {cause : FileError} (hp : path = some p ∨ p = Path.ofString ".env")
      (h : w.files.content p = .error cause) (hcause : cause.errno ≠ .notFound) :
      Unread w path (.file cause)
  | document {p : Path} {text : String} {e : Fault} (hp : path = some p) (h : Document w p text)
      (hentries : configEntries p text = .error e) (he : ¬ e.Answered) : Unread w path e

/-- How reading the settings fails. -/
def Fails (w : World) (path : Option Path) (e : Fault) : Prop := e.Answered ∨ Unread w path e

variable {w : World} {path : Option Path} {e : Fault}

theorem Unread.not_answered (h : Unread w path e) : ¬ e.Answered := by
  cases h with
  | file _ _ hcause => exact Unanswered.not_answered hcause
  | document _ _ _ he => exact he

theorem Fails.foreseen (h : Fails w path e) : e.Foreseen := by
  rcases h with h | h
  · exact .inl h
  · cases h with
    | file => exact foreseen_file _
    | document _ _ hentries => exact foreseen_of_configEntries hentries

theorem answered_of_notFound {cause : FileError} (h : cause.errno = .notFound) :
    (Fault.file cause).Answered := by
  refine .inl ?_
  simp [isA, kind, FileError.kind, h, FaultKind.isA, FaultKind.lineage]

theorem fails_of_content {p : Path} {cause : FileError}
    (hp : path = some p ∨ p = Path.ofString ".env") (h : w.files.content p = .error cause) :
    Fails w path (.file cause) := by
  by_cases hcause : cause.errno = .notFound
  · exact .inl (answered_of_notFound hcause)
  · exact .inr (.file hp h hcause)

/-! ### Reading -/

theorem ends_dotenvText (w : World) (path : Option Path) :
    Ends dotenvText w (fun _ w' ↦ w' = w) fun e w' ↦ w' = w ∧ Fails w path e := by
  unfold dotenvText
  refine ((Act.ends_holds _ _ w).mono (fun _ _ h ↦ h) ?_).bind ?_
  · rintro e w' ⟨rfl, cause, hcause, -, rfl⟩
    exact ⟨rfl, fails_of_content (.inr rfl) hcause⟩
  rintro there w' rfl
  split
  · refine ((Act.ends_content _ w').mono (fun _ _ h ↦ h.1) ?_).bind ?_
    · rintro e w' ⟨rfl, cause, hcause, rfl⟩
      exact ⟨rfl, fails_of_content (.inr rfl) hcause⟩
    · rintro content w' rfl
      exact ends_pure.mpr rfl
  · exact ends_pure.mpr rfl

/-- What is said about the settings is refused with a fault that is answered. -/
theorem ends_allSettings (explicit : List (Setting × Setting)) (w : World) (path : Option Path) :
    Ends (allSettings explicit) w
      (fun all w' ↦ w' = w ∧ ∀ e, all = .error e → e.Answered)
      fun e w' ↦ w' = w ∧ Fails w path e := by
  unfold allSettings
  refine (ends_dotenvText w path).bind ?_
  rintro text w' rfl
  cases text with
  | error cause =>
    refine ends_pure.mpr ⟨rfl, fun e he ↦ ?_⟩
    cases he
    exact .inr (.inl rfl)
  | ok cs =>
    refine ends_bind.mpr (ends_get.mpr (ends_pure.mpr ⟨rfl, fun e he ↦ ?_⟩))
    cases hgathered : gatherSettings (Dotenv.read w'.bindings (String.ofList cs))
        (w'.bindings.map fun v ↦ (v.1, some v.2)) explicit with
    | ok all =>
      rw [hgathered] at he
      cases he
    | error reason =>
      rw [hgathered] at he
      cases he
      exact .inr (.inl rfl)

theorem ends_ofReader (s : Setting) (w : World) (path : Option Path) :
    Ends (Act.ofExcept (reader.run "ResolverConfig" s)) w (fun c w' ↦ w' = w ∧ c.Validates)
      fun e w' ↦ w' = w ∧ Fails w path e := by
  refine ends_ask.mono ?_ ?_
  · rintro c w' ⟨rfl, hc⟩
    exact ⟨rfl, s, hc⟩
  · rintro e w' ⟨rfl, he⟩
    exact ⟨rfl, .inl (answered_of_reader he)⟩

theorem ends_ofSetting (s : Setting) (w : World) (path : Option Path) :
    Ends (ofSetting s) w (fun c w' ↦ w' = w ∧ c.Validates)
      fun e w' ↦ w' = w ∧ Fails w path e := by
  unfold ofSetting
  cases s with
  | map explicit =>
    refine (ends_allSettings explicit w path).bind ?_
    rintro all w' ⟨rfl, -⟩
    cases all with
    | ok all => exact ends_ofReader _ w' path
    | error fault => exact ends_throw.mpr ⟨rfl, .inl (.inr (.inl rfl))⟩
  | _ => exact ends_ofReader _ w path

theorem ends_defaults (w : World) (path : Option Path) :
    Ends defaults w (fun c w' ↦ w' = w ∧ c.Validates) fun e w' ↦ w' = w ∧ Fails w path e := by
  unfold defaults
  refine (ends_allSettings [] w path).bind ?_
  rintro all w' ⟨rfl, hall⟩
  refine (ends_ask.mono (fun _ _ h ↦ h.1) fun e _ h ↦ ⟨h.1, .inl (hall e h.2)⟩).bind ?_
  rintro all w' rfl
  exact ends_ofReader _ w' path

/-- Settings that are read are in order, and reading them changes nothing. -/
theorem ends_load (path : Option Path) (w : World) :
    Ends (load path) w (fun c w' ↦ w' = w ∧ c.Validates) fun e w' ↦ w' = w ∧ Fails w path e := by
  cases path with
  | none => exact ends_defaults w none
  | some p =>
    have hanswered : ∀ {e : Fault}, e.Answered → w = w ∧ Fails w (some p) e := fun h ↦ ⟨rfl, .inl h⟩
    unfold load
    refine ((Act.ends_holds p _ w).mono (fun _ _ h ↦ h) ?_).bind ?_
    · rintro e w' ⟨rfl, cause, hcause, -, rfl⟩
      exact ⟨rfl, fails_of_content (.inl rfl) hcause⟩
    rintro there w' rfl
    refine Ends.guard (fun _ ↦ hanswered (.inl rfl)) fun _ ↦ ?_
    refine ((Act.ends_content p w').mono (fun _ _ h ↦ h) ?_).bind ?_
    · rintro e w' ⟨rfl, cause, hcause, rfl⟩
      exact ⟨rfl, fails_of_content (.inl rfl) hcause⟩
    rintro content w' ⟨rfl, hcontent⟩
    cases hplain : Text.decodeStrict content with
    | error cause => exact ends_throw.mpr (hanswered (.inr (.inl rfl)))
    | ok plain =>
      refine ends_bind.mpr (ends_get.mpr ?_)
      cases htext : substitute w'.bindings (String.ofList (Text.lineFeeds plain.toList)) with
      | error cause => exact ends_throw.mpr (hanswered (.inr (.inl rfl)))
      | ok text =>
        refine (ends_ask.mono (fun _ _ h ↦ h.1) ?_).bind ?_
        · rintro e w' ⟨rfl, he⟩
          by_cases hanswer : e.Answered
          · exact hanswered hanswer
          · exact ⟨rfl, .inr (.document rfl ⟨content, plain, hcontent, hplain, htext⟩ he hanswer)⟩
        rintro entries w' rfl
        refine (ends_ofSetting _ w' (some p)).bind ?_
        rintro c w' ⟨rfl, hc⟩
        refine Ends.bind (Q := fun _ w'' ↦ w'' = w') ?_ ?_
        · unfold check
          split
          · exact ends_throw.mpr (hanswered (.inr (.inl rfl)))
          · exact ends_pure.mpr rfl
        · rintro _ w' rfl
          exact ends_pure.mpr ⟨rfl, hc⟩

/-! ### References to fixers -/

/-- A reference begins as a word does. -/
theorem head_of_isReference {s : String} (h : isReference s = true) :
    s.toList.head? ≠ some '.' := by
  intro hhead
  obtain ⟨rest, hs⟩ := List.head?_eq_some_iff.mp hhead
  unfold isReference at h
  rw [hs, Text.pieces_cons, if_neg (by decide)] at h
  have hstart : ∀ cs, isDottedName ('.' :: cs) = false := fun cs ↦ rfl
  split at h
  · rename_i module name hpieces
    split at hpieces
    · cases hpieces
    · cases hpieces
      simp [hstart] at h
  · cases h

theorem references_of_reader {s : Setting} {c : Config} (h : reader s = .good c) :
    ∀ f ∈ c.fixers, isReference f.2 = true := by
  unfold reader Reader.record at h
  split at h
  · simp only [Checked.seq_eq_good, Checked.map_eq_good] at h
    obtain ⟨_, _, ⟨_, _, ⟨_, _, ⟨_, _, ⟨_, _, ⟨_, fixers, ⟨_, _, ⟨_, _, ⟨_, -, rfl⟩, -, rfl⟩, -, rfl⟩,
      hfixers, rfl⟩, -, rfl⟩, -, rfl⟩, -, rfl⟩, -, rfl⟩, -, rfl⟩ := h
    rcases Reader.field_eq_good hfixers with rfl | ⟨s, hs⟩
    · exact fun f hf ↦ by cases hf
    · intro f hf
      have hbad := List.findSome?_eq_none_iff.mp (Checked.ensure_eq_good hs).2 f hf
      split at hbad
      · cases hbad
      · split at hbad
        · cases hbad
        · rename_i hreference
          rwa [Bool.not_eq_true', Bool.not_eq_false] at hreference
  · cases h

theorem Validates.exists_good {c : Config} (h : c.Validates) : ∃ s, reader s = .good c := by
  obtain ⟨s, hs⟩ := h
  unfold Reader.run at hs
  split at hs
  · cases hs
    exact ⟨s, ‹_›⟩
  · cases hs

end Config

theorem Catalog.answered_of_load {c : Catalog} {reference : String} {e : Fault}
    (hreference : isReference reference = true) (h : c.load reference = .error e) :
    e.Answered := by
  rcases Catalog.config_of_load h with ⟨cause, rfl⟩ | ⟨hdot, -⟩
  · exact .inr (.inr rfl)
  · exact absurd hdot (Config.head_of_isReference hreference)

/-- The fixers of settings that are in order can be looked up, or the fault is answered. -/
theorem Registry.answered_of_ofReferences (c : Catalog) {references : List (String × String)}
    (h : ∀ f ∈ references, isReference f.2 = true) :
    Raises Answered (ofReferences c references) := by
  have hall : ∀ (references : List (String × String)) (r : Registry),
      (∀ f ∈ references, isReference f.2 = true) → Raises Answered (loadAll c r references) := by
    intro references
    induction references with
    | nil => exact fun r _ ↦ raises_pure _
    | cons reference rest ih =>
      intro r h
      obtain ⟨hreference, hrest⟩ := List.forall_mem_cons.mp h
      obtain ⟨name, reference⟩ := reference
      unfold loadAll
      split
      · exact raises_throw (Catalog.answered_of_load hreference ‹_›)
      · refine raises_attempt.bind fun outcome ↦ ?_
        cases outcome with
        | ok r => exact ih r hrest
        | error fault => exact raises_throw (.inr (.inr rfl))
  unfold ofReferences
  exact (hall references [] h).bind fun _ ↦ (Act.raises_log _ _ _).bind fun _ ↦ raises_pure _

end Remedy
