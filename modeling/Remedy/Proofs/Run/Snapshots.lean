import Remedy.Proofs.Run.Guarding

/-!
# Snapshots behind calls

Whatever fixers do, none is called without snapshots behind it (`Scenario.snapshots_of_run`): one of
the files that it is handed, and one of the files of all phases.

What these record is said of files that no link leads to. Such are the files of a phase as long as
the resolution of its paths is not stuck (`Scenario.direct_of_traced`). A path that runs into a link
which leads in a circle, and gets out of it by two dots, keeps the links that come after. The store
resolves the file once more, and then records where these links lead, which is not the file that the
fixer is handed.
-/

set_option autoImplicit false

namespace Remedy

open FileTree

/-! ### A fixer -/

/-- The tree after a content has been written to each of some files. -/
def FileTree.overwrite (content : Text.Bytes) (files : List Path) (t : FileTree) : FileTree :=
  files.foldl (fun t p ↦ (FileAct.write p content t).2) t

/-- A fixer that overwrites the files that it is handed and then gives up. -/
def Fixer.overwriting (content : Text.Bytes) : Fixer where
  kind := "Fixer"
  fix request := fun site ↦
    (.failed (.raised .value "no"),
      { site with files := site.files.overwrite content request.files })

section Overwriting

variable {t : FileTree} (content : Text.Bytes)

theorem edits_overwrite (files : List Route) (ht : t.Sound) :
    (t.overwrite content (files.map Route.path)).Sound ∧
      ((∀ r ∈ files, t.Direct r) →
        Edits (· ∈ files) t (t.overwrite content (files.map Route.path))) := by
  induction files generalizing t with
  | nil => exact ⟨ht, fun _ ↦ .refl ht⟩
  | cons r rest ih =>
    have hwritten : ∃ q, (t.Direct r → q = r) ∧
        Edits (· = q) t (FileAct.write (Route.path r) content t).2 := by
      refine Ends.state (P := fun t' ↦ ∃ q, (t.Direct r → q = r) ∧ Edits (· = q) t t')
        ((FileAct.ends_write ht rfl content).mono ?_ ?_)
      · rintro _ t' ⟨q, htraced, hedits⟩
        refine ⟨q, fun hdirect ↦ ?_, hedits⟩
        rw [traced_of_direct hdirect] at htraced
        exact (Resolved.done.inj htraced).symm
      · rintro _ t' rfl
        exact ⟨r, fun _ ↦ rfl, .refl ht⟩
    obtain ⟨q, hq, hedits⟩ := hwritten
    obtain ⟨hsound, hrest⟩ := ih hedits.sound
    refine ⟨hsound, fun hdirect ↦ ?_⟩
    obtain ⟨hr, hothers⟩ := List.forall_mem_cons.mp hdirect
    obtain rfl := hq hr
    refine (hedits.mono fun _ ↦ by rintro rfl; exact List.mem_cons_self).trans
      ((hrest fun r hr ↦ ?_).mono fun _ ↦ List.mem_cons_of_mem _)
    exact (hothers r hr).congr hedits.alters.links

theorem Fixer.sane_overwriting : (Fixer.overwriting content).Sane := by
  rintro ⟨_, findings, deadline⟩ files site rfl hsound
  exact (edits_overwrite content files hsound).1

theorem Fixer.confined_overwriting : (Fixer.overwriting content).Confined := by
  rintro ⟨_, findings, deadline⟩ files site rfl hdirect hsound
  exact ((edits_overwrite content files hsound).2 hdirect).toBecomes

theorem Fixer.editing_overwriting : (Fixer.overwriting content).Editing := by
  rintro ⟨_, findings, deadline⟩ files site rfl hdirect hsound
  exact (edits_overwrite content files hsound).2 hdirect

end Overwriting

/-! ### Scenarios with that fixer -/

/-- A required phase, of which each of some files has a finding. -/
def Phase.sample (cause : RootCause) (files : List String) : Phase where
  name := cause.name
  cause := cause
  priority := cause.priority
  timeout := seconds 60
  retries := 0
  required := true
  fixerRef := cause.name
  findings := files.map fun file ↦ ⟨⟨file, 1, 1, "TS1005", "", ""⟩, cause, {}⟩

/-- A project with some files, in which one fixer is registered. -/
def Scenario.sample (files : List (Route × Node)) (phases : List Phase) : Scenario where
  crew := ⟨[(.syntactic, .overwriting (Text.encode "new"))], []⟩
  phases := phases
  world := { files := ⟨(["p"], .directory 0) :: files, 0, ["p"]⟩ }
  store := .ofProject ["p"] defaultBackupDirectory
  runId := "run-1"
  project := ["p"]
  config := { validationEnabled := false }

namespace Scenario

section Sample

variable {files : List (Route × Node)} {phases : List Phase} {ref : String} {fixer : Fixer}

theorem fixer_of_sample (h : (sample files phases).crew.registry.get ref = .ok fixer) :
    fixer = .overwriting (Text.encode "new") := by
  obtain ⟨cause, hmem⟩ := Registry.mem_of_get h
  exact (Prod.mk.inj (List.mem_singleton.mp hmem)).2

theorem proper_sample (hsound : (sample files phases).world.files.Sound) :
    (sample files phases).Proper where
  root := rfl
  backup := rfl
  sound := hsound
  sane _ _ h := by
    rw [fixer_of_sample h]
    exact Fixer.sane_overwriting _

theorem not_reserved_sample {t : FileTree} {r : Route}
    (hhome : t.traced (sample files phases).home = .done ["p", defaultBackupDirectory, "run-1"])
    (hr : ¬ ["p", defaultBackupDirectory, "run-1"] <+: r) :
    ¬ (sample files phases).Reserved t r := by
  rintro (⟨d, hd, hbelow⟩ | hlog)
  · rw [hhome] at hd
    cases hd
    exact hr hbelow
  · cases hlog

end Sample

/-! ### Calls -/

/-- Every call of a fixer in a run is backed by snapshots, whatever fixers do and however the run
ends. -/
theorem snapshots_of_run (x : Scenario) (hx : x.Proper) :
    Ends (RunAct.run x.crew x.phases) x.bench (fun _ b ↦ x.Guarded b) fun _ b ↦ x.Guarded b :=
  (ends_run hx).mono (fun _ _ h ↦ h.guarded) fun _ _ h ↦ h.guarded

/-- A project in which one file has a finding. -/
def oneFile : Scenario :=
  sample [(["p", "a.ts"], .file (Text.encode "old") 0o644)] [.sample .syntactic ["a.ts"]]

theorem proper_oneFile : oneFile.Proper :=
  proper_sample (sound_of_entries (by decide) (by decide))

theorem snapshots_of_oneFile : oneFile.Proper ∧
    Ends (RunAct.run oneFile.crew oneFile.phases) oneFile.bench (fun _ b ↦ oneFile.Guarded b)
      fun _ b ↦ oneFile.Guarded b :=
  ⟨proper_oneFile, snapshots_of_run oneFile proper_oneFile⟩

/-- A project in which a link leads in a circle, and the path of a finding through it and out of it
leads to another link. -/
def oneLink : Scenario :=
  sample [(["p", "loop"], .link "loop"), (["p", "x.ts"], .link "y.ts"),
    (["p", "y.ts"], .file (Text.encode "old") 0o644)] [.sample .syntactic ["loop/../x.ts"]]

/-- The files that are handed to fixers, call by call, beside those in the snapshot of the phase. -/
def filesByCall (b : Bench) : List (List Path × Option (List Route)) :=
  b.progress.account.filterMap fun scene ↦
    match scene.occurrence with
    | .call phase _ request =>
      some (request.files, (Json.lookup phase.fixerRef scene.context.snapshots).map (·.paths))
    | _ => none

theorem filesByCall_oneLink : filesByCall (RunAct.run oneLink.crew oneLink.phases oneLink.bench).2 =
    [([Route.path ["p", "x.ts"]], some [["p", "y.ts"]])] := by
  decide +kernel

/-- A fixer is handed a file that is not in the snapshot of its phase. -/
theorem snapshot_without_file : oneLink.Proper ∧
    ¬ oneLink.Reserved oneLink.world.files ["p", "x.ts"] ∧
    ∃ scene ∈ (RunAct.run oneLink.crew oneLink.phases oneLink.bench).2.progress.account,
      ∃ phase number request s, scene.occurrence = .call phase number request ∧
        Json.lookup phase.fixerRef scene.context.snapshots = some s ∧
        request.files = [Route.path ["p", "x.ts"]] ∧ ["p", "x.ts"] ∉ s.paths := by
  refine ⟨proper_sample (sound_of_entries (by decide) (by decide)),
    not_reserved_sample (by decide) (by decide), ?_⟩
  have hmem := filesByCall_oneLink.symm ▸ List.mem_singleton_self
    ([Route.path ["p", "x.ts"]], some [["p", "y.ts"]])
  obtain ⟨scene, hscene, hshown⟩ := List.mem_filterMap.mp hmem
  refine ⟨scene, hscene, ?_⟩
  split at hshown
  · rename_i phase number request hcall
    obtain ⟨hfiles, hpaths⟩ := Prod.mk.inj (Option.some.inj hshown)
    obtain ⟨s, hs, hpaths⟩ := Option.map_eq_some_iff.mp hpaths
    refine ⟨phase, number, request, s, hcall, hs, hfiles, ?_⟩
    rw [hpaths]
    decide
  · cases hshown

end Scenario

end Remedy
