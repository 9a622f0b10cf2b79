import Remedy.Proofs.Backup.Loading
import Remedy.Proofs.Backup.Restoring

/-!
# Undoing from the disk

A run is undone by reading one of its snapshots back and restoring that. This comes to the same as
restoring the snapshot itself, whatever has been done to its files, as long as their paths still
lead to them (`Store.undo_of_untouched`). If moreover no link leads to the files and nothing lies
where their drafts may be, no other file is touched.

In the snapshot itself the paths have been resolved when it was taken, and restoring it replaces
whatever lies there. Reading it back resolves them again. Where a file has been replaced by a link
to another one, that other file gets the content of the first, and the link stays
(`Store.undo_through_link`).
-/

set_option autoImplicit false

namespace Remedy

open FileTree

namespace Snapshot

/-- What a snapshot records of a file, which is nothing if it is not there or not recorded. -/
def recorded (s : Snapshot) (r : Route) : Option Text.Bytes := (find? r s.files).getD none

theorem recorded_eq {s : Snapshot} (hnodup : s.paths.Nodup) {e : Route × Option Text.Bytes}
    (he : e ∈ s.files) : s.recorded e.1 = e.2 := by
  rw [recorded, find?_eq_of_mem hnodup he, Option.getD_some]

end Snapshot

namespace Store

section Undoing

variable {project : Route} {directory : String} {s s' : Store} {runId key : String}
  {texts : List String} {w w₁ w₂ : World} {taken : Snapshot × Store}

/-- Whatever has been done to the tree since a snapshot was taken, undoing from the disk restores
the snapshot with its files where their paths lead now. -/
theorem undo_eq {target : Route → Route} (hproject : Written project)
    (hs : s.IsOf project directory) (hs' : s'.IsOf project directory) (hw : w.files.Sound)
    (htick : w.files.tick < Calendar.lastMoment) (hlog : w.LogsOutside (s.location runId key))
    (htaken : s.snapshot runId key (texts.map Path.ofString) w = (.ok taken, w₁))
    (hresolve : ∀ r ∈ taken.1.paths, w₂.files.resolve (Route.path r) = .ok (target r))
    (huntouched : taken.1.Untouched project w₁.files w₂.files) :
    (s'.load runId key >>= restore) w₂ = restore (taken.1.redirected target) w₂ := by
  rw [bind_apply, load_untouched hproject hs hs' hw htick hlog htaken hresolve huntouched]

/-- As long as the paths of a snapshot lead to its files, undoing from the disk is restoring the
snapshot. It puts back what is recorded of the files and touches no others, if no link leads to the
files and nothing lies where drafts of them may be. -/
theorem undo_of_untouched (hproject : Written project)
    (hs : s.IsOf project directory) (hs' : s'.IsOf project directory) (hw : w.files.Sound)
    (htick : w.files.tick < Calendar.lastMoment) (hlog : w.LogsOutside (s.location runId key))
    (htaken : s.snapshot runId key (texts.map Path.ofString) w = (.ok taken, w₁))
    (hresolve : ∀ r ∈ taken.1.paths, w₂.files.resolve (Route.path r) = .ok r)
    (huntouched : taken.1.Untouched project w₁.files w₂.files) :
    (s'.load runId key >>= restore) w₂ = restore taken.1 w₂ ∧
    (w₂.files.Sound → Restorable w₂.files w₂.logFile (· ∈ taken.1.paths) →
      Ends (s'.load runId key >>= restore) w₂
        (fun _ w' ↦ w₂.Touches (· ∈ taken.1.paths) w' ∧ ∀ e ∈ taken.1.files,
          w₂.logFile ≠ some e.1 → w'.files.bytes? e.1 = e.2)
        fun _ w' ↦ w₂.Touches (· ∈ taken.1.paths) w') := by
  obtain ⟨-, hdurable⟩ := taken_of_snapshot hproject hs hw htick htaken
  have hagree : (s'.load runId key >>= restore) w₂ = restore taken.1 w₂ := by
    rw [undo_eq hproject hs hs' hw htick hlog htaken hresolve huntouched,
      Snapshot.redirected_of_fixed hdurable.nodup fun _ _ ↦ rfl]
  refine ⟨hagree, fun hw₂ hrestorable ↦ ?_⟩
  unfold Ends
  rw [hagree]
  have hrecorded : ∀ e ∈ taken.1.files, e.1 ∈ taken.1.paths ∧ e.2 = taken.1.recorded e.1 :=
    fun e he ↦ ⟨List.mem_map_of_mem he, (Snapshot.recorded_eq hdurable.nodup he).symm⟩
  refine (ends_restore taken.1 hw₂ hrestorable hrecorded).mono ?_ fun _ _ h ↦ h.1
  rintro _ w' ⟨-, htouches, hbytes⟩
  refine ⟨htouches, fun e he hlog ↦ ?_⟩
  rw [hbytes e.1 (hrecorded e he).1 hlog]
  exact (hrecorded e he).2.symm

end Undoing

/-! ### A file that is rewritten -/

theorem draft_sample {r : Route} (hr : r ∈ sampleSnapshot.paths) (n : Nat) :
    ∃ name, r.draft n = ["p", name] ∧ name ≠ "a.ts" ∧ name ≠ "b.ts" := by
  have hpaths : ∀ r ∈ sampleSnapshot.paths,
      ∃ name, r = ["p", name] ∧ "a.ts".length ≤ name.length ∧ "b.ts".length ≤ name.length := by
    simp only [Snapshot.paths, sampleSnapshot, List.map_cons, List.map_nil, List.forall_mem_cons]
    exact ⟨⟨_, rfl, by decide⟩, ⟨_, rfl, by decide⟩, by simp⟩
  obtain ⟨name, rfl, ha, hb⟩ := hpaths r hr
  exact ⟨_, Route.draft_concat ["p"] name n, FileAct.draftName_ne_of_length_le ha _,
    FileAct.draftName_ne_of_length_le hb _⟩

theorem restorable_sample : Restorable sampleWorld.files sampleWorld.logFile
    (· ∈ sampleSnapshot.paths) := by
  have hfree : ∀ name, name ≠ "a.ts" → sampleWorld.files.look ["p", name] = none := by
    intro name hname
    simp [sampleWorld, look, node?, find, Ne.symm hname]
  constructor
  case direct =>
    have htraced : ∀ r ∈ sampleSnapshot.paths,
        sampleWorld.files.traced (Route.path r) = .done r := by decide
    exact fun r hr ↦ direct_of_traced sound_sample rfl (htraced r hr)
  case below =>
    decide
  case links =>
    intro r hr n
    obtain ⟨name, heq, hname, -⟩ := draft_sample hr n
    rw [heq, link?, hfree name hname]
  case unused =>
    intro r hr n
    obtain ⟨name, heq, hname, -⟩ := draft_sample hr n
    rw [heq, bytes?, hfree name hname]
  case apart =>
    intro r hr n
    obtain ⟨name, heq, hname, hname'⟩ := draft_sample hr n
    rw [heq]
    refine ⟨fun hmem ↦ ?_, fun h ↦ by cases h⟩
    simp [Snapshot.paths, sampleSnapshot, hname, hname'] at hmem

/-- It stays so when the snapshot is taken, since that only touches the directory of its run. -/
theorem SampleTaken.restorable {w : World} (h : SampleTaken w) :
    Restorable w.files w.logFile (· ∈ sampleSnapshot.paths) := by
  rw [h.touches.log]
  refine restorable_sample.altered (h.touches.files sound_sample).alters fun r hr n ↦ ?_
  have hrun : sampleWorld.files.traced (sampleStore.root.child "run-1") =
      .done ["p", defaultBackupDirectory, "run-1"] := by decide
  obtain ⟨name, heq, -⟩ := draft_sample hr n
  rw [heq]
  rintro (⟨d, hd, hbelow⟩ | hlog)
  · obtain rfl : d = _ := Resolved.done.inj (hd.symm.trans hrun)
    exact absurd hbelow.length_le (by simp)
  · cases hlog

theorem undo_of_untouched_sample :
    ∃ store w₁,
      sampleStore.snapshot "run-1" "run" (sampleNames.map Path.ofString) sampleWorld =
        (.ok (sampleSnapshot, store), w₁) ∧
      let w₂ := rewritten (Route.path ["p", "a.ts"]) w₁
      (sampleStore.load "run-1" "run" >>= restore) w₂ = restore sampleSnapshot w₂ ∧
      Ends (sampleStore.load "run-1" "run" >>= restore) w₂
        (fun _ w' ↦ w₂.Touches (· ∈ sampleSnapshot.paths) w' ∧ ∀ e ∈ sampleSnapshot.files,
          w₂.logFile ≠ some e.1 → w'.files.bytes? e.1 = e.2)
        fun _ w' ↦ w₂.Touches (· ∈ sampleSnapshot.paths) w' := by
  obtain ⟨store, w₁, htaken, h⟩ := taken_sample
  have htouches := touches_rewritten h.sound rfl h.file
  obtain ⟨hagree, hrestores⟩ := undo_of_untouched written_sample isOf_sample isOf_sample
    sound_sample (by decide) logsOutside_sample htaken (h.resolve _ List.mem_cons_self) h.untouched
  refine ⟨store, w₁, htaken, hagree, hrestores (htouches.files h.sound).sound ?_⟩
  refine h.restorable.touched h.sound htouches ?_
  rintro _ rfl
  exact List.mem_cons_self

/-! ### A file that is replaced by a link -/

/-- A project with two files. -/
def twoFiles : World where
  files := ⟨[(["p"], .directory 0), (["p", "a.ts"], .file (Text.encode "A") 0o644),
    (["p", "b.ts"], .file (Text.encode "B") 0o644)], 0, ["p"]⟩

/-- What is recorded of the first one. -/
def firstFile : Snapshot :=
  ⟨"run-1", "run", [(["p", "a.ts"], some (Text.encode "A"))], sampleStore.location "run-1" "run"⟩

/-- The world after the first file has been replaced by a link to the second one. -/
def linked (w : World) : World :=
  { w with files := w.files.set ["p", "a.ts"] (.link "b.ts") }

theorem look_linked {r : Route} (hr : r ≠ ["p", "a.ts"]) (w : World) :
    (linked w).files.look r = w.files.look r := by
  show (w.files.set _ _).look r = _
  rw [look_set, if_neg hr]

/-- A directory in which the link does not lie, nor on the way to it, stays as it is. -/
theorem stored_linked {snapshot : Snapshot} {project : Route} {createdAt : String} {w : World}
    {home : Route} (hstored : snapshot.Stored project createdAt w.files home)
    (hsound : (linked w).files.Sound) (hlocation : snapshot.location = Route.path home)
    (hapart : ¬ ["p", "a.ts"] <+: home ∧ ¬ home <+: ["p", "a.ts"])
    (hfits : ∀ name ∈ home, name.utf8ByteSize ≤ nameLimit) :
    snapshot.Stored project createdAt (linked w).files home := by
  have hlook : ∀ r, r <+: home ∨ home <+: r → (linked w).files.look r = w.files.look r := by
    refine fun r hr ↦ look_linked ?_ w
    rintro rfl
    exact hr.elim hapart.1 hapart.2
  have hbefore := direct_of_traced hstored.clean.sound hstored.clean.absolute hstored.clean.traced
  have hdirect : (linked w).files.Direct home := by
    refine ⟨hbefore.no_dots, fun q hq ↦ ?_⟩
    rw [link?, hlook q (.inl hq)]
    exact hbefore.no_links q hq
  have hhome : (linked w).files.HasDirectory home := by
    rw [HasDirectory, hlook home (.inl List.prefix_rfl)]
    exact hstored.clean.walk.shows hstored.clean.sound hstored.clean.sound.root
  refine hstored.congr hsound ?_ (fun r hr ↦ ?_) fun r hr _ ↦ ?_
  · rw [hlocation]
    exact (walk_of_direct hsound (d := []) hdirect hhome hsound.root hfits).mono (Nat.zero_le _)
  · rw [link?, link?, hlook r (.inr hr)]
  · rw [bytes?, bytes?, hlook r (.inr hr)]

/-- Undoing from the disk gives the second file the content of the first one, while restoring the
snapshot puts the first one back in the place of the link. -/
theorem undo_through_link :
    ∃ store w₁,
      sampleStore.snapshot "run-1" "run" (["a.ts"].map Path.ofString) twoFiles =
        (.ok (firstFile, store), w₁) ∧
      firstFile.Untouched ["p"] w₁.files (linked w₁).files ∧
      (∀ r, r ≠ ["p", "a.ts"] → (linked w₁).files.look r = w₁.files.look r) ∧
      (let disk := (sampleStore.load "run-1" "run" >>= restore) (linked w₁)
       disk.1 = .ok [["p", "b.ts"]] ∧ disk.2.files.link? ["p", "a.ts"] = some "b.ts" ∧
        disk.2.files.bytes? ["p", "b.ts"] = some (Text.encode "A")) ∧
      let memory := restore firstFile (linked w₁)
      memory.1 = .ok [["p", "a.ts"]] ∧
        memory.2.files.bytes? ["p", "a.ts"] = some (Text.encode "A") ∧
        memory.2.files.bytes? ["p", "b.ts"] = some (Text.encode "B") := by
  obtain ⟨hoption, hhome, hroot, hentries, hresolve, ⟨hdisk, hdisk'⟩, hmemory, hmemory'⟩ :
      let after := sampleStore.snapshot "run-1" "run" (["a.ts"].map Path.ofString) twoFiles
      let home := ["p", defaultBackupDirectory, "run-1", "run"]
      let t := (linked after.2).files
      let disk := restore (firstFile.redirected fun _ ↦ ["p", "b.ts"]) (linked after.2)
      let memory := restore firstFile (linked after.2)
      after.1.toOption.map (·.1) = some firstFile ∧
      after.2.files.traced firstFile.location = .done home ∧
      t.HasDirectory [] ∧ (∀ e ∈ t.entries, t.HasDirectory e.1.dropLast) ∧
      (t.resolve (Route.path ["p", "a.ts"])).toOption = some ["p", "b.ts"] ∧
      (disk.1.toOption = some [["p", "b.ts"]] ∧
        disk.2.files.link? ["p", "a.ts"] = some "b.ts" ∧
        disk.2.files.bytes? ["p", "b.ts"] = some (Text.encode "A")) ∧
      memory.1.toOption = some [["p", "a.ts"]] ∧
      memory.2.files.bytes? ["p", "a.ts"] = some (Text.encode "A") ∧
      memory.2.files.bytes? ["p", "b.ts"] = some (Text.encode "B") := by
    simp only [Store.snapshot, mergeSort_le]
    decide +kernel
  rcases htaken : sampleStore.snapshot "run-1" "run" (["a.ts"].map Path.ofString) twoFiles with
    ⟨e | ⟨snapshot, store⟩, w₁⟩
  · rw [htaken] at hoption
    cases hoption
  rw [htaken] at hoption hhome hroot hentries hresolve hdisk hdisk' hmemory hmemory'
  obtain rfl : snapshot = firstFile := Option.some.inj hoption
  have hsound : twoFiles.files.Sound := sound_of_entries (by decide) (by decide)
  have hlog : twoFiles.LogsOutside (sampleStore.location "run-1" "run") := fun r hr ↦ by cases hr
  obtain ⟨hsnapshot, -⟩ := taken_of_snapshot written_sample isOf_sample hsound (by decide) htaken
  obtain ⟨home, ⟨hstored, -, -⟩⟩ := hsnapshot.stored hlog
  obtain rfl : home = _ := Resolved.done.inj (hstored.clean.traced.symm.trans hhome)
  have hlinked : firstFile.Stored ["p"] (Calendar.stampText 0) (linked w₁).files
      ["p", defaultBackupDirectory, "run-1", "run"] :=
    stored_linked hstored (sound_of_entries hroot hentries) (by decide) (by decide) (by decide)
  have huntouched := hstored.kept.untouched_of_kept hlinked.kept
  refine ⟨store, w₁, rfl, huntouched, fun r hr ↦ look_linked hr w₁, ?_, ?_⟩
  · have hfirst : ∀ r ∈ firstFile.paths,
        (linked w₁).files.resolve (Route.path r) = .ok ["p", "b.ts"] := by
      intro r hr
      obtain rfl : r = ["p", "a.ts"] := List.mem_singleton.mp hr
      exact eq_ok_of_toOption hresolve
    dsimp only
    rw [undo_eq written_sample isOf_sample isOf_sample hsound (by decide) hlog htaken hfirst
      huntouched]
    exact ⟨eq_ok_of_toOption hdisk, hdisk'⟩
  · exact ⟨eq_ok_of_toOption hmemory, hmemory'⟩

end Store

end Remedy
