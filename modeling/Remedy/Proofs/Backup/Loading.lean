import Remedy.Proofs.Backup.Taking
import Remedy.Proofs.Json.RoundTrip
import Remedy.Proofs.Text.Ascii

/-!
# Reading snapshots back

The manifest of a snapshot is read as it was written (`Snapshot.readManifest_manifest`). An entry of
it gives the file that it was written for, or a fault of the backup, and what is read for it has the
digest that was recorded (`Store.ends_loadEntry`). So a snapshot whose directory is as it was left
is read back, with its files where their paths lead now (`Store.load_untouched`).

As long as the paths still lead to the files, that is the snapshot itself, and if its backup files
have been changed, no other one is read in its place (`Store.load_snapshot`). The latter depends on
no two of the contents having one digest.
-/

set_option autoImplicit false

namespace Remedy

open FileTree

/-! ### Manifests -/

theorem plain_entry (e : ManifestEntry) : Json.Plain e.json := by
  have hoption : ∀ s : Option String, Json.Plain (Json.ofOption .str s) := by
    rintro (_ | s)
    · exact .null
    · exact .str s
  refine .obj (by simp) ?_
  simp only [List.forall_mem_cons]
  exact ⟨.str _, hoption _, hoption _, .bool _, .str _, by simp⟩

namespace Snapshot

variable (s : Snapshot) (project : Route) (createdAt : String)

/-- The value that the manifest of a snapshot writes. -/
def manifestValue : Json :=
  .obj [("run_id", s.runId), ("key", s.key),
    ("files", .arr ((s.entries project createdAt).map ManifestEntry.json))]

theorem plain_manifestValue : Json.Plain (s.manifestValue project createdAt) := by
  have hentries : Json.Plain (.arr ((s.entries project createdAt).map ManifestEntry.json)) :=
    .arr (List.forall_mem_map.mpr fun e _ ↦ plain_entry e)
  refine .obj (by simp) ?_
  simp only [List.forall_mem_cons]
  exact ⟨.str _, .str _, hentries, by simp⟩

theorem readManifest_manifest :
    readManifest (s.manifest project createdAt) = .ok (s.manifestValue project createdAt) := by
  have hplain := s.plain_manifestValue project createdAt
  have hprinted : ∀ c ∈ (Json.pretty (s.manifestValue project createdAt)).toList,
      Json.IsPrinted c := hplain.allPrinted 0
  have hascii : ∀ c ∈ (Json.pretty (s.manifestValue project createdAt)).toList,
      c.toNat < 0x80 := by
    intro c hc
    rcases hprinted c hc with rfl | ⟨-, hlt⟩
    · decide
    · omega
  have hreturn : '\r' ∉ (Json.pretty (s.manifestValue project createdAt)).toList :=
    fun hmem ↦ absurd (hprinted _ hmem) (by decide)
  have htext : s.manifest project createdAt =
      Text.encode (Json.pretty (s.manifestValue project createdAt)) := rfl
  unfold readManifest
  rw [htext, Text.decodeStrict_encode hascii]
  dsimp only
  rw [Text.lineFeeds_eq_self hreturn, String.ofList_toList, Json.parse_pretty hplain]

theorem manifestEntries_manifestValue : manifestEntries (s.manifestValue project createdAt) =
    .ok ((s.entries project createdAt).map ManifestEntry.json) :=
  rfl

end Snapshot

/-! ### Entries -/

theorem Json.beq_str (s s' : String) : (Json.str s == Json.str s') = (s == s') :=
  rfl

namespace Snapshot

theorem put_of_not_mem {r : Route} {files : List (Route × Option Text.Bytes)}
    (h : r ∉ files.map (·.1)) (content : Option Text.Bytes) :
    put r content files = files ++ [(r, content)] := by
  induction files with
  | nil => rfl
  | cons entry rest ih =>
    obtain ⟨q, c⟩ := entry
    obtain ⟨hq, hrest⟩ := not_or.mp (mt List.mem_cons.mpr h)
    rw [put, if_neg fun heq ↦ hq heq.symm, ih hrest, List.cons_append]

/-- What is recorded of files, with the targets of links in the place of the links. -/
def redirect (target : Route → Route) (done files : List (Route × Option Text.Bytes)) :
    List (Route × Option Text.Bytes) :=
  files.foldl (fun done file ↦ put (target file.1) file.2 done) done

theorem redirect_of_fixed {target : Route → Route} {files : List (Route × Option Text.Bytes)}
    (hfixed : ∀ r ∈ files.map (·.1), target r = r) {done : List (Route × Option Text.Bytes)}
    (hnodup : ((done ++ files).map (·.1)).Nodup) : redirect target done files = done ++ files := by
  induction files generalizing done with
  | nil => exact (List.append_nil done).symm
  | cons file rest ih =>
    obtain ⟨r, content⟩ := file
    obtain ⟨hr, hrest⟩ := List.forall_mem_cons.mp hfixed
    have hnew : r ∉ done.map (·.1) := by
      rw [List.map_append, List.nodup_append] at hnodup
      exact fun hmem ↦ hnodup.2.2 r hmem r List.mem_cons_self rfl
    have hstep : redirect target done ((r, content) :: rest) =
        redirect target (done ++ [(r, content)]) rest := by
      rw [← put_of_not_mem hnew]
      exact congrArg (fun q ↦ redirect target (put q content done) rest) hr
    rw [hstep, ih hrest, List.append_assoc]
    · rfl
    · rwa [List.append_assoc]

end Snapshot

/-- What has been found for a file matches what was recorded of it: it has the same digest, and is
what the backup file holds. -/
structure Matches (t : FileTree) (backup : Path) (recorded found : Option Text.Bytes) : Prop where
  digest : Digest.ofContent found = Digest.ofContent recorded
  content : ∀ content, found = some content → t.content backup = .ok content

theorem Act.ends_ok {α : Type} {a : α} {w : World} {ok : α → World → Prop}
    {bad : Fault → World → Prop} : Ends (Act.ofExcept (.ok a)) w ok bad ↔ ok a w :=
  Iff.rfl

namespace Store

variable {w : World} {runId key : String}

theorem ends_resolve {s : Store} {p : Path} {r : Route} {ok : Route → World → Prop}
    {bad : Fault → World → Prop}
    (h : w.files.resolve ((Route.path s.project).join p) = .ok r) :
    Ends (s.resolve p) w ok bad ↔ ok r w := by
  unfold Ends resolve
  rw [h]

theorem hasNul_backup {location : Path} {r r' : Route} (project : Route) (index : Nat)
    (hnul : location.hasNul = false) (hresolve : w.files.resolve (Route.path r) = .ok r') :
    (location.child (backupName index (Route.shownFrom project r))).hasNul = false := by
  have hr : (Route.path r).hasNul = false := by
    unfold FileTree.resolve at hresolve
    split at hresolve
    · cases hresolve
    · exact Bool.eq_false_iff.mpr ‹_›
  refine Path.hasNul_eq_false.mpr (List.forall_mem_append.mpr
    ⟨Path.hasNul_eq_false.mp hnul, ?_⟩)
  simpa using nul_not_mem_backupName (nul_not_mem_shownFrom project hr)

/-- Adds what the backup file of an entry holds to the files of a snapshot. -/
def loadBackup (location : Path) (done : List (Route × Option Text.Bytes)) (entry : Json)
    (path : String) (route : Route) : Act (List (Route × Option Text.Bytes)) := do
  let name ← Act.ofExcept (← Act.ofExcept (entry.demand "backup")).text
  let backup := location.join (Path.ofString name)
  if backup.hasNul then throw (.invalid .nul)
  match ← Act.tryFiles (FileAct.read backup) with
  | .error e => throw (.backup (.missingFile path e))
  | .ok content =>
    if (← Act.ofExcept (entry.demand "sha256")) == .str (Digest.ofBytes content) then
      return Snapshot.put route (some content) done
    else throw (.backup (.corruptFile path))

section Entries

variable {location : Path} {done : List (Route × Option Text.Bytes)} {entry : Json}
  {path name createdAt : String} {r : Route}

/-- An entry that says what it is asked for, of a file that there was or was not. -/
theorem ends_loadEntry_of {s : Store} {existed : Json}
    {ok : List (Route × Option Text.Bytes) → World → Prop} {bad : Fault → World → Prop}
    (hpath : entry.demand "path" = .ok (.str path))
    (hresolve : w.files.resolve ((Route.path s.project).join (Path.ofString path)) = .ok r)
    (hcreated : entry.demand "created_at" = .ok (.str createdAt))
    (hstamp : Calendar.checkStamp createdAt = .ok ())
    (hexisted : entry.demand "existed" = .ok existed)
    (hnever : existed.truthy = false → ok (Snapshot.put r none done) w)
    (hever : existed.truthy = true → Ends (loadBackup location done entry path r) w ok bad) :
    Ends (s.loadEntry location done entry) w ok bad := by
  unfold loadEntry
  rw [hpath, hcreated, hexisted]
  refine ends_bind.mpr (Act.ends_ok.mpr (ends_bind.mpr (Act.ends_ok.mpr ?_)))
  refine ends_bind.mpr ((ends_resolve hresolve).mpr ?_)
  refine ends_bind.mpr (Act.ends_ok.mpr (ends_bind.mpr (Act.ends_ok.mpr ?_)))
  rw [hstamp]
  refine ends_bind.mpr (Act.ends_ok.mpr ?_)
  cases htruthy : existed.truthy with
  | false =>
    rw [if_pos (by rfl)]
    exact ends_pure.mpr (hnever htruthy)
  | true =>
    rw [if_neg (by simp)]
    exact hever htruthy

/-- The backup file of an entry is read, and has the digest that was recorded, or this is a fault of
the backup. -/
theorem ends_loadBackup {recorded : Text.Bytes} (hname : entry.demand "backup" = .ok (.str name))
    (hdigest : entry.demand "sha256" = .ok (.str (Digest.ofBytes recorded)))
    (hnul : (location.join (Path.ofString name)).hasNul = false) :
    Ends (loadBackup location done entry path r) w
      (fun done' w' ↦ w' = w ∧ ∃ found,
        Matches w.files (location.join (Path.ofString name)) (some recorded) found ∧
          done' = Snapshot.put r found done)
      fun e w' ↦ w' = w ∧ (∃ cause, e = .backup cause) ∧
        w.files.content (location.join (Path.ofString name)) ≠ .ok recorded := by
  unfold loadBackup
  rw [hname, hdigest]
  rw [ends_bind, Act.ends_ok, Json.text, ends_bind, Act.ends_ok]
  refine Ends.guard (fun h ↦ absurd h (by simp [hnul])) fun _ ↦ ?_
  refine ends_bind.mpr (Act.ends_read.mpr ?_)
  cases hread : w.files.content (location.join (Path.ofString name)) with
  | error e => exact ends_throw.mpr ⟨rfl, ⟨_, rfl⟩, by simp⟩
  | ok found =>
    dsimp only
    rw [ends_bind, Act.ends_ok, Json.beq_str]
    generalize hexpected : Digest.ofBytes recorded = expected
    generalize hactual : Digest.ofBytes found = actual
    split
    · rename_i hsame
      have hdigests : actual = expected := (eq_of_beq hsame).symm
      refine ends_pure.mpr ⟨rfl, some found, ⟨?_, ?_⟩, rfl⟩
      · rw [Digest.ofContent, Digest.ofContent, Option.map_some, Option.map_some, hexpected,
          hactual, hdigests]
      · rintro content ⟨⟩
        exact hread
    · rename_i hsame
      refine ends_throw.mpr ⟨rfl, ⟨_, rfl⟩, ?_⟩
      rintro ⟨⟩
      exact hsame (beq_iff_eq.mpr (hexpected.symm.trans hactual))

end Entries

/-- An entry gives what its backup file holds, unless that is not what was recorded. -/
theorem ends_loadEntry (s : Store) {location : Path} (done : List (Route × Option Text.Bytes))
    {createdAt : String} (index : Nat) {r r' : Route} (recorded : Option Text.Bytes)
    (hnul : location.hasNul = false) (hstamp : Calendar.checkStamp createdAt = .ok ())
    (hwritten : Written r) (hresolve : w.files.resolve (Route.path r) = .ok r') :
    let backup := location.child (backupName index (Route.shownFrom s.project r))
    Ends (s.loadEntry location done
        (ManifestEntry.ofFile s.project createdAt index (r, recorded)).json) w
      (fun done' w' ↦ w' = w ∧ ∃ found, Matches w.files backup recorded found ∧
        done' = Snapshot.put r' found done)
      fun e w' ↦ w' = w ∧ (∃ cause, e = .backup cause) ∧
        ∃ content, recorded = some content ∧ w.files.content backup ≠ .ok content := by
  dsimp only
  have hfile : (Route.path s.project).join (Path.ofString (Route.shownFrom s.project r)) =
      Route.path r := join_shownFrom s.project hwritten
  have hbackup : location.join (Path.ofString (backupName index (Route.shownFrom s.project r))) =
      location.child (backupName index (Route.shownFrom s.project r)) := by
    rw [ofString_backupName]
    rfl
  have hfree := hasNul_backup s.project index hnul hresolve
  generalize hentry : (ManifestEntry.ofFile s.project createdAt index (r, recorded)).json = entry
  have hpath : entry.demand "path" = .ok (.str (Route.shownFrom s.project r)) := hentry ▸ rfl
  have hcreated : entry.demand "created_at" = .ok (.str createdAt) := hentry ▸ rfl
  have hexisted : entry.demand "existed" = .ok (.bool recorded.isSome) := by
    rw [← hentry]
    cases recorded <;> rfl
  refine ends_loadEntry_of hpath (hfile.symm ▸ hresolve) hcreated hstamp hexisted ?_ ?_
  · cases recorded with
    | none => exact fun _ ↦ ⟨rfl, none, ⟨rfl, nofun⟩, rfl⟩
    | some content => exact fun hnever ↦ absurd hnever (by simp [Json.truthy])
  · cases recorded with
    | none => exact fun hever ↦ absurd hever (by simp [Json.truthy])
    | some content =>
      have hname : entry.demand "backup" =
          .ok (.str (backupName index (Route.shownFrom s.project r))) := by
        rw [← hentry]
        rfl
      have hdigest : entry.demand "sha256" = .ok (.str (Digest.ofBytes content)) := by
        rw [← hentry]
        rfl
      rw [← hbackup] at hfree ⊢
      exact fun _ ↦ (ends_loadBackup hname hdigest hfree).mono (fun _ _ h ↦ h)
        fun e w' ⟨hw', hcause, hdamaged⟩ ↦ ⟨hw', hcause, content, rfl, hdamaged⟩

/-- The entries give the files one after the other, each where its path leads now, if what matches
what was recorded of a file is that. -/
theorem ends_loadEntries (s : Store) (target : Route → Route) {location : Path}
    {createdAt : String} (hnul : location.hasNul = false)
    (hstamp : Calendar.checkStamp createdAt = .ok ())
    (files : List (Route × Option Text.Bytes)) (offset : Nat)
    (done : List (Route × Option Text.Bytes))
    (hfiles : ∀ f ∈ files, Written f.1 ∧ w.files.resolve (Route.path f.1) = .ok (target f.1))
    (hsame : ∀ (i : Nat) f found, files[i]? = some f → Matches w.files
      (location.child (backupName (offset + i) (Route.shownFrom s.project f.1))) f.2 found →
        found = f.2) :
    Ends (((files.mapIdx fun i ↦ ManifestEntry.ofFile s.project createdAt (offset + i)).map
        ManifestEntry.json).foldlM (s.loadEntry location) done) w
      (fun all w' ↦ w' = w ∧ all = Snapshot.redirect target done files)
      fun e w' ↦ w' = w ∧ (∃ cause, e = .backup cause) ∧
        ∃ (i : Nat) (r : Route) (content : Text.Bytes), files[i]? = some (r, some content) ∧
          w.files.content (location.child
            (backupName (offset + i) (Route.shownFrom s.project r))) ≠ .ok content := by
  induction files generalizing offset done with
  | nil => exact ends_pure.mpr ⟨rfl, rfl⟩
  | cons file rest ih =>
    obtain ⟨r, recorded⟩ := file
    obtain ⟨⟨hwritten, hresolve⟩, hrest⟩ := List.forall_mem_cons.mp hfiles
    have hshift : ∀ i, offset + (i + 1) = offset + 1 + i := fun i ↦ by omega
    have hentries : (rest.mapIdx fun i ↦
          ManifestEntry.ofFile s.project createdAt (offset + (i + 1))) =
        rest.mapIdx fun i ↦ ManifestEntry.ofFile s.project createdAt (offset + 1 + i) :=
      congrArg (List.mapIdx · rest) (funext fun i ↦ by rw [hshift])
    rw [List.mapIdx_cons, hentries, List.map_cons, List.foldlM_cons]
    refine ((s.ends_loadEntry done (offset + 0) recorded hnul hstamp hwritten hresolve).mono
      (fun _ _ h ↦ h) ?_).bind ?_
    · rintro e w' ⟨rfl, hcause, content, rfl, hdamaged⟩
      exact ⟨rfl, hcause, 0, r, content, rfl, hdamaged⟩
    rintro _ w' ⟨rfl, found, hmatches, rfl⟩
    obtain rfl := hsame 0 (r, recorded) found rfl hmatches
    refine (ih (offset + 1) (Snapshot.put (target r) found done) hrest
      fun i f found' hf hmatches' ↦ ?_).mono (fun _ _ h ↦ h) ?_
    · refine hsame (i + 1) f found' hf ?_
      rwa [hshift]
    · rintro e w' ⟨rfl, hcause, i, q, content, hi, hdamaged⟩
      refine ⟨rfl, hcause, i + 1, q, content, hi, ?_⟩
      rwa [hshift]

/-! ### Snapshots -/

end Store

/-- The snapshot with the targets of links in the place of the links. -/
def Snapshot.redirected (s : Snapshot) (target : Route → Route) : Snapshot :=
  { s with files := redirect target [] s.files }

theorem Snapshot.redirected_of_fixed {s : Snapshot} {target : Route → Route}
    (hnodup : s.paths.Nodup) (hfixed : ∀ r ∈ s.paths, target r = r) : s.redirected target = s := by
  have hfiles : redirect target [] s.files = [] ++ s.files := redirect_of_fixed hfixed hnodup
  rw [redirected, hfiles, List.nil_append]

/-- A snapshot that can be found again where it was written. -/
structure Snapshot.Durable (s : Snapshot) (createdAt : String) : Prop where
  names : isBackupName s.runId = true ∧ isBackupName s.key = true
  nul : s.location.hasNul = false
  stamp : Calendar.checkStamp createdAt = .ok ()
  nodup : s.paths.Nodup
  written : ∀ r ∈ s.paths, Written r

namespace Store

variable {w : World}

section Manifests

variable {s : Store} {snapshot : Snapshot} {createdAt : String}
  (hdurable : snapshot.Durable createdAt)
  (hlocation : snapshot.location = s.location snapshot.runId snapshot.key)
  (hmanifest : w.files.content (snapshot.location.child manifestName) =
    .ok (snapshot.manifest s.project createdAt))

include hdurable hlocation hmanifest

/-- A snapshot whose manifest is as it was written is read entry by entry. -/
theorem ends_load_entries {ok : Snapshot → World → Prop} {bad : Fault → World → Prop}
    (h : Ends (((snapshot.entries s.project createdAt).map ManifestEntry.json).foldlM
        (s.loadEntry snapshot.location) []) w
      (fun files ↦ ok ⟨snapshot.runId, snapshot.key, files, snapshot.location⟩) bad) :
    Ends (s.load snapshot.runId snapshot.key) w ok bad := by
  have hfree : ((s.location snapshot.runId snapshot.key).child manifestName).hasNul = false := by
    rw [← hlocation]
    exact Path.hasNul_eq_false.mpr (List.forall_mem_append.mpr
      ⟨Path.hasNul_eq_false.mp hdurable.nul, by decide⟩)
  unfold load
  refine ends_bind.mpr (ends_checkNames_of_names hdurable.names ?_)
  refine Ends.guard (fun hnul ↦ absurd hnul (by simp [hfree])) fun _ ↦ ?_
  refine ends_bind.mpr (Act.ends_read.mpr ?_)
  rw [← hlocation, hmanifest]
  dsimp only
  rw [snapshot.readManifest_manifest]
  dsimp only
  rw [snapshot.manifestEntries_manifestValue, ends_bind, Act.ends_ok]
  exact ends_bind.mpr h

/-- A snapshot is read back with its files where their paths lead now, or one of its backup files
has been changed. -/
theorem ends_load {target : Route → Route}
    (hresolve : ∀ r ∈ snapshot.paths, w.files.resolve (Route.path r) = .ok (target r))
    (hsame : ∀ (i : Nat) f found, snapshot.files[i]? = some f →
      Matches w.files (snapshot.backup s.project i f.1) f.2 found → found = f.2) :
    Ends (s.load snapshot.runId snapshot.key) w
      (fun loaded w' ↦ w' = w ∧ loaded = snapshot.redirected target)
      fun e w' ↦ w' = w ∧ (∃ cause, e = .backup cause) ∧
        ∃ (i : Nat) (r : Route) (content : Text.Bytes),
          snapshot.files[i]? = some (r, some content) ∧
            w.files.content (snapshot.backup s.project i r) ≠ .ok content := by
  have hentries : snapshot.entries s.project createdAt =
      snapshot.files.mapIdx fun i ↦ ManifestEntry.ofFile s.project createdAt (0 + i) := by
    simp only [Nat.zero_add]
    rfl
  refine ends_load_entries hdurable hlocation hmanifest ?_
  rw [hentries]
  refine (ends_loadEntries s target hdurable.nul hdurable.stamp snapshot.files 0 [] ?_ ?_).mono
    ?_ ?_
  · exact fun f hf ↦ ⟨hdurable.written _ (List.mem_map_of_mem hf),
      hresolve _ (List.mem_map_of_mem hf)⟩
  · intro i f found hi hmatches
    rw [Nat.zero_add] at hmatches
    exact hsame i f found hi hmatches
  · rintro _ w' ⟨rfl, rfl⟩
    exact ⟨rfl, rfl⟩
  · rintro e w' ⟨rfl, hcause, i, r, content, hi, hdamaged⟩
    rw [Nat.zero_add] at hdamaged
    exact ⟨rfl, hcause, i, r, content, hi, hdamaged⟩

/-- A snapshot is not read back if the path of its first file no longer resolves. -/
theorem load_of_unresolved {r : Route} {content : Option Text.Bytes}
    {rest : List (Route × Option Text.Bytes)} {e : Fault}
    (hfiles : snapshot.files = (r, content) :: rest)
    (hresolve : w.files.resolve (Route.path r) = .error e) :
    s.load snapshot.runId snapshot.key w = (.error e, w) := by
  have hwritten : Written r := hdurable.written r (by simp [Snapshot.paths, hfiles])
  have hends : Ends (s.load snapshot.runId snapshot.key) w (fun _ _ ↦ False)
      fun e' w' ↦ w' = w ∧ e' = e := by
    refine ends_load_entries hdurable hlocation hmanifest ?_
    rw [Snapshot.entries, hfiles, List.mapIdx_cons, List.map_cons, List.foldlM_cons]
    refine ends_bind.mpr ?_
    have hpath : (ManifestEntry.ofFile s.project createdAt 0 (r, content)).json.demand "path" =
        .ok (.str (Route.shownFrom s.project r)) := rfl
    unfold loadEntry
    rw [hpath]
    refine ends_bind.mpr (Act.ends_ok.mpr (ends_bind.mpr (Act.ends_ok.mpr (ends_bind.mpr ?_))))
    unfold Ends resolve
    rw [join_shownFrom s.project hwritten, hresolve]
    exact ⟨rfl, rfl⟩
  unfold Ends at hends
  rcases hload : s.load snapshot.runId snapshot.key w with ⟨_ | _, w'⟩
  · rw [hload] at hends
    obtain ⟨rfl, rfl⟩ := hends
    rfl
  · rw [hload] at hends
    exact hends.elim

end Manifests

/-! ### What reading leaves behind -/

theorem still_read (p : Path) : Act.Still (Act.tryFiles (FileAct.read p)) :=
  fun w ↦ Act.ends_read.mpr (.refl w)

theorem still_resolve (s : Store) (p : Path) : Act.Still (s.resolve p) := by
  intro w
  refine ends_ask.mono ?_ ?_
  · rintro r w' ⟨rfl, -⟩
    exact .refl w'
  · rintro e w' ⟨rfl, -⟩
    exact .refl w'

theorem still_loadEntry (s : Store) (location : Path) (done : List (Route × Option Text.Bytes))
    (entry : Json) : Act.Still (s.loadEntry location done entry) := by
  unfold loadEntry
  refine (Act.still_ofExcept _).bind fun _ ↦ (Act.still_ofExcept _).bind fun _ ↦ ?_
  refine (s.still_resolve _).bind fun _ ↦ ?_
  refine (Act.still_ofExcept _).bind fun _ ↦ (Act.still_ofExcept _).bind fun _ ↦ ?_
  split
  · exact Act.still_throw _
  refine (Act.still_ofExcept _).bind fun _ ↦ ?_
  split
  · exact Act.still_pure _
  refine (Act.still_ofExcept _).bind fun _ ↦ (Act.still_ofExcept _).bind fun _ ↦ ?_
  refine .guard ((still_read _).bind fun outcome ↦ ?_)
  split
  · exact Act.still_throw _
  · refine (Act.still_ofExcept _).bind fun _ ↦ ?_
    split
    · exact Act.still_pure _
    · exact Act.still_throw _

theorem still_load (s : Store) (runId key : String) : Act.Still (s.load runId key) := by
  have hnames : Act.Still (checkNames runId key) := fun w ↦
    ends_checkNames (fun _ _ _ ↦ .refl w) fun _ ↦ .refl w
  unfold load
  refine hnames.bind fun _ ↦ .guard ((still_read _).bind fun outcome ↦ ?_)
  split
  · exact .guard (Act.still_throw _)
  · split
    · exact Act.still_throw _
    · refine (Act.still_ofExcept _).bind fun _ ↦ ?_
      exact (Act.still_foldlM (s.still_loadEntry _) _ _).bind fun _ ↦ Act.still_pure _

end Store

/-- What matches what was recorded is that, if no other content that is read has its digest. -/
theorem Matches.eq {t : FileTree} {backup : Path} {recorded found : Option Text.Bytes}
    (h : Matches t backup recorded found)
    (hsame : ∀ content read, recorded = some content → t.content backup = .ok read →
      Digest.ofBytes read = Digest.ofBytes content → read = content) : found = recorded := by
  have hdigest := h.digest
  cases recorded with
  | none => exact Option.map_eq_none_iff.mp hdigest
  | some content =>
    obtain ⟨read, rfl, hread⟩ := Option.map_eq_some_iff.mp hdigest
    rw [hsame content read rfl (h.content read rfl) hread]

namespace Store

variable {w : World} {runId key : String}

/-- The store is one of the project with that directory for backups, whatever it holds. -/
structure IsOf (s : Store) (project : Route) (directory : String) : Prop where
  project_eq : s.project = project
  root_eq : s.root = (ofProject project directory).root

theorem Taken.durable {s : Store} {files : List Path} {taken : Snapshot × Store} {w' : World}
    (h : s.Taken runId key files w taken w') (hproject : Written s.project)
    (hfiles : ∀ p ∈ files, Written p.names) (htick : w.files.tick < Calendar.lastMoment) :
    taken.1.Durable (Calendar.stampText w.files.tick) where
  names := by
    rw [h.ofRun, h.ofKey]
    exact h.names
  nul := h.nul
  stamp := Calendar.checkStamp_stampText htick
  nodup := h.nodup
  written r hr := by
    obtain ⟨p, hp, hresolve⟩ := (h.records.paths r).mp hr
    exact written_of_resolve (Path.isAbsolute_join _ p)
      (Path.written_join hproject (hfiles p hp)) hresolve

section Reading

variable {project : Route} {directory : String} {s s' : Store} {texts : List String}
  {w₁ w₂ : World} {taken : Snapshot × Store}

/-- What is known of a snapshot of written paths that has been taken. -/
theorem taken_of_snapshot (hproject : Written project) (hs : s.IsOf project directory)
    (hw : w.files.Sound) (htick : w.files.tick < Calendar.lastMoment)
    (htaken : s.snapshot runId key (texts.map Path.ofString) w = (.ok taken, w₁)) :
    s.Taken runId key (texts.map Path.ofString) w taken w₁ ∧
      taken.1.Durable (Calendar.stampText w.files.tick) := by
  have hroot : s.root.isAbsolute = true := by
    rw [hs.root_eq]
    exact Path.isAbsolute_join _ _
  have htakes : s.Taken runId key (texts.map Path.ofString) w taken w₁ := by
    have hends : Ends (s.snapshot runId key (texts.map Path.ofString)) w _ _ :=
      ends_snapshot s hw hroot _
    unfold Ends at hends
    rwa [htaken] at hends
  refine ⟨htakes, htakes.durable (hs.project_eq ▸ hproject) ?_ htick⟩
  exact List.forall_mem_map.mpr fun text _ ↦ Path.written_ofString text

/-- A snapshot that lies in its directory is read back with its files where their paths lead now. -/
theorem load_of_kept {snapshot : Snapshot} {createdAt : String} {target : Route → Route}
    (hdurable : snapshot.Durable createdAt)
    (hlocation : snapshot.location = s.location snapshot.runId snapshot.key)
    (hkept : snapshot.Kept s.project createdAt w.files)
    (hresolve : ∀ r ∈ snapshot.paths, w.files.resolve (Route.path r) = .ok (target r)) :
    s.load snapshot.runId snapshot.key w = (.ok (snapshot.redirected target), w) := by
  refine run_of_ends ((ends_load hdurable hlocation hkept.manifest hresolve ?_).mono
    (fun _ _ h ↦ h) ?_)
  · rintro i ⟨r, recorded⟩ found hi hmatches
    refine hmatches.eq fun content read hrecorded hread _ ↦ ?_
    obtain rfl : recorded = some content := hrecorded
    rw [hkept.backups i r content hi] at hread
    exact (Except.ok.inj hread).symm
  · rintro e w' ⟨-, -, i, r, content, hi, hdamaged⟩
    exact hdamaged (hkept.backups i r content hi)

/-- Every store of the project with the same directory looks for the snapshot where it lies. -/
theorem Taken.kept {files : List Path} (h : s.Taken runId key files w taken w₁)
    (hs : s.IsOf project directory) (hs' : s'.IsOf project directory)
    (hlog : w.LogsOutside (s.location runId key)) :
    taken.1.location = s'.location taken.1.runId taken.1.key ∧
      taken.1.Kept s'.project (Calendar.stampText w.files.tick) w₁.files := by
  obtain ⟨home, hsecures⟩ := h.stored hlog
  refine ⟨?_, ?_⟩
  · rw [h.location, Store.location, Store.location, hs.root_eq, hs'.root_eq, h.ofRun, h.ofKey]
  · rw [hs'.project_eq, ← hs.project_eq]
    exact hsecures.stored.kept

/-- A snapshot whose directory is as it was left is read back with its files where their paths lead
now. -/
theorem load_untouched {target : Route → Route} (hproject : Written project)
    (hs : s.IsOf project directory) (hs' : s'.IsOf project directory) (hw : w.files.Sound)
    (htick : w.files.tick < Calendar.lastMoment) (hlog : w.LogsOutside (s.location runId key))
    (htaken : s.snapshot runId key (texts.map Path.ofString) w = (.ok taken, w₁))
    (hresolve : ∀ r ∈ taken.1.paths, w₂.files.resolve (Route.path r) = .ok (target r))
    (huntouched : taken.1.Untouched project w₁.files w₂.files) :
    s'.load runId key w₂ = (.ok (taken.1.redirected target), w₂) := by
  obtain ⟨hsnapshot, hdurable⟩ := taken_of_snapshot hproject hs hw htick htaken
  obtain ⟨hlocation, hkept⟩ := hsnapshot.kept hs hs' hlog
  rw [← hs'.project_eq] at huntouched
  rw [← hsnapshot.ofRun, ← hsnapshot.ofKey]
  exact load_of_kept hdurable hlocation (hkept.untouched huntouched) hresolve

/-- A snapshot that has been taken is read back by every store of the project with the same
directory, as long as its files still resolve to themselves and its directory is as it was left. If
some of its backup files are no longer as they were, it is still read as what it was, or reading
fails with a fault of the backup. -/
theorem load_snapshot (hproject : Written project) (hs : s.IsOf project directory)
    (hs' : s'.IsOf project directory) (hw : w.files.Sound)
    (htick : w.files.tick < Calendar.lastMoment) (hlog : w.LogsOutside (s.location runId key))
    (htaken : s.snapshot runId key (texts.map Path.ofString) w = (.ok taken, w₁))
    (hresolve : ∀ r ∈ taken.1.paths, w₂.files.resolve (Route.path r) = .ok r) :
    (taken.1.Untouched project w₁.files w₂.files → s'.load runId key w₂ = (.ok taken.1, w₂)) ∧
    (w₂.files.content (taken.1.location.child manifestName) =
        w₁.files.content (taken.1.location.child manifestName) →
      (∀ (i : Nat) r recorded read, taken.1.files[i]? = some (r, some recorded) →
        w₂.files.content (taken.1.backup project i r) = .ok read →
          Digest.ofBytes read = Digest.ofBytes recorded → read = recorded) →
      ∃ outcome, s'.load runId key w₂ = (outcome, w₂) ∧
        (outcome = .ok taken.1 ∨ ∃ cause, outcome = .error (.backup cause))) := by
  obtain ⟨hsnapshot, hdurable⟩ := taken_of_snapshot hproject hs hw htick htaken
  have hfixed : taken.1.redirected (fun r ↦ r) = taken.1 :=
    Snapshot.redirected_of_fixed hdurable.nodup fun _ _ ↦ rfl
  refine ⟨fun huntouched ↦ ?_, fun hmanifest hsame ↦ ?_⟩
  · have hload := load_untouched hproject hs hs' hw htick hlog htaken hresolve huntouched
    rwa [hfixed] at hload
  obtain ⟨hlocation, hkept⟩ := hsnapshot.kept hs hs' hlog
  rw [← hs'.project_eq] at hsame
  rw [← hsnapshot.ofRun, ← hsnapshot.ofKey]
  have hpass : ∀ (i : Nat) f found, taken.1.files[i]? = some f →
      Matches w₂.files (taken.1.backup s'.project i f.1) f.2 found → found = f.2 := by
    rintro i ⟨r, recorded⟩ found hi hmatches
    refine hmatches.eq fun content read hrecorded ↦ hsame i r content read ?_
    obtain rfl : recorded = some content := hrecorded
    exact hi
  have hends := ends_load hdurable hlocation (hmanifest.trans hkept.manifest) hresolve hpass
  unfold Ends at hends
  rcases hload : s'.load taken.1.runId taken.1.key w₂ with ⟨_ | _, w'⟩
  · rw [hload] at hends
    obtain ⟨rfl, ⟨cause, rfl⟩, -⟩ := hends
    exact ⟨_, rfl, .inr ⟨cause, rfl⟩⟩
  · rw [hload] at hends
    obtain ⟨rfl, rfl⟩ := hends
    exact ⟨_, rfl, .inl (congrArg Except.ok hfixed)⟩

end Reading

/-- A project with a file. -/
def sampleWorld : World where
  files := ⟨[(["p"], .directory 0), (["p", "a.ts"], .file (Text.encode "old") 0o644)], 0, ["p"]⟩

def sampleStore : Store := .ofProject ["p"] defaultBackupDirectory

/-- The names of the file and of one that is not there. -/
def sampleNames : List String := ["b.ts", "a.ts"]

/-- What is recorded of these files. -/
def sampleSnapshot : Snapshot :=
  ⟨"run-1", "run", [(["p", "a.ts"], some (Text.encode "old")), (["p", "b.ts"], none)],
    sampleStore.location "run-1" "run"⟩

/-- A world in which a file has got another content. -/
def rewritten (p : Path) (w : World) : World :=
  { w with files := (FileAct.write p (Text.encode "new") w.files).2 }

theorem touches_rewritten {p : Path} {r : Route} (hw : w.files.Sound) (hp : p.isAbsolute = true)
    (htraced : w.files.traced p = .done r) : w.Touches (· = r) (rewritten p w) := by
  refine ⟨rfl, rfl, fun _ ↦ ((FileAct.ends_write hw hp (Text.encode "new")).mono ?_ ?_).state⟩
  · rintro _ t ⟨r', htraced', hedits⟩
    obtain rfl : r = r' := Resolved.done.inj (htraced.symm.trans htraced')
    exact hedits.toBecomes.mono fun _ ↦ .inl
  · rintro e t rfl
    exact .refl hw

theorem written_sample : Written ["p"] := by
  rintro _ (_ | ⟨_, ⟨⟩⟩)
  exact ⟨by decide, by decide, by decide⟩

theorem isOf_sample : sampleStore.IsOf ["p"] defaultBackupDirectory :=
  ⟨rfl, rfl⟩

theorem sound_sample : sampleWorld.files.Sound :=
  sound_of_entries (by decide) (by decide)

theorem logsOutside_sample : sampleWorld.LogsOutside (sampleStore.location "run-1" "run") :=
  fun r hr ↦ by cases hr

/-- What the snapshot of the sample project leaves behind. -/
structure SampleTaken (w : World) : Prop where
  touches : sampleWorld.Touches (sampleWorld.files.Below (sampleStore.root.child "run-1")) w
  stored : sampleSnapshot.Stored ["p"] (Calendar.stampText 0) w.files
    ["p", defaultBackupDirectory, "run-1", "run"]
  file : w.files.traced (Route.path ["p", "a.ts"]) = .done ["p", "a.ts"]
  backup : w.files.traced (sampleSnapshot.backup ["p"] 0 ["p", "a.ts"]) =
    .done ["p", defaultBackupDirectory, "run-1", "run", "0000-a.ts"]
  resolve : ∀ p ∈ [Route.path ["p", "a.ts"], sampleSnapshot.backup ["p"] 0 ["p", "a.ts"]],
    ∀ r ∈ sampleSnapshot.paths, (rewritten p w).files.resolve (Route.path r) = .ok r
  damaged : (rewritten (sampleSnapshot.backup ["p"] 0 ["p", "a.ts"]) w).files.content
    (sampleSnapshot.backup ["p"] 0 ["p", "a.ts"]) = .ok (Text.encode "new")

theorem SampleTaken.sound {w : World} (h : SampleTaken w) : w.files.Sound :=
  h.stored.clean.sound

theorem SampleTaken.no_log {w : World} (h : SampleTaken w) (r : Route) : w.logFile ≠ some r := by
  rw [h.touches.log]
  exact fun hlog ↦ by cases hlog

theorem SampleTaken.untouched {w : World} (h : SampleTaken w) : sampleSnapshot.Untouched ["p"]
    w.files (rewritten (Route.path ["p", "a.ts"]) w).files := by
  have hlater := h.stored.touched (touches_rewritten h.sound rfl h.file)
    (fun r hr _ heq ↦ absurd (heq ▸ hr) (by decide)) fun r hr ↦ absurd hr (h.no_log r)
  exact h.stored.kept.untouched_of_kept hlater.kept

theorem taken_sample :
    ∃ store w,
      sampleStore.snapshot "run-1" "run" (sampleNames.map Path.ofString) sampleWorld =
        (.ok (sampleSnapshot, store), w) ∧ SampleTaken w := by
  obtain ⟨hoption, hhome, hfile, hbackup, hresolve, hdamaged⟩ :
      let after := sampleStore.snapshot "run-1" "run" (sampleNames.map Path.ofString) sampleWorld
      let home := ["p", defaultBackupDirectory, "run-1", "run"]
      let file := Route.path ["p", "a.ts"]
      let backup := sampleSnapshot.backup ["p"] 0 ["p", "a.ts"]
      after.1.toOption.map (·.1) = some sampleSnapshot ∧
      after.2.files.traced sampleSnapshot.location = .done home ∧
      after.2.files.traced file = .done ["p", "a.ts"] ∧
      after.2.files.traced backup = .done (home ++ ["0000-a.ts"]) ∧
      (∀ p ∈ [file, backup], ∀ r ∈ sampleSnapshot.paths,
        ((rewritten p after.2).files.resolve (Route.path r)).toOption = some r) ∧
      ((rewritten backup after.2).files.content backup).toOption = some (Text.encode "new") := by
    simp only [Store.snapshot, mergeSort_le]
    decide +kernel
  rcases htaken :
      sampleStore.snapshot "run-1" "run" (sampleNames.map Path.ofString) sampleWorld with
    ⟨e | ⟨snapshot, store⟩, w⟩
  · rw [htaken] at hoption
    cases hoption
  rw [htaken] at hoption hhome hfile hbackup hresolve hdamaged
  obtain rfl : snapshot = sampleSnapshot := Option.some.inj hoption
  obtain ⟨hsnapshot, -⟩ :=
    taken_of_snapshot written_sample isOf_sample sound_sample (by decide) htaken
  obtain ⟨home, ⟨hstored, -, -⟩⟩ := hsnapshot.stored logsOutside_sample
  obtain rfl : home = _ := Resolved.done.inj (hstored.clean.traced.symm.trans hhome)
  exact ⟨store, w, rfl, hsnapshot.touches.mono fun _ ↦ And.left, hstored, hfile, hbackup,
    fun p hp r hr ↦ eq_ok_of_toOption (hresolve p hp r hr), eq_ok_of_toOption hdamaged⟩

/-- The snapshot of the sample project is read back after the file has been rewritten, and is not
read as another one after its backup file has been. -/
theorem load_snapshot_sample :
    ∃ store w₁,
      sampleStore.snapshot "run-1" "run" (sampleNames.map Path.ofString) sampleWorld =
        (.ok (sampleSnapshot, store), w₁) ∧
      (let w₂ := rewritten (Route.path ["p", "a.ts"]) w₁
       sampleStore.load "run-1" "run" w₂ = (.ok sampleSnapshot, w₂)) ∧
      (let w₂ := rewritten (sampleSnapshot.backup ["p"] 0 ["p", "a.ts"]) w₁
       ∃ outcome, sampleStore.load "run-1" "run" w₂ = (outcome, w₂) ∧
        (outcome = .ok sampleSnapshot ∨ ∃ cause, outcome = .error (.backup cause))) := by
  obtain ⟨store, w₁, htaken, h⟩ := taken_sample
  refine ⟨store, w₁, htaken, ?_, ?_⟩
  · exact (load_snapshot written_sample isOf_sample isOf_sample sound_sample (by decide)
      logsOutside_sample htaken (h.resolve _ List.mem_cons_self)).1 h.untouched
  · have htouches := touches_rewritten h.sound rfl h.backup
    refine (load_snapshot written_sample isOf_sample isOf_sample sound_sample (by decide)
      logsOutside_sample htaken (h.resolve _ (List.mem_cons_of_mem _ List.mem_cons_self))).2 ?_ ?_
    · have hmanifest := h.stored.manifest.touched h.sound htouches (by decide) (h.no_log _)
      exact ((h.stored.clean.touched htouches).content_eq (by decide) hmanifest).trans
        h.stored.kept.manifest.symm
    · rintro (_ | _ | i) r recorded read ⟨⟩ hread hsame
      obtain rfl : read = Text.encode "new" := Except.ok.inj (hread.symm.trans h.damaged)
      exact absurd hsame (by decide +kernel)

end Store

end Remedy
