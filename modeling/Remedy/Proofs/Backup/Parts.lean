import Mathlib.Data.List.Nodup
import Remedy.Backup.Store

/-!
# Snapshots and the store as maps

A snapshot maps routes to contents. A part of a snapshot is about the files that it was asked for,
and records of each what the whole records (`Snapshot.restrict_eq`). What a store holds it goes on
holding (`Store.get_hold`).
-/

set_option autoImplicit false

namespace Remedy

namespace Snapshot

variable {r q : Route} {content : Option Text.Bytes} {files done : List (Route × Option Text.Bytes)}

theorem find?_of_mem (h : r ∈ files.map (·.1)) :
    ∃ content, find? r files = some content ∧ (r, content) ∈ files := by
  induction files with
  | nil => cases h
  | cons entry rest ih =>
    obtain ⟨q, content⟩ := entry
    unfold find?
    by_cases hq : q = r
    · subst hq
      exact ⟨content, if_pos rfl, List.mem_cons_self⟩
    · rw [if_neg hq]
      rcases List.mem_cons.mp h with hr | hr
      · exact absurd hr.symm hq
      · obtain ⟨content', hfind, hmem⟩ := ih hr
        exact ⟨content', hfind, List.mem_cons_of_mem _ hmem⟩

theorem mem_of_find? (h : find? r files = some content) : (r, content) ∈ files := by
  induction files with
  | nil => cases h
  | cons entry rest ih =>
    obtain ⟨q, c⟩ := entry
    unfold find? at h
    split at h
    · rename_i hq
      cases h
      rw [hq]
      exact List.mem_cons_self
    · exact List.mem_cons_of_mem _ (ih h)

theorem find?_eq_of_mem {e : Route × Option Text.Bytes} (hnodup : (files.map (·.1)).Nodup)
    (he : e ∈ files) : find? e.1 files = some e.2 := by
  obtain ⟨content, hfind, hmem⟩ := find?_of_mem (List.mem_map_of_mem he)
  rw [hfind, List.inj_on_of_nodup_map hnodup he hmem rfl]

theorem mem_of_mem_put {e : Route × Option Text.Bytes} (h : e ∈ put r content files) :
    e = (r, content) ∨ e ∈ files := by
  induction files with
  | nil => exact .inl (List.mem_singleton.mp h)
  | cons entry rest ih =>
    obtain ⟨q, c⟩ := entry
    unfold put at h
    split at h
    · rename_i hq
      rcases List.mem_cons.mp h with rfl | h
      · exact .inl (by rw [hq])
      · exact .inr (List.mem_cons_of_mem _ h)
    · rcases List.mem_cons.mp h with rfl | h
      · exact .inr List.mem_cons_self
      · exact (ih h).imp_right (List.mem_cons_of_mem _)

theorem mem_paths_put :
    q ∈ (put r content files).map (·.1) ↔ q = r ∨ q ∈ files.map (·.1) := by
  induction files with
  | nil => simp [put]
  | cons entry rest ih =>
    obtain ⟨q', c⟩ := entry
    unfold put
    split
    · rename_i hq
      simp [hq]
    · simp only [List.map_cons, List.mem_cons, ih]
      tauto

/-- Picking files adds them, with what is recorded of them. -/
theorem foldlM_pick {s : Snapshot} {routes : List Route}
    (h : routes.foldlM s.pick done = .ok files) :
    (∀ q, q ∈ files.map (·.1) ↔ q ∈ done.map (·.1) ∨ q ∈ routes) ∧
      ∀ e ∈ files, e ∈ done ∨ e ∈ s.files := by
  induction routes generalizing done with
  | nil =>
    cases h
    exact ⟨by simp, fun _ ↦ .inl⟩
  | cons r rest ih =>
    rw [List.foldlM_cons] at h
    unfold pick at h
    cases hfind : find? r s.files with
    | none =>
      rw [hfind] at h
      cases h
    | some content =>
      rw [hfind] at h
      obtain ⟨hpaths, hentries⟩ := ih h
      refine ⟨fun q ↦ ?_, fun e he ↦ ?_⟩
      · rw [hpaths, mem_paths_put, List.mem_cons]
        tauto
      · rcases hentries e he with he | he
        · rcases mem_of_mem_put he with rfl | he
          · exact .inr (mem_of_find? hfind)
          · exact .inl he
        · exact .inr he

/-- What is put into a snapshot replaces what was recorded of the same file. -/
theorem nodup_put (h : (files.map (·.1)).Nodup) :
    ((put r content files).map (·.1)).Nodup := by
  induction files with
  | nil => simp [put]
  | cons entry rest ih =>
    obtain ⟨q, old⟩ := entry
    obtain ⟨hq, hrest⟩ := List.nodup_cons.mp h
    unfold put
    split
    · rename_i heq
      exact List.nodup_cons.mpr ⟨heq ▸ hq, hrest⟩
    · rename_i hne
      refine List.nodup_cons.mpr ⟨fun hmem ↦ ?_, ih hrest⟩
      exact (mem_paths_put.mp hmem).elim hne hq

theorem nodup_foldlM_pick {s : Snapshot} {routes : List Route} (hdone : (done.map (·.1)).Nodup)
    (h : routes.foldlM s.pick done = .ok files) : (files.map (·.1)).Nodup := by
  induction routes generalizing done with
  | nil =>
    cases h
    exact hdone
  | cons r rest ih =>
    rw [List.foldlM_cons] at h
    unfold pick at h
    cases hfind : find? r s.files with
    | none =>
      rw [hfind] at h
      cases h
    | some content =>
      rw [hfind] at h
      exact ih (nodup_put hdone) h

/-- A part of a snapshot is about the files that it was asked for, as the whole is. -/
theorem restrict_eq {s part : Snapshot} {routes : List Route} {key : String}
    (h : s.restrict routes key = .ok part) :
    part.runId = s.runId ∧ part.key = key ∧ (∀ r, r ∈ part.paths ↔ r ∈ routes) ∧
      ∀ e ∈ part.files, e ∈ s.files := by
  unfold restrict at h
  rcases hfiles : routes.foldlM s.pick [] with e | files
  · rw [hfiles] at h
    cases h
  · rw [hfiles] at h
    cases h
    obtain ⟨hpaths, hentries⟩ := foldlM_pick hfiles
    refine ⟨rfl, rfl, fun r ↦ (hpaths r).trans (by simp), fun e he ↦ ?_⟩
    exact (hentries e he).resolve_left List.not_mem_nil

/-- A part of a snapshot has each file once. -/
theorem nodup_restrict {s part : Snapshot} {routes : List Route} {key : String}
    (h : s.restrict routes key = .ok part) : (part.files.map (·.1)).Nodup := by
  unfold restrict at h
  rcases hfiles : routes.foldlM s.pick [] with e | files
  · rw [hfiles] at h
    cases h
  · rw [hfiles] at h
    cases h
    exact nodup_foldlM_pick (by simp) hfiles

end Snapshot

namespace Store

variable {runId key : String}

theorem find?_append (held last : List ((String × String) × Snapshot)) :
    find? runId key (held ++ last) = (find? runId key held).or (find? runId key last) := by
  induction held with
  | nil => rfl
  | cons entry rest ih =>
    obtain ⟨⟨r, k⟩, held⟩ := entry
    rw [List.cons_append, find?, find?]
    split
    · rfl
    · exact ih

theorem find?_eq_none {held : List ((String × String) × Snapshot)} :
    find? runId key held = none ↔ (runId, key) ∉ held.map (·.1) := by
  induction held with
  | nil => simp [find?]
  | cons entry rest ih =>
    obtain ⟨⟨r, k⟩, snapshot⟩ := entry
    rw [find?, List.map_cons, List.mem_cons, not_or, ← ih]
    split
    · rename_i h
      simp [h.1, h.2]
    · rename_i h
      have hne : (runId, key) ≠ (r, k) := by
        rintro ⟨⟩
        exact h ⟨rfl, rfl⟩
      simp [hne]

/-- What is forgotten is what is held of the run, and nothing else. -/
theorem get_discard (s : Store) (runId runId' key : String) :
    (s.discard runId).get runId' key = if runId' = runId then none else s.get runId' key := by
  unfold get discard
  dsimp only
  induction s.held with
  | nil => simp [find?]
  | cons entry rest ih =>
    obtain ⟨⟨r, k⟩, snapshot⟩ := entry
    rw [List.filter_cons, find?]
    by_cases hr : r = runId
    · rw [if_neg (by simpa using hr), ih]
      split
      · rfl
      · rename_i hne
        rw [if_neg fun h ↦ hne (h.1.symm.trans hr)]
    · rw [if_pos (by simpa using hr), find?, ih]
      split
      · rename_i h
        rw [if_neg fun h' ↦ hr (h.1.trans h')]
      · rfl

/-- A store goes on holding what it holds. -/
theorem get_hold (s : Store) (snapshot : Snapshot) : (s.hold snapshot).get runId key =
    (s.get runId key).or
      (if snapshot.runId = runId ∧ snapshot.key = key then some snapshot else none) :=
  find?_append _ _

theorem get_hold_of_some {s : Store} {snapshot : Snapshot} (h : s.get runId key ≠ none) :
    (s.hold snapshot).get runId key ≠ none := by
  rw [get_hold]
  cases hget : s.get runId key with
  | none => exact absurd hget h
  | some held => exact Option.some_ne_none held

theorem get_hold_self (s : Store) (snapshot : Snapshot) :
    (s.hold snapshot).get snapshot.runId snapshot.key ≠ none := by
  rw [get_hold, if_pos ⟨rfl, rfl⟩]
  cases s.get snapshot.runId snapshot.key <;> exact Option.some_ne_none _

theorem get_hold_of_ne {s : Store} {snapshot : Snapshot} (h : snapshot.key ≠ key) :
    (s.hold snapshot).get runId key = s.get runId key := by
  rw [get_hold, if_neg fun heq ↦ h heq.2, Option.or_none]

end Store

end Remedy
