import Remedy.Proofs.Backup.Taking

/-!
# What a snapshot can be about

The files of a snapshot have been read from one tree, so they fit together (`Snapshot.Coherent`):
where one of them was there, no other one lies above or below it, and the names that come after a
directory above it are not too long. A part of a snapshot fits together as well.
-/

set_option autoImplicit false

namespace Remedy

open FileTree

namespace FileTree

variable {t : FileTree} {q : Route}

/-- What reading a file has told of a tree. -/
def Tells (t : FileTree) (e : Route × Option Text.Bytes) : Prop :=
  match e.2 with
  | some content => ∃ q mode, t.walk (Route.path e.1) = .ok (.at q (.file content mode))
  | none => t.walk (Route.path e.1) = .error .notFound ∨
      ∃ d name, t.walk (Route.path e.1) = .ok (.free d name)

variable {e : Route × Option Text.Bytes}

/-- Reading is given up where the path is broken off by anything but a missing name. -/
theorem Tells.ne_error (h : t.Tells e) (errno : Errno) (hne : errno ≠ .notFound) :
    t.walk (Route.path e.1) ≠ .error errno := by
  intro hwalk
  unfold Tells at h
  rw [hwalk] at h
  split at h
  · obtain ⟨q, mode, h⟩ := h
    cases h
  · rcases h with h | ⟨d, name, h⟩
    · exact hne (Except.error.inj h)
    · cases h

theorem Tells.ne_directory (h : t.Tells e) (changed : Int) :
    t.walk (Route.path e.1) ≠ .ok (.at q (.directory changed)) := by
  intro hwalk
  unfold Tells at h
  rw [hwalk] at h
  split at h
  · obtain ⟨q, mode, h⟩ := h
    cases h
  · rcases h with h | ⟨d, name, h⟩
    · cases h
    · cases h

theorem Tells.fits (h : t.Tells e) : (Route.path e.1).text.utf8ByteSize ≤ pathLimit := by
  by_contra hlong
  refine h.ne_error .nameTooLong nofun ?_
  rw [walk, if_pos (Nat.not_le.mp hlong)]

theorem Tells.walk_eq (h : t.Tells e) :
    t.walk (Route.path e.1) = t.walkWithin true linkLimit [] e.1 := by
  rw [walk, if_neg (Nat.not_lt.mpr h.fits)]
  rfl

/-- What was there is where the path led. -/
theorem Tells.walk_file (h : t.Tells e) (hthere : e.2 ≠ none) :
    ∃ q content mode, Walk t true linkLimit [] e.1 (.at q (.file content mode)) := by
  have hread := h
  unfold Tells at hread
  split at hread
  · obtain ⟨q, mode, hwalk⟩ := hread
    rw [h.walk_eq] at hwalk
    exact ⟨q, _, mode, walk_of_walkWithin hwalk⟩
  · exact absurd ‹e.2 = none› hthere

/-- Nothing is read at a directory. -/
theorem Tells.not_walk (h : t.Tells e) :
    ¬ Walk t true linkLimit [] e.1 (.at q (.directory 0)) := by
  intro hwalk
  obtain ⟨changed, hthere⟩ := walk_of_directory (p := Route.path e.1) rfl h.fits hwalk
  exact h.ne_directory changed hthere

end FileTree

/-- The files of a snapshot fit together. -/
structure Snapshot.Coherent (files : List (Route × Option Text.Bytes)) : Prop where
  nodup : (files.map (·.1)).Nodup
  ne_nil : ∀ e ∈ files, e.1 ≠ []
  no_dots : ∀ e ∈ files, ".." ∉ e.1
  apart : ∀ e ∈ files, e.2 ≠ none → ∀ e' ∈ files, e.1 <+: e'.1 ∨ e'.1 <+: e.1 → e'.1 = e.1
  short : ∀ e ∈ files, e.2 ≠ none → ∀ e' ∈ files, ∀ p m, p <+: e.1 → p ≠ e.1 → p ++ [m] <+: e'.1 →
    m.utf8ByteSize ≤ nameLimit

namespace Snapshot

variable {t : FileTree} {files files' : List (Route × Option Text.Bytes)}

theorem Coherent.part (h : Coherent files) (hnodup : (files'.map (·.1)).Nodup)
    (hsub : ∀ e ∈ files', e ∈ files) : Coherent files' where
  nodup := hnodup
  ne_nil e he := h.ne_nil e (hsub e he)
  no_dots e he := h.no_dots e (hsub e he)
  apart e he hthere e' he' := h.apart e (hsub e he) hthere e' (hsub e' he')
  short e he hthere e' he' := h.short e (hsub e he) hthere e' (hsub e' he')

/-- What has been read from one tree fits together. -/
theorem coherent_of_tells (ht : t.Sound) (hnodup : (files.map (·.1)).Nodup)
    (hdots : ∀ e ∈ files, ".." ∉ e.1) (htells : ∀ e ∈ files, t.Tells e) : Coherent files where
  nodup := hnodup
  no_dots := hdots
  ne_nil e he hnil := by
    refine (htells e he).not_walk (q := []) ?_
    rw [hnil]
    exact walk_here _ _ ht.root
  apart e he hthere e' he' hor := by
    obtain ⟨q, content, mode, hwalk⟩ := (htells e he).walk_file hthere
    have hread' := htells e' he'
    rcases hor with ⟨rest, hrest⟩ | ⟨rest, hrest⟩
    · by_contra hne
      have hnil : rest ≠ [] := by
        rintro rfl
        exact hne (by rw [← hrest, List.append_nil])
      obtain ⟨k, hends⟩ := hwalk.walkWithin_append ht ht.root hnil true
      refine hread'.ne_error .notDirectory nofun ?_
      rw [hread'.walk_eq, ← hrest]
      exact hends
    · by_contra hne
      have hnil : rest ≠ [] := by
        rintro rfl
        exact hne (by rw [← hrest, List.append_nil])
      rw [← hrest] at hwalk
      obtain ⟨mid, -, hto, -⟩ := hwalk.split ht ht.root hnil
      exact hread'.not_walk hto
  short e he hthere e' he' p m hp hne hpm := by
    obtain ⟨q, content, mode, hwalk⟩ := (htells e he).walk_file hthere
    obtain ⟨rest, hrest⟩ := hp
    have hnil : rest ≠ [] := by
      rintro rfl
      exact hne (by rw [← hrest, List.append_nil])
    rw [← hrest] at hwalk
    obtain ⟨mid, -, hto, -⟩ := hwalk.split ht ht.root hnil
    obtain ⟨rest', hrest'⟩ := hpm
    by_contra hlong
    have hdots : m ≠ ".." := by
      rintro rfl
      exact hlong (by decide)
    have hread' := htells e' he'
    obtain ⟨k, hgoes⟩ := hto.walkWithin_append ht ht.root (List.cons_ne_nil m rest') true
    refine hread'.ne_error .nameTooLong nofun ?_
    rw [hread'.walk_eq, ← hrest', List.append_assoc]
    refine hgoes.trans ?_
    rw [walkWithin_eq, walkFrom, if_neg hdots, if_pos (Nat.not_le.mp hlong)]
    rfl

/-- A part of a snapshot fits together as the whole does. -/
theorem Coherent.restrict {s part : Snapshot} {routes : List Route} {key : String}
    (h : Coherent s.files) (hpart : s.restrict routes key = .ok part) : Coherent part.files :=
  h.part (nodup_restrict hpart) (restrict_eq hpart).2.2.2

end Snapshot

namespace Store

variable {w : World} {runId key : String}

/-- What is read at a path, if it can be read or is missing. -/
theorem tells_of_content {t : FileTree} {r : Route}
    (hread : ∀ e, t.content (Route.path r) = .error e → e.errno = .notFound) :
    t.Tells (r, (t.content (Route.path r)).toOption) := by
  have hends : Ends (FileAct.read (Route.path r)) t (fun content _ ↦ t.Tells (r, some content))
      fun e _ ↦ e.errno = .notFound → t.Tells (r, none) := by
    unfold FileAct.read
    refine ends_bind.mpr (FileAct.ends_place.mpr ?_)
    split
    · rename_i found hwalk
      cases found with
      | «at» q node =>
        cases node with
        | file content mode => exact ends_pure.mpr ⟨q, mode, hwalk⟩
        | _ => exact ends_throw.mpr nofun
      | free d name => exact ends_throw.mpr fun _ ↦ .inr ⟨d, name, hwalk⟩
    · rename_i e hwalk
      exact fun hmissing ↦ .inl (hwalk.trans (congrArg Except.error hmissing))
  rw [Ends, FileAct.read_eq] at hends
  cases hcontent : t.content (Route.path r) with
  | ok content =>
    rw [hcontent] at hends
    exact hends
  | error e =>
    rw [hcontent] at hends
    exact hends (hread e hcontent)

/-- The files of a snapshot that is taken fit together. -/
theorem ends_snapshot_coherent (s : Store) (hw : w.files.Sound) (files : List Path) :
    Ends (s.snapshot runId key files) w (fun taken _ ↦ Snapshot.Coherent taken.1.files)
      fun _ _ ↦ True := by
  refine (s.ends_snapshot_pictured runId key files w).mono ?_ fun _ _ _ ↦ trivial
  rintro _ w' ⟨hgrants, rfl⟩
  have hfiles : ∀ e ∈ (s.picture runId key files w.files).files, e.1 ∈ s.routes files w.files :=
    fun e he ↦ paths_picture s runId key files w.files ▸ List.mem_map_of_mem he
  refine Snapshot.coherent_of_tells hw ?_ (fun e he ↦ ?_) fun e he ↦ ?_
  · rw [← Snapshot.paths, paths_picture]
    exact nodup_routes _ _ _
  · obtain ⟨p, -, hp⟩ := mem_routes.mp (hfiles e he)
    exact no_dots_of_resolve hw (Path.isAbsolute_join _ p) hp
  · obtain ⟨r, hr, rfl⟩ := List.mem_map.mp he
    exact tells_of_content (hgrants.files.readable hr)

end Store

end Remedy
