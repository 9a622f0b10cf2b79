import Remedy.Backup.Manifest
import Remedy.Proofs.Calendar
import Remedy.Proofs.Tree.Replacement
import Remedy.Proofs.Tree.Written

/-!
# What a snapshot calls its files

A manifest names a file as it is seen from the project, or from the root directory if it lies
outside, and the name leads back to the file (`join_shownFrom`).

A backup file has a name that begins with its place in the snapshot (`toList_backupName`). So no two
backup files of a snapshot have the same name, whatever their paths are made into
(`backupName_index`), and none is called like the manifest or like a draft.
-/

set_option autoImplicit false

namespace Remedy

/-! ### Paths in a manifest -/

theorem Route.append_of_below? {base r names : Route} (h : Route.below? base r = some names) :
    base ++ names = r := by
  unfold below? at h
  split at h
  · rename_i hfront
    obtain ⟨rest, rfl⟩ := List.isPrefixOf_iff_prefix.mp hfront
    cases h
    rw [List.drop_left]
  · cases h

/-- The path that a manifest shows leads to the file again. -/
theorem join_shownFrom (project : Route) {r : Route} (h : Written r) :
    (Route.path project).join (Path.ofString (Route.shownFrom project r)) = Route.path r := by
  unfold Route.shownFrom
  split
  · rename_i names hbelow
    obtain rfl := Route.append_of_below? hbelow
    rw [Path.ofString_relative (h.sublist (List.subset_append_right project names))]
    rfl
  · rw [Path.ofString_absolute h]
    rfl

/-! ### Paths without zero characters -/

theorem Path.hasNul_eq_false {p : Path} :
    p.hasNul = false ↔ ∀ name ∈ p.names, '\x00' ∉ name.toList := by
  simp [hasNul]

theorem mem_intercalate {names : List String} {c : Char}
    (h : c ∈ (String.intercalate "/" names).toList) :
    c = '/' ∨ ∃ name ∈ names, c ∈ name.toList := by
  induction names with
  | nil => simp at h
  | cons name rest ih =>
    cases rest with
    | nil => exact .inr ⟨name, List.mem_cons_self, by simpa using h⟩
    | cons next rest =>
      rw [String.intercalate_cons_cons] at h
      simp only [String.toList_append, List.mem_append] at h
      rcases h with (h | h) | h
      · exact .inr ⟨name, List.mem_cons_self, h⟩
      · exact .inl (by simpa using h)
      · exact (ih h).imp_right fun ⟨other, hother, hc⟩ ↦ ⟨other, List.mem_cons_of_mem _ hother, hc⟩

theorem Path.mem_text {p : Path} {c : Char} (h : c ∈ p.text.toList) :
    c = '.' ∨ c = '/' ∨ ∃ name ∈ p.names, c ∈ name.toList := by
  unfold text at h
  split at h
  · exact .inl (by simpa using h)
  · rw [String.toList_append, List.mem_append] at h
    rcases h with h | h
    · refine .inr (.inl ?_)
      cases hroot : p.root with
      | none => simp [hroot, PathRoot.text] at h
      | slash => simpa [hroot, PathRoot.text] using h
      | twoSlashes => simpa [hroot, PathRoot.text] using h
    · exact .inr (mem_intercalate h)

/-- No zero character is shown of a path that has none. -/
theorem nul_not_mem_shownFrom (project : Route) {r : Route} (h : (Route.path r).hasNul = false) :
    '\x00' ∉ (Route.shownFrom project r).toList := by
  have hnames := Path.hasNul_eq_false.mp h
  have htext : ∀ p : Path, p.names ⊆ r → '\x00' ∉ p.text.toList := by
    intro p hsub hmem
    rcases Path.mem_text hmem with hdot | hslash | ⟨name, hname, hnul⟩
    · cases hdot
    · cases hslash
    · exact hnames name (hsub hname) hnul
  unfold Route.shownFrom
  split
  · rename_i names hbelow
    obtain rfl := Route.append_of_below? hbelow
    exact htext _ (List.subset_append_right project names)
  · exact htext _ (List.Subset.refl r)

/-! ### Backup files -/

section BackupNames

variable (index : Nat) (shown : String)

theorem toList_backupName : ∃ flat, '/' ∉ flat ∧
    (backupName index shown).toList = (Calendar.padded 4 index).toList ++ '-' :: flat := by
  refine ⟨(shown.toList.flatMap fun c ↦
    if c = '/' ∨ c = '\\' then ['_', '_'] else [c]).dropWhile (· = '_'), fun hmem ↦ ?_, ?_⟩
  · obtain ⟨c, -, hc⟩ := List.mem_flatMap.mp ((List.dropWhile_sublist _).subset hmem)
    split at hc
    · simp at hc
    · rename_i hslash
      exact hslash (.inl (List.mem_singleton.mp hc).symm)
  · simp [backupName]

/-- The name of a backup file begins with a digit. -/
theorem backupName_eq_cons :
    ∃ c cs, (backupName index shown).toList = c :: cs ∧ Calendar.isDigit c = true := by
  obtain ⟨flat, -, hname⟩ := toList_backupName index shown
  obtain ⟨c, cs, hcs, hdigit⟩ := Calendar.padded_eq_cons 4 index
  exact ⟨c, cs ++ '-' :: flat, by rw [hname, hcs, List.cons_append], hdigit⟩

variable {index shown}

theorem backupName_ne {name : String} (h : ∀ c cs, name.toList = c :: cs →
    Calendar.isDigit c = false) : backupName index shown ≠ name := by
  rintro rfl
  obtain ⟨c, cs, hcs, hdigit⟩ := backupName_eq_cons index shown
  rw [h c cs hcs] at hdigit
  cases hdigit

theorem backupName_ne_dots : backupName index shown ≠ ".." :=
  backupName_ne fun c cs h ↦ by cases h; rfl

theorem backupName_ne_manifestName : backupName index shown ≠ manifestName :=
  backupName_ne fun c cs h ↦ by cases h; rfl

theorem FileAct.draftName_eq_cons (name tag : String) :
    ∃ cs, (draftName name tag).toList = '.' :: cs := by
  simp [draftName, toString]

theorem backupName_ne_draftName (name tag : String) :
    backupName index shown ≠ FileAct.draftName name tag := by
  refine backupName_ne fun c cs h ↦ ?_
  obtain ⟨cs', hcs⟩ := FileAct.draftName_eq_cons name tag
  rw [hcs] at h
  cases h
  rfl

theorem isPathName_backupName : IsPathName (backupName index shown) where
  ne_empty := backupName_ne (by simp)
  ne_dot := backupName_ne fun c cs h ↦ by cases h; rfl
  no_slash := by
    obtain ⟨flat, hflat, hname⟩ := toList_backupName index shown
    rw [hname, List.mem_append, List.mem_cons]
    rintro (hdigit | hdash | hmem)
    · exact absurd (Calendar.isDigit_padded _ hdigit) (by decide)
    · exact absurd hdash (by decide)
    · exact hflat hmem

theorem nul_not_mem_backupName (h : '\x00' ∉ shown.toList) :
    '\x00' ∉ (backupName index shown).toList := by
  simp only [backupName, String.toList_append, String.toList_ofList, List.mem_append, not_or]
  refine ⟨⟨fun hdigit ↦ ?_, by decide⟩, fun hmem ↦ ?_⟩
  · exact absurd (Calendar.isDigit_padded _ hdigit) (by decide)
  · obtain ⟨c, hc, hflat⟩ := List.mem_flatMap.mp ((List.dropWhile_sublist _).subset hmem)
    split at hflat
    · simp at hflat
    · rw [List.mem_singleton.mp hflat] at h
      exact h hc

/-- The name of a backup file is read as that one name. -/
theorem ofString_backupName :
    Path.ofString (backupName index shown) = ⟨.none, [backupName index shown]⟩ :=
  Path.ofString_of_isPathName isPathName_backupName

/-- Backup files at different places of a snapshot have different names. -/
theorem backupName_index {index' : Nat} {shown' : String}
    (h : backupName index shown = backupName index' shown') : index = index' := by
  have hdigits : ∀ i s, (backupName i s).toList.takeWhile Calendar.isDigit =
      (Calendar.padded 4 i).toList := by
    intro i s
    obtain ⟨flat, -, hname⟩ := toList_backupName i s
    rw [hname, List.takeWhile_append_of_pos Calendar.isDigit_padded]
    exact List.append_nil _
  rw [← Calendar.natOf_padded 4 index, ← hdigits index shown, h, hdigits, Calendar.natOf_padded]

end BackupNames

end Remedy
