import Remedy.Proofs.Locking

/-!
# Files at paths from the working directory

Paths that do not start from the root start from the working directory, which is taken to be there
(`FileTree.Settled`). Making the directory of a file at any such path, and opening the file at its
end, loses nothing of what was in a file before (`FileTree.Adds`), whether or not it succeeds
(`FileAct.ends_makePath_adds`, `FileAct.ends_openEnd_adds`).
-/

set_option autoImplicit false

namespace Remedy

namespace FileTree

variable {t t' t'' : FileTree} {p : Path} {d : Route} {name : String}

/-- The tree is sound, and the working directory is there. -/
structure Settled (t : FileTree) : Prop where
  sound : t.Sound
  directory : t.HasDirectory t.directory

theorem Settled.start (h : t.Settled) (p : Path) : t.HasDirectory (t.start p) := by
  unfold FileTree.start
  split
  · exact h.sound.root
  · exact h.directory

/-- A name to which a path leads without anything being there is free in a directory. -/
theorem Settled.free (ht : t.Settled) {whole : Bool}
    (h : t.walkWithin whole linkLimit (t.start p) p.names = .ok (.free d name)) :
    t.HasDirectory d ∧ t.look (d ++ [name]) = none := by
  obtain ⟨hd, hfree, -⟩ := (walk_of_walkWithin h).shows ht.sound (ht.start p)
  exact ⟨hd, hfree⟩

/-- There may be new directories and files; what was in a file is still in it. -/
structure Adds (t t' : FileTree) : Prop where
  settled : t'.Settled
  bytes : ∀ r content, t.bytes? r = some content → t'.bytes? r = some content

theorem Adds.refl (ht : t.Settled) : Adds t t :=
  ⟨ht, fun _ _ h ↦ h⟩

theorem Adds.trans (h : Adds t t') (h' : Adds t' t'') : Adds t t'' :=
  ⟨h'.settled, fun r content hr ↦ h'.bytes r content (h.bytes r content hr)⟩

theorem directory_add (t : FileTree) (d : Route) (name : String) (node : Node) :
    (t.add d name node).directory = t.directory := by
  unfold add touch
  split <;> rfl

/-- Where a name is free, something may come to be. -/
theorem Settled.adds (ht : t.Settled) (hd : t.HasDirectory d) (hfree : t.look (d ++ [name]) = none)
    (node : Node) : Adds t (t.add d name node) where
  settled := by
    refine ⟨ht.sound.add hd fun h ↦ ?_, ?_⟩
    · rw [HasDirectory, hfree] at h
      cases h
    · rw [directory_add, HasDirectory, look_add, if_neg ?_]
      · exact ht.directory
      · rintro heq
        have hthere := ht.directory
        rw [HasDirectory, heq, hfree] at hthere
        cases hthere
  bytes r content hr := by
    have hne : r ≠ d ++ [name] := by
      rintro rfl
      rw [bytes?, hfree] at hr
      cases hr
    rw [bytes?, look_add, if_neg hne]
    exact hr

end FileTree

open FileTree

namespace FileAct

variable {t : FileTree} {p : Path}

theorem ends_makeDirectory_adds (ht : t.Settled) :
    Ends (makeDirectory p) t (fun _ t' ↦ Adds t t') fun _ t' ↦ t' = t := by
  unfold makeDirectory
  refine ends_bind.mpr (ends_linkPlace.mpr ?_)
  split
  · rename_i found hwalk
    cases found with
    | «at» r node => exact ends_throw.mpr rfl
    | free d name =>
      unfold walkToLink at hwalk
      split at hwalk
      · cases hwalk
      · obtain ⟨hd, hfree⟩ := ht.free hwalk
        exact ends_modify.mpr (ht.adds hd hfree _)
  · rfl

theorem ends_ensureDirectory_adds (mayExist : Bool) (ht : t.Settled) :
    Ends (ensureDirectory p mayExist) t (fun _ t' ↦ Adds t t') fun _ t' ↦ t' = t := by
  unfold ensureDirectory
  refine ends_tryCatch.mpr ((ends_makeDirectory_adds ht).mono (fun _ _ h ↦ h) ?_)
  rintro e _ rfl
  split
  · exact ends_throw.mpr rfl
  · refine ((ends_holds p Node.isDirectory _).mono (fun _ _ h ↦ h.1) fun _ _ h ↦ h.1).bind ?_
    rintro answer _ rfl
    split
    · exact ends_pure.mpr (.refl ht)
    · exact ends_throw.mpr rfl

theorem ends_makeDirectories_adds (mayExist : Bool) (depth : Nat) (ht : t.Settled) :
    Ends (makeDirectories mayExist depth p) t (fun _ t' ↦ Adds t t') fun _ t' ↦ Adds t t' := by
  induction depth generalizing mayExist p t with
  | zero =>
    refine (ends_ensureDirectory_adds mayExist ht).mono (fun _ _ h ↦ h) ?_
    rintro e _ rfl
    exact .refl ht
  | succ depth ih =>
    refine ends_tryCatch.mpr ((ends_ensureDirectory_adds mayExist ht).mono (fun _ _ h ↦ h) ?_)
    rintro e _ rfl
    split
    · refine (ih true ht).bind fun _ t' habove ↦ ?_
      refine (ends_ensureDirectory_adds mayExist habove.settled).mono
        (fun _ _ h ↦ habove.trans h) ?_
      rintro e _ rfl
      exact habove
    · exact ends_throw.mpr (.refl ht)

theorem ends_makePath_adds (mayExist : Bool) (ht : t.Settled) :
    Ends (makePath p mayExist) t (fun _ t' ↦ Adds t t') fun _ t' ↦ Adds t t' :=
  ends_makeDirectories_adds mayExist p.names.length ht

theorem ends_openEnd_adds (ht : t.Settled) :
    Ends (openEnd p) t (fun _ t' ↦ Adds t t') fun _ t' ↦ t' = t := by
  unfold openEnd
  refine ends_bind.mpr (ends_place.mpr ?_)
  split
  · rename_i found hwalk
    cases found with
    | «at» r node =>
      cases node with
      | file content mode => exact ends_pure.mpr (.refl ht)
      | _ => exact ends_throw.mpr rfl
    | free d name =>
      unfold walk at hwalk
      split at hwalk
      · cases hwalk
      · obtain ⟨hd, hfree⟩ := ht.free hwalk
        exact ends_bind.mpr (ends_modify.mpr (ends_pure.mpr (ht.adds hd hfree _)))
  · rfl

end FileAct

end Remedy
