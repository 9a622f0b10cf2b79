import Remedy.Proofs.Backup.Taking
import Remedy.Proofs.Touching

/-!
# What is not of the site

A relation between worlds that does not speak of the site, nor of the names that are drawn, is kept
by whatever is done to files (`Act.IsOffsite`). So recording and putting back files keeps it. That
all measurements but those of runs may change, and nothing else is said, is such a relation
(`World.Unbilled`), which running checks keeps too.
-/

set_option autoImplicit false

namespace Remedy

namespace Act

variable {α : Type}

/-- A relation that does not speak of the site and of the names that are drawn. -/
structure IsOffsite (R : World → World → Prop) : Prop extends IsPassing R where
  site : ∀ (w : World) (site : Site), R w { w with toSite := site }
  draws : ∀ (w : World) (draws : Nat), R w { w with draws := draws }

namespace IsOffsite

variable {R : World → World → Prop} (hR : IsOffsite R)

include hR

theorem keeps_tryFiles (act : FileAct α) : Keeps R (tryFiles act) :=
  fun w ↦ ends_tryFiles.mpr
    (ends_of_forall (fun _ t ↦ hR.site w { w.toSite with files := t })
      fun _ t ↦ hR.site w { w.toSite with files := t })

theorem keeps_onFiles (act : FileAct α) : Keeps R (onFiles act) := by
  unfold onFiles
  refine hR.keeps_bind (hR.keeps_tryFiles act) fun outcome ↦ ?_
  split
  · exact hR.keeps_pure _
  · exact hR.keeps_throw _

theorem keeps_replaceContent (p : Path) (content : Text.Bytes) :
    Keeps R (replaceContent p content) := by
  have hdraw : Keeps R drawName := by
    intro w
    unfold drawName
    exact ends_bind.mpr (ends_get.mpr (ends_bind.mpr (ends_set.mpr
      (ends_pure.mpr (hR.draws w _)))))
  unfold replaceContent
  exact hR.keeps_bind hdraw fun _ ↦ hR.keeps_tryFiles _

end IsOffsite

end Act

/-! ### Snapshots -/

namespace Store

open Act

variable {R : World → World → Prop}

variable (hR : IsOffsite R)

include hR

theorem keeps_writeContents (location : Path)
    (entries : List (ManifestEntry × Option Text.Bytes)) :
    Keeps R (writeContents location entries) := by
  induction entries with
  | nil => exact hR.keeps_pure _
  | cons entry rest ih =>
    unfold writeContents
    split
    · refine hR.keeps_bind (hR.keeps_replaceContent _ _) fun outcome ↦ ?_
      split
      · exact ih
      · exact hR.keeps_pure _
    · exact ih

theorem keeps_writeAll (s : Store) (snapshot : Snapshot) : Keeps R (s.writeAll snapshot) := by
  unfold writeAll
  refine hR.keeps_bind hR.keeps_get fun w ↦ ?_
  refine hR.keeps_bind (hR.keeps_tryFiles _) fun outcome ↦ ?_
  split
  · exact hR.keeps_pure _
  · refine hR.keeps_bind (keeps_writeContents hR _ _) fun outcome ↦ ?_
    split
    · exact hR.keeps_pure _
    · exact hR.keeps_replaceContent _ _

theorem keeps_settle (s : Store) (snapshot : Snapshot) (outcome : Except FileError Unit) :
    Keeps R (s.settle snapshot outcome) := by
  cases outcome with
  | error e =>
    refine hR.keeps_bind (hR.keeps_log _ _ _) fun _ ↦ ?_
    exact hR.keeps_bind (hR.keeps_tryFiles _) fun _ ↦ hR.keeps_throw _
  | ok _ => exact hR.keeps_bind (hR.keeps_log _ _ _) fun _ ↦ hR.keeps_pure _

theorem keeps_snapshot (s : Store) (runId key : String) (files : List Path) :
    Keeps R (s.snapshot runId key files) := by
  refine fun w ↦ ends_snapshot_of (fun _ _ ↦ hR.refl w) ?_ fun _ ↦ ?_
  · exact fun _ _ _ _ _ _ ↦ hR.ends_log fun _ h ↦ h
  · exact hR.keeps_bind (keeps_writeAll hR s _) (keeps_settle hR s _) w

theorem keeps_record (s : Store) (snapshot : Snapshot) : Keeps R (s.record snapshot) := by
  unfold record
  exact hR.keeps_guard (hR.keeps_bind (hR.keeps_log _ _ _) fun _ ↦ hR.keeps_pure _)

theorem keeps_restoreFiles (files : List (Route × Option Text.Bytes)) :
    Keeps R (restoreFiles files) := by
  have hrestore : ∀ route content, Keeps R (restoreFile route content) := by
    intro route content
    unfold restoreFile
    split
    · exact hR.keeps_tryFiles _
    · exact hR.keeps_replaceContent _ _
  induction files with
  | nil => exact hR.keeps_pure _
  | cons file rest ih =>
    unfold restoreFiles
    refine hR.keeps_bind (hrestore _ _) fun outcome ↦ ?_
    split
    · exact ih
    · exact hR.keeps_bind (hR.keeps_log _ _ _) fun _ ↦ hR.keeps_bind ih fun _ ↦ hR.keeps_pure _

theorem keeps_findAltered (failed : List Route) (digests : List (Route × Option String)) :
    Keeps R (findAltered failed digests) := by
  have hdigest : ∀ route, Keeps R (currentDigest route) := by
    intro route
    unfold currentDigest
    refine hR.keeps_bind (hR.keeps_onFiles _) fun there ↦ ?_
    split
    · exact hR.keeps_bind (hR.keeps_onFiles _) fun _ ↦ hR.keeps_pure _
    · exact hR.keeps_pure _
  induction digests with
  | nil => exact hR.keeps_pure _
  | cons file rest ih =>
    unfold findAltered
    split
    · exact ih
    · refine hR.keeps_bind (hdigest _) fun digest ↦ ?_
      split
      · exact ih
      · exact hR.keeps_bind (hR.keeps_log _ _ _) fun _ ↦ hR.keeps_bind ih fun _ ↦ hR.keeps_pure _

theorem keeps_restore (snapshot : Snapshot) : Keeps R (restore snapshot) := by
  unfold restore
  refine hR.keeps_bind (hR.keeps_log _ _ _) fun _ ↦ ?_
  refine hR.keeps_bind (keeps_restoreFiles hR _) fun failed ↦ ?_
  refine hR.keeps_bind (keeps_findAltered hR _ _) fun altered ↦ hR.keeps_guard ?_
  exact hR.keeps_bind (hR.keeps_log _ _ _) fun _ ↦ hR.keeps_pure _

end Store

end Remedy
