import Remedy.Proofs.Tree.Changes

/-!
# Files that are put in the place of others

`FileTree.Mends` says of two trees that one has come from the other by putting files in the place of
whatever was no directory, or taking it away, at some routes, and by making directories at others.
Unlike in an edit, links at those routes may go. Everywhere else the links are the same and the
files hold what they held; only the log may have grown (`FileTree.Grown`).
-/

set_option autoImplicit false

namespace Remedy

namespace FileTree

variable {t t' t'' : FileTree} {log log' : Option Route} {only only' made made' : Route → Prop}
  {q r d : Route} {name : String} {old mid new : Option Text.Bytes}

/-- What a place holds is what it held, or it is the log and more has been written. -/
def Grown (log : Option Route) (q : Route) (old new : Option Text.Bytes) : Prop :=
  ∃ more, new = old.map (· ++ more) ∧ (log ≠ some q → more = [])

theorem Grown.refl (log : Option Route) (q : Route) (old : Option Text.Bytes) :
    Grown log q old old :=
  ⟨[], by simp, fun _ ↦ rfl⟩

theorem Grown.trans (h : Grown log q old mid) (h' : Grown log q mid new) : Grown log q old new := by
  obtain ⟨more, rfl, hmore⟩ := h
  obtain ⟨more', rfl, hmore'⟩ := h'
  refine ⟨more ++ more', ?_, fun hlog ↦ by rw [hmore hlog, hmore' hlog, List.append_nil]⟩
  cases old <;> simp

theorem Grown.eq (h : Grown log q old new) (hlog : log ≠ some q) : new = old := by
  obtain ⟨more, rfl, hmore⟩ := h
  simp [hmore hlog]

theorem Grown.of_none (h : Grown none q old new) : Grown log q old new :=
  h.eq (fun heq ↦ by cases heq) ▸ .refl log q old

theorem Grown.none_iff (h : Grown log q old new) : new = none ↔ old = none := by
  obtain ⟨more, rfl, -⟩ := h
  exact Option.map_eq_none_iff

/-- Whatever was no directory at the routes in `only` has been replaced by files or taken away, and
directories are new at those in `made`. -/
structure Mends (log : Option Route) (only made : Route → Prop) (t t' : FileTree) : Prop where
  sound : t'.Sound
  links : ∀ q, ¬ only q → t'.link? q = t.link? q
  bytes : ∀ q, ¬ only q → Grown log q (t.bytes? q) (t'.bytes? q)
  kept : ∀ q, t.HasDirectory q → t'.HasDirectory q
  made : ∀ q, t'.HasDirectory q → t.HasDirectory q ∨ made q

theorem Mends.refl (ht : t.Sound) : Mends log only made t t :=
  ⟨ht, fun _ _ ↦ rfl, fun _ _ ↦ .refl _ _ _, fun _ ↦ id, fun _ ↦ .inl⟩

theorem Mends.trans (h : Mends log only made t t') (h' : Mends log only made t' t'') :
    Mends log only made t t'' where
  sound := h'.sound
  links q hq := (h'.links q hq).trans (h.links q hq)
  bytes q hq := (h.bytes q hq).trans (h'.bytes q hq)
  kept q hq := h'.kept q (h.kept q hq)
  made q hq := (h'.made q hq).elim (h.made q) .inr

theorem Mends.mono (h : Mends log only made t t') (honly : ∀ q, only q → only' q)
    (hmade : ∀ q, made q → made' q) : Mends log only' made' t t' where
  sound := h.sound
  links q hq := h.links q fun hold ↦ hq (honly q hold)
  bytes q hq := h.bytes q fun hold ↦ hq (honly q hold)
  kept := h.kept
  made q hq := (h.made q hq).imp_right (hmade q)

/-- What has been done without a word in the log. -/
theorem Mends.logged (h : Mends none only made t t') : Mends log only made t t' :=
  { h with bytes := fun q hq ↦ (h.bytes q hq).of_none }

theorem look_eq_none_of (hbytes : t.bytes? r = none) (hlink : t.link? r = none)
    (hdir : ¬ t.HasDirectory r) : t.look r = none := by
  rcases t.look_cases r with hnone | hthere | ⟨content, mode, hfile⟩ | ⟨target, hto⟩
  · exact hnone
  · exact absurd hthere hdir
  · rw [bytes?_of_look hfile] at hbytes
    cases hbytes
  · rw [look_of_link?.mpr hto] at hlink
    cases hlink

theorem not_hasDirectory_of_none (h : t.look r = none) : ¬ t.HasDirectory r := by
  rw [HasDirectory, h]
  exact fun h ↦ by cases h

theorem not_hasDirectory_of_bytes (h : t.bytes? r ≠ none) : ¬ t.HasDirectory r :=
  fun hdir ↦ h hdir.no_bytes

theorem Mends.look_eq_none (h : Mends log only made t t') (honly : ¬ only q) (hmade : ¬ made q)
    (hnone : t.look q = none) : t'.look q = none := by
  refine look_eq_none_of ?_ ?_ fun hdir ↦ ?_
  · exact (h.bytes q honly).none_iff.mpr (by rw [bytes?, hnone])
  · rw [h.links q honly, link?, hnone]
  · exact (h.made q hdir).elim (not_hasDirectory_of_none hnone) hmade

/-- Where there is nothing before and afterwards, nothing has been done. -/
theorem Mends.drop (h : Mends log only made t t')
    (hdrop : ∀ q, only q → only' q ∨ t.look q = none ∧ t'.look q = none) :
    Mends log only' made t t' where
  sound := h.sound
  links q hq := by
    by_cases honly : only q
    · obtain ⟨hnone, hnone'⟩ := (hdrop q honly).resolve_left hq
      rw [link?, link?, hnone, hnone']
    · exact h.links q honly
  bytes q hq := by
    by_cases honly : only q
    · obtain ⟨hnone, hnone'⟩ := (hdrop q honly).resolve_left hq
      rw [bytes?, bytes?, hnone, hnone']
      exact .refl _ _ _
    · exact h.bytes q honly
  kept := h.kept
  made := h.made

/-! ### Edits -/

theorem Edits.mends (h : Edits only t t') : Mends log only made t t' where
  sound := h.sound
  links q _ := h.alters.links q
  bytes q hq := h.alters.bytes q hq ▸ .refl _ _ _
  kept := h.alters.directories
  made q hq := .inl (h.flat q hq)

/-- Where no link has gone, files have been edited. -/
theorem Mends.edits (h : Mends none only (fun _ ↦ False) t t')
    (hlinks : ∀ q, only q → t.link? q = none ∧ t'.link? q = none) : Edits only t t' where
  sound := h.sound
  alters := by
    refine ⟨fun q ↦ ?_, h.kept, fun q hq ↦ (h.bytes q hq).eq fun heq ↦ by cases heq⟩
    by_cases hq : only q
    · rw [(hlinks q hq).1, (hlinks q hq).2]
    · exact h.links q hq
  flat q hq := (h.made q hq).resolve_right id

/-! ### Elementary changes -/

theorem mends_of_look (ht' : t'.Sound) (hlook : ∀ q, ¬ only q → t'.look q = t.look q)
    (hdir : ∀ q, only q → ¬ t.HasDirectory q ∧ ¬ t'.HasDirectory q) : Mends log only made t t' where
  sound := ht'
  links q hq := by rw [link?, link?, hlook q hq]
  bytes q hq := by
    rw [bytes?, bytes?, hlook q hq]
    exact .refl _ _ _
  kept q hq := by
    have honly : ¬ only q := fun h ↦ (hdir q h).1 hq
    rwa [HasDirectory, hlook q honly]
  made q hq := by
    have honly : ¬ only q := fun h ↦ (hdir q h).2 hq
    rw [HasDirectory, hlook q honly] at hq
    exact .inl hq

theorem mends_remove (ht : t.Sound) (hr : r ≠ []) (hdir : ¬ t.HasDirectory r) :
    Mends log (· = r) made t (t.remove r) := by
  refine mends_of_look (ht.remove hr) (fun q hq ↦ ?_) ?_
  · rw [look_remove t hr]
    split
    · exact (ht.look_below hdir ‹_› hq).symm
    · rfl
  · rintro _ rfl
    refine ⟨hdir, not_hasDirectory_of_none ?_⟩
    rw [look_remove t hr, if_pos List.prefix_rfl]

theorem mends_add_file (ht : t.Sound) (hd : t.HasDirectory d)
    (hdir : ¬ t.HasDirectory (d ++ [name])) (content : Text.Bytes) (mode : Nat) :
    Mends log (· = d ++ [name]) made t (t.add d name (.file content mode)) := by
  refine mends_of_look (ht.add hd hdir) (fun q hq ↦ by rw [look_add, if_neg hq]) ?_
  rintro _ rfl
  refine ⟨hdir, ?_⟩
  rw [HasDirectory, look_add, if_pos rfl]
  exact fun h ↦ by cases h

end FileTree

end Remedy
