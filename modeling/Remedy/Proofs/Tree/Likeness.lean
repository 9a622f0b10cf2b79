import Remedy.Proofs.Passing

/-!
# Trees that are alike

Two trees are alike if they differ at most in what files hold and when directories were changed
(`FileTree.Alike`). A path then leads to the same place in both, or is refused in the same way
(`Alike.walk`), so that it resolves to the same, and a file is there to be read in both or in neither.

The log goes on in a file that is open, so that whatever is logged, the files stay alike
(`Act.isFrame_alike`).
-/

set_option autoImplicit false

namespace Remedy

namespace FileTree

/-- Both nodes are files, both are directories, both are links to the same, or there is neither. -/
inductive LikeNode : Option Node → Option Node → Prop
  | none : LikeNode none none
  | file (content content' : Text.Bytes) (mode mode' : Nat) :
      LikeNode (some (.file content mode)) (some (.file content' mode'))
  | directory (changed changed' : Int) :
      LikeNode (some (.directory changed)) (some (.directory changed'))
  | link (target : String) : LikeNode (some (.link target)) (some (.link target))

/-- Both walks lead to the same place, at which there are nodes that are alike, or are refused in the
same way. -/
inductive LikePlace : Except Errno Place → Except Errno Place → Prop
  | at (r : Route) {node node' : Node} (h : LikeNode (some node) (some node')) :
      LikePlace (.ok (.at r node)) (.ok (.at r node'))
  | free (d : Route) (name : String) : LikePlace (.ok (.free d name)) (.ok (.free d name))
  | error (e : Errno) : LikePlace (.error e) (.error e)

theorem LikeNode.refl (node : Option Node) : LikeNode node node := by
  rcases node with _ | (_ | _ | _) <;> constructor

theorem LikeNode.trans {node node' node'' : Option Node} (h : LikeNode node node')
    (h' : LikeNode node' node'') : LikeNode node node'' := by
  cases h <;> cases h' <;> constructor

theorem content_eq (t : FileTree) (p : Path) :
    t.content p = match t.walk p with
      | .ok (.at _ (.file content _)) => .ok content
      | .ok (.at _ _) => .error ⟨.isDirectory, p.text, none⟩
      | .ok (.free _ _) => .error ⟨.notFound, p.text, none⟩
      | .error e => .error ⟨e, p.text, none⟩ := by
  have hread : ∀ {outcome}, Ends (FileAct.read p) t (fun content _ ↦ Except.ok content = outcome)
      (fun e _ ↦ Except.error e = outcome) → t.content p = outcome := by
    intro outcome h
    rw [Ends, FileAct.read_eq] at h
    cases hcontent : t.content p <;> rwa [hcontent] at h
  refine hread ?_
  unfold FileAct.read
  refine ends_bind.mpr (FileAct.ends_place.mpr ?_)
  rcases t.walk p with _ | (⟨_, _ | _ | _⟩ | _) <;> rfl

/-- The trees differ at most in what files hold and when directories were changed. -/
structure Alike (t t' : FileTree) : Prop where
  directory : t'.directory = t.directory
  nodes : ∀ r, LikeNode (t.node? r) (t'.node? r)

namespace Alike

variable {t t' t'' : FileTree} {p : Path}

theorem refl (t : FileTree) : Alike t t :=
  ⟨rfl, fun _ ↦ .refl _⟩

theorem trans (h : Alike t t') (h' : Alike t' t'') : Alike t t'' :=
  ⟨h'.directory.trans h.directory, fun r ↦ (h.nodes r).trans (h'.nodes r)⟩

theorem links (h : Alike t t') (r : Route) : t'.link? r = t.link? r := by
  have hnodes := h.nodes r
  unfold link? look
  generalize t.node? r = node, t'.node? r = node' at *
  cases hnodes <;> rfl

section Walks

variable {whole : Bool} {k : Nat} {d : Route} {names : List String} (h : Alike t t')

include h

theorem walkFrom (hfollow : ∀ d target rest,
      LikePlace (t.followWithin whole k d target rest) (t'.followWithin whole k d target rest)) :
    LikePlace (t.walkFrom whole (t.followWithin whole k) d names)
      (t'.walkFrom whole (t'.followWithin whole k) d names) := by
  induction names generalizing d with
  | nil =>
    have hnodes := h.nodes d
    unfold FileTree.walkFrom
    generalize t.node? d = node, t'.node? d = node' at *
    cases hnodes with
    | none => exact .at d (.directory 0 0)
    | file content content' mode mode' => exact .at d (.file content content' mode mode')
    | directory changed changed' => exact .at d (.directory changed changed')
    | link target => exact .at d (.link target)
  | cons name rest ih =>
    have hnodes := h.nodes (d ++ [name])
    unfold FileTree.walkFrom
    split
    · exact ih
    split
    · exact .error _
    generalize t.node? (d ++ [name]) = node, t'.node? (d ++ [name]) = node' at *
    cases hnodes with
    | none =>
      dsimp only
      split
      · exact .free _ _
      · exact .error _
    | directory changed changed' => exact ih
    | file content content' mode mode' =>
      dsimp only
      split
      · exact .at _ (.file content content' mode mode')
      · exact .error _
    | link target =>
      dsimp only
      split
      · exact .at _ (.link target)
      · exact hfollow _ _ _

theorem walkWithin : LikePlace (t.walkWithin whole k d names) (t'.walkWithin whole k d names) := by
  induction k generalizing d names with
  | zero =>
    rw [walkWithin_eq, walkWithin_eq]
    exact h.walkFrom fun _ _ _ ↦ .error _
  | succ k ih =>
    rw [walkWithin_eq, walkWithin_eq]
    exact h.walkFrom fun _ _ _ ↦ ih

theorem walk (p : Path) : LikePlace (t.walk p) (t'.walk p) := by
  have hstart : t'.start p = t.start p := by
    unfold start
    rw [h.directory]
  unfold FileTree.walk
  rw [hstart]
  split
  · exact .error _
  · exact h.walkWithin

theorem walk_error {e : Errno} : t'.walk p = .error e ↔ t.walk p = .error e := by
  have hwalk := h.walk p
  generalize t.walk p = place, t'.walk p = place' at *
  cases hwalk <;> simp

/-- What cannot be read in one tree cannot be read in the other one. -/
theorem content_error {e : FileError} : t'.content p = .error e ↔ t.content p = .error e := by
  have hwalk := h.walk p
  rw [content_eq, content_eq]
  generalize t.walk p = place, t'.walk p = place' at *
  cases hwalk with
  | «at» r hnode => cases hnode <;> simp
  | free d name => rfl
  | error e => rfl

/-- A path resolves to the same in both trees. -/
theorem resolve (hp : p.isAbsolute = true) : t'.resolve p = t.resolve p := by
  have htraced : t'.resolveWithin (t'.entries.length + 1) [] (t'.start p) p.names =
      t.resolveWithin (t.entries.length + 1) [] (t.start p) p.names := traced_congr h.links hp
  unfold FileTree.resolve
  rw [htraced]
  split
  · rfl
  split
  · rfl
  · rename_i names _
    have hwalk := h.walk (Route.path (withoutDots names))
    dsimp only
    generalize t.walk (Route.path (withoutDots names)) = place,
      t'.walk (Route.path (withoutDots names)) = place' at *
    cases hwalk <;> rfl

/-- Directories that can be made in one tree can be made in the other one. -/
theorem extensible (ht : t.Sound) (hp : t.Extensible p) : t'.Extensible p := by
  have halters : Alters (fun _ ↦ True) t t' := by
    refine ⟨h.links, fun r hr ↦ ?_, fun _ hr ↦ absurd trivial hr⟩
    have hnodes := h.nodes r
    unfold HasDirectory look at hr ⊢
    generalize t.node? r = node, t'.node? r = node' at *
    cases hnodes with
    | directory changed changed' => rfl
    | _ => cases hr
  obtain ⟨front, d, name, rest, hnames, hto, hlook, hentries⟩ := hp.way
  refine ⟨hp.absolute, hp.short, front, d, name, rest, hnames, hto.altered halters ht ht.root, ?_,
    hentries⟩
  have hnodes := h.nodes (d ++ [name])
  unfold look at hlook ⊢
  generalize t.node? (d ++ [name]) = node, t'.node? (d ++ [name]) = node' at *
  cases hnodes with
  | none => rfl
  | _ => cases hlook

end Walks

end Alike

end FileTree

/-! ### The log -/

/-- The files are alike. -/
def World.Alike (w w' : World) : Prop := w.files.Alike w'.files

theorem FileTree.alike_append (t : FileTree) (r : Route) (content : Text.Bytes) :
    t.Alike (FileAct.append r content t).2 := by
  have happend : Ends (FileAct.append r content) t (fun _ t' ↦ t.Alike t') fun _ _ ↦ False := by
    refine ends_modify.mpr ?_
    split
    · rename_i old mode hnode
      refine ⟨rfl, fun q ↦ ?_⟩
      rw [node?_set]
      split
      · rename_i hq
        rw [hq, hnode]
        exact .file _ _ _ _
      · exact .refl _
    · exact .refl t
  exact happend

theorem Act.isFrame_alike : IsFrame World.Alike where
  refl w := .refl w.files
  trans _ _ _ := .trans
  record event := by
    refine keeps_modify fun w ↦ ?_
    dsimp only
    split
    · exact FileTree.alike_append _ _ _
    · exact .refl _
  count _ amount labels _ := keeps_count_of (fun w _ ↦ .refl w.files) amount labels
  aside w _ _ _ _ _ := .refl w.files

end Remedy
