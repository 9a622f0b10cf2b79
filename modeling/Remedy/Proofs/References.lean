import Mathlib.Data.List.TakeWhile
import Remedy.Config.Substitution

/-!
# References that are replaced

A text is cut from left to right into references and characters that stand for themselves (`Cut`):
wherever a reference begins it is one piece, whatever its name holds, and no reference begins inside
of another. There is just one such cut (`exists_cut`, `Cut.unique`).

Replacing references is one pass over the cut (`substitute_cut`): the first name without a value is
the error, and if there is none, values stand in the place of references as they are. A reference in
a value is no piece of the text, so that nothing asks for its name. Where no reference lies across a
place, the text is cut there (`Cut.split`), and its two parts can be replaced one after the other,
also if a brace is opened in the first one and not closed.

The induction is on the cut, with one step for each kind of a piece (`substituteFrom_plain`,
`substituteFrom_reference`).
-/

set_option autoImplicit false

namespace Remedy

/-- What a text is cut into. -/
inductive Piece where
  | plain (c : Char)
  | reference (name : List Char)
  deriving DecidableEq, Repr

namespace Piece

/-- How a piece is written. -/
def chars : Piece → List Char
  | .plain c => [c]
  | .reference name => '$' :: '\x7b' :: (name ++ ['\x7d'])

/-- The name in a reference to a variable without a value. -/
def missing? (bindings : List (String × String)) : Piece → Option (List Char)
  | .plain _ => none
  | .reference name => if Json.lookup (String.ofList name) bindings = none then some name else none

/-- What stands in the place of a piece afterwards, if it is not missing. -/
def value (bindings : List (String × String)) : Piece → List Char
  | .plain c => [c]
  | .reference name => ((Json.lookup (String.ofList name) bindings).getD "").toList

theorem chars_reference_append (name rest : List Char) :
    (reference name).chars ++ rest = '$' :: '\x7b' :: (name ++ '\x7d' :: rest) := by
  simp [chars]

end Piece

/-- What can be the name in a reference. -/
structure IsReferenceName (name : List Char) : Prop where
  nonempty : name ≠ []
  unclosed : '\x7d' ∉ name

/-- The pieces into which a text is cut from left to right. -/
inductive Cut : List Char → List Piece → Prop
  | nil : Cut [] []
  | reference {name rest : List Char} {ps : List Piece} (hname : IsReferenceName name)
      (hrest : Cut rest ps) :
      Cut ((Piece.reference name).chars ++ rest) (.reference name :: ps)
  | plain {c : Char} {rest : List Char} {ps : List Piece}
      (hnone : ∀ name, IsReferenceName name → ¬ (Piece.reference name).chars <+: c :: rest)
      (hrest : Cut rest ps) : Cut (c :: rest) (.plain c :: ps)

variable {bindings : List (String × String)} {cs rest name : List Char} {ps : List Piece} {c : Char}

/-! ### The reference at the front of a text -/

theorem takeWhile_unclosed (hname : '\x7d' ∉ name) :
    (name ++ '\x7d' :: rest).takeWhile (· ≠ '\x7d') = name := by
  rw [List.takeWhile_append_of_pos fun c hc ↦ decide_eq_true (ne_of_mem_of_not_mem hc hname)]
  simp

/-- A text in which a brace is closed is what stands before it, the brace and the rest. -/
theorem eq_takeWhile_append (h : (cs.takeWhile (· ≠ '\x7d')).length ≠ cs.length) :
    cs = cs.takeWhile (· ≠ '\x7d') ++
      '\x7d' :: cs.drop ((cs.takeWhile (· ≠ '\x7d')).length + 1) := by
  induction cs with
  | nil => exact absurd rfl h
  | cons c rest ih =>
    by_cases hc : c = '\x7d'
    · simp [hc]
    · have hrest : (rest.takeWhile (· ≠ '\x7d')).length ≠ rest.length := by simpa [hc] using h
      simpa [hc] using ih hrest

theorem readReference_eq_some_iff :
    readReference cs = some (name, rest) ↔
      IsReferenceName name ∧ cs = (Piece.reference name).chars ++ rest := by
  rw [Piece.chars_reference_append]
  constructor
  · intro h
    unfold readReference at h
    split at h
    case h_2 => cases h
    rename_i inner
    dsimp only at h
    split at h
    · cases h
    rename_i hcond
    obtain ⟨rfl, rfl⟩ := Prod.mk.inj (Option.some.inj h)
    obtain ⟨hne, hlength⟩ : inner.takeWhile (· ≠ '\x7d') ≠ [] ∧
        (inner.takeWhile (· ≠ '\x7d')).length ≠ inner.length := by
      simpa using hcond
    have hunclosed : '\x7d' ∉ inner.takeWhile (· ≠ '\x7d') := fun hmem ↦ by
      simpa using List.mem_takeWhile_imp hmem
    exact ⟨⟨hne, hunclosed⟩, congrArg (fun cs ↦ '$' :: '\x7b' :: cs) (eq_takeWhile_append hlength)⟩
  · rintro ⟨⟨hne, hunclosed⟩, rfl⟩
    show (if _ then none else some _) = _
    rw [takeWhile_unclosed hunclosed, if_neg (by simp [hne])]
    simp

theorem readReference_eq_none_iff :
    readReference cs = none ↔
      ∀ name, IsReferenceName name → ¬ (Piece.reference name).chars <+: cs := by
  rw [Option.eq_none_iff_forall_ne_some]
  constructor
  · rintro h name hname ⟨rest, rfl⟩
    exact h (name, rest) (readReference_eq_some_iff.mpr ⟨hname, rfl⟩)
  · rintro h ⟨name, rest⟩ hread
    obtain ⟨hname, rfl⟩ := readReference_eq_some_iff.mp hread
    exact h name hname (List.prefix_append _ _)

/-! ### The cut of a text -/

theorem exists_cut (cs : List Char) : ∃ ps, Cut cs ps := by
  induction hn : cs.length using Nat.strong_induction_on generalizing cs with
  | _ n ih =>
    cases cs with
    | nil => exact ⟨[], .nil⟩
    | cons c rest =>
      cases hread : readReference (c :: rest) with
      | none =>
        obtain ⟨ps, hps⟩ := ih rest.length (by simp [← hn]) rest rfl
        exact ⟨_, .plain (readReference_eq_none_iff.mp hread) hps⟩
      | some found =>
        obtain ⟨name, behind⟩ := found
        obtain ⟨hname, heq⟩ := readReference_eq_some_iff.mp hread
        have hshorter : behind.length < n := by
          rw [← hn, heq, List.length_append]
          exact Nat.lt_add_of_pos_left (Nat.zero_lt_succ _)
        obtain ⟨ps, hps⟩ := ih behind.length hshorter behind rfl
        rw [heq]
        exact ⟨_, .reference hname hps⟩

theorem cut_reference_iff (hname : IsReferenceName name) :
    Cut ((Piece.reference name).chars ++ rest) ps ↔
      ∃ ps', ps = .reference name :: ps' ∧ Cut rest ps' := by
  refine ⟨fun h ↦ ?_, fun ⟨ps', hps, hrest⟩ ↦ hps ▸ .reference hname hrest⟩
  have hread := readReference_eq_some_iff.mpr ⟨hname, Eq.refl ((Piece.reference name).chars ++ rest)⟩
  generalize hcs : (Piece.reference name).chars ++ rest = cs at h hread
  cases h with
  | nil => cases hread
  | plain hnone =>
    rw [readReference_eq_none_iff.mpr hnone] at hread
    cases hread
  | reference hname' hrest =>
    rw [readReference_eq_some_iff.mpr ⟨hname', rfl⟩] at hread
    cases hread
    exact ⟨_, rfl, hrest⟩

theorem cut_plain_iff
    (hnone : ∀ name, IsReferenceName name → ¬ (Piece.reference name).chars <+: c :: rest) :
    Cut (c :: rest) ps ↔ ∃ ps', ps = .plain c :: ps' ∧ Cut rest ps' := by
  refine ⟨fun h ↦ ?_, fun ⟨ps', hps, hrest⟩ ↦ hps ▸ .plain hnone hrest⟩
  generalize hcs : c :: rest = cs at h
  cases h with
  | nil => cases hcs
  | plain _ hrest =>
    cases hcs
    exact ⟨_, rfl, hrest⟩
  | reference hname hrest => exact absurd (hcs ▸ List.prefix_append _ _) (hnone _ hname)

theorem Cut.unique {ps' : List Piece} (h : Cut cs ps) (h' : Cut cs ps') : ps' = ps := by
  induction h generalizing ps' with
  | nil =>
    generalize hcs : ([] : List Char) = cs at h'
    cases h' with
    | nil => rfl
    | plain => cases hcs
    | reference => cases hcs
  | reference hname _ ih =>
    obtain ⟨ps₁, rfl, hrest⟩ := (cut_reference_iff hname).mp h'
    rw [ih hrest]
  | plain hnone _ ih =>
    obtain ⟨ps₁, rfl, hrest⟩ := (cut_plain_iff hnone).mp h'
    rw [ih hrest]

/-- The pieces of a text make it up. -/
theorem Cut.flatMap_chars (h : Cut cs ps) : ps.flatMap Piece.chars = cs := by
  induction h with
  | nil => rfl
  | reference _ _ ih => rw [List.flatMap_cons, ih]
  | plain _ _ ih =>
    rw [List.flatMap_cons, ih]
    rfl

/-- A reference in the cut lies across the place behind so many characters. -/
def Straddles (ps : List Piece) (n : Nat) : Prop :=
  ∃ before name after, ps = before ++ .reference name :: after ∧
    (before.flatMap Piece.chars).length < n ∧
    n < (before.flatMap Piece.chars).length + (Piece.reference name).chars.length

theorem Straddles.cons {n : Nat} (p : Piece) (h : Straddles ps n) :
    Straddles (p :: ps) (n + p.chars.length) := by
  obtain ⟨before, name, after, rfl, hafter, hbefore⟩ := h
  refine ⟨p :: before, name, after, rfl, ?_, ?_⟩
  · rw [List.flatMap_cons, List.length_append]
    omega
  · rw [List.flatMap_cons, List.length_append]
    omega

/-- Where no reference lies across a place, the two parts of a text are cut as they are cut in it. -/
theorem Cut.split {a b : List Char} (h : Cut (a ++ b) ps) (hwhole : ¬ Straddles ps a.length) :
    ∃ pa pb, ps = pa ++ pb ∧ Cut a pa ∧ Cut b pb := by
  generalize htext : a ++ b = cs at h
  induction h generalizing a with
  | nil =>
    obtain ⟨rfl, rfl⟩ := List.append_eq_nil_iff.mp htext
    exact ⟨[], [], rfl, .nil, .nil⟩
  | @plain c rest ps hnone hrest ih =>
    cases a with
    | nil =>
      obtain rfl : b = c :: rest := htext
      exact ⟨[], _, rfl, .nil, .plain hnone hrest⟩
    | cons c' a =>
      obtain ⟨rfl, rfl⟩ := List.cons.inj htext
      have hwhole' : ¬ Straddles ps a.length := fun hacross ↦ hwhole (hacross.cons (.plain c'))
      obtain ⟨pa, pb, rfl, ha, hb⟩ := ih hwhole' rfl
      refine ⟨.plain c' :: pa, pb, rfl, .plain (fun name hname hleads ↦ ?_) ha, hb⟩
      exact hnone name hname (hleads.trans (List.prefix_append _ b))
  | @reference name rest ps hname hrest ih =>
    cases a with
    | nil =>
      obtain rfl : b = (Piece.reference name).chars ++ rest := htext
      exact ⟨[], _, rfl, .nil, .reference hname hrest⟩
    | cons c a =>
      -- The reference begins in the first part, so it ends there as well.
      have hends : (Piece.reference name).chars.length ≤ (c :: a).length := by
        refine not_lt.mp fun hlt ↦ hwhole ⟨[], name, ps, rfl, Nat.zero_lt_succ _, ?_⟩
        simpa using hlt
      obtain ⟨a', ha'⟩ := List.prefix_of_prefix_length_le (List.prefix_append _ _)
        (htext ▸ List.prefix_append (c :: a) b) hends
      rw [← ha', List.append_assoc] at htext
      have hwhole' : ¬ Straddles ps a'.length := fun hacross ↦ by
        rw [← ha', List.length_append, Nat.add_comm] at hwhole
        exact hwhole (hacross.cons (.reference name))
      obtain ⟨pa, pb, rfl, ha, hb⟩ := ih hwhole' (List.append_cancel_left htext)
      exact ⟨.reference name :: pa, pb, rfl, ha' ▸ .reference hname ha, hb⟩

/-! ### Replacing -/

/-- What is left of a reference is passed over. -/
theorem substituteFrom_append (front rest : List Char) :
    substituteFrom bindings front.length (front ++ rest) = substituteFrom bindings 0 rest := by
  induction front with
  | nil => rfl
  | cons c front ih => rw [List.cons_append, List.length_cons, substituteFrom, ih]

theorem substituteFrom_plain
    (hnone : ∀ name, IsReferenceName name → ¬ (Piece.reference name).chars <+: c :: rest) :
    substituteFrom bindings 0 (c :: rest) = (substituteFrom bindings 0 rest).map ([c] ++ ·) := by
  rw [substituteFrom, readReference_eq_none_iff.mpr hnone]
  rfl

theorem substituteFrom_reference (hname : IsReferenceName name) :
    substituteFrom bindings 0 ((Piece.reference name).chars ++ rest) =
      match Json.lookup (String.ofList name) bindings with
      | none => .error (.unsetVariable (String.ofList name))
      | some value => (substituteFrom bindings 0 rest).map (value.toList ++ ·) := by
  have hread := readReference_eq_some_iff.mpr ⟨hname, Eq.refl ((Piece.reference name).chars ++ rest)⟩
  have hpassed : substituteFrom bindings (name.length + 2)
      ('\x7b' :: (name ++ ['\x7d']) ++ rest) = substituteFrom bindings 0 rest := by
    rw [← substituteFrom_append ('\x7b' :: (name ++ ['\x7d'])) rest]
    simp
  change readReference ('$' :: ('\x7b' :: (name ++ ['\x7d']) ++ rest)) = _ at hread
  change substituteFrom bindings 0 ('$' :: ('\x7b' :: (name ++ ['\x7d']) ++ rest)) = _
  rw [substituteFrom, hread]
  dsimp only
  cases Json.lookup (String.ofList name) bindings with
  | none => rfl
  | some value => exact congrArg (Except.map (value.toList ++ ·)) hpassed

/-- What pieces are replaced by: the first name without a value is the error. -/
def replaced (bindings : List (String × String)) (ps : List Piece) : Except Invalid (List Char) :=
  match ps.findSome? (Piece.missing? bindings) with
  | some name => .error (.unsetVariable (String.ofList name))
  | none => .ok (ps.flatMap (Piece.value bindings))

theorem Cut.substituteFrom_eq (h : Cut cs ps) :
    substituteFrom bindings 0 cs = replaced bindings ps := by
  unfold replaced
  induction h with
  | nil => rfl
  | plain hnone _ ih =>
    rw [substituteFrom_plain hnone, ih, List.findSome?_cons]
    dsimp only [Piece.missing?]
    cases List.findSome? (Piece.missing? bindings) _ <;> rfl
  | @reference name _ _ hname _ ih =>
    rw [substituteFrom_reference hname, ih, List.findSome?_cons]
    dsimp only [Piece.missing?]
    cases hlookup : Json.lookup (String.ofList name) bindings with
    | none => rfl
    | some value =>
      rw [if_neg (by simp)]
      cases List.findSome? (Piece.missing? bindings) _ with
      | some missing => rfl
      | none => simp [Except.map, Piece.value, hlookup]

theorem replaced_append (pa pb : List Piece) :
    replaced bindings (pa ++ pb) = do
      return (← replaced bindings pa) ++ (← replaced bindings pb) := by
  unfold replaced
  rw [List.findSome?_append, List.flatMap_append]
  cases pa.findSome? (Piece.missing? bindings) <;> cases pb.findSome? (Piece.missing? bindings) <;> rfl

/-- Replacing references is one pass over the cut of a text. -/
theorem substitute_cut (bindings : List (String × String)) (text : String) :
    ∃ ps, (∀ ps', Cut text.toList ps' ↔ ps' = ps) ∧
      (substitute bindings text =
        match ps.findSome? (Piece.missing? bindings) with
        | some name => .error (.unsetVariable (String.ofList name))
        | none => .ok (String.ofList (ps.flatMap (Piece.value bindings)))) ∧
      ∀ a b, text = a ++ b → ¬ Straddles ps a.length →
        substitute bindings text = do
          return (← substitute bindings a) ++ (← substitute bindings b) := by
  obtain ⟨ps, hcut⟩ := exists_cut text.toList
  refine ⟨ps, fun ps' ↦ ⟨hcut.unique, fun h ↦ h ▸ hcut⟩, ?_, ?_⟩
  · rw [substitute, hcut.substituteFrom_eq, replaced]
    cases ps.findSome? (Piece.missing? bindings) <;> rfl
  · rintro a b rfl hwhole
    rw [String.toList_append] at hcut
    obtain ⟨pa, pb, rfl, ha, hb⟩ := hcut.split hwhole
    rw [substitute, substitute, substitute, String.toList_append, hcut.substituteFrom_eq,
      ha.substituteFrom_eq, hb.substituteFrom_eq, replaced_append]
    rcases replaced bindings pa with _ | xs
    · rfl
    rcases replaced bindings pb with _ | ys
    · rfl
    exact congrArg Except.ok String.ofList_append

/-- A value that looks like a reference to an unset variable, and an opened brace that is not closed
in its part. -/
theorem substitute_cut_sample :
    let bindings := [("x", "$\x7by\x7d\\1")]
    let a := "$\x7bx\x7d$"
    let b := "\x7b\x7d$\x7bx"
    substitute bindings (a ++ b) = .ok "$\x7by\x7d\\1$\x7b\x7d$\x7bx" ∧
      substitute bindings (a ++ b) = do
        return (← substitute bindings a) ++ (← substitute bindings b) := by
  intro bindings a b
  let tail := ['$', '\x7b', '\x7d', '$', '\x7b', 'x']
  have hcut : Cut (a ++ b).toList (.reference ['x'] :: tail.map .plain) := by
    rw [show (a ++ b).toList = (Piece.reference ['x']).chars ++ tail by decide]
    refine .reference ⟨by decide, by decide⟩ ?_
    iterate 6 refine .plain (readReference_eq_none_iff.mp (by decide)) ?_
    exact .nil
  obtain ⟨ps, hps, heq, happend⟩ := substitute_cut bindings (a ++ b)
  obtain rfl := (hps _).mp hcut
  refine ⟨heq.trans (by cbv), happend a b rfl ?_⟩
  rintro ⟨before, name, after, hps, hlength, hacross⟩
  cases before with
  | nil =>
    obtain ⟨hname, -⟩ := List.cons.inj hps
    cases hname
    exact absurd hacross (by decide)
  | cons p before =>
    have hmem : Piece.reference name ∈ tail.map Piece.plain := by
      rw [(List.cons.inj hps).2]
      simp
    simp at hmem

end Remedy
