import Mathlib.Data.List.DropRight
import Remedy.Text.Blank

/-!
# Stripped texts and their lines

A text is left as it is by `strip` exactly if no white space stands at its ends
(`strip_eq_self_iff`), and what has been stripped is left as it is (`strip_strip`). The lines of a
text hold no breaks (`isBreak_of_mem_splitLines`), and lines without breaks, none of them empty, are
the lines of the text that they make up with a line feed between each two
(`splitLines_intercalate`).
-/

set_option autoImplicit false

namespace Remedy.Text

variable {cs xs : List Char}

/-! ### White space at the ends -/

theorem dropWhile_isBlank_eq_self_iff :
    cs.dropWhile isBlank = cs ↔ ∀ c ∈ cs.head?, isBlank c = false := by
  rw [List.dropWhile_eq_self_iff]
  cases cs <;> simp

theorem stripEnd_eq_self_iff : stripEnd cs = cs ↔ ∀ c ∈ cs.getLast?, isBlank c = false := by
  refine List.rdropWhile_eq_self_iff.trans ⟨fun h c hc ↦ ?_, fun h hne ↦ ?_⟩
  · obtain ⟨hne, rfl⟩ := List.mem_getLast?_eq_getLast hc
    simpa using h hne
  · simpa using h _ (List.getLast?_eq_getLast_of_ne_nil hne)

theorem stripEnd_isPrefix (cs : List Char) : stripEnd cs <+: cs :=
  List.rdropWhile_prefix isBlank cs

theorem stripEnd_stripEnd (cs : List Char) : stripEnd (stripEnd cs) = stripEnd cs :=
  List.rdropWhile_idempotent isBlank cs

theorem strip_isInfix (cs : List Char) : strip cs <:+: cs :=
  (stripEnd_isPrefix _).isInfix.trans (List.dropWhile_suffix isBlank).isInfix

theorem strip_eq_self_iff :
    strip cs = cs ↔
      (∀ c ∈ cs.head?, isBlank c = false) ∧ ∀ c ∈ cs.getLast?, isBlank c = false := by
  rw [← dropWhile_isBlank_eq_self_iff, ← stripEnd_eq_self_iff]
  constructor
  · intro h
    have hlength := (stripEnd_isPrefix (cs.dropWhile isBlank)).length_le
    rw [← strip, h] at hlength
    have hdrop : cs.dropWhile isBlank = cs :=
      (List.dropWhile_suffix isBlank).eq_of_length
        (le_antisymm (List.length_dropWhile_le _ _) hlength)
    exact ⟨hdrop, by rwa [strip, hdrop] at h⟩
  · rintro ⟨hdrop, hstrip⟩
    rw [strip, hdrop, hstrip]

/-- Where there is no white space in front, stripping takes away from the end only. -/
theorem strip_eq_stripEnd (h : ∀ c ∈ cs.head?, isBlank c = false) : strip cs = stripEnd cs := by
  rw [strip, dropWhile_isBlank_eq_self_iff.mpr h]

theorem head_of_isPrefix (hfront : xs <+: cs) (h : ∀ c ∈ cs.head?, isBlank c = false) :
    ∀ c ∈ xs.head?, isBlank c = false := by
  obtain ⟨rest, rfl⟩ := hfront
  cases xs with
  | nil => simp
  | cons x xs => simpa using h

theorem head_dropWhile_isBlank (cs : List Char) :
    ∀ c ∈ (cs.dropWhile isBlank).head?, isBlank c = false := by
  intro c hc
  have := List.head?_dropWhile_not isBlank cs
  rwa [hc] at this

theorem strip_strip (cs : List Char) : strip (strip cs) = strip cs := by
  have hhead : ∀ c ∈ (strip cs).head?, isBlank c = false :=
    head_of_isPrefix (stripEnd_isPrefix _) (head_dropWhile_isBlank cs)
  rw [strip_eq_stripEnd hhead]
  exact stripEnd_stripEnd _

theorem strip_eq_nil_iff : strip cs = [] ↔ ∀ c ∈ cs, isBlank c = true := by
  refine List.rdropWhile_eq_nil_iff.trans ⟨fun h ↦ ?_, fun h c hc ↦ ?_⟩
  · rw [← List.dropWhile_eq_nil_iff]
    cases hdrop : cs.dropWhile isBlank with
    | nil => rfl
    | cons c rest =>
      have hc := head_dropWhile_isBlank cs c (by rw [hdrop]; rfl)
      rw [h c (by rw [hdrop]; exact List.mem_cons_self)] at hc
      cases hc
  · exact h c ((List.dropWhile_suffix isBlank).subset hc)

/-! ### Lines -/

theorem splitLinesFrom_cons {c : Char} (hc : isBreak c = false) (line rest : List Char) :
    splitLinesFrom line (c :: rest) = splitLinesFrom (c :: line) rest := by
  rw [splitLinesFrom, if_neg (by simp [hc])]
  rintro rest rfl
  exact absurd hc (by decide)

theorem splitLinesFrom_append (hxs : ∀ c ∈ xs, isBreak c = false) (line rest : List Char) :
    splitLinesFrom line (xs ++ rest) = splitLinesFrom (xs.reverse ++ line) rest := by
  induction xs generalizing line with
  | nil => rfl
  | cons c xs ih =>
    rw [List.cons_append, splitLinesFrom_cons (hxs c List.mem_cons_self),
      ih fun c hc ↦ hxs c (List.mem_cons_of_mem _ hc)]
    simp

/-- The lines of a text hold no breaks. -/
theorem isBreak_of_mem_splitLines {l : List Char} (h : l ∈ splitLines cs) :
    ∀ c ∈ l, isBreak c = false := by
  have hfrom : ∀ line : List Char, (∀ c ∈ line, isBreak c = false) →
      ∀ l ∈ splitLinesFrom line cs, ∀ c ∈ l, isBreak c = false := by
    clear h
    intro line hline
    fun_induction splitLinesFrom line cs with
    | case1 line => simp
    | case2 line hne => simpa using hline
    | case3 line rest ih =>
      rintro l hl
      rcases List.mem_cons.mp hl with rfl | hl
      · simpa using hline
      · exact ih (by simp) l hl
    | case4 line c rest hcrlf hbreak ih =>
      rintro l hl
      rcases List.mem_cons.mp hl with rfl | hl
      · simpa using hline
      · exact ih (by simp) l hl
    | case5 line c rest hcrlf hbreak ih =>
      refine ih fun c' hc' ↦ ?_
      rcases List.mem_cons.mp hc' with rfl | hc'
      · simpa using hbreak
      · exact hline c' hc'
  exact hfrom [] (by simp) l h

/-- Lines that are put together come apart again. -/
theorem splitLines_intercalate {lines : List (List Char)}
    (h : ∀ l ∈ lines, l ≠ [] ∧ ∀ c ∈ l, isBreak c = false) :
    splitLines (List.intercalate ['\n'] lines) = lines := by
  have hfrom : ∀ l : List Char, l ≠ [] ∧ (∀ c ∈ l, isBreak c = false) → ∀ rest,
      splitLines (l ++ rest) = splitLinesFrom l.reverse rest := by
    intro l hl rest
    rw [splitLines, splitLinesFrom_append hl.2, List.append_nil]
  induction lines with
  | nil => rfl
  | cons l rest ih =>
    have hl := h l List.mem_cons_self
    cases rest with
    | nil =>
      have := hfrom l hl []
      rw [List.append_nil] at this
      simp [List.intercalate, this, splitLinesFrom, hl.1]
    | cons next rest =>
      have hbreak : ∀ rest, splitLinesFrom l.reverse ('\n' :: rest) = l :: splitLines rest := by
        intro rest
        rw [splitLinesFrom, if_pos (by decide), List.reverse_reverse]
        · rfl
        · exact fun _ h ↦ by cases h
      rw [List.intercalate_cons_cons, List.append_assoc, hfrom l hl, List.singleton_append, hbreak,
        ih fun l hl ↦ h l (List.mem_cons_of_mem _ hl)]

end Remedy.Text
