import Remedy.Diagnostic.Reader
import Remedy.Proofs.Text.Lines

/-!
# The grammar of diagnostics

A `Heading` is what stands between the path and the message of a diagnostic, and a `Layout` is a
way to write a line as a path, a heading and a message. A line can have several layouts, since a
path may hold whole headings; the one that counts is that with the shortest path (`Layout.First`),
and the reader finds it (`splitPath_eq_some_iff`).

The main statement is `ofLine_eq_some_iff_layout`: a line is a diagnostic exactly if it has a layout
and the first one has no zero for line or column and no path of white space only, and the
diagnostic is the one that this layout describes.
-/

set_option autoImplicit false

namespace Remedy.Diagnostic

open Remedy.Text

/-- A run of at least one character of a class. -/
def IsRun (p : Char → Bool) (cs : List Char) : Prop := cs ≠ [] ∧ ∀ c ∈ cs, p c = true

/-- What stands between the path and the message of a diagnostic. -/
structure Heading where
  line : List Char
  column : List Char
  /-- The white space in front of the word `error`. -/
  gap : List Char
  /-- The white space behind the word `error`. -/
  space : List Char
  code : List Char

namespace Heading

def text (h : Heading) : List Char :=
  "(".toList ++ (h.line ++ (",".toList ++ (h.column ++ ("):".toList ++ (h.gap ++
    ("error".toList ++ (h.space ++ (h.code ++ ":".toList))))))))

structure Proper (h : Heading) : Prop where
  line : IsRun isDigit h.line
  column : IsRun isDigit h.column
  gap : ∀ c ∈ h.gap, isBlank c = true
  space : IsRun isBlank h.space
  code : IsRun isCodeChar h.code

end Heading

/-! ### Reading what stands behind a path -/

section Steps

variable {p : Char → Bool} {cs front rest : List Char} {pattern : String}

theorem startsWith_iff_isPrefix {pattern text : List Char} :
    startsWith pattern text = true ↔ pattern <+: text := by
  induction pattern generalizing text with
  | nil => simp [startsWith]
  | cons c pattern ih =>
    cases text with
    | nil => simp [startsWith]
    | cons c' text => simp [startsWith, ih, List.cons_prefix_cons]

theorem drop?_eq_some_iff : drop? pattern cs = some rest ↔ cs = pattern.toList ++ rest := by
  unfold drop?
  rw [← String.length_toList]
  constructor
  · intro h
    split at h
    · obtain ⟨rest', rfl⟩ := startsWith_iff_isPrefix.mp ‹_›
      rw [List.drop_left] at h
      rw [Option.some.inj h]
    · cases h
  · rintro rfl
    rw [if_pos (startsWith_iff_isPrefix.mpr (List.prefix_append _ _)), List.drop_left]

theorem run?_eq_some_iff :
    run? p cs = some (front, rest) ↔
      IsRun p front ∧ cs = front ++ rest ∧ ∀ c ∈ rest.head?, p c = false := by
  unfold run? IsRun
  constructor
  · intro h
    dsimp only at h
    split at h
    · cases h
    · rename_i hne
      cases h
      refine ⟨⟨by simpa using hne, fun c hc ↦ List.mem_takeWhile_imp hc⟩,
        List.takeWhile_append_dropWhile.symm, fun c hc ↦ ?_⟩
      have := List.head?_dropWhile_not p cs
      rwa [hc] at this
  · rintro ⟨⟨hne, hall⟩, rfl, hstop⟩
    have htake : rest.takeWhile p = [] ∧ rest.dropWhile p = rest := by
      cases rest with
      | nil => simp
      | cons c rest =>
        have hc := hstop c rfl
        simp [hc]
    rw [List.takeWhile_append_of_pos hall, List.dropWhile_append_of_pos hall, htake.1, htake.2,
      List.append_nil]
    simp [hne]

theorem isBlank_of_isCodeChar {c : Char} (h : isCodeChar c = true) : isBlank c = false := by
  simp only [isCodeChar, Bool.or_eq_true, Bool.and_eq_true, decide_eq_true_eq] at h
  have hrange : (48 ≤ c.toNat ∧ c.toNat ≤ 57) ∨ (97 ≤ c.toNat ∧ c.toNat ≤ 122) ∨
      (65 ≤ c.toNat ∧ c.toNat ≤ 90) := or_assoc.mp h
  by_contra hblank
  simp only [isBlank, Bool.not_eq_false, Bool.or_eq_true, Bool.and_eq_true, decide_eq_true_eq,
    beq_iff_eq] at hblank
  omega

/-- Something stands behind a path exactly if a heading and a message do. -/
theorem readTail_eq_some_iff {tail : Tail} :
    readTail cs = some tail ↔
      ∃ h : Heading, h.Proper ∧ tail.message ≠ [] ∧ cs = h.text ++ tail.message ∧
        tail.line = h.line ∧ tail.column = h.column ∧ tail.code = h.code := by
  obtain ⟨line, column, code, message⟩ := tail
  unfold readTail
  simp only [Option.bind_eq_bind, Option.bind_eq_some_iff, drop?_eq_some_iff, Prod.exists,
    run?_eq_some_iff]
  constructor
  · rintro ⟨_, rfl, line', _, ⟨hline, rfl, -⟩, _, rfl, column', _, ⟨hcolumn, rfl, -⟩, cs, rfl, _,
      hword, space, _, ⟨hspace, rfl, -⟩, code', _, ⟨hcode, rfl, -⟩, message', rfl, hread⟩
    split at hread
    · cases hread
    · rename_i hmessage
      cases hread
      obtain ⟨gap, hgap, rfl⟩ : ∃ gap, (∀ c ∈ gap, isBlank c = true) ∧ cs = gap ++ _ :=
        ⟨_, fun c hc ↦ List.mem_takeWhile_imp hc, (hword ▸ List.takeWhile_append_dropWhile).symm⟩
      exact ⟨⟨line, column, gap, space, code⟩, ⟨hline, hcolumn, hgap, hspace, hcode⟩,
        by simpa using hmessage, by simp [Heading.text], rfl, rfl, rfl⟩
  · rintro ⟨h, hproper, hmessage, rfl, rfl, rfl, rfl⟩
    have htext : h.text ++ message = "(".toList ++ (h.line ++ (",".toList ++ (h.column ++
        ("):".toList ++ (h.gap ++ ("error".toList ++ (h.space ++ (h.code ++
          (":".toList ++ message))))))))) := by
      simp [Heading.text]
    refine ⟨_, htext, h.line, _, ⟨hproper.line, rfl, by simpa using by decide⟩, _, rfl, h.column, _,
      ⟨hproper.column, rfl, by simpa using by decide⟩, _, rfl, _, ?_, h.space, _,
      ⟨hproper.space, rfl, ?_⟩, h.code, _, ⟨hproper.code, rfl, by simpa using by decide⟩, message,
      rfl, ?_⟩
    · rw [List.dropWhile_append_of_pos hproper.gap]
      rfl
    · obtain ⟨c, code, hcode⟩ := List.exists_cons_of_ne_nil hproper.code.1
      have hc := hproper.code.2 c (by simp [hcode])
      simpa [hcode] using isBlank_of_isCodeChar hc
    · simp [hmessage]

end Steps

/-! ### The shortest path -/

section Paths

variable {path cs : List Char}

/-- What is passed over and what is left where the reading of a path stops. -/
structure Stop (passed cs front rest : List Char) (tail : Tail) : Prop where
  eq : cs = front ++ rest
  path : passed.reverse ++ front ≠ []
  tail : readTail rest = some tail

theorem Stop.of_cons {c : Char} {front rest : List Char} {tail : Tail}
    (h : Stop (c :: path) cs front rest tail) : Stop path (c :: cs) (c :: front) rest tail :=
  ⟨by rw [h.eq, List.cons_append], by simp, h.tail⟩

/-- A stop that passes over a character is one behind that character. -/
theorem Stop.to_cons {c c' : Char} {front rest : List Char} {tail : Tail}
    (h : Stop path (c :: cs) (c' :: front) rest tail) :
    c' = c ∧ Stop (c :: path) cs front rest tail := by
  obtain ⟨rfl, heq⟩ := List.cons.inj h.eq
  exact ⟨rfl, heq, by simp, h.tail⟩

theorem Stop.now {c : Char} {rest : List Char} {tail : Tail}
    (h : Stop path (c :: cs) [] rest tail) :
    (if path.isEmpty then none else readTail (c :: cs)) = some tail := by
  have hpath : path ≠ [] := by simpa using h.path
  have hrest : rest = c :: cs := h.eq.symm
  rw [if_neg (by simpa using hpath), ← hrest, h.tail]

theorem stop_of_splitPath_eq_some {front : List Char} {tail : Tail}
    (h : splitPath path cs = some (front, tail)) :
    ∃ more rest, front = path.reverse ++ more ∧ Stop path cs more rest tail ∧
      ∀ more' rest' tail', Stop path cs more' rest' tail' → more.length ≤ more'.length := by
  induction cs generalizing path with
  | nil => cases h
  | cons c cs ih =>
    rw [splitPath] at h
    split at h
    · rename_i tail' htail
      cases h
      have hne : path ≠ [] := by
        rintro rfl
        cases htail
      rw [if_neg (by simpa using hne)] at htail
      exact ⟨[], c :: cs, by simp, ⟨rfl, by simpa using hne, htail⟩, by simp⟩
    · rename_i hnow
      obtain ⟨more, rest, rfl, hstop, hleast⟩ := ih h
      refine ⟨c :: more, rest, by simp, hstop.of_cons, fun more' rest' tail' hstop' ↦ ?_⟩
      cases more' with
      | nil => exact absurd (hnow.symm.trans hstop'.now) (by simp)
      | cons c' more' =>
        obtain ⟨rfl, hstop'⟩ := hstop'.to_cons
        exact Nat.succ_le_succ (hleast more' rest' tail' hstop')

theorem not_stop_of_splitPath_eq_none {more rest : List Char} {tail : Tail}
    (h : splitPath path cs = none) : ¬ Stop path cs more rest tail := by
  intro hstop
  induction cs generalizing path more with
  | nil =>
    obtain ⟨rfl, rfl⟩ := List.append_eq_nil_iff.mp hstop.eq.symm
    cases hstop.tail
  | cons c cs ih =>
    rw [splitPath] at h
    split at h
    · cases h
    · rename_i hnow
      cases more with
      | nil => exact absurd (hnow.symm.trans hstop.now) (by simp)
      | cons c' more =>
        obtain ⟨rfl, hstop⟩ := hstop.to_cons
        exact ih h hstop

end Paths

/-! ### Layouts -/

/-- A line as a path, a heading and a message. -/
structure Layout where
  path : List Char
  heading : Heading
  message : List Char

namespace Layout

def text (g : Layout) : List Char := g.path ++ (g.heading.text ++ g.message)

/-- The line is written as the layout says. -/
structure Of (g : Layout) (line : List Char) : Prop where
  eq : line = g.text
  path : g.path ≠ []
  heading : g.heading.Proper
  message : g.message ≠ []

/-- Of the layouts of a line, one with the shortest path. -/
structure First (g : Layout) (line : List Char) : Prop extends g.Of line where
  least : ∀ g' : Layout, g'.Of line → g.path.length ≤ g'.path.length

def tail (g : Layout) : Tail :=
  ⟨g.heading.line, g.heading.column, g.heading.code, g.message⟩

/-- The diagnostic that a layout of a line describes. -/
def diagnostic (g : Layout) (line : List Char) : Diagnostic where
  file := String.ofList (strip g.path)
  line := numeral g.heading.line
  column := numeral g.heading.column
  code := String.ofList g.heading.code
  message := String.ofList (strip g.message)
  raw := String.ofList line

variable {g g' : Layout} {line : List Char}

theorem Of.stop (h : g.Of line) : Stop [] line g.path (g.heading.text ++ g.message) g.tail :=
  ⟨h.eq, by simpa using h.path,
    readTail_eq_some_iff.mpr ⟨_, h.heading, h.message, rfl, rfl, rfl, rfl⟩⟩

theorem of_of_stop {front rest : List Char} {tail : Tail} (h : Stop [] line front rest tail) :
    ∃ g : Layout, g.Of line ∧ g.path = front ∧ g.tail = tail := by
  obtain ⟨heading, hproper, hmessage, rfl, hline, hcolumn, hcode⟩ :=
    readTail_eq_some_iff.mp h.tail
  refine ⟨⟨front, heading, tail.message⟩, ⟨h.eq, by simpa using h.path, hproper, hmessage⟩, rfl, ?_⟩
  simp [Layout.tail, ← hline, ← hcolumn, ← hcode]

/-- The shortest path of a line decides what is read behind it. -/
theorem First.unique (h : g.First line) (h' : g'.First line) :
    g.path = g'.path ∧ g.tail = g'.tail := by
  have hlength : g.path.length = g'.path.length :=
    le_antisymm (h.least g' h'.toOf) (h'.least g h.toOf)
  obtain ⟨hpath, hrest⟩ := List.append_inj (h.eq.symm.trans h'.eq) hlength
  refine ⟨hpath, Option.some.inj ?_⟩
  rw [← h.toOf.stop.tail, ← h'.toOf.stop.tail, hrest]

end Layout

/-- The path is split off where the first layout of the line says. -/
theorem splitPath_eq_some_iff {line front : List Char} {tail : Tail} :
    splitPath [] line = some (front, tail) ↔
      ∃ g : Layout, g.First line ∧ g.path = front ∧ g.tail = tail := by
  have hsound : ∀ front tail, splitPath [] line = some (front, tail) →
      ∃ g : Layout, g.First line ∧ g.path = front ∧ g.tail = tail := by
    intro front tail h
    obtain ⟨more, rest, rfl, hstop, hleast⟩ := stop_of_splitPath_eq_some h
    obtain ⟨g, hof, rfl, rfl⟩ := Layout.of_of_stop hstop
    exact ⟨g, ⟨hof, fun g' hof' ↦ hleast _ _ _ hof'.stop⟩, rfl, rfl⟩
  refine ⟨hsound front tail, ?_⟩
  rintro ⟨g, hfirst, rfl, rfl⟩
  cases hread : splitPath [] line with
  | none => exact absurd hfirst.toOf.stop (not_stop_of_splitPath_eq_none hread)
  | some read =>
    obtain ⟨g', hfirst', hpath, htail⟩ := hsound read.1 read.2 hread
    obtain ⟨hpath', htail'⟩ := hfirst.unique hfirst'
    rw [hpath', htail', hpath, htail]

/-- Nothing is split off exactly if the line has no layout. -/
theorem splitPath_eq_none_iff {line : List Char} :
    splitPath [] line = none ↔ ∀ g : Layout, ¬ g.Of line := by
  constructor
  · exact fun h g hof ↦ not_stop_of_splitPath_eq_none h hof.stop
  · intro h
    refine Option.eq_none_iff_forall_ne_some.mpr fun ⟨front, tail⟩ hread ↦ ?_
    obtain ⟨g, hfirst, -⟩ := splitPath_eq_some_iff.mp hread
    exact h g hfirst.toOf

theorem Layout.Of.exists_first {g : Layout} {line : List Char} (h : g.Of line) :
    ∃ g' : Layout, g'.First line := by
  cases hread : splitPath [] line with
  | none => exact absurd h (splitPath_eq_none_iff.mp hread g)
  | some read =>
    obtain ⟨g', hfirst, -⟩ := splitPath_eq_some_iff.mp hread
    exact ⟨g', hfirst⟩

/-! ### Lines -/

namespace Layout

/-- A layout with a place in it: no zero for line or column, and a path that is not all white
space. -/
structure Placed (g : Layout) : Prop where
  line : 1 ≤ numeral g.heading.line
  column : 1 ≤ numeral g.heading.column
  path : strip g.path ≠ []

/-- The runs of digits are not too long to be read as numbers. -/
def Short (g : Layout) : Prop :=
  g.heading.line.length ≤ Json.digitLimit ∧ g.heading.column.length ≤ Json.digitLimit

variable {g : Layout} {line : List Char}

theorem placed_iff_not :
    g.Placed ↔ ¬ (numeral g.heading.line = 0 ∨ numeral g.heading.column = 0 ∨
      (strip g.path).isEmpty = true) := by
  rw [List.isEmpty_iff]
  constructor
  · rintro ⟨hline, hcolumn, hpath⟩ (h | h | h)
    · omega
    · omega
    · exact hpath h
  · intro h
    push Not at h
    exact ⟨Nat.one_le_iff_ne_zero.mpr h.1, Nat.one_le_iff_ne_zero.mpr h.2.1, h.2.2⟩

theorem First.placed_iff {g' : Layout} (h : g.First line) (h' : g'.First line) :
    g.Placed ↔ g'.Placed := by
  obtain ⟨hpath, htail⟩ := h.unique h'
  rw [placed_iff_not, placed_iff_not, hpath, show g.heading.line = g'.heading.line from
    congrArg Tail.line htail, show g.heading.column = g'.heading.column from
    congrArg Tail.column htail]

end Layout

theorem position_of_le {digits : List Char} (h : digits.length ≤ Json.digitLimit) :
    position digits = .ok (numeral digits) :=
  if_neg (by omega)

theorem position_of_lt {digits : List Char} (h : Json.digitLimit < digits.length) :
    position digits = .error (.longNumber digits.length) :=
  if_pos h

section OfLine

variable {g : Layout} {line : List Char}

theorem ofLine_of_placed (h : g.First line) (hshort : g.Short) (hplaced : g.Placed) :
    ofLine line = .ok (some (g.diagnostic line)) := by
  rw [ofLine, splitPath_eq_some_iff.mpr ⟨g, h, rfl, rfl⟩]
  simp only [Layout.tail, position_of_le hshort.1, position_of_le hshort.2]
  exact if_neg (Layout.placed_iff_not.mp hplaced)

theorem ofLine_of_not_placed (h : g.First line) (hshort : g.Short) (hplaced : ¬ g.Placed) :
    ofLine line = .ok none := by
  rw [ofLine, splitPath_eq_some_iff.mpr ⟨g, h, rfl, rfl⟩]
  simp only [Layout.tail, position_of_le hshort.1, position_of_le hshort.2]
  exact if_pos (not_not.mp (mt Layout.placed_iff_not.mpr hplaced))

theorem ofLine_of_no_layout (h : ∀ g : Layout, ¬ g.Of line) : ofLine line = .ok none := by
  rw [ofLine, splitPath_eq_none_iff.mpr h]

/-- A line that is read at all has no runs of digits that are too long. -/
theorem Layout.First.short_of_ofLine (h : g.First line) {answer : Option Diagnostic}
    (hread : ofLine line = .ok answer) : g.Short := by
  rw [ofLine, splitPath_eq_some_iff.mpr ⟨g, h, rfl, rfl⟩] at hread
  simp only [Layout.tail] at hread
  refine ⟨le_of_not_gt fun hlong ↦ ?_, le_of_not_gt fun hlong ↦ ?_⟩
  · rw [position_of_lt hlong] at hread
    cases hread
  · rw [position_of_lt hlong] at hread
    cases hline : position g.heading.line <;> rw [hline] at hread <;> cases hread

theorem exists_layout_of_ofLine {d : Diagnostic} (h : ofLine line = .ok (some d)) :
    ∃ g : Layout, g.First line ∧ g.Short ∧ g.Placed ∧ d = g.diagnostic line := by
  by_cases hlayout : ∃ g : Layout, g.Of line
  · obtain ⟨g', hof⟩ := hlayout
    obtain ⟨g, hfirst⟩ := hof.exists_first
    have hshort := hfirst.short_of_ofLine h
    by_cases hplaced : g.Placed
    · rw [ofLine_of_placed hfirst hshort hplaced] at h
      cases h
      exact ⟨g, hfirst, hshort, hplaced, rfl⟩
    · rw [ofLine_of_not_placed hfirst hshort hplaced] at h
      cases h
  · rw [ofLine_of_no_layout (not_exists.mp hlayout)] at h
    cases h

theorem Layout.Of.short (h : g.Of line)
    (hruns : ∀ run, run <:+: line → (∀ c ∈ run, isDigit c = true) →
      run.length ≤ Json.digitLimit) : g.Short := by
  have htext : line = g.path ++ "(".toList ++ g.heading.line ++ (",".toList ++ (g.heading.column ++
      ("):".toList ++ (g.heading.gap ++ ("error".toList ++ (g.heading.space ++ (g.heading.code ++
        (":".toList ++ g.message)))))))) := by
    simp [h.eq, Layout.text, Heading.text]
  refine ⟨hruns _ ⟨_, _, htext.symm⟩ h.heading.line.2, hruns _ ⟨?_, ?_, ?_⟩ h.heading.column.2⟩
  · exact g.path ++ "(".toList ++ g.heading.line ++ ",".toList
  · exact "):".toList ++ (g.heading.gap ++ ("error".toList ++ (g.heading.space ++ (g.heading.code ++
      (":".toList ++ g.message)))))
  · simp [htext]

/-- The message of a stripped line is not all white space. -/
theorem Layout.Of.strip_message_ne_nil (h : g.Of line) (hstrip : strip line = line) :
    strip g.message ≠ [] := by
  intro hblank
  have hmem : g.message.getLast h.message ∈ line.getLast? := by
    simp only [h.eq, Layout.text]
    rw [List.getLast?_append_of_ne_nil _ (by simp [h.message]),
      List.getLast?_append_of_ne_nil _ h.message, List.getLast?_eq_some_getLast h.message]
    rfl
  have hlast := (strip_eq_self_iff.mp hstrip).2 _ hmem
  rw [strip_eq_nil_iff.mp hblank _ (List.getLast_mem h.message)] at hlast
  cases hlast

end OfLine

/-- A stripped line is a diagnostic exactly if it has a layout and the first one has a place in it;
and the diagnostic is the one that the first layout describes. -/
theorem ofLine_eq_some_iff_layout (line : List Char) (hstrip : strip line = line)
    (hruns : ∀ run, run <:+: line → (∀ c ∈ run, isDigit c = true) →
      run.length ≤ Json.digitLimit) :
    (∃ answer, ofLine line = .ok answer) ∧
    ((∃ d, ofLine line = .ok (some d)) ↔
      (∃ g : Layout, g.Of line) ∧ ∀ g : Layout, g.First line → g.Placed) ∧
    ∀ d, ofLine line = .ok (some d) → ∀ g : Layout, g.First line →
      d = g.diagnostic line ∧ d.file ≠ "" ∧ d.code ≠ "" ∧ d.message ≠ "" := by
  refine ⟨?_, ⟨?_, ?_⟩, ?_⟩
  · by_cases hlayout : ∃ g : Layout, g.Of line
    · obtain ⟨g', hof⟩ := hlayout
      obtain ⟨g, hfirst⟩ := hof.exists_first
      have hshort := hfirst.toOf.short hruns
      by_cases hplaced : g.Placed
      · exact ⟨_, ofLine_of_placed hfirst hshort hplaced⟩
      · exact ⟨_, ofLine_of_not_placed hfirst hshort hplaced⟩
    · exact ⟨_, ofLine_of_no_layout (not_exists.mp hlayout)⟩
  · rintro ⟨d, hd⟩
    obtain ⟨g, hfirst, -, hplaced, -⟩ := exists_layout_of_ofLine hd
    exact ⟨⟨g, hfirst.toOf⟩, fun g' hfirst' ↦ (hfirst'.placed_iff hfirst).mpr hplaced⟩
  · rintro ⟨⟨g', hof⟩, hplaced⟩
    obtain ⟨g, hfirst⟩ := hof.exists_first
    exact ⟨_, ofLine_of_placed hfirst (hfirst.toOf.short hruns) (hplaced g hfirst)⟩
  · intro d hd g hfirst
    obtain ⟨g', hfirst', -, hplaced', -⟩ := exists_layout_of_ofLine hd
    have hplaced : g.Placed := (hfirst.placed_iff hfirst').mpr hplaced'
    rw [ofLine_of_placed hfirst (hfirst.toOf.short hruns) hplaced] at hd
    cases hd
    exact ⟨rfl, by simpa [Layout.diagnostic] using hplaced.path,
      by simpa [Layout.diagnostic] using hfirst.heading.code.1,
      by simpa [Layout.diagnostic] using hfirst.toOf.strip_message_ne_nil hstrip⟩

/-- A path that holds a place, a digit of another script and a heading in the message. -/
theorem ofLine_eq_some_iff_layout_nested :
    let line := "b(1,2) (03,\u0664):  error TS1: a(5,6): error TS2: m".toList
    let d : Diagnostic := ⟨"b(1,2)", 3, 4, "TS1", "a(5,6): error TS2: m", String.ofList line⟩
    ofLine line = .ok (some d) ∧ (∃ g : Layout, g.Of line) ∧
      ∀ g : Layout, g.First line → g.Placed ∧ d = g.diagnostic line := by
  intro line d
  have hread : ofLine line = .ok (some d) := by rfl
  obtain ⟨-, hiff, heq⟩ := ofLine_eq_some_iff_layout line (by decide)
    fun run hrun _ ↦ hrun.length_le.trans (by decide)
  exact ⟨hread, (hiff.mp ⟨d, hread⟩).1,
    fun g h ↦ ⟨(hiff.mp ⟨d, hread⟩).2 g h, (heq d hread g h).1⟩⟩

end Remedy.Diagnostic
