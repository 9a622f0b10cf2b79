/-!
White space and line breaks. The line breaks are among the white space, so that a line stripped of
white space holds no break. `splitLines` cuts a text after each break, a carriage return followed by
a line feed being one, and leaves no empty line behind a final break.
-/

set_option autoImplicit false

namespace Remedy.Text

/-- Code points of white space. -/
def isBlank (c : Char) : Bool :=
  let point := c.toNat
  (9 ≤ point && point ≤ 13) || (0x1C ≤ point && point ≤ 0x20) || point == 0x85 || point == 0xA0 ||
    point == 0x1680 || (0x2000 ≤ point && point ≤ 0x200A) || point == 0x2028 || point == 0x2029 ||
    point == 0x202F || point == 0x205F || point == 0x3000

/-- Code points that end a line. -/
def isBreak (c : Char) : Bool :=
  let point := c.toNat
  (10 ≤ point && point ≤ 13) || (0x1C ≤ point && point ≤ 0x1E) || point == 0x85 ||
    point == 0x2028 || point == 0x2029

theorem isBlank_of_isBreak {c : Char} (h : isBreak c = true) : isBlank c = true := by
  simp only [isBreak, isBlank, Bool.or_eq_true, Bool.and_eq_true, decide_eq_true_eq,
    beq_iff_eq] at *
  omega

def stripEnd (cs : List Char) : List Char := (cs.reverse.dropWhile isBlank).reverse

/-- Removes the white space at both ends. -/
def strip (cs : List Char) : List Char := stripEnd (cs.dropWhile isBlank)

def stripped (s : String) : String := String.ofList (strip s.toList)

/-- The lines of a text, where `line` holds what is read of the first one, last character first. -/
def splitLinesFrom (line : List Char) : List Char → List (List Char)
  | [] => if line.isEmpty then [] else [line.reverse]
  | '\r' :: '\n' :: rest => line.reverse :: splitLinesFrom [] rest
  | c :: rest =>
    if isBreak c then line.reverse :: splitLinesFrom [] rest else splitLinesFrom (c :: line) rest

def splitLines (cs : List Char) : List (List Char) := splitLinesFrom [] cs

/-- A text with each carriage return, alone or before a line feed, as a line feed. -/
def lineFeeds : List Char → List Char
  | [] => []
  | '\r' :: '\n' :: rest => '\n' :: lineFeeds rest
  | '\r' :: rest => '\n' :: lineFeeds rest
  | c :: rest => c :: lineFeeds rest

end Remedy.Text
