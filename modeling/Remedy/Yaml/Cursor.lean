/-!
Places in the text of a YAML document. Columns and lines count from zero, and a byte order mark
takes up no column. White space ends with a space, a tab or a line break; two of the line breaks
keep their meaning within scalars, and all others count as a line feed.
-/

set_option autoImplicit false

namespace Remedy.Yaml

structure Cursor where
  offset : Nat := 0
  line : Nat := 0
  column : Nat := 0
  rest : List Char
  deriving Repr, Inhabited

def isBreak (c : Char) : Bool :=
  c == '\n' || c == '\r' || c == '\x85' || c == '\u2028' || c == '\u2029'

/-- Whether a token may end before a character: a space, a tab or a line break. -/
def isGap (c : Char) : Bool := c == ' ' || c == '\t' || isBreak c

/-- Whether nothing or a gap comes first. -/
def atGap (cs : List Char) : Bool := cs.head?.all isGap

/-- Whether nothing or a space or a line break comes first. -/
def atSpace (cs : List Char) : Bool := cs.head?.all fun c => c == ' ' || isBreak c

/-- Whether nothing or a line break comes first. -/
def atLineEnd (cs : List Char) : Bool := cs.head?.all isBreak

/-- Whether the text of a line marks the start or the end of a document. -/
def isMarker (cs : List Char) : Bool :=
  (cs.take 3 == ['-', '-', '-'] || cs.take 3 == ['.', '.', '.']) && atGap (cs.drop 3)

namespace Cursor

/-- Passes one character. -/
def next (cur : Cursor) : Cursor :=
  match cur.rest with
  | [] => cur
  | c :: rest =>
    let breaks := isBreak c && !(c == '\r' && rest.head? == some '\n')
    { offset := cur.offset + 1
      line := if breaks then cur.line + 1 else cur.line
      column := if breaks then 0 else if c = '\uFEFF' then cur.column else cur.column + 1
      rest := rest }

/-- Passes so many characters. -/
def advance : Nat → Cursor → Cursor
  | 0, cur => cur
  | n + 1, cur => advance n cur.next

/-- Takes the characters of a class off the front. -/
def span (p : Char → Bool) (cur : Cursor) : List Char × Cursor :=
  let found := cur.rest.takeWhile p
  (found, cur.advance found.length)

def dropWhile (p : Char → Bool) (cur : Cursor) : Cursor := (cur.span p).2

/-- Takes a line break off the front and says what it counts as. -/
def lineBreak? (cur : Cursor) : Option (Char × Cursor) :=
  match cur.rest with
  | '\r' :: '\n' :: _ => some ('\n', cur.advance 2)
  | c :: _ =>
    if isBreak c then some (if c = '\u2028' ∨ c = '\u2029' then c else '\n', cur.next) else none
  | [] => none

/-- Passes over spaces and over a comment. -/
def dropComment (cur : Cursor) : Cursor :=
  let cur := cur.dropWhile (· == ' ')
  if cur.rest.head? = some '#' then cur.dropWhile (!isBreak ·) else cur

/-- Passes over spaces, comments and line breaks up to the next token; the other part says whether
a line break was among them. -/
def skip : (fuel : Nat) → Cursor → Bool × Cursor
  | 0, cur => (false, cur)
  | fuel + 1, cur =>
    let cur := cur.dropComment
    match cur.lineBreak? with
    | some (_, after) => (true, (skip fuel after).2)
    | none => (false, cur)

/-- Whether a document marker stands at the cursor. -/
def atMarker (cur : Cursor) : Bool := cur.column == 0 && isMarker cur.rest

end Cursor

end Remedy.Yaml
