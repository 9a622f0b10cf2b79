import Remedy.Fault
import Remedy.Yaml.Cursor

/-!
Scalars of a YAML document. Where a scalar runs over several lines, a single line break between two
lines of it counts as a space, and of several the first one is dropped. In a block scalar this holds
only if the lines are folded, and not next to a line that is indented further.
-/

set_option autoImplicit false

namespace Remedy.Yaml

/-- What line breaks in a row stand for: `first` and then `more`. -/
def folded (first : Char) (more : List Char) : List Char :=
  if first ≠ '\n' then first :: more
  else if more.isEmpty then [' ']
  else more

/-! ### Plain scalars -/

def flowMarks : List Char := [',', '[', ']', '\x7b', '\x7d']

/-- Whether a plain scalar ends before a character. -/
def endsPlain (flow : Bool) (c : Char) (rest : List Char) : Bool :=
  isGap c ||
    (c == ':' && (atGap rest || (flow && rest.head?.any flowMarks.contains))) ||
    (flow && (flowMarks.contains c || c == '?'))

/-- The next word of a plain scalar. -/
def plainWord (flow : Bool) : List Char → List Char
  | [] => []
  | c :: rest => if endsPlain flow c rest then [] else c :: plainWord flow rest

/-- Passes over line breaks and spaces, and says what the breaks count as. None in the place of the
breaks if a document marker comes up. -/
def moreBreaks : (fuel : Nat) → Cursor → Option (List Char) × Cursor
  | 0, cur => (some [], cur)
  | fuel + 1, cur =>
    if cur.atMarker then (none, cur)
    else
      let cur := cur.dropWhile (· == ' ')
      match cur.lineBreak? with
      | none => (some [], cur)
      | some (c, after) =>
        let (breaks, after) := moreBreaks fuel after
        (breaks.map (c :: ·), after)

/-- What stands between two words of a plain scalar: what it counts as, whether a line ended, and
where it leads. Nothing is there where the scalar ends. -/
def plainGap (cur : Cursor) : List Char × Bool × Cursor :=
  let (spaces, cur) := cur.span (· == ' ')
  match cur.lineBreak? with
  | none => (spaces, false, cur)
  | some (first, after) =>
    match moreBreaks (after.rest.length + 1) after with
    | (none, after) => ([], true, after)
    | (some breaks, after) => (folded first breaks, true, after)

/-- The rest of a plain scalar of which `done` was read, `gap` being what stands behind it. Comes
with whether a line ended behind the last word. -/
def plainFrom (flow : Bool) (indent : Int) :
    (fuel : Nat) → (done gap : List Char) → (ended : Bool) → Cursor → List Char × Bool × Cursor
  | 0, done, _, ended, cur => (done, ended, cur)
  | fuel + 1, done, gap, ended, cur =>
    let word := plainWord flow cur.rest
    if cur.rest.head? = some '#' ∨ word.isEmpty then (done, ended, cur)
    else
      let done := done ++ gap ++ word
      let (gap, ended, after) := plainGap (cur.advance word.length)
      if gap.isEmpty ∨ after.rest.head? = some '#' ∨ (!flow ∧ after.column < indent) then
        (done, ended, after)
      else plainFrom flow indent fuel done gap ended after

/-- Reads a plain scalar; the part in the middle says whether a line ended behind it. -/
def readPlain (flow : Bool) (indent : Int) (cur : Cursor) : String × Bool × Cursor :=
  let (text, ended, after) := plainFrom flow indent (cur.rest.length + 1) [] [] false cur
  (String.ofList text, ended, after)

/-- Whether a plain scalar may start here. -/
def startsPlain (flow : Bool) : List Char → Bool
  | [] => false
  | c :: rest =>
    if isGap c then false
    else if ['-', '?', ':'].contains c then !atGap rest && (c == '-' || !flow)
    else !(flowMarks ++ ['#', '&', '*', '!', '|', '>', '\x27', '"', '%', '@', '\x60']).contains c

/-! ### Quoted scalars -/

/-- The character that a letter behind a backslash writes. -/
def escapeOf? (c : Char) : Option Char :=
  match c with
  | '0' => some '\x00'
  | 'a' => some '\x07'
  | 'b' => some '\x08'
  | 't' => some '\t'
  | '\t' => some '\t'
  | 'n' => some '\n'
  | 'v' => some '\x0b'
  | 'f' => some '\x0c'
  | 'r' => some '\r'
  | 'e' => some '\x1b'
  | ' ' => some ' '
  | '"' => some '"'
  | '/' => some '/'
  | '\\' => some '\\'
  | 'N' => some '\x85'
  | '_' => some '\xa0'
  | 'L' => some '\u2028'
  | 'P' => some '\u2029'
  | _ => none

/-- How many hexadecimal digits follow a letter behind a backslash. -/
def hexCount? (c : Char) : Option Nat :=
  match c with
  | 'x' => some 2
  | 'u' => some 4
  | 'U' => some 8
  | _ => none

/-- The number that digits write to a base of at most sixteen. -/
def numeral (base : Nat) (cs : List Char) : Nat :=
  cs.foldl (fun n c => base * n + (Json.hexValue? c).getD 0) 0

/-- The character of a code point, if there may be one. -/
def characterOf (point : Nat) : Except Fault Char :=
  if point < 0x110000 then .ok (Char.ofNat point)
  else if point < Nat.pow 2 31 then
    .error (.invalid (.outOfRange "chr() arg not in range(0x110000)"))
  else .error (.raised .overflow "Python int too large to convert to C int")

/-- Passes over line breaks and white space in a quoted scalar, and says what the breaks count as.
None if a document marker comes up. -/
def quotedBreaks : (fuel : Nat) → Cursor → Option (List Char × Cursor)
  | 0, cur => some ([], cur)
  | fuel + 1, cur =>
    if isMarker cur.rest then none
    else
      let cur := cur.dropWhile fun c => c == ' ' || c == '\t'
      match cur.lineBreak? with
      | some (c, after) => (quotedBreaks fuel after).map fun r => (c :: r.1, r.2)
      | none => some ([], cur)

/-- Reads what a backslash between double quotes, which was passed, and the character behind it
stand for. -/
def readEscape (cur : Cursor) : Except Fault (List Char × Cursor) :=
  match cur.rest with
  | [] => .error .markup
  | c :: rest =>
    match escapeOf? c, hexCount? c, cur.lineBreak? with
    | some written, _, _ => .ok ([written], cur.next)
    | none, some count, _ =>
      let digits := rest.take count
      if digits.length = count ∧ digits.all fun c => (Json.hexValue? c).isSome then
        (characterOf (numeral 16 digits)).map fun c => ([c], cur.advance (count + 1))
      else .error .markup
    | none, none, some (_, after) =>
      match quotedBreaks (after.rest.length + 1) after with
      | some r => .ok r
      | none => .error .markup
    | none, none, none => .error .markup

/-- The rest of a quoted scalar of which `done` was read, and what follows it. -/
def quotedFrom (double : Bool) :
    (fuel : Nat) → (done : List Char) → Cursor → Except Fault (List Char × Cursor)
  | 0, _, _ => .error .markup
  | fuel + 1, done, cur =>
    match cur.rest with
    | [] => .error .markup
    | c :: rest =>
      if isGap c then
        let (blanks, after) := cur.span fun c => c == ' ' || c == '\t'
        match after.lineBreak? with
        | none => quotedFrom double fuel (done ++ blanks) after
        | some (first, more) =>
          match quotedBreaks (more.rest.length + 1) more with
          | none => .error .markup
          | some (breaks, after) => quotedFrom double fuel (done ++ folded first breaks) after
      else if double ∧ c = '\\' then
        match readEscape cur.next with
        | .error fault => .error fault
        | .ok (written, after) => quotedFrom double fuel (done ++ written) after
      else if !double ∧ c = '\x27' ∧ rest.head? = some '\x27' then
        quotedFrom double fuel (done ++ ['\x27']) (cur.advance 2)
      else if c = (if double then '"' else '\x27') then .ok (done, cur.next)
      else quotedFrom double fuel (done ++ [c]) cur.next

/-- Reads a quoted scalar, the opening quote first. -/
def readQuoted (double : Bool) (cur : Cursor) : Except Fault (String × Cursor) :=
  (quotedFrom double (cur.rest.length + 1) [] cur.next).map fun (text, after) =>
    (String.ofList text, after)

/-! ### Block scalars -/

/-- What becomes of the line breaks at the end of a block scalar. -/
inductive Chomp where
  | strip
  | clip
  | keep
  deriving DecidableEq, Repr

/-- The chomping and the indentation that the header of a block scalar gives. None if anything else
stands in it. -/
def readHeader (cur : Cursor) : Option (Chomp × Option Nat × Cursor) :=
  let chomp? (c : Option Char) : Option Chomp :=
    if c = some '+' then some .keep else if c = some '-' then some .strip else none
  let digit? (c : Option Char) : Option Nat :=
    c.bind fun c => if '0' ≤ c ∧ c ≤ '9' then some (c.toNat - 48) else none
  let first := cur.rest.head?
  let second := cur.rest[1]?
  let header := match chomp? first, digit? first with
    | some chomp, _ =>
      match digit? second with
      | some n => (chomp, some n, cur.advance 2)
      | none => (chomp, none, cur.next)
    | none, some n =>
      match chomp? second with
      | some chomp => (chomp, some n, cur.advance 2)
      | none => (.clip, some n, cur.next)
    | none, none => (.clip, none, cur)
  if header.2.1 = some 0 ∨ !atSpace header.2.2.rest then none else some header

/-- Passes over the rest of a line on which only a comment may stand. -/
def endLine (cur : Cursor) : Option Cursor :=
  let cur := cur.dropComment
  match cur.lineBreak? with
  | some (_, after) => some after
  | none => if cur.rest.isEmpty then some cur else none

/-- Passes over empty lines in a block scalar and over the spaces before column `limit` of the line
that follows; says what the breaks count as. -/
def emptyLines (limit : Int) : (fuel : Nat) → Cursor → List Char × Cursor
  | 0, cur => ([], cur)
  | fuel + 1, cur =>
    if cur.rest.head? = some ' ' ∧ cur.column < limit then emptyLines limit fuel cur.next
    else
      match cur.lineBreak? with
      | some (c, after) =>
        let (breaks, after) := emptyLines limit fuel after
        (c :: breaks, after)
      | none => ([], cur)

/-- The greatest column that spaces reach before the first line of a block scalar with other
characters. -/
def contentColumn : (greatest column : Nat) → List Char → Nat
  | greatest, _, [] => greatest
  | greatest, column, c :: rest =>
    if c = ' ' then contentColumn (max greatest (column + 1)) (column + 1) rest
    else if isBreak c then contentColumn greatest 0 rest
    else greatest

/-- The lines of a block scalar that stand at a column, `done` being what comes before: the text,
the last line break, the breaks after it, and where the next line begins. -/
def blockLines (fold : Bool) (indent : Int) :
    (fuel : Nat) → (done ending breaks : List Char) → Cursor →
      List Char × List Char × List Char × Cursor
  | 0, done, ending, breaks, cur => (done, ending, breaks, cur)
  | fuel + 1, done, ending, breaks, cur =>
    if cur.column ≠ indent ∨ cur.rest.isEmpty then (done, ending, breaks, cur)
    else
      let (line, cur) := cur.span (!isBreak ·)
      let (ending, after) := match cur.lineBreak? with
        | some (c, after) => ([c], after)
        | none => ([], cur)
      let (more, after) := emptyLines indent (after.rest.length + 1) after
      let text := done ++ breaks ++ line
      if after.column = indent ∧ !after.rest.isEmpty then
        let dark (c : Option Char) : Bool := !(c == some ' ' || c == some '\t')
        let joint :=
          if fold && ending == ['\n'] && dark line.head? && dark after.rest.head? then
            if more.isEmpty then [' '] else []
          else ending
        blockLines fold indent fuel (text ++ joint) [] more after
      else (text, ending, more, after)

/-- Reads a block scalar, its mark first, inside of what stands at column `outer`. -/
def readBlock (outer : Int) (cur : Cursor) : Option (String × Cursor) := do
  let fold := cur.rest.head? == some '>'
  let (chomp, given, cur) ← readHeader cur.next
  let cur ← endLine cur
  let least : Int := if outer < 0 then 1 else outer + 1
  let indent : Int := match given with
    | some n => least + n - 1
    | none =>
      let content : Int := contentColumn 0 0 cur.rest
      if least < content then content else least
  let (breaks, cur) := emptyLines indent (cur.rest.length + 1) cur
  let (text, ending, breaks, cur) := blockLines fold indent (cur.rest.length + 1) [] [] breaks cur
  let text := text ++
    match chomp with
    | .strip => []
    | .clip => ending
    | .keep => ending ++ breaks
  return (String.ofList text, cur)

end Remedy.Yaml
