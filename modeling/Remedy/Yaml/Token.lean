import Remedy.Yaml.Scalar

/-!
Tokens of a YAML document. Where a collection in blocks starts and ends follows from indentation,
but has tokens of its own, and so has the beginning of a key, whether it is marked as such or not.
-/

set_option autoImplicit false

namespace Remedy.Yaml

/-- What a line that starts with a percent sign says about the document. -/
inductive Directive where
  | version (major : Nat)
  /-- Tags with this handle start with the text instead. -/
  | handle (handle text : String)
  | other
  deriving Repr

inductive Token where
  | directive (d : Directive)
  | documentStart
  | documentEnd
  | listStart
  | mapStart
  | blockEnd
  | flowListStart
  | flowListEnd
  | flowMapStart
  | flowMapEnd
  /-- The dash in front of an item. -/
  | item
  /-- The comma between two items. -/
  | comma
  | key
  | value
  | alias (name : String)
  | anchor (name : String)
  | tag (handle : Option String) (suffix : String)
  | scalar (text : String) (plain : Bool)
  /-- What comes next is no token. -/
  | fault (cause : Fault)
  deriving Repr

/-- A token and where it ends, or what is wrong with it. -/
abbrev Lexed := Except Fault (Token × Cursor)

/-! ### Names, handles and addresses -/

def isDigit (c : Char) : Bool := '0' ≤ c && c ≤ '9'

def isNameChar (c : Char) : Bool :=
  isDigit c || ('A' ≤ c && c ≤ 'Z') || ('a' ≤ c && c ≤ 'z') || c == '-' || c == '_'

def isAddressChar (c : Char) : Bool := isNameChar c || ";/?:@&=+$,.!~*\x27()[]".toList.contains c

/-- Reads the name of an anchor or an alias, its mark first. -/
def readName (token : String → Token) (cur : Cursor) : Lexed :=
  let (name, after) := cur.next.span isNameChar
  let mayFollow (c : Char) : Bool := isGap c || "?:,]\x7d%@\x60".toList.contains c
  if name.isEmpty || !after.rest.head?.all mayFollow then .error .markup
  else .ok (token (String.ofList name), after)

/-- Reads the handle of a tag: one exclamation mark, or a name between two of them. -/
def readHandle (cur : Cursor) : Except Fault (String × Cursor) :=
  match cur.rest with
  | '!' :: ' ' :: _ => .ok ("!", cur.next)
  | '!' :: rest =>
    let name := rest.takeWhile isNameChar
    if rest[name.length]? = some '!' then
      .ok (String.ofList ('!' :: name ++ ['!']), cur.advance (name.length + 2))
    else .error .markup
  | _ => .error .markup

/-- The bytes that the front of a text writes, each by a percent sign and two digits. None if digits
are missing. -/
def percentBytes : List Char → Option Text.Bytes
  | '%' :: a :: b :: rest =>
    match Json.hexValue? a, Json.hexValue? b, percentBytes rest with
    | some high, some low, some more => some (UInt8.ofNat (16 * high + low) :: more)
    | _, _, _ => none
  | c :: _ => if c = '%' then none else some []
  | [] => some []

/-- The rest of an address of which `done` was read. -/
def addressFrom : (fuel : Nat) → (done : List Char) → Cursor → Except Fault (String × Cursor)
  | 0, _, _ => .error .markup
  | fuel + 1, done, cur =>
    let (plain, after) := cur.span isAddressChar
    let done := done ++ plain
    if after.rest.head? = some '%' then
      match (percentBytes after.rest).map fun bytes => (bytes.length, Text.decodeStrict bytes) with
      | some (count, .ok text) =>
        addressFrom fuel (done ++ text.toList) (after.advance (3 * count))
      | _ => .error .markup
    else if done.isEmpty then .error .markup
    else .ok (String.ofList done, after)

/-- Reads the address of a tag. -/
def readAddress (cur : Cursor) : Except Fault (String × Cursor) :=
  addressFrom (cur.rest.length + 1) [] cur

/-! ### Tags and directives -/

/-- Reads a tag: an address in angle brackets, a handle with an address, or a mark that stands for
itself. -/
def readTag (cur : Cursor) : Lexed := do
  let behind := cur.rest.drop 1
  let (handle, suffix, after) ←
    if behind.head? = some '<' then do
      let (address, after) ← readAddress (cur.advance 2)
      if after.rest.head? = some '>' then pure (none, address, after.next) else throw .markup
    else if atGap behind then pure (none, "!", cur.next)
    else do
      let word := behind.takeWhile fun c => !(c == ' ' || isBreak c)
      let (handle, after) ←
        if word.contains '!' then readHandle cur else pure ("!", cur.next)
      let (address, after) ← readAddress after
      pure (some handle, address, after)
  if atSpace after.rest then return (.tag handle suffix, after) else throw .markup

/-- Reads one of the two numbers of a version. -/
def readVersionPart (cur : Cursor) : Except Fault (Nat × Cursor) :=
  let (digits, after) := cur.span isDigit
  if digits.isEmpty then .error .markup
  else if Json.digitLimit < digits.length then .error (.invalid (.longNumber digits.length))
  else .ok (numeral 10 digits, after)

/-- Reads what a directive of a name says. -/
def readDirectiveValue (name : String) (cur : Cursor) : Except Fault (Directive × Cursor) := do
  let blank (c : Char) : Bool := c == ' '
  if name = "YAML" then
    let (major, after) ← readVersionPart (cur.dropWhile blank)
    if after.rest.head? ≠ some '.' then throw .markup
    let (_, after) ← readVersionPart after.next
    if atSpace after.rest then return (.version major, after) else throw .markup
  else if name = "TAG" then
    let (handle, after) ← readHandle (cur.dropWhile blank)
    if after.rest.head? ≠ some ' ' then throw .markup
    let (text, after) ← readAddress (after.dropWhile blank)
    if atSpace after.rest then return (.handle handle text, after) else throw .markup
  else return (.other, cur.dropWhile (!isBreak ·))

/-- Reads a directive up to the end of its line. -/
def readDirective (cur : Cursor) : Lexed := do
  let (name, after) := cur.next.span isNameChar
  if name.isEmpty || !atSpace after.rest then throw .markup
  let (directive, after) ← readDirectiveValue (String.ofList name) after
  match endLine after with
  | some after => return (.directive directive, after)
  | none => throw .markup

end Remedy.Yaml
