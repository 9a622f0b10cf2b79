import Remedy.Yaml.Token

/-!
The tokens of a text. A scalar or a collection in brackets turns out to be a key only when a colon
follows it on the same line, not too far away; the token that marks the key is then put in front of
it. Where a key stands in a column of its own and must be one, a missing colon is a fault.

`tokens` ends with a fault if the text cannot be read further. What was not known to be a key or not
by then is left out, because nothing may be made of it before that is known.
-/

set_option autoImplicit false

namespace Remedy.Yaml

/-- A place at which a key may have begun. -/
structure Candidate where
  /-- The flow level at which it stands. -/
  level : Nat
  /-- How many tokens come before it. -/
  place : Nat
  /-- Whether nothing but a key may stand there. -/
  needed : Bool
  start : Cursor

structure Lexer where
  cur : Cursor
  /-- The tokens so far, the last one first. -/
  done : List Token := []
  /-- How many brackets are open. -/
  level : Nat := 0
  /-- The columns of the open blocks, the innermost first. -/
  columns : List Nat := []
  mayBeKey : Bool := true
  candidates : List Candidate := []

namespace Lexer

/-- The column of the innermost block, and minus one outside of all blocks. -/
def indent (l : Lexer) : Int :=
  match l.columns with
  | [] => -1
  | column :: _ => column

def push (t : Token) (l : Lexer) : Lexer := { l with done := t :: l.done }

/-- Takes a token on and goes to its end. -/
def take (r : Token × Cursor) (l : Lexer) : Lexer := { l.push r.1 with cur := r.2 }

/-- Puts a token in front of the one at a place. -/
def insertAt (place : Nat) (t : Token) (l : Lexer) : Lexer :=
  let later := l.done.length - place
  { l with done := l.done.take later ++ t :: l.done.drop later }

/-! ### Keys -/

/-- Whether a place is too far back for a key. -/
def isStale (l : Lexer) (c : Candidate) : Bool :=
  c.start.line != l.cur.line || c.start.offset + 1024 < l.cur.offset

/-- Gives up some of the places at which a key may have begun. -/
def giveUp (p : Candidate → Bool) (l : Lexer) : Except Fault Lexer :=
  if l.candidates.any fun c => p c && c.needed then .error .markup
  else .ok { l with candidates := l.candidates.filter (!p ·) }

def dropStale (l : Lexer) : Except Fault Lexer := l.giveUp l.isStale

/-- Gives up the place at the current level. -/
def dropHere (l : Lexer) : Except Fault Lexer := l.giveUp (·.level == l.level)

/-- Notes that a key may begin here. -/
def noteKey (l : Lexer) : Except Fault Lexer := do
  if !l.mayBeKey then return l
  let l ← l.dropHere
  let needed := l.level == 0 && l.indent == l.cur.column
  return { l with candidates := ⟨l.level, l.done.length, needed, l.cur⟩ :: l.candidates }

/-! ### Blocks -/

/-- Closes the blocks that stand further to the right than a column. -/
def closeBlocks (column : Int) (l : Lexer) : Lexer :=
  if l.level ≠ 0 then l
  else
    let closed := l.columns.takeWhile fun (c : Nat) => decide (column < c)
    { l with
      columns := l.columns.drop closed.length
      done := closed.map (fun _ => Token.blockEnd) ++ l.done }

/-- Whether a block would open at a column. -/
def opensAt (column : Nat) (l : Lexer) : Bool := l.level == 0 && decide (l.indent < column)

/-- Opens a block here if it is the first token in it, given that one may start. -/
def openBlock (start : Token) (l : Lexer) : Except Fault Lexer :=
  if l.level ≠ 0 then .ok l
  else if !l.mayBeKey then .error .markup
  else if l.opensAt l.cur.column then
    .ok { l.push start with columns := l.cur.column :: l.columns }
  else .ok l

/-! ### Single tokens -/

/-- A mark of so many characters, behind which a key may stand or not. -/
def mark (t : Token) (size : Nat) (mayBeKey : Bool) (l : Lexer) : Lexer :=
  { l.take (t, l.cur.advance size) with mayBeKey }

/-- The line that starts or ends a document, or says something about it. -/
def atMargin (read : Cursor → Lexed) (l : Lexer) : Except Fault Lexer := do
  let l ← (l.closeBlocks (-1)).dropHere
  return { l.take (← read l.cur) with mayBeKey := false }

def openFlow (t : Token) (l : Lexer) : Except Fault Lexer := do
  let l ← l.noteKey
  return { l.mark t 1 true with level := l.level + 1 }

def closeFlow (t : Token) (l : Lexer) : Except Fault Lexer := do
  let l ← l.dropHere
  match l.level with
  | 0 => throw .markup
  | level + 1 => return { l.mark t 1 false with level }

/-- The colon behind a key. -/
def colon (l : Lexer) : Except Fault Lexer := do
  match l.candidates.find? (·.level == l.level) with
  | some c =>
    let l := { l with candidates := l.candidates.filter (·.level != l.level) }
    let l := l.insertAt c.place .key
    let l := if l.opensAt c.start.column then
        { l.insertAt c.place .mapStart with columns := c.start.column :: l.columns }
      else l
    return l.mark .value 1 false
  | none =>
    let l ← l.openBlock .mapStart
    return l.mark .value 1 (l.level == 0)

/-- A token behind which no key may begin, but which may be one or begin one. -/
def content (read : Cursor → Lexed) (l : Lexer) : Except Fault Lexer := do
  let l ← l.noteKey
  return { l.take (← read l.cur) with mayBeKey := false }

/-- A quoted scalar. -/
def quoted (double : Bool) (l : Lexer) : Except Fault Lexer :=
  l.content fun cur => (readQuoted double cur).map fun (text, after) => (.scalar text false, after)

/-- A plain scalar. Behind one that ends with its line, a key may begin. -/
def plain (l : Lexer) : Except Fault Lexer := do
  let l ← l.noteKey
  let (text, ended, after) := readPlain (l.level != 0) (l.indent + 1) l.cur
  return { l.take (.scalar text true, after) with mayBeKey := ended }

def block (l : Lexer) : Except Fault Lexer := do
  let l ← l.dropHere
  match readBlock l.indent l.cur with
  | some (text, after) => return { l.take (.scalar text false, after) with mayBeKey := true }
  | none => throw .markup

/-- The token that starts with a character. -/
def read (c : Char) (rest : List Char) (l : Lexer) : Except Fault Lexer :=
  let flow := l.level != 0
  if c = '%' ∧ l.cur.column = 0 then l.atMargin readDirective
  else if l.cur.atMarker then
    let t := if c = '-' then Token.documentStart else Token.documentEnd
    l.atMargin fun cur => .ok (t, cur.advance 3)
  else if c = '[' then l.openFlow .flowListStart
  else if c = '\x7b' then l.openFlow .flowMapStart
  else if c = ']' then l.closeFlow .flowListEnd
  else if c = '\x7d' then l.closeFlow .flowMapEnd
  else if c = ',' then l.dropHere.map fun l => l.mark .comma 1 true
  else if c = '-' ∧ atGap rest then do
    return (← (← l.openBlock .listStart).dropHere).mark .item 1 true
  else if c = '?' ∧ (flow ∨ atGap rest) then do
    return (← (← l.openBlock .mapStart).dropHere).mark .key 1 !flow
  else if c = ':' ∧ (flow ∨ atGap rest) then l.colon
  else if c = '*' then l.content (readName .alias)
  else if c = '&' then l.content (readName .anchor)
  else if c = '!' then l.content readTag
  else if (c = '|' ∨ c = '>') ∧ !flow then l.block
  else if c = '\x27' then l.quoted false
  else if c = '"' then l.quoted true
  else if startsPlain flow (c :: rest) then l.plain
  else .error .markup

/-- Goes on by a token; the other part says whether more may come. -/
def next (l : Lexer) : Except Fault (Lexer × Bool) := do
  let (ended, cur) := l.cur.skip (l.cur.rest.length + 1)
  let l ← dropStale { l with cur, mayBeKey := l.mayBeKey || (ended && l.level == 0) }
  let l := l.closeBlocks l.cur.column
  match l.cur.rest with
  | [] => return (← (l.closeBlocks (-1)).dropHere, false)
  | c :: rest => return (← l.read c rest, true)

/-- The tokens so far, as far as they are settled, and a fault. -/
def broken (l : Lexer) (cause : Fault) : List Token :=
  let settled := l.candidates.foldl (fun n c => min n c.place) l.done.length
  l.done.reverse.take settled ++ [.fault cause]

/-- The tokens so far and all that follow. -/
def finish : (fuel : Nat) → Lexer → List Token
  | 0, l => l.broken .markup
  | fuel + 1, l =>
    match l.dropStale with
    | .error cause => l.broken cause
    | .ok l =>
      match l.next with
      | .error cause => l.broken cause
      | .ok (l, true) => finish fuel l
      | .ok (l, false) => l.done.reverse

end Lexer

/-- Whether a character may stand in a document. -/
def isLegal (c : Char) : Bool :=
  let n := c.toNat
  c == '\t' || c == '\n' || c == '\r' || (0x20 ≤ n && n ≤ 0x7E) || n == 0x85 ||
    (0xA0 ≤ n && n ≤ 0xFFFD) || 0x10000 ≤ n

/-- The tokens of a text. A byte order mark in front does not count. -/
def tokens (cs : List Char) : List Token :=
  if !cs.all isLegal then [.fault .markup]
  else
    let start : Cursor := { rest := cs }
    let start := if cs.head? = some '\uFEFF' then start.next else start
    Lexer.finish (cs.length + 1) { cur := start }

end Remedy.Yaml
