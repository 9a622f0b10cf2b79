import Remedy.Number.Decimal
import Remedy.Text.Utf8

/-!
Escapes and formats, as the printing commands of a shell understand them. A backslash stands for a
character or, with octal digits, for a byte; a format is written once, or again and again until all
arguments are used up, and arguments that are missing count as empty.
-/

set_option autoImplicit false

namespace Remedy.Shell

def encodeChar (c : Char) : Text.Bytes := String.utf8EncodeChar c

/-- The byte of a character behind a backslash. -/
def escapedByte? (c : Char) : Option UInt8 :=
  match c with
  | 'a' => some 7
  | 'b' => some 8
  | 't' => some 9
  | 'n' => some 10
  | 'v' => some 11
  | 'f' => some 12
  | 'r' => some 13
  | '\\' => some 92
  | _ => none

def isOctal (c : Char) : Bool := '0' ≤ c && c ≤ '7'

/-- The byte that at most `places` octal digits write, and the rest. -/
def takeOctal (places : Nat) (cs : List Char) : UInt8 × List Char :=
  let digits := (cs.take places).takeWhile isOctal
  (UInt8.ofNat (digits.foldl (fun n c => 8 * n + (c.toNat - 48)) 0), cs.drop digits.length)

/-- A text with its escapes replaced, and whether the one that ends all output is among them. Bytes
are written with a zero and up to three digits. -/
def unescape : (fuel : Nat) → List Char → Text.Bytes × Bool
  | 0, _ => ([], false)
  | _, [] => ([], false)
  | fuel + 1, '\\' :: c :: rest =>
    if c = 'c' then ([], true)
    else
      let (bytes, rest) :=
        match escapedByte? c with
        | some b => ([b], rest)
        | none =>
          if c = '0' then let (b, rest) := takeOctal 3 rest; ([b], rest)
          else (encodeChar '\\' ++ encodeChar c, rest)
      let (more, stopped) := unescape fuel rest
      (bytes ++ more, stopped)
  | fuel + 1, c :: rest =>
    let (more, stopped) := unescape fuel rest
    (encodeChar c ++ more, stopped)

/-- A part of a format. -/
inductive Directive where
  | bytes (content : Text.Bytes)
  /-- Takes an argument, which gets at least `width` places. -/
  | argument (left zeros plus : Bool) (width : Nat) (precision : Option Nat) (letter : Char)
  deriving Repr

def numberOf (digits : List Char) : Nat := Decimal.natOf digits

/-- What stands behind a percent sign. -/
def readDirective (cs : List Char) : Option (Directive × List Char) :=
  let flags := cs.takeWhile fun c => ['-', '0', '+', ' ', '#'].contains c
  let cs := cs.drop flags.length
  let width := cs.takeWhile Char.isDigit
  let cs := cs.drop width.length
  let (precision, cs) :=
    match cs with
    | '.' :: more => (some (numberOf (more.takeWhile Char.isDigit)), more.dropWhile Char.isDigit)
    | cs => (none, cs)
  match cs with
  | [] => none
  | letter :: rest =>
    some (.argument (flags.contains '-') (flags.contains '0') (flags.contains '+') (numberOf width)
      precision letter, rest)

/-- The parts of a format, none if a percent sign stands at its end. -/
def readFormat : (fuel : Nat) → List Char → Option (List Directive)
  | 0, _ => none
  | _, [] => some []
  | fuel + 1, '%' :: '%' :: rest => (readFormat fuel rest).map (.bytes [37] :: ·)
  | fuel + 1, '%' :: rest =>
    match readDirective rest with
    | some (d, rest) => (readFormat fuel rest).map (d :: ·)
    | none => none
  | fuel + 1, '\\' :: c :: rest =>
    match escapedByte? c with
    | some b => (readFormat fuel rest).map (.bytes [b] :: ·)
    | none =>
      if isOctal c then
        let (b, rest) := takeOctal 3 (c :: rest)
        (readFormat fuel rest).map (.bytes [b] :: ·)
      else (readFormat fuel rest).map (.bytes (encodeChar '\\' ++ encodeChar c) :: ·)
  | fuel + 1, c :: rest => (readFormat fuel rest).map (.bytes (encodeChar c) :: ·)

/-- Fills up with blanks, or with zeros behind the sign. -/
def padded (left zeros : Bool) (width : Nat) (content : Text.Bytes) : Text.Bytes :=
  let missing := width - content.length
  if left then content ++ List.replicate missing 32
  else if zeros then
    match content with
    | 45 :: digits => 45 :: List.replicate missing 48 ++ digits
    | digits => List.replicate missing 48 ++ digits
  else List.replicate missing 32 ++ content

/-- The integer that an argument writes, nothing counting as zero. -/
def integer? (argument : String) : Option Int :=
  let (negative, digits) := Decimal.readSign argument.toList
  if argument.isEmpty then some 0
  else if digits.isEmpty || !digits.all Decimal.isDigit then none
  else some (if negative then -(numberOf digits : Int) else numberOf digits)

/-- What an argument becomes, and whether it is not the number that it should be. -/
def Directive.write : Directive → String → Text.Bytes × Bool
  | .bytes content, _ => (content, false)
  | .argument left zeros plus width precision letter, given =>
    let digits (base : Nat) (n : Int) : Text.Bytes :=
      let shown := Nat.toDigits base n.natAbs
      (if n < 0 then [45] else if plus then [43] else []) ++
        (if letter = 'X' then shown.map Char.toUpper else shown).flatMap encodeChar
    match letter with
    | 'c' => (padded left false width ((given.toList.take 1).flatMap encodeChar), false)
    | 's' =>
      let content := Text.encode given
      (padded left false width (match precision with | some n => content.take n | none => content),
        false)
    | 'b' => (padded left false width (unescape (given.length + 1) given.toList).1, false)
    | _ =>
      let base := if letter = 'o' then 8 else if letter = 'x' ∨ letter = 'X' then 16 else 10
      match integer? given with
      | some n => (padded left zeros width (digits base n), false)
      | none => (padded left zeros width (digits base 0), true)

def Directive.takesArgument : Directive → Bool
  | .bytes _ => false
  | .argument .. => true

/-- A format once with the arguments in front, the arguments that are left, and those that are not
the numbers that they should be. -/
def writeOnce : List Directive → List String → Text.Bytes × List String × List String
  | [], arguments => ([], arguments, [])
  | d :: rest, arguments =>
    let taken := if d.takesArgument then arguments.head? else none
    let (content, wrong) := d.write (taken.getD "")
    let (more, left, flawed) :=
      writeOnce rest (if d.takesArgument then arguments.drop 1 else arguments)
    (content ++ more, left, (if wrong then [taken.getD ""] else []) ++ flawed)

/-- A format until all arguments are used up. -/
def writeAll (format : List Directive) : (rounds : Nat) → List String → Text.Bytes × List String
  | 0, _ => ([], [])
  | rounds + 1, arguments =>
    let (content, left, flawed) := writeOnce format arguments
    if left.isEmpty || !format.any Directive.takesArgument then (content, flawed)
    else
      let (more, others) := writeAll format rounds left
      (content ++ more, flawed ++ others)

end Remedy.Shell
