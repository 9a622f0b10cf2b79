import Remedy.Number.Loose
import Remedy.Text.Casing
import Remedy.Text.Search
import Remedy.Yaml.Stamp

/-!
Kinds of values in a YAML document, and the scalars of each kind. The kind of a plain scalar follows
from how it is written; a tag may give another one, in which case the text may not fit it.
-/

set_option autoImplicit false

namespace Remedy.Yaml

inductive Kind where
  | null
  | truth
  | integer
  | fraction
  | stamp
  | binary
  | text
  | list
  | map
  | set
  /-- A list of pairs. -/
  | pairs
  /-- The key of what is merged into a map. -/
  | merge
  /-- The key of the value that a map has as a scalar. -/
  | standard
  | unknown
  deriving DecidableEq, Repr

namespace Kind

/-- The kind that a tag gives. -/
def ofTag (tag : String) : Kind :=
  let kinds : List (String × Kind) := [("null", .null), ("bool", .truth), ("int", .integer),
    ("float", .fraction), ("timestamp", .stamp), ("binary", .binary), ("str", .text),
    ("seq", .list), ("map", .map), ("set", .set), ("omap", .pairs), ("pairs", .pairs),
    ("merge", .merge), ("value", .standard)]
  ((kinds.find? fun k => "tag:yaml.org,2002:" ++ k.1 == tag).map (·.2)).getD .unknown

/-- Whether a value has parts. Such a value cannot be a key. -/
def isCollection (k : Kind) : Bool := [.list, .map, .set, .pairs].contains k

end Kind

/-! ### How plain scalars are written -/

def trueWords : List String := ["yes", "true", "on"]
def falseWords : List String := ["no", "false", "off"]

/-- Whether a text is a word in small letters, in capitals, or with one capital in front. -/
def isCased (words : List String) (text : String) : Bool :=
  words.any fun w => text == w || text == w.toUpper || text == w.capitalize

/-- Whether a run has digits of a class, with underscores, and at least one character. -/
def isRun (p : Char → Bool) (cs : List Char) : Bool :=
  !cs.isEmpty && cs.all fun c => p c || c == '_'

/-- Whether a part behind a colon is a number below sixty. -/
def isSixtieth : List Char → Bool
  | [a] => isDigit a
  | [a, b] => '0' ≤ a && a ≤ '5' && isDigit b
  | _ => false

/-- Whether a text is an integer without its sign. -/
def isNatural : List Char → Bool
  | ['0'] => true
  | '0' :: 'b' :: rest => isRun (fun c => c == '0' || c == '1') rest
  | '0' :: 'x' :: rest => isRun (fun c => (Json.hexValue? c).isSome) rest
  | '0' :: rest => isRun (fun c => '0' ≤ c && c ≤ '7') rest
  | c :: rest =>
    isDigit c &&
      match Text.pieces ':' (c :: rest) with
      | first :: parts => isRun isDigit first && parts.all isSixtieth
      | [] => false
  | [] => false

/-- Whether what stands behind the digits of a fraction is a power with a sign, or nothing. -/
def isPower : List Char → Bool
  | [] => true
  | e :: sign :: digits =>
    (e == 'e' || e == 'E') && (sign == '+' || sign == '-') && !digits.isEmpty && digits.all isDigit
  | _ => false

/-- Whether a text is a number with a point, or the word for infinity or for no number. -/
def isFraction (cs : List Char) : Bool :=
  let (_, rest) := Decimal.readSign cs
  if [".inf", ".Inf", ".INF"].contains (String.ofList rest) then true
  else if [".nan", ".NaN", ".NAN"].contains (String.ofList cs) then true
  else
    let whole := rest.takeWhile (· ≠ '.')
    match rest.drop whole.length with
    | [] => false
    | _ :: more =>
      let fraction := more.takeWhile fun c => isDigit c || c == '_'
      let power := more.drop fraction.length
      match Text.pieces ':' whole with
      | [[]] => rest == cs && fraction.head?.any isDigit && isPower power
      | [digits] => digits.head?.any isDigit && isRun isDigit digits && isPower power
      | first :: parts =>
        first.head?.any isDigit && isRun isDigit first && parts.all isSixtieth && power.isEmpty
      | [] => false

/-- The kind of a plain scalar. A line feed at its end does not count. -/
def Kind.ofPlain (text : String) : Kind :=
  let cs := text.toList
  let cs := if cs.length ≠ 1 ∧ cs.getLast? = some '\n' then cs.dropLast else cs
  let word := String.ofList cs
  if word.isEmpty || word == "~" || isCased ["null"] word then .null
  else if isCased (trueWords ++ falseWords) word then .truth
  else if isFraction cs then .fraction
  else if isNatural (Decimal.readSign cs).2 then .integer
  else if word == "<<" then .merge
  else if Stamp.isPlain cs then .stamp
  else if word == "=" then .standard
  else if ["!", "&", "*"].contains word then .unknown
  else .text

/-! ### What scalars are worth -/

/-- A number as a sum of sixtieths, the last part counting once. -/
def sixtieths (parts : List Int) : Int := parts.foldl (fun n part => 60 * n + part) 0

/-- The value of an integer; underscores do not count. -/
def readInteger (text : String) : Except Fault Int := do
  let (negative, unsigned) := Decimal.readSign (text.toList.filter (· ≠ '_'))
  if unsigned.isEmpty then throw (.raised .index "string index out of range")
  let written := String.ofList unsigned
  let behind := String.ofList (unsigned.drop 2)
  let n ← Except.mapError Fault.invalid <|
    match unsigned with
    | ['0'] => .ok 0
    | '0' :: 'b' :: _ => Loose.integer 2 behind
    | '0' :: 'x' :: _ => Loose.integer 16 behind
    | '0' :: _ => Loose.integer 8 written
    | _ =>
      if unsigned.contains ':' then
        sixtieths <$> (Text.pieces ':' unsigned).mapM fun cs => Loose.integer 10 (String.ofList cs)
      else Loose.integer 10 written
  return if negative then -n else n

/-- The sum of sixtieths of fractions, the smallest part first. -/
def addSixtieths (base : Nat) (sum : Double) : List Double → Except Fault Double
  | [] => .ok sum
  | part :: rest =>
    match Double.ofInt? base with
    | some factor => addSixtieths (60 * base) (sum.add (part.mul factor)) rest
    | none => .error (.overflow .conversion)

/-- The value of a fraction; underscores do not count. -/
def readFraction (text : String) : Except Fault Double := do
  let cs := (Text.lower (String.ofList (text.toList.filter (· ≠ '_')))).toList
  if cs.isEmpty then throw (.raised .index "string index out of range")
  let (negative, unsigned) := Decimal.readSign cs
  let written := String.ofList unsigned
  let x ←
    if written = ".inf" then pure (.infinite false)
    else if written = ".nan" then pure .nan
    else if unsigned.contains ':' then do
      let parts ← (Text.pieces ':' unsigned).mapM fun cs =>
        (Loose.real (String.ofList cs)).mapError Fault.invalid
      addSixtieths 1 .zero parts.reverse
    else (Loose.real written).mapError Fault.invalid
  return if negative then x.negate else x

def readTruth (text : String) : Except Fault Bool :=
  let word := Text.lower text
  if trueWords.contains word then .ok true
  else if falseWords.contains word then .ok false
  else .error (.misuse (.missingField word))

def readStamp (text : String) : Except Fault Setting :=
  let cs := text.toList
  let cs := if cs.getLast? = some '\n' then cs.dropLast else cs
  match Stamp.read cs with
  | some stamp => stamp.value.mapError Fault.invalid
  | none => .error (.misuse .noMember)

/-- The value of a scalar of a kind. -/
def scalarValue (kind : Kind) (text : String) : Except Fault Setting :=
  match kind with
  | .null => .ok .null
  | .truth => (readTruth text).map fun b => .number (.truth b)
  | .integer => (readInteger text).map fun n => .number (.int n)
  | .fraction => (readFraction text).map fun x => .number (.real x)
  | .stamp => readStamp text
  | .text => .ok (.text text)
  | .binary =>
    if text.toList.all fun c => c.toNat < 0x80 then .ok (.other s!"bytes({Text.quoted text})")
    else .error .markup
  | _ => .error .markup

end Remedy.Yaml
