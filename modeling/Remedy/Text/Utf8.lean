import Remedy.Text.Digit

/-!
Bytes and their reading as UTF-8. `readChar` takes one character off a list of bytes or names the
ill-formed piece in front, which is as long as a well-formed sequence could still have begun. The
lenient reading `decode` puts one replacement character for each such piece; the strict reading
`decodeStrict` stops at the first and says where and why.
-/

set_option autoImplicit false

namespace Remedy.Text

abbrev Bytes := List UInt8

def encode (s : String) : Bytes := s.toList.flatMap String.utf8EncodeChar

inductive Utf8Flaw where
  | start
  | continuation
  | ending
  deriving DecidableEq, Repr

def Utf8Flaw.message : Utf8Flaw → String
  | .start => "invalid start byte"
  | .continuation => "invalid continuation byte"
  | .ending => "unexpected end of data"

/-- What stands in front of a list of bytes. -/
inductive Utf8Head where
  | char (c : Char) (size : Nat)
  | flaw (kind : Utf8Flaw) (size : Nat)

def isContinuation (b : UInt8) : Bool := b.toNat / 64 == 2

/-- Whether `second` may follow `first` at the start of a sequence of three or four bytes. -/
def admitsSecond (first second : UInt8) : Bool :=
  isContinuation second &&
    (if first = 0xE0 then 0xA0 ≤ second
     else if first = 0xED then second < 0xA0
     else if first = 0xF0 then 0x90 ≤ second
     else if first = 0xF4 then second < 0x90
     else true)

def payload (b : UInt8) : Nat := b.toNat % 64

def readChar (first : UInt8) (rest : Bytes) : Utf8Head :=
  if first < 0x80 then .char (Char.ofNat first.toNat) 1
  else if first < 0xC2 || 0xF4 < first then .flaw .start 1
  else if first < 0xE0 then
    match rest with
    | [] => .flaw .ending 1
    | b :: _ =>
      if isContinuation b then .char (Char.ofNat (first.toNat % 32 * 64 + payload b)) 2
      else .flaw .continuation 1
  else if first < 0xF0 then
    match rest with
    | [] => .flaw .ending 1
    | b :: more =>
      if admitsSecond first b then
        match more with
        | [] => .flaw .ending 2
        | c :: _ =>
          if isContinuation c then
            .char (Char.ofNat ((first.toNat % 16 * 64 + payload b) * 64 + payload c)) 3
          else .flaw .continuation 2
      else .flaw .continuation 1
  else
    match rest with
    | [] => .flaw .ending 1
    | b :: more =>
      if admitsSecond first b then
        match more with
        | [] => .flaw .ending 2
        | c :: more =>
          if isContinuation c then
            match more with
            | [] => .flaw .ending 3
            | d :: _ =>
              if isContinuation d then
                .char (Char.ofNat
                  (((first.toNat % 8 * 64 + payload b) * 64 + payload c) * 64 + payload d)) 4
              else .flaw .continuation 3
          else .flaw .continuation 2
      else .flaw .continuation 1

def Utf8Head.size : Utf8Head → Nat
  | .char _ n => n
  | .flaw _ n => n

def replacement : Char := Char.ofNat 0xFFFD

/-- The lenient reading of `bytes` after the first `skip` of them. -/
def decodeFrom (skip : Nat) : Bytes → List Char
  | [] => []
  | b :: rest =>
    match skip with
    | n + 1 => decodeFrom n rest
    | 0 =>
      match readChar b rest with
      | .char c size => c :: decodeFrom (size - 1) rest
      | .flaw _ size => replacement :: decodeFrom (size - 1) rest

def decode (bytes : Bytes) : String := String.ofList (decodeFrom 0 bytes)

/-- Where the strict reading stopped. -/
structure Utf8Error where
  position : Nat
  size : Nat
  byte : UInt8
  kind : Utf8Flaw
  deriving DecidableEq, Repr

def hexDigit (n : Nat) : Char := Char.ofNat (if n < 10 then 48 + n else 87 + n)

def hexByte (b : UInt8) : String := String.ofList [hexDigit (b.toNat / 16), hexDigit (b.toNat % 16)]

def Utf8Error.message (e : Utf8Error) : String :=
  if e.size = 1 then
    s!"'utf-8' codec can't decode byte 0x{hexByte e.byte} in position {e.position}: " ++
      e.kind.message
  else
    s!"'utf-8' codec can't decode bytes in position {e.position}-{e.position + e.size - 1}: " ++
      e.kind.message

/-- The strict reading, at `position`, after the next `skip` bytes; `done` holds what is read, last
character first. -/
def decodeStrictFrom (position skip : Nat) (done : List Char) : Bytes → Except Utf8Error String
  | [] => .ok (String.ofList done.reverse)
  | b :: rest =>
    match skip with
    | n + 1 => decodeStrictFrom (position + 1) n done rest
    | 0 =>
      match readChar b rest with
      | .char c size => decodeStrictFrom (position + 1) (size - 1) (c :: done) rest
      | .flaw kind size => .error ⟨position, size, b, kind⟩

def decodeStrict (bytes : Bytes) : Except Utf8Error String := decodeStrictFrom 0 0 [] bytes

end Remedy.Text
