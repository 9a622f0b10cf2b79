import Remedy.Json
import Remedy.RootCause
import Remedy.Text.Casing
import Remedy.Text.Digit
import Remedy.Text.Search

/-!
Classification of diagnostics by their code and message. The rules are tried in a fixed order: extra
mappings, then the tables and families of syntax, import, type and unused codes; the import and
unused rules also look at the message. Codes are compared in upper case.
-/

set_option autoImplicit false

namespace Remedy

/-- Mappings of codes, in upper case, that come before the built-in rules. -/
abbrev ExtraCodes := List (String × RootCause)

namespace RootCause

open Remedy.Text

def syntacticCodes : List String :=
  ["TS1005", "TS1003", "TS1128", "TS1381", "TS1382", "TS17002", "TS1109", "TS1110", "TS1434"]

def importCodes : List String := ["TS2307", "TS2305", "TS2724", "TS2306", "TS2792"]

def typeCodes : List String := ["TS2339", "TS7006", "TS2722", "TS2345", "TS2322"]

def unusedCodes : List String := ["TS6133", "TS6192", "TS6196", "TS6198", "TS6138"]

/-- Whether a code is a stem and so many digits, with at most a line feed behind them. -/
def inFamily (stem : String) (digits : Nat) (code : String) : Bool :=
  let cs := code.toList
  let tail := cs.drop stem.length
  startsWith stem.toList cs && (tail.take digits).length == digits &&
    (tail.take digits).all isDigit &&
    (tail.drop digits == [] || tail.drop digits == ['\n'])

/-- Whether the message says on one line that something is declared but never read. -/
def saysUnused (message : List Char) : Bool :=
  match message with
  | [] => false
  | c :: rest =>
    (startsWith "declared but ".toList (c :: rest) &&
      occurs "never read".toList (((c :: rest).drop 13).takeWhile (· ≠ '\n'))) ||
    saysUnused rest

def saysImport (message : String) : Bool :=
  occurs "Cannot find module".toList message.toList ||
    occurs "has no exported member".toList message.toList

/-- The root cause of a diagnostic with an upper-case code. -/
def ofUpper (extra : ExtraCodes) (code message : String) : RootCause :=
  match Json.lookup code extra with
  | some cause => cause
  | none =>
    if syntacticCodes.contains code || inFamily "TS1" 3 code then .syntactic
    else if importCodes.contains code || saysImport message then .imports
    else if typeCodes.contains code || inFamily "TS23" 2 code || inFamily "TS25" 2 code ||
        inFamily "TS70" 2 code then .types
    else if unusedCodes.contains code || saysUnused message.toList then .unused
    else .other

def classify (extra : ExtraCodes) (code message : String) : RootCause :=
  ofUpper extra (upper code) message

end RootCause

/-- Extra mappings from codes in any case; the last mapping of a code counts. -/
def ExtraCodes.ofPairs (pairs : List (String × RootCause)) : ExtraCodes :=
  pairs.foldl (fun done p => Json.insert (Text.upper p.1) p.2 done) []

end Remedy
