import Remedy.Diagnostic
import Remedy.Json
import Remedy.Text.Casing
import Remedy.Text.Search

/-!
Hints on what produced a diagnostic: the name of a pattern, a suggested fix where one is known, and
the module that the message names. Hints are for readers of reports and decide nothing.
-/

set_option autoImplicit false

namespace Remedy

structure Hint where
  pattern : Option String := none
  suggestedFix : Option String := none
  dependencies : List String := []
  deriving DecidableEq, Repr, Inhabited

namespace Hint

open Remedy.Text

/-- Pattern and suggested fix by code. -/
def byCode : List (String × (String × String)) := [
  ("TS1005", ("token-expected", "Insert or remove the punctuation the parser expected")),
  ("TS1003", ("identifier-expected", "Check for a missing or misplaced identifier")),
  ("TS1128", ("declaration-expected", "Look for an unbalanced brace above this line")),
  ("TS17002", ("jsx-closing-tag-missing", "Add the missing JSX closing tag")),
  ("TS2307", ("module-not-found", "Fix the import path or install the missing package")),
  ("TS2305", ("no-exported-member", "Import a name the module actually exports")),
  ("TS2724", ("no-exported-member", "Import a name the module actually exports")),
  ("TS2339", ("property-not-found", "Declare the property on the type or narrow the value")),
  ("TS7006", ("implicit-any", "Add a type annotation to the parameter")),
  ("TS2722", ("possibly-undefined-invocation", "Guard the call against undefined")),
  ("TS2345", ("argument-type-mismatch", "Convert the argument or widen the parameter type")),
  ("TS2322", ("type-not-assignable", "Align the value with the declared type")),
  ("TS6133", ("unused-declarations", "Remove the unused declaration")),
  ("TS6192", ("unused-declarations", "Remove the unused imports")),
  ("TS6196", ("unused-declarations", "Remove the unused declaration"))]

def isQuote (c : Char) : Bool := c == '\x27' || c == '"'

/-- The name between quotes behind the word `module`, the first one in the text. -/
def moduleName : List Char → Option String
  | [] => none
  | c :: rest =>
    match nameBehind (c :: rest) with
    | some name => some name
    | none => moduleName rest
where
  nameBehind (cs : List Char) : Option String :=
    if startsWith "module ".toList cs || startsWith "Module ".toList cs then
      match cs.drop 7 with
      | q :: rest =>
        let name := rest.takeWhile (!isQuote ·)
        if isQuote q && !name.isEmpty && !(rest.dropWhile (!isQuote ·)).isEmpty then
          some (String.ofList name)
        else none
      | [] => none
    else none

def ofDiagnostic (d : Diagnostic) : Hint :=
  let isTsx := endsWith ".tsx".toList d.file.toList
  let dependencies := (moduleName d.message.toList).toList
  let comma := occurs "',' expected".toList d.message.toList
  if comma && isTsx then
    ⟨some "jsx-destructuring-syntax",
      some "Fix array destructuring syntax in React components", dependencies⟩
  else if occurs "Identifier expected".toList d.message.toList && isTsx then
    ⟨some "react-component-type-annotation", some "Fix React component type annotations",
      dependencies⟩
  else if comma then
    ⟨some "parameter-type-annotation", some "Fix function parameter type annotations",
      dependencies⟩
  else
    let code := upper d.code
    match Json.lookup code byCode with
    | some (pattern, fix) => ⟨some pattern, some fix, dependencies⟩
    | none => ⟨some (lower code ++ "-general"), none, dependencies⟩

end Hint

end Remedy
