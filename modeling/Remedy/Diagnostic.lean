/-!
Diagnostics of a type checker: a place in a file, a code and a message. `Diagnostic.format` is the
line in which the type checker writes one.
-/

set_option autoImplicit false

namespace Remedy

structure Diagnostic where
  file : String
  line : Nat
  column : Nat
  code : String
  message : String
  /-- The line that was read. -/
  raw : String := ""
  deriving DecidableEq, Repr, Inhabited

namespace Diagnostic

def location (d : Diagnostic) : String := s!"{d.file}({d.line},{d.column})"

def format (d : Diagnostic) : String := s!"{d.location}: error {d.code}: {d.message}"

end Diagnostic

end Remedy
