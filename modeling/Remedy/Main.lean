import Remedy.CommandLine.Commands
import Remedy.Disk

/-!
The program: reads its arguments, its environment and the standard input, carries out one command
on the files of the project, prints the report and the log, and writes back what has changed. The
files that are seen are those below the project and the working directory's own settings, with the
files that the arguments name. There are no fixers besides those that a catalog offers, and the
catalog of the program by itself is empty.
-/

set_option autoImplicit false

namespace Remedy

/-- The variables of the environment, where the machine shows them. -/
def environment : IO (List (String × String)) := do
  try
    let bytes ← IO.FS.readBinFile "/proc/self/environ"
    return (Text.pieces '\x00' (Text.decode bytes.toList).toList).filterMap fun piece =>
      let name := piece.takeWhile (· != '=')
      if name.isEmpty then none
      else some (String.ofList name, String.ofList (piece.drop (name.length + 1)))
  catch _ => return []

/-- The number of the process, where the machine shows it. -/
def processNumber : IO Nat := do
  try
    let line ← IO.FS.readBinFile "/proc/self/stat"
    let digits := (Text.decode line.toList).toList.takeWhile Char.isDigit
    return (String.ofList digits).toNat?.getD 1
  catch _ => return 1

/-- Where arguments say that the diagnostics are. -/
def inputName (a : Arguments) : Option String :=
  match a.task with
  | .analyze input => input
  | .fix o => o.input
  | _ => none

/-- The files, besides those of the project, that arguments name. -/
def namedFiles (a : Arguments) : List String :=
  [".env"] ++ (a.shared.config.map Path.text).toList ++ (inputName a).toList

/-- Carries out a command line and returns its exit code. -/
def runProgram (arguments : List String) : IO UInt32 := do
  let here ← Disk.route (Path.ofString ".")
  match Arguments.read (Route.path here) arguments with
  | .error (.shown text) =>
    IO.print text
    return 0
  | .error (.refused program reason) =>
    IO.eprintln s!"{program}: error: {reason}"
    return 2
  | .ok a =>
    let project ← Disk.route a.shared.project
    let named ← (namedFiles a).mapM fun name => Disk.route (Path.ofString name)
    let files ← Disk.load (project :: named)
    let input ← if inputName a = some "-" then (← IO.getStdin).readBinToEnd else pure .empty
    let (outcome, w) := Command.run [] a input.toList
      { files, bindings := ← environment, draws := ← IO.rand 0 0xFFFFF, process := ← processNumber }
    Disk.save files w.files
    w.journal.printed.reverse.forM fun event => IO.eprintln event.line.compact
    match outcome with
    | .ok o =>
      o.report.forM fun report => IO.println report.pretty
      return UInt32.ofNat o.code
    | .error fault =>
      IO.eprintln s!"{fault.kind.name}: {fault.message}"
      return 1

end Remedy

def main (arguments : List String) : IO UInt32 := Remedy.runProgram arguments
