/-!
Search in texts: whether a pattern occurs, where it occurs first, and what lies
between the occurrences of a character.
-/

set_option autoImplicit false

namespace Remedy.Text

/-- Whether a text starts with a pattern. -/
def startsWith : (pattern text : List Char) → Bool
  | [], _ => true
  | _ :: _, [] => false
  | p :: ps, c :: cs => p == c && startsWith ps cs

/-- The rest of a text after the first occurrence of a pattern. -/
def after? (pattern : List Char) : (text : List Char) → Option (List Char)
  | [] => if pattern.isEmpty then some [] else none
  | c :: cs =>
    if startsWith pattern (c :: cs) then some ((c :: cs).drop pattern.length)
    else after? pattern cs

def occurs (pattern text : List Char) : Bool := (after? pattern text).isSome

def endsWith (ending text : List Char) : Bool := startsWith ending.reverse text.reverse

/-- The pieces of a text between the occurrences of a character. -/
def pieces (mark : Char) (cs : List Char) : List (List Char) :=
  cs.foldr (fun c done =>
    if c = mark then [] :: done
    else
      match done with
      | [] => [[c]]
      | piece :: rest => (c :: piece) :: rest) [[]]

end Remedy.Text
