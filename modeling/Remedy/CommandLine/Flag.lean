import Remedy.Number.Decimal
import Remedy.Text.Blank
import Remedy.Text.Digit
import Remedy.Text.Quoted
import Remedy.Text.Search

/-!
Flags of a command line. An argument that starts with a hyphen is a flag, unless it is a hyphen
alone, a negative number or holds a blank; a long flag may be cut short as long as it stays the only
one that starts so, a value may stand behind an equals sign or be joined to a short flag, and short
flags that take no value may be joined. After two hyphens nothing is a flag any more.

The flags in one argument are found first and carried out then, so that a flag which cannot be
understood keeps those before it from having any effect.
-/

set_option autoImplicit false

namespace Remedy

/-- What a flag does to the values that are gathered. -/
inductive FlagAct (σ : Type) where
  | alone (f : σ → σ)
  /-- Takes a value, which may be refused with a reason. -/
  | value (f : String → σ → Except String σ)
  /-- Prints a text and ends everything. -/
  | ending (text : String)

structure Flag (σ : Type) where
  names : List String
  act : FlagAct σ

/-- Why a command line is not carried out: it asks for a text, or it cannot be understood. -/
inductive Usage where
  | shown (text : String)
  | refused (program reason : String)
  deriving DecidableEq, Repr

namespace Flag

variable {σ : Type}

def title (f : Flag σ) : String := String.intercalate "/" f.names

def takesValue (f : Flag σ) : Bool :=
  match f.act with
  | .value _ => true
  | _ => false

/-- The reason to refuse something about a flag. -/
def refusal (f : Flag σ) (reason : String) : String := s!"argument {f.title}: {reason}"

/-- A choice that is none of those that there are. -/
def strangeChoice (value : String) (choices : List String) : String :=
  s!"invalid choice: {Text.quoted value} (choose from " ++
    String.intercalate ", " (choices.map Text.quoted) ++ ")"

end Flag

/-- What stands behind the name of a flag within one argument. -/
inductive Joined where
  | nothing
  | behindEquals (value : String)
  | attached (value : String)
  deriving DecidableEq, Repr

/-- What an argument looks like. -/
inductive ArgumentKind (σ : Type) where
  | plain
  | dashes
  /-- A flag under the name that was meant, with what is joined to it. -/
  | flag (f : Flag σ) (name : String) (joined : Joined)
  | strange

namespace ArgumentKind

variable {σ : Type}

/-- The flags with their names, in the order in which they are declared. -/
def named (flags : List (Flag σ)) : List (String × Flag σ) :=
  flags.flatMap fun f => f.names.map fun name => (name, f)

def find (name : String) (flags : List (Flag σ)) : Option (Flag σ) :=
  ((named flags).find? fun n => n.1 == name).map Prod.snd

/-- The part of a text before the first equals sign, and what stands behind it. -/
def splitEquals (cs : List Char) : List Char × Joined :=
  match cs.dropWhile (· ≠ '=') with
  | _ :: value => (cs.takeWhile (· ≠ '='), .behindEquals (String.ofList value))
  | [] => (cs, .nothing)

/-- The flags that an argument may be short for. -/
def meanings (flags : List (Flag σ)) (cs : List Char) : List (String × Flag σ × Joined) :=
  match cs with
  | '-' :: '-' :: _ =>
    let (start, value) := splitEquals cs
    (named flags).filterMap fun (name, f) =>
      if Text.startsWith start name.toList then some (name, f, value) else none
  | _ =>
    (named flags).filterMap fun (name, f) =>
      if name.toList = cs.take 2 then some (name, f, .attached (String.ofList (cs.drop 2)))
      else if Text.startsWith cs name.toList then some (name, f, .nothing)
      else none

/-- Whether a text is a negative number; a line feed at its end does not count. -/
def isNegativeNumber (cs : List Char) : Bool :=
  let cs := if cs.getLast? = some '\n' then cs.dropLast else cs
  match cs with
  | '-' :: digits =>
    let whole := digits.takeWhile Text.isDigit
    match digits.dropWhile Text.isDigit with
    | [] => !whole.isEmpty
    | '.' :: fraction => !fraction.isEmpty && fraction.all Text.isDigit
    | _ => false
  | _ => false

/-- What an argument is; refused if it may be short for several flags. -/
def ofText (flags : List (Flag σ)) (argument : String) : Except String (ArgumentKind σ) :=
  let cs := argument.toList
  if cs.head? ≠ some '-' then .ok .plain
  else
    match find argument flags with
    | some f => .ok (.flag f argument .nothing)
    | none =>
      if cs.length = 1 then .ok .plain
      else
        let (name, value) := splitEquals cs
        match find (String.ofList name) flags, value with
        | some f, .behindEquals _ => .ok (.flag f (String.ofList name) value)
        | _, _ =>
          match meanings flags cs with
          | [(name, f, joined)] => .ok (.flag f name joined)
          | [] =>
            if isNegativeNumber cs || cs.contains ' ' then .ok .plain else .ok .strange
          | several =>
            let names := String.intercalate ", " (several.map (·.1))
            .error s!"ambiguous option: {argument} could match {names}"

/-- What the arguments of a command line are. -/
def ofTexts (flags : List (Flag σ)) :
    List String → Except String (List (String × ArgumentKind σ))
  | [] => .ok []
  | "--" :: rest => .ok (("--", .dashes) :: rest.map fun a => (a, .plain))
  | a :: rest => do
    let kind ← ofText flags a
    return (a, kind) :: (← ofTexts flags rest)

end ArgumentKind

namespace Flag

variable {σ : Type}

/-- The flags that one argument asks for. -/
structure Request (σ : Type) where
  /-- The flags, each with its value if it takes one. -/
  flags : List (Flag σ × Option String) := []
  /-- Whether the argument that follows is the value of the last flag. -/
  taken : Bool := false
  /-- What is no flag although it is joined to one. -/
  extra : Option String := none

/-- What stands behind a short flag that is itself joined to another one. -/
def joinedTo : List Char → Joined
  | [] => .nothing
  | '=' :: rest => .behindEquals (String.ofList rest)
  | rest => .attached (String.ofList rest)

/-- The flags in one argument: the one that it starts with, and those that are joined to it. -/
def requests (flags : List (Flag σ)) (next : Option String) (done : List (Flag σ × Option String)) :
    (fuel : Nat) → Flag σ → (name : String) → Joined → Except String (Request σ)
  | fuel, f, name, joined =>
    let ignored (value : String) : Except String (Request σ) :=
      .error (f.refusal s!"ignored explicit argument {Text.quoted value}")
    match joined, f.takesValue with
    | .nothing, false => .ok { flags := done ++ [(f, none)] }
    | .nothing, true =>
      match next with
      | some value => .ok { flags := done ++ [(f, some value)], taken := true }
      | none => .error (f.refusal "expected one argument")
    | .behindEquals value, true => .ok { flags := done ++ [(f, some value)] }
    | .attached value, true => .ok { flags := done ++ [(f, some value)] }
    | .behindEquals value, false => ignored value
    | .attached value, false =>
      match fuel, value.toList with
      | fuel + 1, c :: rest =>
        let other := String.ofList ['-', c]
        if c = '-' ∨ Text.startsWith ['-', '-'] name.toList then ignored value
        else
          match ArgumentKind.find other flags with
          | some g => requests flags next (done ++ [(f, none)]) fuel g other (joinedTo rest)
          | none => .ok { flags := done ++ [(f, none)], extra := some ("-" ++ value) }
      | _, _ => ignored value

/-- Carries out one flag. -/
def apply (f : Flag σ) (value : Option String) (s : σ) : Except Usage σ :=
  match f.act, value with
  | .alone set, _ => .ok (set s)
  | .ending text, _ => .error (.shown text)
  | .value set, value =>
    match set (value.getD "") s with
    | .ok s => .ok s
    | .error reason => .error (.refused "" (f.refusal reason))

/-- Carries out the flags of arguments, up to the first one that is no flag if it `stops`. What
comes back is what was gathered, what could not be used, and the arguments from the one that stops
on. -/
def gather (flags : List (Flag σ)) (stops : Bool) :
    (fuel : Nat) → σ → (extras : List String) → List (String × ArgumentKind σ) →
      Except Usage (σ × List String × List String)
  | 0, s, extras, _ => .ok (s, extras, [])
  | _, s, extras, [] => .ok (s, extras, [])
  | fuel + 1, s, extras, (a, kind) :: rest =>
    match kind with
    | .flag f name joined =>
      let value := match rest with
        | (value, .plain) :: _ => some value
        | _ => none
      match requests flags value [] a.length f name joined with
      | .error reason => .error (.refused "" reason)
      | .ok r =>
        match r.flags.foldlM (fun s (f, value) => f.apply value s) s with
        | .error usage => .error usage
        | .ok s =>
          gather flags stops fuel s (extras ++ r.extra.toList)
            (if r.taken then rest.drop 1 else rest)
    | .strange => gather flags stops fuel s (extras ++ [a]) rest
    | kind =>
      if stops && !(match kind with | .dashes => rest.isEmpty | _ => false) then
        .ok (s, extras, a :: rest.map Prod.fst)
      else gather flags stops fuel s (extras ++ [a]) rest

/-- Carries out the flags of a program. -/
def run (program : String) (flags : List (Flag σ)) (stops : Bool) (s : σ)
    (arguments : List String) : Except Usage (σ × List String × List String) :=
  match ArgumentKind.ofTexts flags arguments with
  | .error reason => .error (.refused program reason)
  | .ok kinds =>
    match gather flags stops (kinds.length + 1) s [] kinds with
    | .error (.refused _ reason) => .error (.refused program reason)
    | other => other

end Flag

end Remedy
