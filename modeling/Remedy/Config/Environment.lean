import Remedy.Config.Reader
import Remedy.Json.Reader
import Remedy.Text.Casing

/-!
Settings out of variables. A variable names a section, or by a path of names a setting in it, in any
case. The value of a variable for something that has parts is written as JSON. What is given
explicitly comes before what the environment says, and that before a file of variables; the three
are merged entry by entry.

A variable of a file may have no value, which says null for a setting and nothing for a section.
-/

set_option autoImplicit false

namespace Remedy

/-- What kind of thing a setting is. -/
inductive Shape where
  | leaf
  | list (item : Shape)
  | map (value : Shape)
  | fields (parts : List (String × Shape))

namespace Shape

/-- Whether a setting has parts. -/
def isComplex : Shape → Bool
  | .leaf => false
  | _ => true

def leaves (names : List String) : List (String × Shape) := names.map (·, .leaf)

def lowerName (s : String) : String := Text.lower s

/-- The sections and their settings. -/
def ofSections : List (String × Shape) := [
  ("run", .fields (leaves ["timeout_seconds", "max_retries", "retry_backoff", "backup_enabled",
    "validation_enabled", "rollback_on_failure", "continue_on_validation_failure", "dry_run"])),
  ("planner", .fields ([("phases", .map (.fields (leaves
    ["name", "timeout", "retries", "required"])))] ++
      leaves ["timeout_ceiling", "retries_ceiling"])),
  ("classification", .fields [("codes", .map .leaf)]),
  ("fixers", .map .leaf),
  ("validation", .fields [("checks", .list (.fields
    (leaves ["name", "kind"] ++ [("command", .list .leaf)] ++ leaves ["timeout", "required"])))]),
  ("diagnostics", .fields [("command", .list .leaf), ("timeout", .leaf)]),
  ("backup", .fields (leaves ["directory"])),
  ("logging", .fields (leaves ["level", "format"] ++
    [("file", .fields (leaves ["enabled", "path"]))]))]

end Shape

def variableStem : String := "error_resolver_"

/-- Where a name leads to inside of a setting: to a field of a record, or to an entry of a map. -/
inductive Target where
  | field (shape : Shape)
  | entry (shape : Shape)

def Target.shape : Target → Shape
  | .field shape => shape
  | .entry shape => shape

namespace Shape

/-- The field of a name in any case, with or without the stem of all variables. -/
def part? (name : String) (parts : List (String × Shape)) : Option (String × Shape) :=
  let name := lowerName name
  parts.find? fun p => lowerName p.1 == name || variableStem ++ lowerName p.1 == name

/-- Where a name leads to. What a list or a map holds is looked at first. -/
def target? (name : String) : Shape → Option Target
  | .leaf => none
  | .list item => target? name item
  | .map value => target? name value <|> some (.entry value)
  | .fields parts => (part? name parts).map fun p => .field p.2

/-- Where a path of names leads to. -/
def follow (shape : Shape) (names : List String) : Option Target :=
  names.foldl (fun at? name => at?.bind fun t => t.shape.target? name) (some (.field shape))

end Shape

/-- Variables by name, each with its value if it has one. -/
abbrev Bindings := List (String × Option String)

/-- The pieces of a text between double underscores. -/
def splitUnderscores (piece : List Char) : List Char → List String
  | [] => [String.ofList piece.reverse]
  | '_' :: '_' :: rest => String.ofList piece.reverse :: splitUnderscores [] rest
  | c :: rest => splitUnderscores (c :: piece) rest

/-- What a text says as JSON. -/
def settingOf? (text : String) : Option Setting := (Json.parse text).toOption.map Setting.ofJson

/-- The value of a variable that leads to a target. A text that is no JSON is refused for a field
that has parts, but stands as it is in a map. Where a path leads beyond the entries of a section
that is a map, it may say anything. -/
def variableValue (target : Option Target) (inMap : Bool) (text : String) : Option Setting :=
  if text.isEmpty then some (.text text)
  else
    match target with
    | some (.field shape) => if shape.isComplex then settingOf? text else some (.text text)
    | some (.entry shape) =>
      if shape.isComplex then some ((settingOf? text).getD (.text text)) else some (.text text)
    | none => if inMap then some ((settingOf? text).getD (.text text)) else some (.text text)

/-- The settings of a section that variables name by paths. None if one of them is refused. -/
def nestedSettings (name : String) (shape : Shape) (bindings : Bindings) : Option Setting :=
  let start := (variableStem ++ name ++ "__").toList
  let inMap := match shape with
    | .map _ => true
    | _ => false
  bindings.foldlM
    (fun done v =>
      if Text.startsWith start v.1.toList then
        let names := splitUnderscores [] (v.1.toList.drop start.length)
        match v.2 with
        | none => some (Setting.putAt .null names done)
        | some text =>
          (variableValue (shape.follow names) inMap text).map fun value =>
            Setting.putAt value names done
      else some done)
    (.map [])

mutual

/-- The fields of a record under the names that it knows them by. -/
def named (shape : Shape) : Setting → Setting
  | .map entries =>
    match shape with
    | .fields parts => .map (namedEntries parts [] entries)
    | _ => .map entries
  | s => s

def namedEntries (parts : List (String × Shape)) (done : List (Setting × Setting)) :
    List (Setting × Setting) → List (Setting × Setting)
  | [] => done
  | (key, value) :: rest =>
    let known := key.text?.bind fun name =>
      parts.find? fun p => Shape.lowerName p.1 == Shape.lowerName name
    match known with
    | some (name, shape) =>
      namedEntries parts (Setting.insert (.text name) (named shape value) done) rest
    | none => namedEntries parts (Setting.insert key value done) rest

end

/-- What variables say about a section: none if a value is refused, and nothing if they do not name
it. -/
def sectionSettings (name : String) (shape : Shape) (bindings : Bindings) :
    Option (Option Setting) := do
  match (Json.lookup (variableStem ++ name) bindings).bind id with
  | none =>
    let nested ← nestedSettings name shape bindings
    return if nested.truthy then some (named shape nested) else none
  | some text =>
    match ← settingOf? text with
    | .null => return none
    | .map entries =>
      let nested ← nestedSettings name shape bindings
      return some (named shape (Setting.merge (.map entries) nested))
    | s => return some s

/-- Variables under their names in lower case. -/
def lowerNames (bindings : Bindings) : Bindings :=
  bindings.foldl (fun done v => Json.insert (Text.lower v.1) v.2 done) []

/-- What variables say about all sections; otherwise the section whose value is refused. -/
def settingsFrom (bindings : Bindings) : Except String (List (Setting × Setting)) :=
  Shape.ofSections.foldlM
    (fun done s =>
      match sectionSettings s.1 s.2 bindings with
      | none => .error s.1
      | some none => .ok done
      | some (some value) => .ok (done ++ [(.text s.1, value)]))
    []

/-- Whether a variable names a section or something in it. -/
def isUsed (name : String) : Bool :=
  sectionNames.any fun s =>
    name == variableStem ++ s || Text.startsWith (variableStem ++ s ++ "__").toList name.toList

/-- The variables of a file that have a value and name no section. -/
def strangeVariables (bindings : Bindings) : List (Setting × Setting) :=
  bindings.filterMap fun (name, value) =>
    match value with
    | none => none
    | some text =>
      if text.isEmpty || isUsed name || sectionNames.contains name then none
      else some (.text name, .text text)

/-- The explicit settings with the sections in front, under their own names. A section may be named
in any case; the first entry that names it counts. -/
def inOrder (explicit : List (Setting × Setting)) : List (Setting × Setting) :=
  let sectionOf (e : Setting × Setting) : Option String :=
    e.1.text?.bind fun name => sectionNames.find? (· == Shape.lowerName name)
  let known := sectionNames.filterMap fun name =>
    (explicit.find? fun e => sectionOf e == some name).map fun e => (.text name, e.2)
  known ++ explicit.filter fun e => (sectionOf e).isNone

/-- Everything that is said about the settings: in the file of variables, in the environment and
explicitly. A refusal names the section and where its value comes from. -/
def gatherSettings (file environment : Bindings) (explicit : List (Setting × Setting)) :
    Except String Setting := do
  let refuse (source : String) (name : String) : String :=
    s!"error parsing value for field \"{name}\" from source \"{source}\""
  let environment ← (settingsFrom (lowerNames environment)).mapError
    (refuse "EnvSettingsSource")
  let file := lowerNames file
  let known ← (settingsFrom file).mapError (refuse "DotEnvSettingsSource")
  let stored := known ++ strangeVariables file
  return Setting.merge (Setting.merge (.map stored) (.map environment)) (.map (inOrder explicit))

end Remedy
