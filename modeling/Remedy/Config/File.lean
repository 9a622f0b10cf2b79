import Remedy.Config.Dotenv
import Remedy.Config.Environment
import Remedy.Config.Substitution
import Remedy.World
import Remedy.Yaml.Value

/-!
Configuration files. A file is a YAML document in which variables are replaced before it is read;
what it holds is merged with what the environment says, read, and checked for parts that do not fit
together. An empty document stands for the defaults.
-/

set_option autoImplicit false

namespace Remedy

/-- The text of the file of variables in the working directory, empty if there is none. A byte order
mark in front of it does not count. -/
def dotenvText : Act (Except Text.Utf8Error (List Char)) := do
  let p := Path.ofString ".env"
  if ← Act.onFiles (FileAct.isFile p) then
    let content ← Act.onFiles (FileAct.read p)
    return (Text.decodeStrict content).map fun text =>
      let cs := Text.lineFeeds text.toList
      if cs.head? = some '\uFEFF' then cs.drop 1 else cs
  else return .ok []

/-- What is said about the settings, by explicit values and by variables; otherwise a refusal. -/
def allSettings (explicit : List (Setting × Setting)) : Act (Except Fault Setting) := do
  match ← dotenvText with
  | .error e => return .error (.undecodable e)
  | .ok cs =>
    let bindings := (← get).bindings
    let file := Dotenv.read bindings (String.ofList cs)
    let environment := bindings.map fun v => (v.1, some v.2)
    return (gatherSettings file environment explicit).mapError (.raised .settingsValue)

/-- The settings given explicitly, the rest coming from variables and defaults. -/
def Config.ofSetting (s : Setting) : Act Config := do
  let s ← match s with
    | .map explicit =>
      match ← allSettings explicit with
      | .ok all => pure all
      | .error fault => throw (.settings "ResolverConfig" [⟨[], "value_error", some fault.message⟩])
    | s => pure s
  Act.ofExcept (Config.reader.run "ResolverConfig" s)

/-- The settings if nothing is given explicitly. -/
def Config.defaults : Act Config := do
  let all ← Act.ofExcept (← allSettings [])
  Act.ofExcept (Config.reader.run "ResolverConfig" all)

/-- Refuses settings of which two parts do not fit together. -/
def Config.check (c : Config) : Act Unit :=
  match c.conflict? with
  | some cause => throw (.invalid cause)
  | none => return ()

/-- The entries in the text of a configuration file. -/
def configEntries (p : Path) (text : String) : Except Fault (List (Setting × Setting)) := do
  match ← Yaml.read text with
  | .map entries =>
    if entries.all fun e => e.1.text?.isSome then return entries else throw (.misuse .wrongType)
  | s => if s.truthy then throw (.invalid (.rootNotMapping p.text)) else return []

/-- The settings in a file, or the defaults if there is none. -/
def Config.load : Option Path → Act Config
  | none => Config.defaults
  | some p => do
    if p.hasNul || !(← Act.onFiles (FileAct.present p)) then throw (.missingConfig p.text)
    match Text.decodeStrict (← Act.onFiles (FileAct.read p)) with
    | .error e => throw (.undecodable e)
    | .ok text =>
      match substitute (← get).bindings (String.ofList (Text.lineFeeds text.toList)) with
      | .error cause => throw (.invalid cause)
      | .ok text =>
        let config ← Config.ofSetting (.map (← Act.ofExcept (configEntries p text)))
        config.check
        return config

end Remedy
