import Remedy.Yaml.Lexer
import Remedy.Yaml.Plain

/-!
The tree of a YAML document. `Node.ofTokens` is none for an empty text; it refuses tokens that do
not form a single document. A name that was given to a node may stand for it later on. Within the
node itself it stands for an empty one of its kind.
-/

set_option autoImplicit false

namespace Remedy.Yaml

inductive Node where
  | scalar (kind : Kind) (text : String)
  | list (kind : Kind) (items : List Node)
  | map (kind : Kind) (entries : List (Node × Node))
  deriving Repr

namespace Node

def empty : Node := .scalar .null ""

def kind : Node → Kind
  | .scalar kind _ => kind
  | .list kind _ => kind
  | .map kind _ => kind

end Node

/-- What is left to read, and what was said so far. -/
structure Progress where
  rest : List Token
  anchors : List (String × Node) := []
  handles : List (String × String) := []

abbrev Composer := StateT Progress (Except Fault)

namespace Composer

/-- The next token, if the text does not end here. -/
def peek : Composer (Option Token) := do
  match (← get).rest.head? with
  | some (.fault cause) => throw cause
  | found => return found

def drop : Composer Unit := modify fun p => { p with rest := p.rest.drop 1 }

/-! ### Properties of nodes -/

/-- The text of a tag. -/
def tagText (handle : Option String) (suffix : String) : Composer String := do
  match handle with
  | none => return suffix
  | some handle =>
    match Json.lookup handle (← get).handles with
    | some text => return text ++ suffix
    | none => throw .markup

/-- The name and the tag in front of a node, in either order. -/
def properties : Composer (Option String × Option String) := do
  match ← peek with
  | some (.anchor name) =>
    drop
    match ← peek with
    | some (.tag handle suffix) =>
      drop
      return (some name, some (← tagText handle suffix))
    | _ => return (some name, none)
  | some (.tag handle suffix) =>
    drop
    match ← peek with
    | some (.anchor name) =>
      drop
      return (some name, some (← tagText handle suffix))
    | _ => return (none, some (← tagText handle suffix))
  | _ => return (none, none)

/-- Gives a node a name, which may not have been given before. -/
def register (name : Option String) (node : Node) : Composer Unit := do
  match name with
  | none => return ()
  | some name =>
    if (Json.lookup name (← get).anchors).isSome then throw .markup
    modify fun p => { p with anchors := (name, node) :: p.anchors }

/-- A collection that is read after its name is given to an empty one. -/
def named (name : Option String) (first : Node) (read : Composer Node) : Composer Node := do
  register name first
  let node ← read
  modify fun p => { p with anchors := name.toList.map (·, node) ++ p.anchors }
  return node

/-- The kind that a tag gives, if there is one that means something. -/
def kindOf (tag : Option String) (other : Kind) : Kind :=
  match tag with
  | none => other
  | some tag => if tag = "!" then other else Kind.ofTag tag

/-- A scalar; if it is not plain, it is a text unless a tag says otherwise. -/
def scalarOf (tag : Option String) (text : String) (plain : Bool) : Node :=
  .scalar (kindOf tag (if plain || tag.isSome then Kind.ofPlain text else .text)) text

/-! ### Nodes -/

mutual

/-- Reads a node. A collection in blocks is only read if `block`, and a list without an indentation
of its own only if `bare`. -/
def node : (fuel : Nat) → (block bare : Bool) → Composer Node
  | 0, _, _ => throw .markup
  | fuel + 1, block, bare => do
    if let some (.alias name) ← peek then
      drop
      match Json.lookup name (← get).anchors with
      | some node => return node
      | none => throw .markup
    let (name, tag) ← properties
    let listKind := kindOf tag .list
    let mapKind := kindOf tag .map
    let listBy (read : Composer (List Node)) : Composer Node :=
      named name (.list listKind []) (Node.list listKind <$> read)
    let mapBy (read : Composer (List (Node × Node))) : Composer Node :=
      named name (.map mapKind []) (Node.map mapKind <$> read)
    match ← peek, block, bare with
    | some .item, _, true => listBy (bareItems fuel)
    | some (.scalar text plain), _, _ =>
      drop
      let node := scalarOf tag text plain
      register name node
      return node
    | some .flowListStart, _, _ =>
      drop
      listBy (flowItems fuel true)
    | some .flowMapStart, _, _ =>
      drop
      mapBy (flowEntries fuel true)
    | some .listStart, true, _ =>
      drop
      listBy (items fuel)
    | some .mapStart, true, _ =>
      drop
      mapBy (entries fuel)
    | _, _, _ =>
      if name.isNone && tag.isNone then throw .markup
      let node := Node.scalar (kindOf tag .null) ""
      register name node
      return node

/-- Reads the items of a block up to its end. -/
def items : (fuel : Nat) → Composer (List Node)
  | 0 => throw .markup
  | fuel + 1 => do
    match ← peek with
    | some .item =>
      drop
      let first ← match ← peek with
        | some .item => pure Node.empty
        | some .blockEnd => pure Node.empty
        | _ => node fuel true false
      return first :: (← items fuel)
    | some .blockEnd =>
      drop
      return []
    | _ => throw .markup

/-- Reads items in the column of the key that they belong to. -/
def bareItems : (fuel : Nat) → Composer (List Node)
  | 0 => throw .markup
  | fuel + 1 => do
    match ← peek with
    | some .item =>
      drop
      let first ← match ← peek with
        | some .item => pure Node.empty
        | _ => blockPart fuel false
      return first :: (← bareItems fuel)
    | _ => return []

/-- Reads what belongs to a key or a value in a block, and perhaps nothing. -/
def blockPart : (fuel : Nat) → (bare : Bool) → Composer Node
  | 0, _ => throw .markup
  | fuel + 1, bare => do
    match ← peek with
    | some .key => return .empty
    | some .value => return .empty
    | some .blockEnd => return .empty
    | _ => node fuel true bare

/-- Reads the entries of a block up to its end. -/
def entries : (fuel : Nat) → Composer (List (Node × Node))
  | 0 => throw .markup
  | fuel + 1 => do
    match ← peek with
    | some .key =>
      drop
      let key ← blockPart fuel true
      let value ← match ← peek with
        | some .value =>
          drop
          blockPart fuel true
        | _ => pure Node.empty
      return (key, value) :: (← entries fuel)
    | some .blockEnd =>
      drop
      return []
    | _ => throw .markup

/-- Reads what belongs to a key or a value in brackets, and perhaps nothing. -/
def flowPart : (fuel : Nat) → (inMap : Bool) → Composer Node
  | 0, _ => throw .markup
  | fuel + 1, inMap => do
    match ← peek, inMap with
    | some .comma, _ => return .empty
    | some .flowListEnd, false => return .empty
    | some .flowMapEnd, true => return .empty
    | _, _ => node fuel false false

/-- Reads an entry in brackets, its mark being the next token. -/
def flowEntry : (fuel : Nat) → (inMap : Bool) → Composer (Node × Node)
  | 0, _ => throw .markup
  | fuel + 1, inMap => do
    drop
    let key ← match ← peek with
      | some .value => pure Node.empty
      | _ => flowPart fuel inMap
    match ← peek with
    | some .value =>
      drop
      return (key, ← flowPart fuel inMap)
    | _ => return (key, .empty)

/-- Reads the items of a list up to the closing bracket. An item may be a map of one entry. -/
def flowItems : (fuel : Nat) → (first : Bool) → Composer (List Node)
  | 0, _ => throw .markup
  | fuel + 1, first => do
    match ← peek, first with
    | some .flowListEnd, _ => pure ()
    | some .comma, false => drop
    | _, true => pure ()
    | _, false => throw .markup
    match ← peek with
    | some .flowListEnd =>
      drop
      return []
    | some .key =>
      let entry ← flowEntry fuel false
      return .map .map [entry] :: (← flowItems fuel false)
    | _ =>
      let item ← node fuel false false
      return item :: (← flowItems fuel false)

/-- Reads the entries of a map up to the closing brace. An entry may be a key alone. -/
def flowEntries : (fuel : Nat) → (first : Bool) → Composer (List (Node × Node))
  | 0, _ => throw .markup
  | fuel + 1, first => do
    match ← peek, first with
    | some .flowMapEnd, _ => pure ()
    | some .comma, false => drop
    | _, true => pure ()
    | _, false => throw .markup
    match ← peek with
    | some .flowMapEnd =>
      drop
      return []
    | some .key =>
      let entry ← flowEntry fuel true
      return entry :: (← flowEntries fuel false)
    | _ =>
      let key ← node fuel false false
      return (key, .empty) :: (← flowEntries fuel false)

end

/-! ### Documents -/

def knownHandles : List (String × String) := [("!", "!"), ("!!", "tag:yaml.org,2002:")]

/-- Reads the directives in front of a document. Of a version or a handle there may be one only. -/
def directives : (fuel : Nat) → (versioned : Bool) → Composer Unit
  | 0, _ => throw .markup
  | fuel + 1, versioned => do
    match ← peek with
    | some (.directive d) =>
      drop
      match d with
      | .version major =>
        if versioned || major ≠ 1 then throw .markup
        directives fuel true
      | .handle handle text =>
        if (Json.lookup handle (← get).handles).isSome then throw .markup
        modify fun p => { p with handles := (handle, text) :: p.handles }
        directives fuel versioned
      | .other => directives fuel versioned
    | _ => modify fun p => { p with handles := p.handles ++ knownHandles }

/-- Reads the directives and the mark of a document. -/
def documentMark (fuel : Nat) : Composer Unit := do
  directives fuel false
  match ← peek with
  | some .documentStart => drop
  | _ => throw .markup

/-- Passes the marks at the end of a document. -/
def dropEnds : (fuel : Nat) → Composer Unit
  | 0 => throw .markup
  | fuel + 1 => do
    match ← peek with
    | some .documentEnd =>
      drop
      dropEnds fuel
    | _ => return ()

/-- Reads what follows the mark of a document. -/
def marked (fuel : Nat) : Composer Node := do
  documentMark fuel
  match ← peek with
  | none => return .empty
  | some (.directive _) => return .empty
  | some .documentStart => return .empty
  | some .documentEnd => return .empty
  | _ => node fuel true false

/-- Reads a single document. -/
def document (fuel : Nat) : Composer (Option Node) := do
  let root ← match ← peek with
    | none => return none
    | some (.directive _) => marked fuel
    | some .documentStart => marked fuel
    | _ =>
      modify fun p => { p with handles := knownHandles }
      node fuel true false
  dropEnds fuel
  match ← peek with
  | none => return some root
  | _ =>
    modify fun p => { p with handles := [] }
    documentMark fuel
    throw .markup

end Composer

/-- The tree that tokens form. -/
def Node.ofTokens (ts : List Token) : Except Fault (Option Node) :=
  (Composer.document (4 * ts.length + 8)).run' { rest := ts }

end Remedy.Yaml
