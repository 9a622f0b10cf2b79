import Remedy.Json.Printer
import Remedy.Json.Record

/-!
What is said about the settings before any of it is checked. Besides what JSON can say, an entry of
a map may have a key that is no text, and there are values, such as dates, that no setting has.

`Setting.merge` puts one map over another: what is new stands, except that maps are merged entry by
entry. `lookup_insert_text` says that an entry is found under its own name and hides no other one.
-/

set_option autoImplicit false

namespace Remedy

inductive Setting where
  | null
  | number (n : Number)
  | text (s : String)
  | list (items : List Setting)
  | map (entries : List (Setting × Setting))
  /-- A value of another kind, as messages show it. -/
  | other (shown : String)
  deriving Repr, Inhabited

namespace Setting

mutual

def ofJson : Json → Setting
  | .null => .null
  | .bool b => .number (.truth b)
  | .num n => .number n
  | .str s => .text s
  | .arr items => .list (ofItems items)
  | .obj fields => .map (ofFields fields)

def ofItems : List Json → List Setting
  | [] => []
  | j :: rest => ofJson j :: ofItems rest

def ofFields : List (String × Json) → List (Setting × Setting)
  | [] => []
  | (name, j) :: rest => (.text name, ofJson j) :: ofFields rest

end

def text? : Setting → Option String
  | .text s => some s
  | _ => none

/-- Whether a value counts as true: zero, emptiness and null do not. -/
def truthy : Setting → Bool
  | .null => false
  | .number n => !n.isZero
  | .text s => !s.isEmpty
  | .list items => !items.isEmpty
  | .map entries => !entries.isEmpty
  | .other _ => true

/-- Whether two values are the same key. Numbers are told apart by what they count as; a collection
is no key at all. -/
def sameKey : Setting → Setting → Bool
  | .null, .null => true
  | .number a, .number b => a == b || a.eq b
  | .text s, .text t => s == t
  | .other s, .other t => s == t
  | _, _ => false

/-- A key as a step on the way to a value. -/
def step : Setting → Json
  | .null => "None"
  | .text s => s
  | .other shown => shown
  | .number n =>
    match n.int? with
    | some k => if isWord k then k else .str (toString k)
    | none => .str n.text
  | _ => ""

/-- Puts a value under a key: in the place of the old value, under the old key, or at the end. -/
def insert (key value : Setting) : List (Setting × Setting) → List (Setting × Setting)
  | [] => [(key, value)]
  | (k, v) :: rest =>
    if sameKey k key then (k, value) :: rest else (k, v) :: insert key value rest

def lookup (key : Setting) : List (Setting × Setting) → Option Setting
  | [] => none
  | (k, v) :: rest => if sameKey k key then some v else lookup key rest

/-- The value under a name. -/
def field? (name : String) (entries : List (Setting × Setting)) : Option Setting :=
  lookup (.text name) entries

theorem sameKey_text_iff (k : Setting) (name : String) :
    sameKey k (.text name) = true ↔ k = .text name := by
  cases k <;> simp [sameKey]

theorem lookup_insert_text (name other : String) (value : Setting)
    (entries : List (Setting × Setting)) :
    lookup (.text other) (insert (.text name) value entries) =
      if name = other then some value else lookup (.text other) entries := by
  induction entries with
  | nil => simp [insert, lookup, sameKey]
  | cons e rest ih =>
    obtain ⟨k, v⟩ := e
    by_cases h : k = .text name
    · subst h
      by_cases g : name = other <;> simp [insert, lookup, sameKey, g]
    · have hk : sameKey k (.text name) = false := by
        rw [← Bool.not_eq_true, sameKey_text_iff]
        exact h
      by_cases g : sameKey k (.text other) = true
      · have hne : name ≠ other := by
          rintro rfl
          exact h ((sameKey_text_iff k name).mp g)
        simp [insert, lookup, hk, g, hne]
      · simp [insert, lookup, hk, g, ih]

mutual

/-- Puts one value over another. -/
def merge (old : Setting) : (new : Setting) → Setting
  | .map new =>
    match old with
    | .map old => .map (mergeEntries old new)
    | _ => .map new
  | new => new

/-- Puts the entries of one map over those of another. -/
def mergeEntries (old : List (Setting × Setting)) :
    (new : List (Setting × Setting)) → List (Setting × Setting)
  | [] => old
  | (key, value) :: rest =>
    let value := match lookup key old with
      | some before => merge before value
      | none => value
    mergeEntries (insert key value old) rest

end

/-- Puts a value at a path of names, unless something that has no entries is in the way. -/
def putAt (value : Setting) : (names : List String) → Setting → Setting
  | [name], .map entries => .map (insert (.text name) value entries)
  | name :: rest, .map entries =>
    let inner := (field? name entries).getD (.map [])
    .map (insert (.text name) (putAt value rest inner) entries)
  | _, s => s

end Setting

end Remedy
