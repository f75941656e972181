import Conductor.Binary64.Basic

/-!
# JSON values

A JSON value as it travels in events and variables. A number is a whole number
when it was written as one and fits 64 bits, and a double otherwise. An object is
a list of fields; `Json.object` puts them into key order, a later field replacing
an earlier one of the same name.
-/

namespace Conductor

/-- A JSON value. -/
inductive Json where
  | null
  | bool (value : Bool)
  /-- A number written without a point or a power of ten. -/
  | int (value : Int)
  /-- Any other number. -/
  | float (value : Binary64)
  | str (value : String)
  | arr (items : List Json)
  | obj (fields : List (String × Json))
  deriving Inhabited

namespace Json

/-- Put a field at its place in key order. -/
def insertField (name : String) (value : Json) : List (String × Json) → List (String × Json)
  | [] => [(name, value)]
  | (n, v) :: r =>
      if name < n then (name, value) :: (n, v) :: r
      else if name = n then (name, value) :: r
      else (n, v) :: insertField name value r

/-- An object with its fields in key order. -/
def object (fields : List (String × Json)) : Json :=
  .obj (fields.foldl (fun fs f => insertField f.1 f.2 fs) [])

/-- The value of a field; nothing for a value that is no object. -/
def field? (name : String) : Json → Option Json
  | .obj fields => fields.lookup name
  | _ => none

def asString? : Json → Option String
  | .str s => some s
  | _ => none

/-- One of several words: a text, or an object with one field that is null. -/
def asWord? : Json → Option String
  | .str s => some s
  | .obj [(s, .null)] => some s
  | _ => none

def asBool? : Json → Option Bool
  | .bool b => some b
  | _ => none

def asArray? : Json → Option (List Json)
  | .arr xs => some xs
  | _ => none

/-- A record given by its fields or, in the order of `names`, by its bare values. -/
def asRecord? (names : List String) : Json → Option Json
  | .obj fields => some (.obj fields)
  | .arr items => if items.length = names.length then some (.obj (names.zip items)) else none
  | _ => none

/-- A record that names its own kind: in the field `type` of an object, or as the
first of its bare values. Gives the kind and the record. -/
def tagged? (names : String → List String) : Json → Option (String × Json)
  | .obj fields => do
      let tag ← (Json.obj fields).field? "type"
      return (← tag.asString?, .obj fields)
  | .arr (.str tag :: items) => do
      return (tag, ← (Json.arr items).asRecord? (names tag))
  | _ => none

/-- The value of a field, with an absent field and one that is null alike. -/
def given? (name : String) (j : Json) : Option Json :=
  match j.field? name with
  | some .null => none
  | v => v

/-- A list of values, each read with `f`. -/
def asListOf? {α : Type} (f : Json → Option α) : Json → Option (List α)
  | .arr items => items.mapM f
  | _ => none

/-- A value that may be missing, read with `f` when it is there. -/
def optional? {α : Type} (f : Json → Option α) : Option Json → Option (Option α)
  | none => some none
  | some v => (f v).map some

mutual

/-- How deeply arrays and objects are nested. -/
def depth : Json → Nat
  | .arr items => depthItems items + 1
  | .obj fields => depthFields fields + 1
  | _ => 1

def depthItems : List Json → Nat
  | [] => 0
  | v :: r => max (depth v) (depthItems r)

def depthFields : List (String × Json) → Nat
  | [] => 0
  | (_, v) :: r => max (depth v) (depthFields r)

end

/-- A whole number within bounds. -/
def asIntIn? (low high : Int) : Json → Option Int
  | .int n => if low ≤ n ∧ n ≤ high then some n else none
  | _ => none

/-- A natural number below `2 ^ 64`. -/
def asNat64? (j : Json) : Option Nat :=
  (j.asIntIn? 0 (Nat.pow 2 64 - 1)).map Int.toNat

/-- A natural number below `2 ^ 32`. -/
def asNat32? (j : Json) : Option Nat :=
  (j.asIntIn? 0 (Nat.pow 2 32 - 1)).map Int.toNat

/-- A signed number of 32 bits. -/
def asInt32? (j : Json) : Option Int :=
  j.asIntIn? (-Nat.pow 2 31) (Nat.pow 2 31 - 1)

/-- Any number, as a double. -/
def asFloat? : Json → Option Binary64
  | .int n => some (Binary64.ofInt n)
  | .float x => some x
  | _ => none

end Json

end Conductor
