import FormulaDesk.Decimal.Layout

/-!
# Values that travel

Requests, replies and form entries hold values of one dynamic type: whole numbers of any size,
floats, texts, truth values, nothing, lists and objects. Whole numbers and floats stay apart. An
object keeps its keys in the order in which they first came.
-/

namespace FormulaDesk

inductive Json where
  | null
  | bool (b : Bool)
  | int (n : Int)
  | float (x : Float)
  | str (s : String)
  | arr (items : List Json)
  | obj (fields : List (String × Json))
deriving Inhabited

/-- The fields of an object, in order. -/
abbrev Fields := List (String × Json)

namespace Fields

def get? (fs : Fields) (key : String) : Option Json := fs.lookup key

def contains (fs : Fields) (key : String) : Bool := (fs.lookup key).isSome

def keys (fs : Fields) : List String := fs.map (·.1)

/-- Replaces the value of a key where it stands, or adds the key at the end. -/
def set : Fields → String → Json → Fields
  | [], key, value => [(key, value)]
  | (k, v) :: rest, key, value =>
    if k == key then (k, value) :: rest else (k, v) :: set rest key value

/-- Sets every field of `more` in turn. -/
def update (fs more : Fields) : Fields := more.foldl (fun acc kv => acc.set kv.1 kv.2) fs

end Fields

namespace Json

/-- The kinds of value, as messages name them. -/
inductive Kind where
  | null
  | bool
  | int
  | float
  | str
  | list
  | object
deriving DecidableEq, Repr

def Kind.name : Kind → String
  | .null => "NoneType"
  | .bool => "bool"
  | .int => "int"
  | .float => "float"
  | .str => "str"
  | .list => "list"
  | .object => "dict"

def kind : Json → Kind
  | .null => .null
  | .bool _ => .bool
  | .int _ => .int
  | .float _ => .float
  | .str _ => .str
  | .arr _ => .list
  | .obj _ => .object

/-- Nothing, zero and everything empty count as absent. -/
def isPresent : Json → Bool
  | .null => false
  | .bool b => b
  | .int n => n != 0
  | .float x => x != 0
  | .str s => !s.isEmpty
  | .arr items => !items.isEmpty
  | .obj fields => !fields.isEmpty

def isNull : Json → Bool
  | .null => true
  | _ => false

/-- The number of entries of a text, list or object; other values have no size. -/
def size? : Json → Option Nat
  | .str s => some s.length
  | .arr items => some items.length
  | .obj fields => some fields.length
  | _ => none

/-- The entries that a walk over the value meets: characters, items or keys. -/
def entries? : Json → Option (List Json)
  | .str s => some (s.toList.map fun c => .str (String.singleton c))
  | .arr items => some items
  | .obj fields => some (fields.map fun kv => .str kv.1)
  | _ => none

mutual

/-- Whether every float in the value is finite. -/
def isFinite : Json → Bool
  | .float x => (Binary.ofFloat x).isFinite
  | .arr items => allFinite items
  | .obj fields => fieldsFinite fields
  | _ => true

def allFinite : List Json → Bool
  | [] => true
  | v :: rest => v.isFinite && allFinite rest

def fieldsFinite : List (String × Json) → Bool
  | [] => true
  | (_, v) :: rest => v.isFinite && fieldsFinite rest

end

end Json

end FormulaDesk
