import Screencast.Number.Basic
import Screencast.Text.Basic

/-!
# Data values

`Json` is a value of a data file: integers are unbounded and distinct from binary numbers, and an
object keeps its members in the order in which their keys first appeared.
-/

namespace Screencast

/-- A data value. -/
inductive Json where
  | null
  | bool (value : Bool)
  | int (value : Int)
  | real (value : Binary64)
  | string (value : Text)
  | array (items : List Json)
  | object (members : List (Text × Json))
  deriving Inhabited, Repr

namespace Json

/-- The value of a key in a list of members. -/
def find? (key : Text) : List (Text × Json) → Option Json
  | [] => none
  | (name, value) :: rest => if name = key then some value else find? key rest

/-- Gives a key a value; a key that is there keeps its place. -/
def put (key : Text) (value : Json) : List (Text × Json) → List (Text × Json)
  | [] => [(key, value)]
  | (name, old) :: rest =>
    if name = key then (name, value) :: rest else (name, old) :: put key value rest

/-- The members that pairs define one after the other. -/
def ofPairs (pairs : List (Text × Json)) : List (Text × Json) :=
  pairs.foldl (fun members pair => put pair.1 pair.2 members) []

/-- The value of a member; values other than objects have none. -/
def get? (key : Text) : Json → Option Json
  | .object members => find? key members
  | _ => none

/-- A quantity; a truth value is no quantity. -/
def number? : Json → Option Number
  | .int n => some (.int n)
  | .real x => some (.real x)
  | _ => none

/-- A quantity, truth values counting as one and zero. -/
def quantity? : Json → Option Number
  | .bool b => some (.int (if b then 1 else 0))
  | value => value.number?

def ofNumber : Number → Json
  | .int n => .int n
  | .real x => .real x

def string? : Json → Option Text
  | .string s => some s
  | _ => none

/-- What a value consists of: the items of an array, the code points of a string, the keys of an
object. -/
def elements? : Json → Option (List Json)
  | .array items => some items
  | .string s => some (s.map fun c => .string [c])
  | .object members => some (members.map fun member => .string member.1)
  | _ => none

/-- Whether a value counts as set: not null, not false, not a zero, not empty. -/
def isSet : Json → Bool
  | .null => false
  | .bool b => b
  | .int n => n ≠ 0
  | .real x => !x.isZero
  | .string s => !s.isEmpty
  | .array items => !items.isEmpty
  | .object members => !members.isEmpty

/-- The name of the kind of a value in messages. -/
def kindName : Json → String
  | .null => "NoneType"
  | .bool _ => "bool"
  | .int _ => "int"
  | .real _ => "float"
  | .string _ => "str"
  | .array _ => "list"
  | .object _ => "dict"

theorem find?_put_self (key : Text) (value : Json) (members : List (Text × Json)) :
    find? key (put key value members) = some value := by
  induction members with
  | nil => simp [put, find?]
  | cons head rest ih =>
    by_cases h : head.1 = key <;> simp [put, find?, h, ih]

theorem find?_put_of_ne {key other : Text} (value : Json) (members : List (Text × Json))
    (h : other ≠ key) : find? key (put other value members) = find? key members := by
  induction members with
  | nil => simp [put, find?, h]
  | cons head rest ih =>
    by_cases hh : head.1 = other
    · simp [put, find?, hh, h]
    · by_cases hk : head.1 = key
      · simp [put, find?, hk, Ne.symm h]
      · simp [put, find?, hh, hk, ih]

end Json

end Screencast
