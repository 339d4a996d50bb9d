import Mathlib.Data.List.Nodup

/-! JSON values as `serde_json` holds them, and its reader and writer as parameters.
An object keeps its members in a list; reading an object never yields a name twice. -/
namespace Mooncache

/-- A number keeps the representation it was read with; a float is its 64 bits. -/
inductive Number where
  | posInt (n : Nat)
  | negInt (n : Int)
  | float (bits : UInt64)
  deriving DecidableEq, Repr

inductive Value where
  | null
  | bool (b : Bool)
  | number (n : Number)
  | string (s : String)
  | array (items : List Value)
  | object (members : List (String × Value))

namespace Value

/-- The member of an object with this name. -/
def get (key : String) : Value → Option Value
  | object members => members.lookup key
  | _ => none

def asStr : Value → Option String
  | string s => some s
  | _ => none

def asBool : Value → Option Bool
  | bool b => some b
  | _ => none

/-- An unsigned integer; the reader keeps no other number in this form. -/
def asUnsigned : Value → Option Nat
  | number (.posInt n) => some n
  | _ => none

mutual

/-- No object at any depth has two members of one name. -/
def wellFormed : Value → Bool
  | array items => wellFormedItems items
  | object members => decide (members.map Prod.fst).Nodup && wellFormedMembers members
  | _ => true

def wellFormedItems : List Value → Bool
  | [] => true
  | item :: rest => wellFormed item && wellFormedItems rest

def wellFormedMembers : List (String × Value) → Bool
  | [] => true
  | (_, value) :: rest => wellFormed value && wellFormedMembers rest

end

end Value

/-- A value that reading a document can yield. -/
abbrev Document := {value : Value // value.wellFormed = true}

/-- `serde_json::to_vec`, which does not fail on a `Value`. -/
class JsonWriter where
  toVec : Value → List UInt8

/-- `serde_json::from_slice`, and the error of `serde_json::from_value` where a value is
not of the named type; an error is its display text. -/
class JsonReader where
  fromSlice : List UInt8 → Except String Value
  mismatch : String → Value → String

export JsonWriter (toVec)
export JsonReader (fromSlice mismatch)

end Mooncache
