/-
# JSON values as `serde_json` holds them

A number is an integer of the 64-bit ranges (the bound is part of it) or a
finite float. A float keeps its exact value and the text it is printed as; the
printing algorithm is not here. `Value.render` is the compact form that
`Display` writes into a message.
-/
import Mathlib.Data.Rat.Defs
import BirthdayRole.Lib.Text

namespace Json

open Text

inductive Number where
  | int (n : ℤ) (inRange : -2 ^ 63 ≤ n ∧ n < 2 ^ 64)
  | float (q : ℚ) (text : String)
  deriving DecidableEq

inductive Value where
  | null
  | bool (b : Bool)
  | number (n : Number)
  | string (s : String)
  | array (a : List Value)
  | object (o : List (String × Value))

namespace Number

def asI64 : Number → Option I64
  | .int n _ => I64.ofInt? n
  | .float _ _ => none

def asU64 : Number → Option ℕ
  | .int n _ => if 0 ≤ n then some n.toNat else none
  | .float _ _ => none

/-- `as i64` of a float: towards zero, and the nearest bound outside the range. -/
def saturate (n : ℤ) : I64 := ⟨max (-2 ^ 63) (min (2 ^ 63 - 1) n), by omega⟩

/-- `as_f64().map(|f| f as i64)`. An integer that needs it is above the 64-bit
signed range, and so is the nearest float. -/
def asF64AsI64 : Number → I64
  | .int n _ => saturate n
  | .float q _ => saturate (q.num.tdiv q.den)

def render : Number → String
  | .int n _ => toString n
  | .float _ text => text

end Number

namespace Value

/-- `Value::from` of an `i64`. -/
def ofI64 (n : I64) : Value := .number (.int n ⟨n.2.1, by have := n.2.2; omega⟩)

def asBool : Value → Option Bool
  | .bool b => some b
  | _ => none

def asI64 : Value → Option I64
  | .number n => n.asI64
  | _ => none

def asU64 : Value → Option ℕ
  | .number n => n.asU64
  | _ => none

def asStr : Value → Option String
  | .string s => some s
  | _ => none

def asArray : Value → Option (List Value)
  | .array a => some a
  | _ => none

/-- `value["key"]`: null where there is nothing. -/
def index (key : String) : Value → Value
  | .object o => (o.lookup key).getD .null
  | _ => .null

/-- `Value::get` of a key. -/
def get (key : String) : Value → Option Value
  | .object o => o.lookup key
  | _ => none

mutual

/-- A text or a key has a U+0000. -/
def hasNul : Value → Bool
  | .string s => decide ('\x00' ∈ s.toList)
  | .array a => anyNul a
  | .object o => memberNul o
  | _ => false

def anyNul : List Value → Bool
  | [] => false
  | v :: a => hasNul v || anyNul a

def memberNul : List (String × Value) → Bool
  | [] => false
  | (key, v) :: o => decide ('\x00' ∈ key.toList) || hasNul v || memberNul o

end

@[simp] theorem asI64_ofI64 (n : I64) : (ofI64 n).asI64 = some n := I64.ofInt?_val n

def escapeChar (c : Char) : List Char :=
  if c = '"' then ['\\', '"']
  else if c = '\\' then ['\\', '\\']
  else if c = '\n' then ['\\', 'n']
  else if c = '\r' then ['\\', 'r']
  else if c = '\t' then ['\\', 't']
  else if c.toNat = 8 then ['\\', 'b']
  else if c.toNat = 12 then ['\\', 'f']
  else if c.toNat < 32 then
    ['\\', 'u', '0', '0', Nat.digitChar (c.toNat / 16), Nat.digitChar (c.toNat % 16)]
  else [c]

def quote (s : String) : String := "\"" ++ .ofList (s.toList.flatMap escapeChar) ++ "\""

mutual

/-- The compact text of a value. -/
def render : Value → String
  | .null => "null"
  | .bool b => if b then "true" else "false"
  | .number n => n.render
  | .string s => quote s
  | .array a => "[" ++ Text.join "," (renderItems a) ++ "]"
  | .object o => "\x7b" ++ Text.join "," (renderFields o) ++ "\x7d"

def renderItems : List Value → List String
  | [] => []
  | v :: vs => render v :: renderItems vs

def renderFields : List (String × Value) → List String
  | [] => []
  | (k, v) :: r => (quote k ++ ":" ++ render v) :: renderFields r

end

end Value

end Json
