import PolicyLint.Text.Bytes
import PolicyLint.Decimal.Form

/-!
# JSON values

Whole numbers of 64 bits are kept exactly, all others as floating point. An object that was read has each
key once, in byte order; one that is to be written has its members in the order of writing.
-/
namespace PolicyLint.Json
open Text
set_option autoImplicit false

inductive Number where
  /-- A whole number from 0 up. -/
  | natural (n : Nat)
  /-- The negative of `n + 1`. -/
  | negative (n : Nat)
  | float (x : Decimal.Binary64)
  deriving DecidableEq, Repr, Inhabited

inductive Value where
  | null
  | boolean (b : Bool)
  | number (n : Number)
  | string (s : String)
  | array (items : List Value)
  | object (members : List (String × Value))
  deriving Inhabited

abbrev Members := List (String × Value)

namespace Members

/-- Sets a member at its place in byte order; an earlier value of the key is lost. -/
def insert (key : String) (value : Value) : Members → Members
  | [] => [(key, value)]
  | m :: ms =>
    if key = m.1 then (key, value) :: ms
    else if before key m.1 then (key, value) :: m :: ms
    else m :: insert key value ms

/-- The object members of a list, of which the last of equal keys counts. -/
def ofList (ms : List (String × Value)) : Members :=
  ms.foldl (fun acc (key, value) => insert key value acc) []

def find? (key : String) (ms : Members) : Option Value := ms.lookup key

/-- Changes the values of a key that is there. -/
def modify (key : String) (f : Value → Value) (ms : Members) : Members :=
  ms.map fun m => if m.1 = key then (m.1, f m.2) else m

end Members

namespace Value

/-- An object with its members in byte order. -/
def ofMembers (ms : List (String × Value)) : Value := .object (Members.ofList ms)

def ofNat (n : Nat) : Value := .number (.natural n)

def ofInt : Int → Value
  | .ofNat n => .number (.natural n)
  | .negSucc n => .number (.negative n)

/-- Null for nothing. -/
def ofOption {α : Type} (f : α → Value) : Option α → Value
  | some a => f a
  | none => .null

def get? (key : String) : Value → Option Value
  | .object ms => Members.find? key ms
  | _ => none

def string? : Value → Option String
  | .string s => some s
  | _ => none

def natural? : Value → Option Nat
  | .number (.natural n) => some n
  | _ => none

end Value

end PolicyLint.Json
