import Dcpu16.Json.Number
import Dcpu16.Json.Value

/-! Reading typed data from JSON values.  A number is taken as a natural number only if it is
written without sign, point and exponent.  A record is an object with its fields in any order, or an
array of them in their own order. -/

namespace Dcpu16.Json

namespace Value

/-- A natural number up to `limit`. -/
def nat? (limit : Nat) : Value → Option Nat
  | number n => n.toNat?.filter (· ≤ limit)
  | _ => none

def word? (v : Value) : Option UInt16 := (v.nat? 0xFFFF).map .ofNat

def bool? : Value → Option Bool
  | bool b => some b
  | _ => none

/-- A string that has a text. -/
def text? : Value → Option String
  | string s => s
  | _ => none

def float? : Value → Option Float
  | number n => toFloat? n
  | _ => none

/-- A list of like values. -/
def list? {α : Type} (element? : Value → Option α) : Value → Option (List α)
  | array vs => vs.mapM element?
  | _ => none

/-- A value that may be `null`. -/
def orNull? {α : Type} (value? : Value → Option α) : Value → Option (Option α)
  | null => some none
  | v => (value? v).map some

end Value

/-- What a record's reader does with members that are no field. -/
inductive Unknown where
  | ignored
  | refused
  deriving DecidableEq, Repr

/-- The value of a field that occurs at most once among members. -/
def fieldOf? (members : List (String × Value)) (name : String) : Option (Option Value) :=
  match members.filter (·.1 == name) with
  | [] => some none
  | [(_, v)] => some (some v)
  | _ => none

/-- The values of the named fields of a record, in the order of the names; `none` stands for a field
that is missing. -/
def Value.fields? (names : List String) (unknown : Unknown) : Value → Option (List (Option Value))
  | object ms => do
    let members ← ms.mapM fun (name, v) => name.map fun name => (name, v)
    if unknown = .refused && members.any fun (name, _) => !names.contains name then none
    names.mapM (fieldOf? members)
  | array vs =>
    if names.length < vs.length then none
    else some (vs.map some ++ List.replicate (names.length - vs.length) none)
  | _ => none

/-- The values of the named fields of a record that misses none. -/
def Value.allFields? (names : List String) (v : Value) : Option (List Value) := do
  (← v.fields? names .ignored).mapM id

end Dcpu16.Json
