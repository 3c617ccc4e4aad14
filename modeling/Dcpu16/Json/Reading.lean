import Dcpu16.Json.Token

/-! Reading JSON text.  The reader keeps the arrays and objects that are still open on a stack, so
it takes its tokens one by one and nesting costs no recursion. -/

namespace Dcpu16.Json

/-- An array or object that is still open, its parts in reverse. -/
inductive Frame where
  | array (elements : List Value)
  | object (members : List (Contents × Value))
  /-- An object whose member with this name is being read. -/
  | member (members : List (Contents × Value)) (name : Contents)
  deriving Repr

/-- What may come next. -/
inductive Expected where
  /-- A value. -/
  | value
  /-- The first element of an array, or its end. -/
  | element
  /-- The name of a member. -/
  | name
  /-- The first member of an object, or its end. -/
  | firstName
  /-- The colon after a name. -/
  | colon
  /-- Whatever may follow the value that has just been read. -/
  | after (v : Value)
  deriving Repr

/-- A reader between two tokens. -/
structure Reader where
  stack : List Frame := []
  expected : Expected := .value
  deriving Repr

namespace Reader

/-- Takes the next token. -/
def step (r : Reader) (t : Token) : Option Reader :=
  match r.expected, t, r.stack with
  | .value, .scalar v, s => some ⟨s, .after v⟩
  | .value, .openArray, s => some ⟨.array [] :: s, .element⟩
  | .value, .openObject, s => some ⟨.object [] :: s, .firstName⟩
  | .element, .scalar v, s => some ⟨s, .after v⟩
  | .element, .openArray, s => some ⟨.array [] :: s, .element⟩
  | .element, .openObject, s => some ⟨.object [] :: s, .firstName⟩
  | .element, .closeArray, .array vs :: s => some ⟨s, .after (.array vs.reverse)⟩
  | .name, .scalar (.string n), .object ms :: s => some ⟨.member ms n :: s, .colon⟩
  | .firstName, .scalar (.string n), .object ms :: s => some ⟨.member ms n :: s, .colon⟩
  | .firstName, .closeObject, .object ms :: s => some ⟨s, .after (.object ms.reverse)⟩
  | .colon, .colon, s => some ⟨s, .value⟩
  | .after v, .comma, .array vs :: s => some ⟨.array (v :: vs) :: s, .value⟩
  | .after v, .comma, .member ms n :: s => some ⟨.object ((n, v) :: ms) :: s, .name⟩
  | .after v, .closeArray, .array vs :: s => some ⟨s, .after (.array (v :: vs).reverse)⟩
  | .after v, .closeObject, .member ms n :: s => some ⟨s, .after (.object ((n, v) :: ms).reverse)⟩
  | _, _, _ => none

/-- The value that has been read, once nothing is open. -/
def value? (r : Reader) : Option Value :=
  match r.expected, r.stack with
  | .after v, [] => some v
  | _, _ => none

end Reader

/-- The value that a list of tokens stands for. -/
def Value.ofTokens? (tokens : List Token) : Option Value :=
  (tokens.foldlM Reader.step {}).bind Reader.value?

/-- The value that a text stands for. -/
def Value.parse? (text : List Char) : Option Value := (scan text).bind Value.ofTokens?

end Dcpu16.Json
