import Mathlib.Algebra.BigOperators.Group.List.Basic
import Mathlib.Algebra.Order.Ring.Nat
import Mathlib.Data.List.Induction
import Mathlib.Data.List.Sort
import Mathlib.Tactic.Tauto
namespace ArxRuna.Library.JsonText

-- JSON values as a deserialiser sees them. Numbers are the unsigned ones.
inductive Json where
  | null
  | bool (value : Bool)
  | number (value : Nat)
  | text (value : String)
  | array (items : List Json)
  | object (fields : List (String × Json))

-- A text file that should hold JSON: a value, or bytes that are no JSON.
inductive JsonFile where
  | json (value : Json)
  | garbled

def JsonFile.value? : JsonFile → Option Json
  | .json value => some value
  | .garbled => none

abbrev Fields := List (String × Json)

-- A record comes as an object, or as the array of its fields in their order.
def Json.record? (names : List String) : Json → Option Fields
  | .object fields => some fields
  | .array items => if items.length ≤ names.length then some (names.zip items) else none
  | _ => none

def Json.text? : Json → Option String
  | .text value => some value
  | _ => none

def Json.array? : Json → Option (List Json)
  | .array items => some items
  | _ => none

-- Numbers of a fixed width are rejected when they do not fit.
def Json.number? (bound : Nat) : Json → Option Nat
  | .number value => if value < bound then some value else none
  | _ => none

-- A required field stands in the object exactly once. Other fields are ignored.
def field (name : String) (fields : Fields) : Option Json :=
  match fields.filter (·.1 = name) with
  | [(_,value)] => some value
  | _ => none

-- A field with a default may be absent, but not stand there twice.
def fieldOr (name : String) (fallback : α) (decode : Json → Option α) (fields : Fields) : Option α :=
  match fields.filter (·.1 = name) with
  | [] => some fallback
  | [(_,value)] => decode value
  | _ => none

def nullable (decode : Json → Option α) : Json → Option (Option α)
  | .null => some none
  | value => (decode value).map some

theorem decode_items {decode : Json → Option α} {encode : α → Json}
    (round : ∀ item, decode (encode item) = some item) (items : List α) :
    (items.map encode).mapM decode = some items := by
  induction items with
  | nil => rfl
  | cons item rest ih =>
    rw [List.map_cons,List.mapM_cons,round item,ih]
    rfl

end ArxRuna.Library.JsonText
