import StyleSieve.Number.Binary64

/-!
# JSON values

Values of the JSON data format. Objects keep the order in which their keys were first written.
-/

namespace StyleSieve

/-- A JSON value; integers are exact, other numbers are binary. -/
inductive Json where
  | null
  | bool (b : Bool)
  | int (n : Int)
  | float (x : Binary64)
  | str (s : String)
  | arr (items : List Json)
  | obj (fields : List (String × Json))

namespace Json

/-- The value that an object holds under a key. -/
def get? (key : String) : Json → Option Json
  | .obj fields => (fields.find? (·.1 == key)).map (·.2)
  | _ => none

end Json

/-- Sets a key of an association list: an old key keeps its place, a new one goes to the end. -/
def setField {α : Type} (key : String) (value : α) : List (String × α) → List (String × α)
  | [] => [(key, value)]
  | (k, v) :: rest => if k == key then (key, value) :: rest else (k, v) :: setField key value rest

end StyleSieve
