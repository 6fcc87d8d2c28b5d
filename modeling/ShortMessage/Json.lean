/-!
# JSON values

* `Json`: a value; of a number that is no integer nothing is kept, as nothing here has one;
* `Json.row?`: the values of the named fields of a record, which may also be a list.
-/

namespace ShortMessage

/-- **A JSON value.** -/
inductive Json
  | null
  | bool (value : Bool)
  | integer (value : Int)
  /-- A number with a fraction or an exponent. -/
  | real
  | text (value : String)
  | list (values : List Json)
  | object (fields : List (String × Json))
deriving Inhabited

namespace Json

/-- The value of a field; an absent field is null, and one that is given twice is refused. -/
def field? (fields : List (String × Json)) (name : String) : Option Json :=
  match fields.filter (·.1 = name) with
  | [] => some .null
  | [(_, value)] => some value
  | _ => none

/-- **The fields of a record**, in order.  An object gives them by name and may have others; a list
gives them by place and may leave out only those beyond the first `least`, which are null then. -/
def row? (names : List String) (least : Nat) : Json → Option (List Json)
  | .object fields => names.mapM (field? fields)
  | .list values =>
    if least ≤ values.length ∧ values.length ≤ names.length then
      some (values ++ List.replicate (names.length - values.length) .null)
    else none
  | _ => none

end Json

end ShortMessage
