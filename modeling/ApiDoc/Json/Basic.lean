import ApiDoc.OrderedMap
import ApiDoc.Decimal.Shortest
import ApiDoc.Text.Quoted

/-!
# JSON values

JSON documents as the rest of the library reads and writes them. Integers and floating-point
numbers are told apart, objects keep the order of their fields, and a message shows a value by
`describe`.
-/

namespace ApiDoc

/-- A JSON value. A number written with a point or an exponent is a double, given by its bits;
every other number is an integer. -/
inductive Json where
  /-- The absent value. -/
  | null
  /-- A truth value. -/
  | bool (b : Bool)
  /-- A number without point and exponent. -/
  | int (n : Int)
  /-- A double, by its bits. -/
  | double (bits : Nat)
  /-- A string. -/
  | str (t : Text)
  /-- An array. -/
  | arr (values : List Json)
  /-- An object, its fields in order. -/
  | obj (fields : List (Text × Json))

namespace Json

/-- The kinds of JSON values. -/
inductive Kind where
  | null | bool | int | double | str | arr | obj
  deriving DecidableEq, Repr

/-- The kind of a value. -/
def kind : Json → Kind
  | null => .null
  | bool _ => .bool
  | int _ => .int
  | double _ => .double
  | str _ => .str
  | arr _ => .arr
  | obj _ => .obj

/-- The name that messages give to a kind of value. -/
def Kind.name : Kind → String
  | .null => "NoneType"
  | .bool => "bool"
  | .int => "int"
  | .double => "float"
  | .str => "str"
  | .arr => "list"
  | .obj => "dict"

/-- Numbers in messages have no exponent from 0.0001 up to below ten to the sixteenth. -/
def layout : Decimal.Layout where
  minPoint := -3
  maxPoint := 16

/-- Whether a value counts as nothing: null, false, zero of either sign, and everything empty. -/
def isEmpty : Json → Bool
  | null => true
  | bool b => !b
  | int n => n == 0
  | double bits => bits % Nat.pow 2 63 == 0
  | str t => t.isEmpty
  | arr values => values.isEmpty
  | obj fields => fields.isEmpty

/-- A field of an object; a value of another kind has none. -/
def field? (name : Text) : Json → Option Json
  | obj fields => OrderedMap.find? name fields
  | _ => none

mutual

/-- The text that shows a value in a message. -/
def describe : Json → Text
  | null => "None".toList
  | bool b => if b then "True".toList else "False".toList
  | int n => Text.ofInt n
  | double bits => layout.textOfBits bits
  | str t => Text.quoted t
  | arr values => '[' :: Text.joinWith [',', ' '] (describeAll values) ++ [']']
  | obj fields => '{' :: Text.joinWith [',', ' '] (describeFields fields) ++ ['}']

/-- The texts that show the values of an array. -/
def describeAll : List Json → List Text
  | [] => []
  | value :: values => describe value :: describeAll values

/-- The texts that show the fields of an object. -/
def describeFields : List (Text × Json) → List Text
  | [] => []
  | (name, value) :: fields =>
    (Text.quoted name ++ ':' :: ' ' :: describe value) :: describeFields fields

end

end Json

end ApiDoc
