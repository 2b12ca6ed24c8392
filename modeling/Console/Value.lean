import Console.Number.Shortest
import Console.Text.Escaped

namespace Console

/-- A value of a kind that only the host knows: the name of its kind, and the number by which the
host tells it from others of that kind. -/
structure HostValue where
  kind : Text
  number : Int
  deriving DecidableEq, Repr

inductive Value
  | string (text : Text)
  | integer (number : Int)
  | float (number : Binary32)
  | boolean (truth : Bool)
  | host (value : HostValue)
  deriving DecidableEq, Repr

namespace Value

def writeBool (truth : Bool) : Text := if truth then Text.of "true" else Text.of "false"

def kindName : Value → Text
  | string _ => Text.of "String"
  | integer _ => Text.of "Integer"
  | float _ => Text.of "Float"
  | boolean _ => Text.of "Boolean"
  | host _ => Text.of "Custom"

def describe : Value → Text
  | string text => Text.of "String(" ++ Text.literal text ++ [')']
  | integer number => Text.of "Integer(" ++ Decimal.writeInteger number ++ [')']
  | float number => Text.of "Float(" ++ number.literal ++ [')']
  | boolean truth => Text.of "Boolean(" ++ writeBool truth ++ [')']
  | host _ => Text.of "Custom(..)"

structure View (α : Type) where
  expected : Text
  read : Value → Option α

namespace View

def string : View Text where
  expected := Text.of "String"
  read
    | .string text => some text
    | _ => none

def integer : View Int where
  expected := Text.of "Integer"
  read
    | .integer number => some number
    | _ => none

def float : View Binary32 where
  expected := Text.of "Float"
  read
    | .float number => some number
    | _ => none

def boolean : View Bool where
  expected := Text.of "Boolean"
  read
    | .boolean truth => some truth
    | _ => none

def host (kind : Text) : View Int where
  expected := kind
  read
    | .host value => if value.kind = kind then some value.number else none
    | _ => none

@[simp] theorem read_string (text : Text) : string.read (.string text) = some text := rfl

@[simp] theorem read_integer (number : Int) : integer.read (.integer number) = some number := rfl

@[simp] theorem read_float (number : Binary32) : float.read (.float number) = some number := rfl

@[simp] theorem read_boolean (truth : Bool) : boolean.read (.boolean truth) = some truth := rfl

@[simp] theorem read_host (value : HostValue) :
    (host value.kind).read (.host value) = some value.number := by
  simp [host]

end View

end Value

end Console
