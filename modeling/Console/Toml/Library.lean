import Console.Settings

namespace Console.Toml

inductive Value
  | string (value : Text)
  | integer (value : Int64)
  | float (bits : UInt64)
  | boolean (value : Bool)
  | datetime (written : Text)
  | array (items : List Value)
  | table (entries : List (Text × Value))
  deriving Inhabited

abbrev Table := List (Text × Value)

def Value.ofStrings (entries : List (Text × Text)) : Value :=
  .table (entries.map fun (name, value) => (name, .string value))

/-- What can be put into a document: a value, or a table of strings under a header of its own. -/
inductive Item
  | string (value : Text)
  | integer (value : Int64)
  | boolean (value : Bool)
  | strings (entries : List (Text × Text)) (distinct : (entries.map Prod.fst).Nodup)
  deriving DecidableEq

namespace Item

def value : Item → Value
  | .string value => .string value
  | .integer value => .integer value
  | .boolean value => .boolean value
  | .strings entries _ => .ofStrings entries

end Item

/-- What others provide for documents: parsing a text, looking at its root, putting an item there
unless its name is taken, printing, and decoding a text as settings. -/
structure Library where
  Document : Type
  parse : Text → Option Document
  root : Document → Table
  orInsert : Document → Text → Item → Document
  print : Document → Text
  decode : Text → Option Settings

end Console.Toml
