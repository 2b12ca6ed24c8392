import Console.Grammar.Node
import Console.Text.Escaped

namespace Console

def describeRecord (name : Text) (fields : List (Text × Text)) : Text :=
  name ++ Text.of " \x7b " ++
    joinWith (Text.of ", ") (fields.map fun (field, value) => field ++ Text.of ": " ++ value) ++
      Text.of " \x7d"

def describeList (items : List Text) : Text := '[' :: (joinWith (Text.of ", ") items ++ [']'])

namespace Node

def describeType : NodeKind → List (Text × Text)
  | .literal => []
  | .typed type _ => [(Text.of "type", Text.literal type.name)]

mutual

def describe : Node → Text
  | ⟨name, kind, executes, children⟩ =>
    describeRecord (Text.of "GrammarNode")
      ((Text.of "name", Text.literal name) :: describeType kind ++
        [(Text.of "executes", Value.writeBool executes),
         (Text.of "children", describeList (describeAll children))])

def describeAll : List Node → List Text
  | [] => []
  | node :: nodes => node.describe :: describeAll nodes

end

end Node

def Grammar.describe (grammar : Grammar) : Text :=
  describeRecord (Text.of "CommandGrammar")
    [(Text.of "nodes", describeList (Node.describeAll grammar.nodes)),
     (Text.of "executes", Value.writeBool grammar.executes)]

end Console
