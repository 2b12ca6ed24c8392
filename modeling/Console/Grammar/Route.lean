import Console.Grammar.Node

namespace Console

inductive Route
  | literal (node : Node) (index : Nat)
  | typed (options : List (Node × Nat))

namespace Route

/-- A literal of that name, the first one, rules out all else; otherwise every typed child is
open. -/
def ofWord (children : List Node) (token : Text) : Route :=
  match children.zipIdx.find? fun child => child.1.isLiteral && child.1.name == token with
  | some (node, index) => .literal node index
  | none => .typed (children.zipIdx.filter fun child => !child.1.isLiteral)

def nodes : Route → List Node
  | literal node _ => [node]
  | typed options => options.map (·.1)

end Route

end Console
