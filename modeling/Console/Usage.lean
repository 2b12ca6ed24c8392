import Console.Grammar.Node

namespace Console

namespace Node

/-- A node as usage shows it. A typed node is optional if it executes. -/
def display (node : Node) : Text :=
  if node.isLiteral then node.name
  else if node.executes then Text.of "[<" ++ node.name ++ Text.of ">]"
  else '<' :: (node.name ++ ['>'])

def pushAt (text : Text) : Nat → List (List Text) → List (List Text)
  | 0, [] => [[text]]
  | 0, column :: columns => (column ++ [text]) :: columns
  | depth + 1, [] => [] :: pushAt text depth []
  | depth + 1, column :: columns => column :: pushAt text depth columns

mutual

def collect (depth : Nat) (columns : List (List Text)) : Node → List (List Text)
  | ⟨name, kind, executes, children⟩ =>
    collectAmong (depth + 1) (pushAt (display ⟨name, kind, executes, children⟩) depth columns)
      children

def collectAmong (depth : Nat) (columns : List (List Text)) : List Node → List (List Text)
  | [] => columns
  | node :: nodes => collectAmong depth (node.collect depth columns) nodes

end

end Node

namespace Grammar

def usage (grammar : Grammar) : Text :=
  joinWith [' '] ((Node.collectAmong 0 [] grammar.nodes).map fun column =>
    joinWith ['|'] column.eraseDups)

def commandUsage (grammar : Grammar) (label : Text) : Text :=
  let usage := grammar.usage
  '/' :: (if usage.isEmpty then label else label ++ ' ' :: usage)

end Grammar

end Console
