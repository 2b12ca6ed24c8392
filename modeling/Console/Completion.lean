import Console.Grammar.Route

namespace Console

def Text.startsIgnoringCase (s front : Text) : Bool :=
  (Text.lowerCase front).isPrefixOf (Text.lowerCase s)

namespace Node

/-- The children that may come after a word. Nothing comes after a greedy node. -/
def after (children : List Node) (token : Text) : List (List Node) :=
  ((Route.ofWord children token).nodes.filter (!·.isGreedy)).map (·.children)

end Node

namespace Grammar

def levels (grammar : Grammar) (tokens : List Text) : List (List Node) :=
  tokens.foldl (fun levels token => levels.flatMap (Node.after · token)) [grammar.nodes]

def offers (grammar : Grammar) (tokens : List Text) (partialWord : Text) : List Text :=
  (((grammar.levels tokens).flatten.flatMap (·.suggest partialWord)).filter
    (Text.startsIgnoringCase · partialWord)).eraseDups

def complete (grammar : Grammar) (tokens : List Text) : List Text :=
  match tokens.getLast? with
  | none => []
  | some partialWord => grammar.offers tokens.dropLast partialWord

/-- The words of a line, with an empty one if the line is empty or ends in a blank. -/
def partialWords (line : Text) : List Text :=
  Text.words line ++ (if Text.startsBlank line.reverse then [[]] else [])

def completeLine (grammar : Grammar) (line : Text) : List Text :=
  grammar.complete (partialWords line)

@[simp] theorem complete_nil (grammar : Grammar) : grammar.complete [] = [] := rfl

theorem complete_concat (grammar : Grammar) (tokens : List Text) (partialWord : Text) :
    grammar.complete (tokens ++ [partialWord]) = grammar.offers tokens partialWord := by
  simp [complete]

end Grammar

end Console
