import Console.Grammar.Node

namespace Console

/-- A typed node of a grammar: its path, and the number of typed nodes above it. -/
structure Place where
  path : Path
  node : Node
  slot : Nat

namespace Node

mutual

def places (path : Path) (slot : Nat) : Node → List Place
  | ⟨_, .literal, _, children⟩ => placesAmong path slot 0 children
  | ⟨name, .typed type suggestions, executes, children⟩ =>
    ⟨path, ⟨name, .typed type suggestions, executes, children⟩, slot⟩ ::
      placesAmong path (slot + 1) 0 children

def placesAmong (path : Path) (slot : Nat) (index : Nat) : List Node → List Place
  | [] => []
  | node :: nodes =>
    node.places (path ++ [index]) slot ++ placesAmong path slot (index + 1) nodes

end

mutual

def find? (name : Text) (path : Path) : Node → Option (Path × Node)
  | ⟨own, kind, executes, children⟩ =>
    if own = name then some (path, ⟨own, kind, executes, children⟩)
    else findAmong? name path 0 children

def findAmong? (name : Text) (path : Path) (index : Nat) : List Node → Option (Path × Node)
  | [] => none
  | node :: nodes =>
    (node.find? name (path ++ [index])).or (findAmong? name path (index + 1) nodes)

end

def at? (node : Node) : Path → Option Node
  | [] => some node
  | index :: path => node.children[index]?.bind (·.at? path)

end Node

namespace Grammar

def places (grammar : Grammar) : List Place := Node.placesAmong [] 0 0 grammar.nodes

def find? (grammar : Grammar) (name : Text) : Option (Path × Node) :=
  Node.findAmong? name [] 0 grammar.nodes

def at? (grammar : Grammar) (path : Path) : Option Node :=
  if path.isEmpty then none else grammar.root.at? path

end Grammar

end Console
