import Console.ArgumentType

/-!
Grammars. A grammar is a forest of nodes, each of which takes one argument of a line: a literal
takes the word that is its name, a typed node what its type reads. A node that executes may be the
last one. Nodes are told apart by their paths, since names may repeat.
-/

namespace Console

inductive NodeKind
  | literal
  | typed (type : ArgumentType) (suggestions : Option (Text → List Text))

structure Node where
  name : Text
  kind : NodeKind
  executes : Bool
  children : List Node

abbrev Path := List Nat

inductive Misuse
  | suggestionsOnLiteral
  deriving DecidableEq, Repr

def Misuse.message : Misuse → Text
  | suggestionsOnLiteral => Text.of "Can not attach suggestions to literal grammar nodes"

namespace Node

def literal (name : Text) : Node := ⟨name, .literal, false, []⟩

def typed (name : Text) (type : ArgumentType) : Node := ⟨name, .typed type none, true, []⟩

def withChildren (node : Node) (children : List Node) : Node := { node with children }

def withExecutes (node : Node) (executes : Bool) : Node := { node with executes }

def withSuggestions (node : Node) (suggest : Text → List Text) : Except Misuse Node :=
  match node.kind with
  | .literal => .error .suggestionsOnLiteral
  | .typed type _ => .ok { node with kind := .typed type (some suggest) }

def isLiteral (node : Node) : Bool :=
  match node.kind with
  | .literal => true
  | .typed _ _ => false

def type? (node : Node) : Option ArgumentType :=
  match node.kind with
  | .literal => none
  | .typed type _ => some type

def isGreedy (node : Node) : Bool :=
  match node.kind with
  | .literal => false
  | .typed type _ => type.isGreedy

def suggest (node : Node) (partialWord : Text) : List Text :=
  match node.kind with
  | .literal => [node.name]
  | .typed _ (some suggest) => suggest partialWord
  | .typed type none => type.suggest partialWord

mutual

def isNamed : Node → Bool
  | ⟨name, _, _, children⟩ => !name.isEmpty && allNamed children

def allNamed : List Node → Bool
  | [] => true
  | node :: nodes => node.isNamed && allNamed nodes

end

@[simp] theorem isLiteral_literal (name : Text) : (literal name).isLiteral := rfl

@[simp] theorem isLiteral_typed (name : Text) (type : ArgumentType) :
    (typed name type).isLiteral = false := rfl

theorem type?_eq_none_iff {node : Node} : node.type? = none ↔ node.isLiteral := by
  unfold type? isLiteral
  split <;> simp

end Node

/-- A grammar: its top-level nodes, and whether a line without arguments may run. All names are
non-empty. -/
structure Grammar where
  nodes : List Node
  executes : Bool
  allNamed : Node.allNamed nodes = true

namespace Grammar

def build (nodes : List Node) (executes : Bool) : Except InternalError Grammar :=
  if h : Node.allNamed nodes = true then .ok ⟨nodes, executes, h⟩ else .error .emptyName

def isEmpty (grammar : Grammar) : Bool := grammar.nodes.isEmpty

def root (grammar : Grammar) : Node := ⟨[], .literal, grammar.executes, grammar.nodes⟩

end Grammar

end Console
