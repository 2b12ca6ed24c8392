import Console.Grammar.Route

/-!
The walk of a line through a grammar. A trail is the nodes that the line consumed, with what each of
them took, and how the walk ended. There is no way back: once a child is chosen, a failure below it
ends the walk.
-/

namespace Console

inductive Position
  | index (index : Nat)
  | range (first last : Nat)
  deriving DecidableEq, Repr

namespace Position

def start : Position → Nat
  | index i => i
  | range first _ => first

def stop : Position → Nat
  | index i => i
  | range _ last => last

def isRange : Position → Bool
  | index _ => false
  | range _ _ => true

end Position

inductive Step
  | literal (path : Path) (node : Node)
  | argument (path : Path) (node : Node) (raw : Text) (value : Value) (position : Position)

namespace Step

def path : Step → Path
  | literal path _ => path
  | argument path _ _ _ _ => path

def node : Step → Node
  | literal _ node => node
  | argument _ node _ _ _ => node

def raw : Step → Text
  | literal _ node => node.name
  | argument _ _ raw _ _ => raw

end Step

inductive Ending
  | exhausted
  | rejected (path : Path) (node : Node) (raw : Text) (position : Position)
      (failure : ParseFailure)
  | tooMany (remaining : Text)
  | unmatched (remaining : Text)

structure Trail where
  steps : List Step
  ending : Ending

inductive Move
  | advance (index : Nat) (step : Step) (rest : Text)
  | stop (ending : Ending)

namespace Move

def accept? (line : Text) (path : Path) (rest : Text) (child : Node × Nat) : Option Move :=
  match child.1.type? with
  | none => none
  | some type =>
    match type.parse rest with
    | .error _ => none
    | .ok (value, after) =>
      let first := Text.wordIndex line rest
      if type.isGreedy then
        let position := .range first (Text.wordCount line - 1)
        some (.advance child.2
          (.argument (path ++ [child.2]) child.1 (Text.trimEnd rest) value position) [])
      else
        let raw := Text.trimEnd (Text.before rest after)
        some (.advance child.2
          (.argument (path ++ [child.2]) child.1 raw value (.index first)) after)

/-- The end of a walk at a typed child, if it refuses the rest of the line. A failure that does not
say what it refuses is about the next word. -/
def refuse? (line : Text) (path : Path) (rest token : Text) (child : Node × Nat) : Option Move :=
  match child.1.type? with
  | none => none
  | some type =>
    match type.parse rest with
    | .ok _ => none
    | .error failure =>
      let raw := if failure.raw.isEmpty then token else failure.raw
      some (.stop (.rejected (path ++ [child.2]) child.1 raw
        (.index (Text.wordIndex line rest)) failure))

/-- The move from a level, given the rest of the line, which starts with a word. The first child
that accepts wins; if none does, the first one is to blame. -/
def choose (line : Text) (level : List Node) (path : Path) (rest : Text) : Move :=
  let (token, after) := (Text.nextWord? rest).getD (rest, [])
  if level.isEmpty then .stop (.tooMany (Text.trimEnd rest))
  else match Route.ofWord level token with
    | .literal node index => .advance index (.literal (path ++ [index]) node) after
    | .typed options =>
      ((options.findSome? (accept? line path rest)).or
        (options.findSome? (refuse? line path rest token))).getD
          (.stop (.unmatched (Text.trimEnd rest)))

end Move

namespace Node

mutual

def walk (line : Text) : Node → Path → Text → Trail
  | ⟨_, _, _, children⟩, path, rest =>
    let rest := Text.trimStart rest
    if rest.isEmpty then ⟨[], .exhausted⟩
    else match Move.choose line children path rest with
      | .stop ending => ⟨[], ending⟩
      | .advance index step rest =>
        let trail := walkAmong line children index step.path rest
        ⟨step :: trail.steps, trail.ending⟩

def walkAmong (line : Text) : List Node → Nat → Path → Text → Trail
  | [], _, _, _ => ⟨[], .exhausted⟩
  | node :: _, 0, path, rest => node.walk line path rest
  | _ :: nodes, index + 1, path, rest => walkAmong line nodes index path rest

end

end Node

def Grammar.walk (grammar : Grammar) (line : Text) : Trail := grammar.root.walk line [] line

end Console
