import Console.Binding.Trail
import Console.Grammar.Places

namespace Console

inductive Attempt
  | unreached
  | bound (raw : Text) (value : Value) (position : Position)
  | rejected (raw : Text) (position : Position) (failure : ParseFailure)

namespace Attempt

def raw? : Attempt → Option Text
  | unreached => none
  | bound raw _ _ => some raw
  | rejected raw _ _ => some raw

def value? : Attempt → Option Value
  | bound _ value _ => some value
  | _ => none

def position? : Attempt → Option Position
  | unreached => none
  | bound _ _ position => some position
  | rejected _ position _ => some position

def failure? : Attempt → Option ParseFailure
  | rejected _ _ failure => some failure
  | _ => none

def isMade (attempt : Attempt) : Bool := attempt.raw?.isSome

end Attempt

def Trail.attemptAt (trail : Trail) (path : Path) : Attempt :=
  match trail.steps.find? (·.path == path), trail.ending with
  | some (.argument _ _ raw value position), _ => .bound raw value position
  | _, .rejected stop _ raw position failure =>
    if stop = path then .rejected raw position failure else .unreached
  | _, _ => .unreached

structure Binding where
  place : Place
  attempt : Attempt

namespace Binding

def name (binding : Binding) : Text := binding.place.node.name

def isAttempted (binding : Binding) : Bool := binding.attempt.isMade

end Binding

/-- How a line fits a grammar: it ends on a node that executes, or on one that does not; a node
refuses its text; text is left over below a leaf; or no child takes the text. -/
inductive Status
  | complete
  | incomplete
  | invalidArgument (name : Text)
  | tooManyArguments (remaining : Text)
  | unmatched (remaining : Text)
  deriving DecidableEq, Repr

structure BindingSet where
  bindings : List Binding
  wordCount : Nat
  terminal? : Option Step
  status : Status

def Ending.status (executes : Bool) : Ending → Status
  | exhausted => if executes then .complete else .incomplete
  | rejected _ node _ _ _ => .invalidArgument node.name
  | tooMany remaining => .tooManyArguments remaining
  | unmatched remaining => .unmatched remaining

def Grammar.bind (grammar : Grammar) (line : Text) : BindingSet :=
  let trail := grammar.walk line
  let terminal? := trail.steps.getLast?
  let executes := (terminal?.map (·.node.executes)).getD grammar.executes
  { bindings := grammar.places.map fun place => ⟨place, trail.attemptAt place.path⟩
    wordCount := Text.wordCount line
    terminal?
    status := trail.ending.status executes }

namespace BindingSet

def isEmpty (set : BindingSet) : Bool := set.bindings.isEmpty

def shouldExecute (set : BindingSet) : Bool := set.status == .complete

/-- The binding of a name: names repeat, so the first one that the walk reached, else the first. -/
def get (set : BindingSet) (name : Text) : Except InternalError Binding :=
  match set.bindings.filter (·.name == name) with
  | [] => .error (.unknownArgument name)
  | first :: others => .ok (((first :: others).find? (·.isAttempted)).getD first)

def isBound (set : BindingSet) (name : Text) : Except InternalError Bool :=
  (set.get name).map (·.isAttempted)

def rawValue? (set : BindingSet) (name : Text) : Except InternalError (Option Text) :=
  (set.get name).map (·.attempt.raw?)

def slot (set : BindingSet) (name : Text) : Except InternalError Nat :=
  (set.get name).map (·.place.slot)

def value? {α : Type} (set : BindingSet) (view : Value.View α) (name : Text) :
    Except InternalError (Option α) := do
  let binding ← set.get name
  match binding.attempt.value? with
  | none => return none
  | some value =>
    match view.read value with
    | some x => return some x
    | none => throw (.wrongArgumentType name view.expected value.kindName)

def unavailable (set : BindingSet) (name : Text) : Except InternalError RuntimeError := do
  let binding ← set.get name
  match binding.attempt.failure? with
  | some failure => return .invalidArgument failure
  | none => return .missingArgument name

def require {α : Type} (set : BindingSet) (view : Value.View α) (name : Text) :
    Except CommandError α := do
  match ← (set.value? view name).mapError .internal with
  | some x => return x
  | none => throw (.runtime (← (set.unavailable name).mapError .internal))

/-- The binding that was refused, else the one that ends with the last word. -/
def lastBound? (set : BindingSet) : Option Binding :=
  (set.bindings.find? (·.attempt.failure?.isSome)).or
    (set.bindings.find? fun binding =>
      binding.attempt.position?.any (·.stop + 1 == set.wordCount))

end BindingSet

end Console
