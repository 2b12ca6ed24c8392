import Console.Binding.BindingSet

namespace Console

inductive Reply
  | info (text : Text)
  | error (text : Text)
  deriving DecidableEq, Repr

namespace Reply

def text : Reply → Text
  | info text => text
  | error text => text

def isError : Reply → Bool
  | info _ => false
  | error _ => true

end Reply

structure Invocation where
  label : Text
  arguments : BindingSet

structure Outcome where
  replies : List Reply
  error? : Option CommandError

/-- What the caller sees of a handler's work. A mistake of the user is one more reply, a mistake of
the host replaces them all. -/
def Outcome.answer (outcome : Outcome) : Except InternalError (List Reply) :=
  match outcome.error? with
  | none => .ok outcome.replies
  | some (.runtime error) => .ok (outcome.replies ++ [.error error.message])
  | some (.internal error) => .error error

abbrev Handler := Invocation → Outcome

structure Command where
  names : List Text
  grammar : Grammar
  handler : Handler

namespace Command

def answersTo (command : Command) (name : Text) : Bool :=
  command.names.any (Text.sameIgnoringCase name)

end Command

end Console
