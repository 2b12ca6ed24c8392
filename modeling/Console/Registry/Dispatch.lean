import Console.Registry.Basic
import Console.Text.Bytes

/-!
Dispatching a line: custom aliases are expanded, the first word names the command, the rest is bound
to its grammar, and the handler runs if it fits. Mistakes of the user are replies.
-/

namespace Console

namespace CustomAlias

def placeholder : Text := ['\x7b', '\x7d']

def fill? (rest : Text) : Text → Option Text
  | [] => none
  | [_] => none
  | c :: d :: s =>
    if [c, d] = placeholder then some (rest ++ (fill? rest s).getD s)
    else (fill? rest (d :: s)).map (c :: ·)

def expand (expansion rest : Text) : Text :=
  (fill? rest expansion).getD (expansion ++ ' ' :: rest)

/-- What follows an alias at the front of a line, ignoring case. The alias is cut off by its number
of bytes. -/
def strip? (line name : Text) : Option Text :=
  match Text.cutAtByte? (Text.byteSize name) line with
  | none => none
  | some (front, rest) =>
    if Text.sameIgnoringCase front name && Text.startsBlank rest then some (Text.trimStart rest)
    else none

end CustomAlias

namespace Registry

def expandCustomAliases (registry : Registry) (line : Text) : Text :=
  (registry.customAliases.findSome? fun (name, expansion) =>
    (CustomAlias.strip? line name).map (CustomAlias.expand expansion)).getD line

def mistake? (arguments : BindingSet) : Except InternalError (Option Text) :=
  match arguments.status with
  | .complete => .ok none
  | .incomplete => .ok (some (Text.of "Not enough arguments"))
  | .tooManyArguments remaining => .ok (some (Text.of "Too many arguments: " ++ remaining))
  | .invalidArgument name =>
    (arguments.get name).map fun binding =>
      let what := (binding.attempt.failure?.map ParseFailure.message).getD name
      some (Text.of "Invalid argument: " ++ what)
  | .unmatched remaining => .ok (some (Text.of "Unknown argument: " ++ remaining))

def runWith {m : Type → Type} [Monad m] (call : Handler → Invocation → m Outcome)
    (registry : Registry) (command : Command) (label rest : Text) :
    m (Except InternalError (List Reply)) := do
  let arguments := command.grammar.bind rest
  match mistake? arguments with
  | .error error => return .error error
  | .ok none => return (← call command.handler ⟨label, arguments⟩).answer
  | .ok (some mistake) =>
    let usage := .info (Text.of "Usage: " ++ command.grammar.commandUsage label)
    return .ok (.error mistake :: (if registry.showUsageOnError then [usage] else []))

def called? (registry : Registry) (line : Text) : Option (Text × Text) :=
  let line := stripSlash (Text.trim line)
  if line.isEmpty then none else Text.nextWord? (registry.expandCustomAliases line)

/-- Runs one line. What a handler does when it is called is up to `call`. -/
def dispatchWith {m : Type → Type} [Monad m] (call : Handler → Invocation → m Outcome)
    (registry : Registry) (line : Text) : m (Except InternalError (List Reply)) :=
  match registry.called? line with
  | none => return .ok []
  | some (label, rest) =>
    match registry.get? label with
    | none => return .ok [.error (Text.of "Command not found!")]
    | some command => registry.runWith call command label rest

def dispatch (registry : Registry) (line : Text) : Except InternalError (List Reply) :=
  Id.run (registry.dispatchWith (fun handler invocation => pure (handler invocation)) line)

end Registry

end Console
