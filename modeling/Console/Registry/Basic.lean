import Console.Completion
import Console.Registry.Command
import Console.Settings
import Console.Usage

namespace Console

/-- The names of a command: its own without blanks around them, then each again behind the prefix,
if there is one; none twice. -/
def prefixedNames (fallbackPrefix : Option Text) (names : List Text) : List Text :=
  let plain := names.map Text.trim
  let prefixed := fallbackPrefix.toList.flatMap fun front =>
    plain.map fun name => Text.lowerCase front ++ ':' :: name
  (plain ++ prefixed).eraseDups

/-- The index has the number of a command under each of its names in lower case, the latest entry
first. A limit of zero suggestions is no limit. -/
structure Registry where
  commands : List Command
  index : List (Text × Nat)
  customAliases : List (Text × Text)
  fallbackPrefix : Option Text
  showUsageOnError : Bool
  maxSuggestions : Nat

namespace Registry

def empty : Registry := ⟨[], [], [], none, true, 0⟩

/-- An empty registry under some settings. The custom aliases are not taken from them here, since
they must lead to commands. -/
def ofSettings (settings : Settings) : Registry :=
  let front := Text.trim settings.fallbackPrefix
  { empty with
    fallbackPrefix := if front.isEmpty then none else some front
    showUsageOnError := settings.showUsageOnError
    maxSuggestions := settings.maxSuggestions.toNat }

def number? (registry : Registry) (name : Text) : Option Nat :=
  registry.index.lookup (Text.lowerCase name)

def get? (registry : Registry) (name : Text) : Option Command :=
  (registry.number? name).bind (registry.commands[·]?)

def enter (registry : Registry) (name : Text) : Registry :=
  { registry with index := (Text.lowerCase name, registry.commands.length) :: registry.index }

def push (registry : Registry) (command : Command) : Registry :=
  { registry with commands := registry.commands ++ [command] }

def enroll (names : List Text) (grammar : Grammar) (handler : Handler) :
    EStateM InternalError Registry Unit := do
  let registry ← get
  let names := prefixedNames registry.fallbackPrefix names
  if names.isEmpty || names.any (·.isEmpty) then throw .emptyName
  else match names.find? fun name => (registry.number? name).isSome with
    | some taken => throw (.aliasTaken taken)
    | none =>
      names.forM fun name => modify (·.enter name)
      modify (·.push ⟨names, grammar, handler⟩)

def register (registry : Registry) (names : List Text) (grammar : Grammar) (handler : Handler) :
    Except InternalError Registry :=
  match (enroll names grammar handler).run registry with
  | .ok _ after => .ok after
  | .error error _ => .error error

def startsWithName (registry : Registry) (s : Text) : Bool :=
  match Text.nextWord? s with
  | none => false
  | some (label, _) => (registry.get? label).isSome

def addCustomAlias? (registry : Registry) (name expansion : Text) : Option Registry :=
  if registry.startsWithName expansion then
    some { registry with customAliases := registry.customAliases ++ [(name, expansion)] }
  else none

def applyCustomAliases (registry : Registry) (settings : Settings) : Registry :=
  settings.commandAliases.foldl (fun registry (name, expansion) =>
    (registry.addCustomAlias? (Text.trim name) (Text.trim expansion)).getD registry) registry

def usage? (registry : Registry) (name : Text) : Option Text :=
  (registry.get? name).map (·.grammar.commandUsage name)

def stripSlash : Text → Text
  | [] => []
  | c :: s => if c = '/' then s else c :: s

def allNames (registry : Registry) : List Text := registry.commands.flatMap (·.names)

/-- The completions of a line, label included, as if there were no limit. -/
def allCompletions (registry : Registry) (line : Text) : List Text :=
  let line := stripSlash line
  match line.dropWhile (!Text.isBlank ·) with
  | [] => (registry.allNames.filter (Text.startsIgnoringCase · line)).eraseDups
  | rest =>
    match registry.get? (line.takeWhile (!Text.isBlank ·)) with
    | none => []
    | some command => command.grammar.completeLine rest

def complete (registry : Registry) (line : Text) : List Text :=
  let completions := registry.allCompletions line
  if registry.maxSuggestions = 0 then completions else completions.take registry.maxSuggestions

end Registry

end Console
