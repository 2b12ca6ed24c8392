import Console.Text.Blank

namespace Console

/-- What a host may set: a text before which every name is repeated, whether mistakes are answered
with the usage, how many completions are given at most (no limit if none), and the custom aliases
with their expansions. -/
structure Settings where
  fallbackPrefix : Text
  showUsageOnError : Bool
  maxSuggestions : Int
  commandAliases : List (Text × Text)
  deriving DecidableEq, Repr

namespace Settings

def standard : Settings := ⟨[], true, 0, []⟩

end Settings

end Console
