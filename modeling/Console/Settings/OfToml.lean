import Console.Settings.Defaults

namespace Console

/-- Why there are no settings: the file can not be read or written, its text is no document, or a
setting has a value of another type. -/
inductive SettingsError
  | inaccessible
  | malformed
  | mistyped
  deriving DecidableEq, Repr

namespace Toml.Value

def string? : Value → Option Text
  | .string value => some value
  | _ => none

def integer? : Value → Option Int64
  | .integer value => some value
  | _ => none

def boolean? : Value → Option Bool
  | .boolean value => some value
  | _ => none

def strings? : Value → Option (List (Text × Text))
  | .table entries => entries.mapM fun (name, value) => value.string?.map (name, ·)
  | _ => none

end Toml.Value

namespace Settings

open Toml

def ofTable? (root : Table) : Option Settings := do
  let fallbackPrefix ← (root.lookup fallbackPrefixKey).bind Toml.Value.string?
  let showUsageOnError ← (root.lookup showUsageOnErrorKey).bind Toml.Value.boolean?
  let maxSuggestions ← (root.lookup maxSuggestionsKey).bind Toml.Value.integer?
  let commandAliases ← (root.lookup commandAliasesKey).bind Toml.Value.strings?
  some ⟨fallbackPrefix, showUsageOnError, maxSuggestions.toInt, commandAliases⟩

variable (library : Library)

def ofPatched (s : Text) : Except SettingsError Settings :=
  match library.decode s with
  | some settings => .ok settings
  | none => .error .mistyped

def ofToml (s : Text) : Except SettingsError Settings :=
  match patch? library s with
  | some patched => ofPatched library patched
  | none => .error .malformed

end Settings

end Console
