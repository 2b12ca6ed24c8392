import Console.Proofs.Settings.Lines

namespace Console

open Toml

variable {library : Library} {toml : Text → Option Table} {root filled : Table} {s name : Text}
  {settings : Settings}

namespace Toml.Value

variable {value : Value}

end Toml.Value

namespace Settings

section Entry

variable {α : Type} (root : Table) (name : Text) (make : α → Toml.Value)

def Mistypes : Prop := ∃ found, root.lookup name = some found ∧ ∀ value, found ≠ make value

end Entry

def IsMistyped (root : Table) : Prop :=
  Mistypes root fallbackPrefixKey Toml.Value.string ∨ Mistypes root showUsageOnErrorKey Toml.Value.boolean ∨
    Mistypes root maxSuggestionsKey Toml.Value.integer ∨
    Mistypes root commandAliasesKey Toml.Value.ofStrings

section Entry

variable {α : Type} {view : Toml.Value → Option α} {make : α → Toml.Value} {default value : α}
  (views : ∀ {found value}, view found = some value ↔ found = make value)
  (fills : IsFilled root filled)
  (given : ((defaults.lookup name).map Item.value).bind view = some default)
include views fills given

end Entry

end Settings

end Console
