import Console.Proofs.Settings.Loading
import Console.Proofs.Settings.Merging

namespace Console

open Toml

variable {library : Library} {toml : Text → Option Table} {state after : FileState} {s t : Text}
  {root : Table} {error : SettingsError}

namespace Settings

inductive Refuses (library : Library) (toml : Text → Option Table) (state : FileState) :
    SettingsError → FileState → Prop
  | inaccessible (blocked : state.IsBlocked) : Refuses library toml state .inaccessible state
  | malformed {s : Text} (here : state = .file (Text.toBytes s)) (malformed : toml s = none) :
      Refuses library toml state .malformed state
  | mistyped {s t : Text} {root : Table} (here : state = .file (Text.toBytes s))
      (document : toml s = some root) (mistyped : IsMistyped root)
      (patched : patch? library s = some t) :
      Refuses library toml state .mistyped (.file (Text.toBytes t))

section Lawful

variable (lawful : library.Lawful toml)
include lawful

end Lawful

end Settings

end Console
