import Console.Settings.OfToml
import Console.Text.Bytes

namespace Console

/-- What a path leads to: nothing, with or without a folder in which a file could be made, a folder,
or a file. -/
inductive FileState
  | absent (hasFolder : Bool)
  | folder
  | file (bytes : ByteArray)

namespace FileState

def read : FileState → Except SettingsError Text
  | .absent _ => .ok []
  | .folder => .error .inaccessible
  | .file bytes =>
    match Text.ofBytes? bytes with
    | some s => .ok s
    | none => .error .inaccessible

def write (s : Text) : FileState → Except SettingsError FileState
  | .absent true => .ok (.file (Text.toBytes s))
  | .absent false => .error .inaccessible
  | .folder => .error .inaccessible
  | .file _ => .ok (.file (Text.toBytes s))

end FileState

namespace Settings

/-- Reads the settings of a file and gives it those that it lacks, even if one that it has is of
another type. -/
def load (library : Toml.Library) (state : FileState) :
    Except SettingsError Settings × FileState :=
  match state.read with
  | .error e => (.error e, state)
  | .ok s =>
    match patch? library s with
    | none => (.error .malformed, state)
    | some patched =>
      if patched = s then (ofPatched library patched, state)
      else match state.write patched with
        | .error e => (.error e, state)
        | .ok state => (ofPatched library patched, state)

end Settings

end Console
