import Console.Proofs.Settings.Lines
import Console.Settings.File

namespace Console

open Toml

variable {state after : FileState} {s t : Text} {settings : Settings}

namespace FileState

/-- The text of the state, that of a file that is still to be made being empty. -/
def Holds (state : FileState) (s : Text) : Prop :=
  state = .file (Text.toBytes s) ∨ s = [] ∧ state = .absent true

def IsBlocked (state : FileState) : Prop :=
  state = .folder ∨ state = .absent false ∨
    ∃ bytes, state = .file bytes ∧ Text.ofBytes? bytes = none

theorem exists_holds_or_isBlocked (state : FileState) : (∃ s, state.Holds s) ∨ state.IsBlocked := by
  cases state with
  | absent hasFolder =>
    cases hasFolder with
    | true => exact .inl ⟨[], .inr ⟨rfl, rfl⟩⟩
    | false => exact .inr (.inr (.inl rfl))
  | folder => exact .inr (.inl rfl)
  | file bytes =>
    cases text : Text.ofBytes? bytes with
    | some s => exact .inl ⟨s, .inl (by rw [Text.toBytes_of_ofBytes? text])⟩
    | none => exact .inr (.inr (.inr ⟨bytes, rfl, text⟩))

theorem Holds.read (holds : state.Holds s) : state.read = .ok s := by
  obtain rfl | ⟨rfl, rfl⟩ := holds
  · simp only [FileState.read, Text.ofBytes?_toBytes]
  · rfl

theorem Holds.write (holds : state.Holds s) (t : Text) :
    state.write t = .ok (.file (Text.toBytes t)) := by
  obtain rfl | ⟨rfl, rfl⟩ := holds <;> rfl

end FileState

namespace Settings

variable {library : Library} {toml : Text → Option Table}

theorem load_of_malformed (holds : state.Holds s) (malformed : patch? library s = none) :
    load library state = (.error .malformed, state) := by
  simp only [load, holds.read, malformed]

section Lawful

variable (lawful : library.Lawful toml)
include lawful

theorem load_of_holds (holds : state.Holds s) (patched : patch? library s = some t) :
    load library state = (ofPatched library t, .file (Text.toBytes t)) := by
  by_cases same : t = s
  · subst same
    obtain rfl | ⟨rfl, _⟩ := holds
    · simp only [load, FileState.Holds.read (.inl rfl), patched, if_true]
    · exact absurd rfl (patch?_ne_nil lawful patched)
  · simp only [load, holds.read, patched, if_neg same, holds.write t]

theorem load_of_isBlocked (blocked : state.IsBlocked) :
    load library state = (.error .inaccessible, state) := by
  obtain rfl | rfl | ⟨bytes, rfl, illFormed⟩ := blocked
  · rfl
  · obtain ⟨t, _, patched, _⟩ := exists_patched lawful lawful.empty
    have written := patch?_ne_nil lawful patched
    simp only [load, FileState.read, patched, if_neg written, FileState.write]
  · simp only [load, FileState.read, illFormed]

theorem load_eq_ok_iff :
    load library state = (.ok settings, after) ↔
      ∃ s t, state.Holds s ∧ ofToml library s = .ok settings ∧ patch? library s = some t ∧
        after = .file (Text.toBytes t) := by
  constructor
  · intro h
    obtain ⟨s, holds⟩ | blocked := state.exists_holds_or_isBlocked
    · cases patched : patch? library s with
      | none => cases (load_of_malformed holds patched).symm.trans h
      | some t =>
        obtain ⟨gives, rfl⟩ := Prod.mk.inj ((load_of_holds lawful holds patched).symm.trans h)
        exact ⟨s, t, holds, by rw [ofToml, patched]; exact gives, patched, rfl⟩
    · cases (load_of_isBlocked lawful blocked).symm.trans h
  · rintro ⟨s, t, holds, gives, patched, rfl⟩
    rw [ofToml, patched] at gives
    rw [load_of_holds lawful holds patched]
    exact congrArg (·, _) gives

theorem load_again (patched : patch? library s = some t) :
    load library (.file (Text.toBytes t)) = (ofPatched library t, .file (Text.toBytes t)) :=
  load_of_holds lawful (.inl rfl) (patch?_patched lawful patched)

end Lawful

/-- A load gives settings if the text that it finds does, be it that of a file or the empty text of
a file that is still to be made. It leaves a file that gives the same settings and stays as it is.
Every document is patched, once and for all, and what is written means what was there. -/
theorem load_stable (lawful : library.Lawful toml) :
    (∀ state settings after, load library state = (.ok settings, after) ↔
      ∃ s t, state.Holds s ∧ ofToml library s = .ok settings ∧ patch? library s = some t ∧
        after = .file (Text.toBytes t)) ∧
    (∀ state settings after, load library state = (.ok settings, after) →
      load library after = (.ok settings, after)) ∧
    (∀ s, patch? library s = none ↔ toml s = none) ∧
    ∀ s t, patch? library s = some t →
      patch? library t = some t ∧ ofToml library t = ofToml library s := by
  refine ⟨fun _ _ _ => load_eq_ok_iff lawful, fun state settings after h => ?_,
    fun s => patch?_eq_none_iff lawful,
    fun s t patched => ⟨patch?_patched lawful patched, ofToml_patched lawful patched⟩⟩
  obtain ⟨s, t, _, gives, patched, rfl⟩ := (load_eq_ok_iff lawful).mp h
  rw [ofToml, patched] at gives
  rw [load_again lawful patched]
  exact congrArg (·, _) gives

theorem load_stable_of_amongOthers :
    load Lines.library (.file (Text.toBytes (Lines.library.print Lines.amongOthers))) =
        (.ok Lines.settingsAmongOthers,
          .file (Text.toBytes (Lines.library.print Lines.amongOthersOnce))) ∧
      load Lines.library (.file (Text.toBytes (Lines.library.print Lines.amongOthersOnce))) =
        (.ok Lines.settingsAmongOthers,
          .file (Text.toBytes (Lines.library.print Lines.amongOthersOnce))) := by
  have first := load_of_holds Lines.library_lawful (.inl rfl) Lines.patch?_amongOthers
  rw [Lines.ofPatched_amongOthersOnce] at first
  exact ⟨first, (load_stable Lines.library_lawful).2.1 _ _ _ first⟩

end Settings

end Console
