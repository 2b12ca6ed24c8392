import Console.Proofs.Binding.Arguments

namespace Console

namespace Text.Quoted

variable {text rest : Text} {fault : Fault}

/-- What cannot stand inside a quoted text, nor end it. -/
inductive Breaks : Text → Fault → Prop
  | badEscape {c : Char} (unescaped : c ≠ '"' ∧ c ≠ '\\') (rest : Text) :
      Breaks ('\\' :: c :: rest) (.badEscape c)
  | noBlankAfter {rest : Text} (glued : startsBlank rest = false) :
      Breaks ('"' :: rest) .noBlankAfter
  | unclosed : Breaks [] .unclosed
  | unclosedEscape : Breaks ['\\'] .unclosed

/-- The first fault of a text from the left: up to it, the text is an opening quote and then an
escaped text. -/
inductive Offends : Text → Fault → Prop
  | noOpening {text : Text} (unquoted : text.head? ≠ some '"') : Offends text .noOpening
  | inside (read : Text) {rest : Text} {fault : Fault} (breaks : Breaks rest fault) :
      Offends ('"' :: (escape read ++ rest)) fault

theorem Breaks.decodeBody_eq (breaks : Breaks rest fault) :
    decodeBody false rest = .error fault := by
  cases breaks with
  | badEscape unescaped => simp [decodeBody, unescaped]
  | noBlankAfter glued => simp [decodeBody, glued]
  | unclosed => rfl
  | unclosedEscape => rfl

theorem exists_breaks {escaped : Bool} (h : decodeBody escaped text = .error fault) :
    ∃ read rest, (if escaped then '\\' :: text else text) = escape read ++ rest ∧
      Breaks rest fault := by
  induction text generalizing escaped with
  | nil =>
    cases h
    cases escaped with
    | false => exact ⟨[], [], rfl, .unclosed⟩
    | true => exact ⟨[], ['\\'], rfl, .unclosedEscape⟩
  | cons c text ih =>
    -- The character is read, and the fault stands behind what is read of the rest.
    have later {escaped : Bool}
        (failed : ((decodeBody escaped text).map fun found => (c :: found.1, found.2)) =
          .error fault) : decodeBody escaped text = .error fault := by
      cases read : decodeBody escaped text with
      | error other => simpa [read, Except.map] using failed
      | ok found => simp [read, Except.map] at failed
    unfold decodeBody at h
    cases escaped with
    | true =>
      rw [if_pos rfl] at h
      split at h
      case isTrue special =>
        obtain ⟨read, rest, split, breaks⟩ := ih (later h)
        exact ⟨c :: read, rest, by simpa [escape, special] using split, breaks⟩
      case isFalse plain =>
        cases h
        exact ⟨[], '\\' :: c :: text, rfl, .badEscape (not_or.mp plain) text⟩
    | false =>
      rw [if_neg Bool.false_ne_true] at h
      split at h
      case isTrue quote =>
        subst quote
        split at h
        case isTrue => cases h
        case isFalse glued =>
          cases h
          exact ⟨[], '"' :: text, rfl, .noBlankAfter (Bool.eq_false_iff.mpr glued)⟩
      case isFalse quote =>
        split at h
        case isTrue backslash =>
          subst backslash
          exact ih h
        case isFalse backslash =>
          obtain ⟨read, rest, split, breaks⟩ := ih (later h)
          exact ⟨c :: read, rest, by simpa [escape, quote, backslash] using split, breaks⟩

theorem decode_eq_ok_iff {value : Text} :
    decode text = .ok (value, rest) ↔ text = encode value ++ rest ∧ startsBlank rest := by
  constructor
  · exact eq_encode_of_decode
  · rintro ⟨rfl, starts⟩
    exact decode_encode value starts

theorem decode_eq_error_iff : decode text = .error fault ↔ Offends text fault := by
  constructor
  · intro h
    cases text with
    | nil =>
      cases h
      exact .noOpening nofun
    | cons c text =>
      by_cases quote : c = '"'
      · subst quote
        obtain ⟨read, rest, split, breaks⟩ := @exists_breaks _ _ false h
        rw [if_neg Bool.false_ne_true] at split
        rw [split]
        exact .inside read breaks
      · rw [decode, if_neg quote] at h
        cases h
        exact .noOpening (by simpa using quote)
  · intro offends
    cases offends with
    | noOpening unquoted =>
      cases text with
      | nil => rfl
      | cons c text => rw [decode, if_neg (by simpa using unquoted)]
    | inside read breaks =>
      rw [decode, if_pos rfl, decodeBody_escape_append, breaks.decodeBody_eq]
      rfl

example : decode ['"', '\\', 'x', '"', 'y'] = .error (.badEscape 'x') := rfl

end Text.Quoted

namespace ArgumentType

open Text Text.Quoted

/-- An argument is a quoted text exactly if it is written so, with blanks or nothing behind it, in
one way only. Otherwise its failure holds all of it and is about its first fault. -/
theorem readQuoted_iff (s : Text) :
    (∀ value rest, readQuoted s = .ok (value, rest) ↔
      ∃ text, value = .string text ∧ trimStart s = encode text ++ rest ∧ startsBlank rest) ∧
    (∀ text text' rest rest', trimStart s = encode text ++ rest → startsBlank rest →
      trimStart s = encode text' ++ rest' → startsBlank rest' → text = text' ∧ rest = rest') ∧
    (∀ failure, readQuoted s = .error failure ↔
      failure.raw = trimStart s ∧
        ∃ fault, failure.reason = .quoting fault ∧ Offends (trimStart s) fault) := by
  refine ⟨fun value rest => ?_, fun text text' rest rest' here starts here' starts' => ?_,
    fun failure => ?_⟩
  · simp only [readQuoted_eq_ok_iff, decode_eq_ok_iff]
  · have one := decode_eq_ok_iff.mpr ⟨here, starts⟩
    have other := decode_eq_ok_iff.mpr ⟨here', starts'⟩
    rw [one] at other
    cases other
    exact ⟨rfl, rfl⟩
  · simp only [readQuoted_eq_error_iff, decode_eq_error_iff]
    constructor
    · rintro ⟨fault, rfl, offends⟩
      exact ⟨rfl, fault, rfl, offends⟩
    · rintro ⟨raw, fault, reason, offends⟩
      cases failure
      cases raw
      cases reason
      exact ⟨fault, rfl, offends⟩

end ArgumentType

end Console
