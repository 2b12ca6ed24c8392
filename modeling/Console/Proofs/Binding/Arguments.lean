import Console.ArgumentType
import Console.Proofs.Text.Words

namespace Console.ArgumentType

variable {text token after left : Text} {value : Value}

theorem word_of_readWord {absent : Reason} {read : Text → Except Reason Value}
    (accepted : readWord absent read text = .ok (value, left)) :
    ∃ token, Text.nextWord? text = some (token, left) ∧ read token = .ok value := by
  unfold readWord at accepted
  split at accepted
  case h_1 => cases accepted
  case h_2 token rest word =>
    split at accepted
    case h_1 found read =>
      cases accepted
      exact ⟨token, word, read⟩
    case h_2 => cases accepted

theorem left_of_readWord {absent : Reason} {read : Text → Except Reason Value}
    (word : Text.nextWord? text = some (token, after))
    (accepted : readWord absent read text = .ok (value, left)) : left = after := by
  obtain ⟨_, word', _⟩ := word_of_readWord accepted
  cases word.symm.trans word'
  rfl

theorem raw_of_readWord_error {absent : Reason} {read : Text → Except Reason Value}
    {failure : ParseFailure} (word : Text.nextWord? text = some (token, after))
    (refused : readWord absent read text = .error failure) : failure.raw = token := by
  rw [readWord, word] at refused
  cases h : read token with
  | ok => simp [h] at refused
  | error reason =>
    simp only [h] at refused
    cases refused
    rfl

theorem readQuoted_eq_ok_iff {rest : Text} {value : Value} :
    readQuoted text = .ok (value, rest) ↔
      ∃ quoted, value = .string quoted ∧
        Text.Quoted.decode (Text.trimStart text) = .ok (quoted, rest) := by
  rw [readQuoted]
  cases Text.Quoted.decode (Text.trimStart text) with
  | error fault => simp
  | ok found =>
    simp only [Except.ok.injEq, Prod.mk.injEq]
    constructor
    · rintro ⟨rfl, rfl⟩
      exact ⟨_, rfl, rfl⟩
    · rintro ⟨_, rfl, rfl⟩
      exact ⟨rfl, rfl⟩

theorem readQuoted_eq_error_iff {failure : ParseFailure} :
    readQuoted text = .error failure ↔
      ∃ fault, failure = ⟨.quoting fault, Text.trimStart text⟩ ∧
        Text.Quoted.decode (Text.trimStart text) = .error fault := by
  rw [readQuoted]
  cases Text.Quoted.decode (Text.trimStart text) with
  | ok found => simp
  | error fault =>
    simp only [Except.error.injEq]
    constructor
    · rintro rfl
      exact ⟨fault, rfl, rfl⟩
    · rintro ⟨_, rfl, rfl⟩
      rfl

def isBuiltIn : ArgumentType → Bool
  | host _ => false
  | _ => true

def isWordwise : ArgumentType → Bool
  | string => false
  | host _ => false
  | _ => true

theorem isBuiltIn_of_isWordwise {type : ArgumentType} (h : type.isWordwise) : type.isBuiltIn := by
  cases type <;> first | rfl | cases h

theorem isWordwise_or_eq_string {type : ArgumentType} (builtIn : type.isBuiltIn) :
    type.isWordwise ∨ type = .string := by
  cases type with
  | string => exact .inr rfl
  | host => cases builtIn
  | _ => exact .inl rfl

theorem exists_readWord {type : ArgumentType} (builtIn : type.isBuiltIn)
    (bounded : type.isGreedy = false) :
    ∃ absent read, ∀ text, (type = .string → (Text.trimStart text).head? ≠ some '"') →
      type.parse text = readWord absent read text := by
  cases type with
  | word => exact ⟨_, _, fun text _ => by rw [parse]⟩
  | string => exact ⟨_, _, fun text unquoted => by rw [parse, if_neg (unquoted rfl)]⟩
  | greedyString => cases bounded
  | host => cases builtIn
  | _ => exact ⟨_, _, fun _ _ => rfl⟩

theorem exists_readWord_of_isWordwise {type : ArgumentType} (wordwise : type.isWordwise)
    (bounded : type.isGreedy = false) :
    ∃ absent read, ∀ text, type.parse text = readWord absent read text := by
  obtain ⟨absent, read, reads⟩ := exists_readWord (isBuiltIn_of_isWordwise wordwise) bounded
  refine ⟨absent, read, fun text => reads text ?_⟩
  rintro rfl
  cases wordwise

theorem parse_cases {type : ArgumentType} (builtIn : type.isBuiltIn) (text : Text) :
    type.parse text = .ok (.string (Text.trim text), []) ∨ type.parse text = readQuoted text ∨
      ∃ absent read, type.parse text = readWord absent read text := by
  cases bounded : type.isGreedy with
  | true =>
    cases type with
    | greedyString => exact .inl rfl
    | host => cases builtIn
    | _ => cases bounded
  | false =>
    by_cases quoted : type = .string ∧ (Text.trimStart text).head? = some '"'
    · obtain ⟨rfl, quote⟩ := quoted
      exact .inr (.inl (by rw [parse, if_pos quote]))
    · obtain ⟨absent, read, reads⟩ := exists_readWord builtIn bounded
      exact .inr (.inr ⟨absent, read, reads text fun string quote => quoted ⟨string, quote⟩⟩)

theorem left_of_unquoted {type : ArgumentType} (builtIn : type.isBuiltIn)
    (bounded : type.isGreedy = false)
    (unquoted : type = .string → (Text.trimStart text).head? ≠ some '"')
    (word : Text.nextWord? text = some (token, after))
    (accepted : type.parse text = .ok (value, left)) : left = after := by
  obtain ⟨absent, read, reads⟩ := exists_readWord builtIn bounded
  rw [reads text unquoted] at accepted
  exact left_of_readWord word accepted

theorem left_of_parse {type : ArgumentType} (builtIn : type.isBuiltIn)
    (bounded : type.isGreedy = false) (plain : type.isWordwise ∨ '"' ∉ text)
    (word : Text.nextWord? text = some (token, after))
    (accepted : type.parse text = .ok (value, left)) : left = after := by
  refine left_of_unquoted builtIn bounded ?_ word accepted
  rintro rfl quote
  have mem := List.mem_of_mem_head? (Option.mem_def.mpr quote)
  rcases plain with wordwise | unquoted
  · cases wordwise
  · exact unquoted ((List.dropWhile_suffix _).subset mem)

theorem startsBlank_of_parse {type : ArgumentType} (builtIn : type.isBuiltIn)
    (accepted : type.parse text = .ok (value, left)) : Text.startsBlank left := by
  obtain everything | quoted | ⟨absent, read, reads⟩ := parse_cases builtIn text
  · rw [everything] at accepted
    cases accepted
    rfl
  · rw [quoted] at accepted
    obtain ⟨_, _, decoded⟩ := readQuoted_eq_ok_iff.mp accepted
    exact (Text.Quoted.eq_encode_of_decode decoded).2
  · rw [reads] at accepted
    obtain ⟨_, word, _⟩ := word_of_readWord accepted
    exact (Text.nextWord?_eq_some word).2.2.2

theorem raw_of_parse_error {type : ArgumentType} {failure : ParseFailure} (builtIn : type.isBuiltIn)
    (word : Text.nextWord? text = some (token, after))
    (refused : type.parse text = .error failure) :
    failure.raw = token ∨ failure.raw = Text.trimStart text := by
  obtain everything | quoted | ⟨absent, read, reads⟩ := parse_cases builtIn text
  · rw [everything] at refused
    cases refused
  · rw [quoted] at refused
    obtain ⟨_, rfl, _⟩ := readQuoted_eq_error_iff.mp refused
    exact .inr rfl
  · rw [reads] at refused
    exact .inl (raw_of_readWord_error word refused)

theorem parse_choice (word : Text.nextWord? text = some (token, after))
    (choices : List Text) :
    (choice choices).parse text =
      if token ∈ choices then .ok (.string token, after)
      else .error ⟨.notAmong choices, token⟩ := by
  by_cases h : token ∈ choices <;> simp [parse, readWord, readChoice, word, h]

theorem readWord_of_sameWord {absent : Reason} {read : Text → Except Reason Value}
    {text' after' : Text} (word : Text.nextWord? text = some (token, after))
    (word' : Text.nextWord? text' = some (token, after')) :
    readWord absent read text' =
      (readWord absent read text).map fun result => (result.1, after') := by
  rw [readWord, readWord, word, word']
  cases h : read token <;> simp [Except.map, h]

theorem parse_of_sameWord {type : ArgumentType} {text' after' : Text} (wordwise : type.isWordwise)
    (bounded : type.isGreedy = false) (word : Text.nextWord? text = some (token, after))
    (word' : Text.nextWord? text' = some (token, after')) :
    type.parse text' = (type.parse text).map fun result => (result.1, after') := by
  obtain ⟨absent, read, reads⟩ := exists_readWord_of_isWordwise wordwise bounded
  rw [reads, reads]
  exact readWord_of_sameWord word word'

theorem readWord_append {absent : Reason} {read : Text → Except Reason Value} {more : Text}
    (word : Text.nextWord? text = some (token, after)) (starts : Text.startsBlank more) :
    readWord absent read (text ++ more) =
      (readWord absent read text).map fun result => (result.1, result.2 ++ more) := by
  rw [readWord, readWord, word, Text.nextWord?_append word starts]
  cases h : read token <;> simp [Except.map, h]

theorem parse_append {type : ArgumentType} {more : Text} (wordwise : type.isWordwise)
    (bounded : type.isGreedy = false) (word : Text.nextWord? text = some (token, after))
    (starts : Text.startsBlank more) :
    type.parse (text ++ more) =
      (type.parse text).map fun result => (result.1, result.2 ++ more) := by
  obtain ⟨absent, read, reads⟩ := exists_readWord_of_isWordwise wordwise bounded
  rw [reads, reads]
  exact readWord_append word starts

theorem parse_greedy {type : ArgumentType} (wordwise : type.isWordwise) (greedy : type.isGreedy)
    (text : Text) : type.parse text = .ok (.string (Text.trim text), []) := by
  cases type with
  | greedyString => rfl
  | host => cases wordwise
  | _ => cases greedy

theorem isGreedy_eq_false_of_parse_error {type : ArgumentType} {failure : ParseFailure}
    (wordwise : type.isWordwise) (refused : type.parse text = .error failure) :
    type.isGreedy = false := by
  by_contra greedy
  rw [parse_greedy wordwise (by simpa using greedy)] at refused
  cases refused

end Console.ArgumentType
