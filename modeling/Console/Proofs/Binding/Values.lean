import Console.Proofs.Binding.Accessors
import Console.Proofs.Binding.Quoting
import Console.Proofs.Binding.Spacing
import Console.Proofs.Number.Numerals

namespace Console

variable {line text token after left raw name : Text} {value : Value} {cursor next last : Cursor}
  {node : Node} {path : Path} {position : Position} {grammar : Grammar} {type : ArgumentType}
  {binding : Binding}

/-- The values that a built-in type stands for, each with the texts that mean it. -/
inductive ArgumentType.Admits : ArgumentType → Text → Value → Prop
  | word {raw : Text} (isWord : Text.IsWord raw) : Admits .word raw (.string raw)
  | plain {raw : Text} (isWord : Text.IsWord raw) (unquoted : raw.head? ≠ some '"') :
      Admits .string raw (.string raw)
  | quoted (text : Text) : Admits .string (Text.Quoted.encode text) (.string text)
  | greedyString (raw : Text) : Admits .greedyString raw (.string raw)
  | integer {raw : Text} {n least greatest : Int} (denotes : Decimal.Denotes raw n)
      (lower : least ≤ n) (upper : n ≤ greatest)
      (fits : leastInteger ≤ n ∧ n ≤ greatestInteger) :
      Admits (.integer least greatest) raw (.integer n)
  | float {raw : Text} {x least greatest : Binary32} (read : Binary32.read? raw = some x)
      (isNumber : x ≠ .nan) (lower : least.le x) (upper : x.le greatest) :
      Admits (.float least greatest) raw (.float x)
  | boolean {raw : Text} {truth : Bool}
      (same : Text.sameIgnoringCase raw (Value.writeBool truth)) :
      Admits .boolean raw (.boolean truth)
  | choice {raw : Text} {choices : List Text} (isWord : Text.IsWord raw) (mem : raw ∈ choices) :
      Admits (.choice choices) raw (.string raw)

namespace ArgumentType

theorem read_of_readWord {absent : Reason} {read : Text → Except Reason Value}
    (word : Text.nextWord? text = some (token, after))
    (accepted : readWord absent read text = .ok (value, left)) : read token = .ok value := by
  obtain ⟨_, word', read⟩ := word_of_readWord accepted
  cases word.symm.trans word'
  exact read

theorem admits_of_readInteger {least greatest : Int}
    (read : readInteger least greatest raw = .ok value) :
    (integer least greatest).Admits raw value := by
  unfold readInteger at read
  split at read
  case h_1 => cases read
  case h_2 n found =>
    split_ifs at read with fits within
    cases read
    exact .integer (Decimal.denotes_iff.mpr found) within.1 within.2 fits

theorem admits_of_readFloat {least greatest : Binary32}
    (read : readFloat least greatest raw = .ok value) :
    (float least greatest).Admits raw value := by
  unfold readFloat at read
  split at read
  case h_1 => cases read
  case h_2 x found =>
    split_ifs at read with within
    cases read
    rw [Bool.and_eq_true] at within
    refine .float found ?_ within.1 within.2
    rintro rfl
    cases within.2

theorem lowerCase_writeBool (truth : Bool) :
    Text.lowerCase (Value.writeBool truth) = Value.writeBool truth := by
  cases truth <;> (unfold Value.writeBool Text.of; decide +kernel)

theorem admits_of_readBoolean (read : readBoolean raw = .ok value) :
    boolean.Admits raw value := by
  have same {truth : Bool} (lowered : Text.lowerCase raw = Value.writeBool truth) :
      Text.sameIgnoringCase raw (Value.writeBool truth) := by
    rw [Text.sameIgnoringCase, lowered, lowerCase_writeBool, beq_self_eq_true]
  simp only [readBoolean] at read
  split_ifs at read with yes no
  · cases read
    exact .boolean (same yes)
  · cases read
    exact .boolean (same no)

theorem admits_of_readChoice {choices : List Text} (isWord : Text.IsWord raw)
    (read : readChoice choices raw = .ok value) : (choice choices).Admits raw value := by
  unfold readChoice at read
  split_ifs at read with mem
  cases read
  exact .choice isWord mem

theorem admits_of_word (wordwise : type.isWordwise) (bounded : type.isGreedy = false)
    (word : Text.nextWord? text = some (token, after)) (read : type.parse text = .ok (value, left)) :
    type.Admits token value := by
  have isWord := Text.nextWord?_isWord word
  cases type with
  | word =>
    rw [parse] at read
    cases read_of_readWord word read
    exact .word isWord
  | string => cases wordwise
  | greedyString => cases bounded
  | integer => exact admits_of_readInteger (read_of_readWord word read)
  | float => exact admits_of_readFloat (read_of_readWord word read)
  | boolean => exact admits_of_readBoolean (read_of_readWord word read)
  | choice => exact admits_of_readChoice isWord (read_of_readWord word read)
  | host => cases wordwise

theorem admits_of_string (word : Text.nextWord? cursor.rest = some (token, after))
    (read : string.parse cursor.front = .ok (value, left)) :
    string.Admits (Text.trimEnd (Text.before cursor.front left)) value := by
  by_cases quote : cursor.front.head? = some '"'
  · obtain ⟨text, rfl, took⟩ := raw_of_quoted quote read
    rw [took]
    exact .quoted text
  · obtain ⟨_, took⟩ := raw_of_unquoted rfl rfl (fun _ => quote) word read
    rw [parse, cursor.trimStart_front, if_neg quote] at read
    cases read_of_readWord (cursor.nextWord?_front.trans word) read
    have isWord := Text.nextWord?_isWord word
    rw [show Text.trimEnd (Text.before cursor.front left) = token from took]
    refine .plain isWord ?_
    rwa [Cursor.front, Text.trimStart_of_nextWord? word,
      List.head?_append_of_ne_nil _ isWord.1] at quote

end ArgumentType

theorem Advance.admits (one : Advance line cursor (.argument path node raw value position) next)
    (typed : node.type? = some type) (builtIn : type.isBuiltIn) : type.Admits raw value := by
  cases one with
  | @argument _ index token after left type' _ word unspelled first typed' read =>
    cases typed'.symm.trans typed
    rcases ArgumentType.isWordwise_or_eq_string builtIn with wordwise | rfl
    · cases kind : type.isGreedy with
      | false =>
        rw [(ArgumentType.raw_of_word wordwise kind word read).2]
        exact ArgumentType.admits_of_word wordwise kind (cursor.nextWord?_front.trans word) read
      | true =>
        rw [ArgumentType.parse_greedy wordwise kind] at read
        cases read
        cases type with
        | greedyString =>
          have none : ArgumentType.greedyString.leaves [] = [] := rfl
          rw [none, Text.before_nil, Text.trim, Cursor.front, Text.trimStart_trimStart]
          exact .greedyString _
        | host => cases wordwise
        | _ => cases kind
    · exact ArgumentType.admits_of_string word read

theorem Grammar.Run.admits (run : grammar.Run line last)
    (mem : .argument path node raw value position ∈ (grammar.walk line).steps)
    (typed : node.type? = some type) (builtIn : type.isBuiltIn) : type.Admits raw value := by
  obtain ⟨_, _, one⟩ := run.steps.exists_advance mem
  exact one.admits typed builtIn

theorem Grammar.admits_of_mem (mem : binding ∈ (grammar.bind line).bindings)
    (made : binding.attempt = .bound raw value position)
    (typed : binding.place.node.type? = some type) (builtIn : type.isBuiltIn) :
    type.Admits raw value := by
  obtain ⟨last, run⟩ := grammar.run_exists line
  obtain ⟨listed, attempt⟩ := mem_bindings_iff.mp mem
  rw [made] at attempt
  rcases run.attemptAt_cases binding.place.path with
    ⟨node, _, _, _, step, holds⟩ | ⟨_, _, _, _, _, _, holds⟩ | ⟨_, _, holds⟩
  · cases attempt.trans holds
    rw [place_node_eq listed (run.at?_of_mem step)] at typed
    exact run.admits step typed builtIn
  · cases attempt.trans holds
  · cases attempt.trans holds

inductive Kind
  | string
  | integer
  | float
  | boolean
  deriving DecidableEq

namespace Kind

abbrev Carrier : Kind → Type
  | string => Text
  | integer => Int
  | float => Binary32
  | boolean => Bool

def view : (kind : Kind) → Value.View kind.Carrier
  | string => .string
  | integer => .integer
  | float => .float
  | boolean => .boolean

end Kind

def ArgumentType.kind? : ArgumentType → Option Kind
  | word | string | greedyString | choice _ => some .string
  | integer _ _ => some .integer
  | float _ _ => some .float
  | boolean => some .boolean
  | host _ => none

theorem ArgumentType.isBuiltIn_of_kind? {kind : Kind} (h : type.kind? = some kind) :
    type.isBuiltIn := by
  cases type <;> first | rfl | cases h

theorem ArgumentType.Admits.exists_read {kind : Kind} (admits : type.Admits raw value)
    (h : type.kind? = some kind) : ∃ x, kind.view.read value = some x := by
  cases admits <;> cases h <;> exact ⟨_, rfl⟩

namespace Grammar

def AllOfKind (grammar : Grammar) (kind : Kind) (name : Text) : Prop :=
  ∀ place ∈ grammar.places, place.node.name = name →
    place.node.type?.bind (·.kind?) = some kind

instance (grammar : Grammar) (kind : Kind) (name : Text) :
    Decidable (grammar.AllOfKind kind name) :=
  inferInstanceAs (Decidable (∀ place ∈ grammar.places, _ → _))

theorem exists_value? {kind : Kind} (same : grammar.AllOfKind kind name)
    (named : grammar.Names name) (line : Text) :
    ∃ answer, (grammar.bind line).value? kind.view name = .ok answer := by
  obtain ⟨last, run⟩ := grammar.run_exists line
  obtain ⟨binding, leads, found⟩ := run.exists_leadsTo named
  obtain ⟨listed, _⟩ := mem_bindings_iff.mp leads.listed
  obtain ⟨type, typed, kindOf⟩ :=
    Option.bind_eq_some_iff.mp (same binding.place listed leads.named)
  rw [BindingSet.value?_of_get found]
  cases made : binding.attempt with
  | unreached => exact ⟨none, rfl⟩
  | rejected => exact ⟨none, rfl⟩
  | bound raw value position =>
    have admits :=
      admits_of_mem leads.listed made typed (ArgumentType.isBuiltIn_of_kind? kindOf)
    obtain ⟨x, read⟩ := admits.exists_read kindOf
    exact ⟨some x, by simp [read]⟩

/-- Nodes of built-in types are bound to values of their types only, and a view reads the values of
a name without fail if the nodes of that name are all of its kind. -/
theorem bind_admits (grammar : Grammar) (line : Text) :
    (∀ binding ∈ (grammar.bind line).bindings, ∀ raw value position,
      binding.attempt = .bound raw value position →
        ∀ type ∈ binding.place.node.type?, type.isBuiltIn → type.Admits raw value) ∧
    ∀ kind name, grammar.AllOfKind kind name →
      (grammar.Names name → ∃ answer, (grammar.bind line).value? kind.view name = .ok answer) ∧
      (¬ grammar.Names name →
        (grammar.bind line).value? kind.view name = .error (.unknownArgument name)) := by
  constructor
  · intro binding mem raw value position made type typed builtIn
    exact admits_of_mem mem made typed builtIn
  · intro kind name same
    refine ⟨fun named => exists_value? same named line, fun unnamed => ?_⟩
    have none : ∀ binding ∈ (grammar.bind line).bindings, binding.name ≠ name :=
      fun binding mem named =>
        unnamed (names_iff.mpr ⟨binding.place, (mem_bindings_iff.mp mem).1, named⟩)
    have unknown := BindingSet.get_of_unnamed none
    exact (BindingSet.ignores_of_get unknown).value? kind.view

theorem bind_admits_of_numbers :
    numbers.AllOfKind .integer ['n'] ∧ numbers.Names ['n'] ∧
      (ArgumentType.integer 0 9).Admits ['1'] (.integer 1) ∧
      ∃ answer, (numbers.bind ['b', ' ', '1']).value? Kind.integer.view ['n'] = .ok answer := by
  have same : numbers.AllOfKind .integer ['n'] := by decide
  have named : numbers.Names ['n'] := names_iff.mpr (by decide)
  obtain ⟨admits, read⟩ := numbers.bind_admits ['b', ' ', '1']
  have bound : (numbers.bind ['b', ' ', '1']).bindings[1]? =
      some ⟨⟨[1, 0], number [number []], 0⟩, .bound ['1'] (.integer 1) (.index 1)⟩ := rfl
  exact ⟨same, named, admits _ (List.mem_of_getElem? bound) _ _ _ rfl _ rfl rfl,
    (read .integer ['n'] same).1 named⟩

end Grammar

end Console
