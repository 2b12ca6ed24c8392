import Console.Proofs.Binding.Boundaries

namespace Console

variable {line ahead more text token after left rest : Text} {value : Value}
  {cursor cursor' next last : Cursor} {step : Step} {steps : List Step} {ending ending' : Ending}
  {node : Node} {path : Path} {grammar : Grammar}

theorem Text.Quoted.exists_decode_of_append {value : Text} (blank : isBlankText more)
    (read : decode (text ++ more) = .ok (value, left)) : ∃ left, decode text = .ok (value, left) := by
  obtain ⟨eq, starts⟩ := eq_encode_of_decode read
  rcases List.append_eq_append_iff.mp eq with ⟨tail, written, rfl⟩ | ⟨left', rfl, rfl⟩
  · obtain rfl | ⟨front, c, rfl⟩ := tail.eq_nil_or_concat'
    · rw [List.append_nil] at written
      refine ⟨[], ?_⟩
      rw [← written, ← List.append_nil (encode value)]
      exact decode_encode value rfl
    · -- The closing quote would be a blank.
      have final : some '"' = some c := by
        have ends := congrArg List.getLast? written
        rwa [encode, ← List.cons_append, List.getLast?_concat, ← List.append_assoc,
          List.getLast?_concat] at ends
      cases final
      have quote := (isBlankText_append.mp (isBlankText_append.mp blank).1).2
      cases quote
  · refine ⟨left', decode_encode value ?_⟩
    cases left' with
    | nil => rfl
    | cons c left' => exact starts

/-- The same failure of a text with blanks behind. A quoted text that cannot be read is refused with
all that is behind its opening quote. -/
inductive ParseFailure.Pads (more : Text) : ParseFailure → ParseFailure → Prop
  | same (failure : ParseFailure) : Pads more failure failure
  | quoted (fault fault' : Text.Quoted.Fault) {raw : Text} (ne : raw ≠ []) :
      Pads more ⟨.quoting fault, raw⟩ ⟨.quoting fault', raw ++ more⟩

namespace ArgumentType

variable {type : ArgumentType} {failure : ParseFailure}

theorem parse_append_of_ok (builtIn : type.isBuiltIn) (bounded : type.isGreedy = false)
    (word : Text.nextWord? text = some (token, after)) (starts : Text.startsBlank more)
    (read : type.parse text = .ok (value, left)) :
    type.parse (text ++ more) = .ok (value, left ++ more) := by
  rcases isWordwise_or_eq_string builtIn with wordwise | rfl
  · rw [parse_append wordwise bounded word starts, read]
    rfl
  · have ne := Text.trimStart_ne_nil_of_nextWord? word
    have front := Text.trimStart_append ne more
    rw [parse] at read ⊢
    rw [front, List.head?_append_of_ne_nil _ ne]
    split at read
    case isTrue quote =>
      obtain ⟨quoted, rfl, decoded⟩ := readQuoted_eq_ok_iff.mp read
      obtain ⟨written, starts'⟩ := Text.Quoted.eq_encode_of_decode decoded
      rw [if_pos quote, readQuoted_eq_ok_iff, front, written, List.append_assoc]
      exact ⟨quoted, rfl, Text.Quoted.decode_encode _ (Text.startsBlank_append starts' starts)⟩
    case isFalse plain =>
      rw [if_neg plain, readWord_append word starts, read]
      rfl

theorem exists_parse_append_of_error (builtIn : type.isBuiltIn)
    (word : Text.nextWord? text = some (token, after)) (blank : Text.isBlankText more)
    (refused : type.parse text = .error failure) :
    ∃ failure', type.parse (text ++ more) = .error failure' ∧ failure.Pads more failure' := by
  have starts := Text.startsBlank_of_isBlankText blank
  rcases isWordwise_or_eq_string builtIn with wordwise | rfl
  · have bounded := isGreedy_eq_false_of_parse_error wordwise refused
    refine ⟨failure, ?_, .same failure⟩
    rw [parse_append wordwise bounded word starts, refused]
    rfl
  · have ne := Text.trimStart_ne_nil_of_nextWord? word
    have front := Text.trimStart_append ne more
    rw [parse] at refused ⊢
    rw [front, List.head?_append_of_ne_nil _ ne]
    split at refused
    case isTrue quote =>
      obtain ⟨fault, rfl, unread⟩ := readQuoted_eq_error_iff.mp refused
      rw [if_pos quote]
      cases read : Text.Quoted.decode (Text.trimStart text ++ more) with
      | ok result =>
        obtain ⟨left, decoded⟩ := Text.Quoted.exists_decode_of_append blank read
        rw [unread] at decoded
        cases decoded
      | error fault' =>
        refine ⟨_, readQuoted_eq_error_iff.mpr ⟨fault', rfl, front.symm ▸ read⟩, ?_⟩
        rw [front]
        exact .quoted fault fault' ne
    case isFalse plain =>
      rw [if_neg plain]
      refine ⟨failure, ?_, .same failure⟩
      rw [readWord_append word starts, refused]
      rfl

theorem exists_parse_append_of_ok (builtIn : type.isBuiltIn)
    (word : Text.nextWord? text = some (token, after)) (blank : Text.isBlankText more)
    (read : type.parse text = .ok (value, left)) :
    ∃ left', type.parse (text ++ more) = .ok (value, left') ∧
      Text.trimEnd (Text.before (text ++ more) (type.leaves left')) =
        Text.trimEnd (Text.before text (type.leaves left)) ∧
      Text.trimStart (type.leaves left') = Text.trimStart (type.leaves left ++ more) := by
  cases kind : type.isGreedy with
  | false =>
    have starts := Text.startsBlank_of_isBlankText blank
    refine ⟨left ++ more, parse_append_of_ok builtIn kind word starts read, ?_⟩
    have same (left : Text) : type.leaves left = left := by simp [leaves, kind]
    rw [same, same, Text.before_append_append]
    exact ⟨rfl, rfl⟩
  | true =>
    have wordwise : type.isWordwise := by
      apply (isWordwise_or_eq_string builtIn).resolve_right
      rintro rfl
      cases kind
    have trimmed : Text.trim (text ++ more) = Text.trim text := by
      rw [Text.trim, Text.trimStart_append (Text.trimStart_ne_nil_of_nextWord? word),
        Text.trimEnd_append_of_isBlankText blank, Text.trim]
    rw [parse_greedy wordwise kind] at read ⊢
    cases read
    refine ⟨[], by rw [trimmed], ?_⟩
    have none : type.leaves [] = [] := by simp [leaves]
    rw [none, Text.before_nil, Text.before_nil, Text.trimEnd_append_of_isBlankText blank,
      List.nil_append, Text.trimStart_eq_nil_iff.mpr blank]
    exact ⟨rfl, rfl⟩

end ArgumentType

theorem Node.accepts_append_blanks (builtIn : ∀ type ∈ node.type?, type.isBuiltIn)
    (word : Text.nextWord? text = some (token, after)) (blank : Text.isBlankText more) :
    node.Accepts text ↔ node.Accepts (text ++ more) := by
  constructor
  · rintro ⟨type, value, left, typed, read⟩
    obtain ⟨left', read', _⟩ :=
      ArgumentType.exists_parse_append_of_ok (builtIn type typed) word blank read
    exact ⟨type, value, left', typed, read'⟩
  · rintro ⟨type, value, left, typed, read⟩
    rcases Node.accepts_or_refuses typed text with accepts | ⟨type', failure, typed', refused⟩
    · exact accepts
    · obtain ⟨failure', refused', _⟩ :=
        ArgumentType.exists_parse_append_of_error (builtIn type' typed') word blank refused
      cases typed.symm.trans typed'
      rw [read] at refused'
      cases refused'

def Node.BuiltIn (node : Node) : Prop :=
  node.Everywhere fun child => ∀ type ∈ child.type?, type.isBuiltIn

structure Cursor.Pads (line more : Text) (cursor cursor' : Cursor) : Prop where
  node : cursor'.node = cursor.node
  path : cursor'.path = cursor.path
  front : cursor'.front = Text.trimStart (cursor.rest ++ more)
  suffix : cursor.rest <:+ line

theorem Text.words_pad (leads : isBlankText ahead) (ends : isBlankText more) (line : Text) :
    words (ahead ++ line ++ more) = words line := by
  rw [words_append_blanks ends, words_blanks_append leads]

theorem Text.wordIndex_pad (leads : isBlankText ahead) (suffix : rest <:+ line) (more : Text) :
    wordIndex (ahead ++ line ++ more) (rest ++ more) = wordIndex line rest := by
  obtain ⟨front, rfl⟩ := suffix
  rw [wordIndex_append, ← List.append_assoc, wordIndex, before_append, wordIndex, before_append,
    wordCount, words_blanks_append leads, wordCount]

namespace Cursor.Pads

variable (pads : cursor.Pads line more cursor')
include pads

theorem front_eq (ne : cursor.front ≠ []) : cursor'.front = cursor.front ++ more := by
  rw [pads.front, Text.trimStart_append ne]
  rfl

theorem nextWord?_eq (ends : Text.isBlankText more)
    (word : Text.nextWord? cursor.rest = some (token, after)) :
    Text.nextWord? cursor'.rest = some (token, after ++ more) := by
  rw [← cursor'.nextWord?_front, pads.front_eq (Cursor.front_ne_nil word)]
  exact Text.nextWord?_append (cursor.nextWord?_front.trans word)
    (Text.startsBlank_of_isBlankText ends)

theorem wordIndex_eq (leads : Text.isBlankText ahead) (ne : cursor.front ≠ []) :
    Text.wordIndex (ahead ++ line ++ more) cursor'.front = Text.wordIndex line cursor.front := by
  rw [pads.front_eq ne]
  exact Text.wordIndex_pad leads ((List.dropWhile_suffix _).trans pads.suffix) more

theorem position_eq (leads : Text.isBlankText ahead) (ends : Text.isBlankText more)
    (ne : cursor.front ≠ []) (type : ArgumentType) :
    cursor'.position (ahead ++ line ++ more) type = cursor.position line type := by
  rw [Cursor.position, Cursor.position, pads.wordIndex_eq leads ne, Text.wordCount, Text.wordCount,
    Text.words_pad leads ends]

end Cursor.Pads

theorem Cursor.Pads.first_accepts {index : Nat} {child : Node}
    (pads : cursor.Pads line more cursor') (ends : Text.isBlankText more)
    (builtIn : cursor.node.BuiltIn) (word : Text.nextWord? cursor.rest = some (token, after))
    (first : First (Node.Accepts cursor.front) cursor.node.children index child) :
    First (Node.Accepts cursor'.front) cursor.node.children index child := by
  rw [pads.front_eq (Cursor.front_ne_nil word)]
  exact first.congr fun other mem =>
    Node.accepts_append_blanks (Node.Everywhere.of_mem builtIn mem).here
      (cursor.nextWord?_front.trans word) ends

theorem Advance.pad (one : Advance line cursor step next) (builtIn : cursor.node.BuiltIn)
    (leads : Text.isBlankText ahead) (ends : Text.isBlankText more)
    (pads : cursor.Pads line more cursor') :
    ∃ next', Advance (ahead ++ line ++ more) cursor' step next' ∧ next.Pads line more next' := by
  have suffix := one.rest_suffix.trans pads.suffix
  cases one with
  | @literal child index after word first =>
    have word' := pads.nextWord?_eq ends word
    rw [← pads.node] at first
    have one' : Advance (ahead ++ line ++ more) cursor' _ _ := .literal word' first
    rw [pads.path] at one'
    exact ⟨_, one', rfl, rfl, rfl, suffix⟩
  | @argument child index token after left type value word unspelled first typed read =>
    have ne := Cursor.front_ne_nil word
    have word' := pads.nextWord?_eq ends word
    have accepts := pads.first_accepts ends builtIn word first
    obtain ⟨left', read', took, leaves⟩ := ArgumentType.exists_parse_append_of_ok
      ((Node.Everywhere.of_mem builtIn first.mem).here type typed)
      (cursor.nextWord?_front.trans word) ends read
    rw [← pads.front_eq ne] at read' took
    rw [← pads.node] at unspelled accepts
    have one' : Advance (ahead ++ line ++ more) cursor' _ _ :=
      .argument word' unspelled accepts typed read'
    rw [pads.path, took, pads.position_eq leads ends ne] at one'
    exact ⟨_, one', rfl, rfl, leaves, suffix⟩

inductive Ending.Pads (more : Text) : Ending → Ending → Prop
  | same (ending : Ending) : Pads more ending ending
  | quoted (path : Path) (node : Node) {raw : Text} (position : Position)
      (fault fault' : Text.Quoted.Fault) :
      Pads more (.rejected path node raw position ⟨.quoting fault, raw⟩)
        (.rejected path node (raw ++ more) position ⟨.quoting fault', raw ++ more⟩)

theorem Halt.pad (halt : Halt line cursor ending) (builtIn : cursor.node.BuiltIn)
    (leads : Text.isBlankText ahead) (ends : Text.isBlankText more)
    (pads : cursor.Pads line more cursor') :
    ∃ ending', Halt (ahead ++ line ++ more) cursor' ending' ∧ ending.Pads more ending' := by
  cases halt with
  | exhausted blank =>
    refine ⟨_, .exhausted ?_, .same _⟩
    rw [← Text.trimStart_eq_nil_iff]
    exact pads.front.trans
      (Text.trimStart_eq_nil_iff.mpr (Text.isBlankText_append.mpr ⟨blank, ends⟩))
  | tooMany ne leaf =>
    have front := pads.front_eq ne
    refine ⟨_, .tooMany (by simp [front, ne]) (pads.node ▸ leaf), ?_⟩
    rw [front, Text.trimEnd_append_of_isBlankText ends]
    exact .same _
  | unmatched word inner unspelled untyped =>
    have front := pads.front_eq (Cursor.front_ne_nil word)
    rw [← pads.node] at inner unspelled untyped
    refine ⟨_, .unmatched (pads.nextWord?_eq ends word) inner unspelled untyped, ?_⟩
    rw [front, Text.trimEnd_append_of_isBlankText ends]
    exact .same _
  | @rejected child index token after type failure word unspelled refused first typed read =>
    have ne := Cursor.front_ne_nil word
    have here := cursor.nextWord?_front.trans word
    have refused' : ∀ child ∈ cursor.node.children, ¬ child.Accepts cursor'.front := by
      rw [pads.front_eq ne]
      exact fun child mem =>
        mt (Node.accepts_append_blanks (Node.Everywhere.of_mem builtIn mem).here here ends).mpr
          (refused child mem)
    obtain ⟨failure', read', same⟩ := ArgumentType.exists_parse_append_of_error
      ((Node.Everywhere.of_mem builtIn first.mem).here type typed) here ends read
    rw [← pads.front_eq ne] at read'
    rw [← pads.node] at unspelled refused' first
    have halt' : Halt (ahead ++ line ++ more) cursor' _ :=
      .rejected (pads.nextWord?_eq ends word) unspelled refused' first typed read'
    rw [pads.path, pads.wordIndex_eq leads ne] at halt'
    refine ⟨_, halt', ?_⟩
    cases same with
    | same => exact .same _
    | quoted fault fault' some =>
      simp only [List.isEmpty_iff, List.append_eq_nil_iff, some, false_and, if_false]
      exact .quoted ..

theorem Advances.pad (run : Advances line cursor steps last) (builtIn : cursor.node.BuiltIn)
    (leads : Text.isBlankText ahead) (ends : Text.isBlankText more)
    (pads : cursor.Pads line more cursor') :
    ∃ last', Advances (ahead ++ line ++ more) cursor' steps last' ∧ last.Pads line more last' := by
  induction run generalizing cursor' with
  | done => exact ⟨cursor', .done cursor', pads⟩
  | step one _ ih =>
    obtain ⟨next', one', pads⟩ := one.pad builtIn leads ends pads
    obtain ⟨last', run', pads⟩ := ih (one.everywhere builtIn) pads
    exact ⟨last', .step one' run', pads⟩

theorem Grammar.walk_pad (builtIn : grammar.isBuiltIn) (leads : Text.isBlankText ahead)
    (ends : Text.isBlankText more) (line : Text) :
    ∃ ending, grammar.walk (ahead ++ line ++ more) = ⟨(grammar.walk line).steps, ending⟩ ∧
      (grammar.walk line).ending.Pads more ending := by
  obtain ⟨last, run⟩ := grammar.run_exists line
  have root := grammar.everywhere_root builtIn
  have start : Cursor.Pads line more ⟨grammar.root, [], line⟩
      ⟨grammar.root, [], ahead ++ line ++ more⟩ := by
    refine ⟨rfl, rfl, ?_, List.suffix_rfl⟩
    rw [Cursor.front, List.append_assoc, Text.trimStart_blanks_append leads]
  obtain ⟨last', steps, there⟩ := run.steps.pad root leads ends start
  obtain ⟨ending, halt, same⟩ := run.halt.pad (run.steps.everywhere root) leads ends there
  exact ⟨ending, steps.walk_eq halt, same⟩

inductive Attempt.Pads (more : Text) : Attempt → Attempt → Prop
  | same (attempt : Attempt) : Pads more attempt attempt
  | quoted (raw : Text) (position : Position) (fault fault' : Text.Quoted.Fault) :
      Pads more (.rejected raw position ⟨.quoting fault, raw⟩)
        (.rejected (raw ++ more) position ⟨.quoting fault', raw ++ more⟩)

theorem Trail.attemptAt_pad (same : ending.Pads more ending') (path : Path) :
    ((⟨steps, ending⟩ : Trail).attemptAt path).Pads more
      ((⟨steps, ending'⟩ : Trail).attemptAt path) := by
  cases same with
  | same => exact .same _
  | @quoted stop node raw position fault fault' =>
    have refused : (if stop = path then Attempt.rejected raw position ⟨.quoting fault, raw⟩
          else .unreached).Pads more
        (if stop = path then .rejected (raw ++ more) position ⟨.quoting fault', raw ++ more⟩
          else .unreached) := by
      split
      · exact .quoted raw position fault fault'
      · exact .same _
    unfold attemptAt
    generalize steps.find? (·.path == path) = found
    rcases found with _ | _ | _
    · exact refused
    · exact refused
    · exact .same _

structure Binding.Pads (more : Text) (binding binding' : Binding) : Prop where
  place : binding'.place = binding.place
  attempt : binding.attempt.Pads more binding'.attempt

structure Pads (more : Text) (set set' : BindingSet) : Prop where
  status : set'.status = set.status
  terminal : set'.terminal? = set.terminal?
  wordCount : set'.wordCount = set.wordCount
  bindings : List.Forall₂ (Binding.Pads more) set.bindings set'.bindings

theorem Ending.Pads.status_eq (same : ending.Pads more ending') (executes : Bool) :
    ending'.status executes = ending.status executes := by
  cases same <;> rfl

namespace Grammar

/-- Blanks around a line do not change how it binds. -/
theorem bind_pad (grammar : Grammar) (ahead line more : Text) (builtIn : grammar.isBuiltIn)
    (leads : Text.isBlankText ahead) (ends : Text.isBlankText more) :
    Pads more (grammar.bind line) (grammar.bind (ahead ++ line ++ more)) := by
  obtain ⟨ending, walked, same⟩ := walk_pad builtIn leads ends line
  constructor
  case status =>
    simp only [bind, walked]
    exact same.status_eq _
  case terminal => simp only [bind, walked]
  case wordCount => exact congrArg List.length (Text.words_pad leads ends line)
  case bindings =>
    rw [bind, bind, List.forall₂_map_left_iff, List.forall₂_map_right_iff, List.forall₂_same]
    intro place _
    refine ⟨rfl, ?_⟩
    rw [walked]
    exact Trail.attemptAt_pad same place.path

def titleThenAll : Grammar :=
  ⟨[⟨['t'], .typed .string none, true, [⟨['r'], .typed .greedyString none, true, []⟩]⟩], false,
    rfl⟩

theorem bind_pad_of_unclosed :
    titleThenAll.isBuiltIn ∧ Text.isBlankText ['\t'] ∧ Text.isBlankText [' ', ' '] ∧
      Pads [' ', ' '] (titleThenAll.bind ['"', 'a', ' ', '\\'])
        (titleThenAll.bind ['\t', '"', 'a', ' ', '\\', ' ', ' ']) :=
  ⟨rfl, rfl, rfl, titleThenAll.bind_pad ['\t'] ['"', 'a', ' ', '\\'] [' ', ' '] rfl rfl rfl⟩

end Grammar

end Console
