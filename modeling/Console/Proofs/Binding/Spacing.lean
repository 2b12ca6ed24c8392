import Console.Proofs.Binding.Boundaries
import Console.Proofs.Binding.Growth
import Console.Proofs.Binding.Tiling

namespace Console

variable {line line' text text' token after after' : Text} {cursor cursor' next last : Cursor}
  {step step' : Step} {steps steps' : List Step} {ending ending' : Ending} {node : Node}
  {path : Path} {grammar : Grammar} {index : Nat}

structure Cursor.Respaces (line line' : Text) (cursor cursor' : Cursor) : Prop where
  node : cursor'.node = cursor.node
  path : cursor'.path = cursor.path
  words : Text.words cursor'.rest = Text.words cursor.rest
  boundary : Text.IsBoundary line cursor.rest
  boundary' : Text.IsBoundary line' cursor'.rest

namespace Cursor.Respaces

theorem exists_word (same : cursor.Respaces line line' cursor')
    (word : Text.nextWord? cursor.rest = some (token, after)) :
    ∃ after', Text.nextWord? cursor'.rest = some (token, after') ∧
      Text.words after' = Text.words after :=
  Text.exists_nextWord? (same.words.trans (Text.words_of_nextWord? word))

theorem isBlankText (same : cursor.Respaces line line' cursor')
    (blank : Text.isBlankText cursor.rest) : Text.isBlankText cursor'.rest := by
  rw [← Text.words_eq_nil_iff] at blank ⊢
  rw [same.words, blank]

theorem front_ne_nil (same : cursor.Respaces line line' cursor') (more : cursor.front ≠ []) :
    cursor'.front ≠ [] := by
  rw [Cursor.front, ne_eq, Text.trimStart_eq_nil_iff, ← Text.words_eq_nil_iff, same.words,
    Text.words_eq_nil_iff, ← Text.trimStart_eq_nil_iff]
  exact more

theorem wordIndex_eq (same : cursor.Respaces line line' cursor')
    (words : Text.words line' = Text.words line) :
    Text.wordIndex line' cursor'.front = Text.wordIndex line cursor.front := by
  have index := same.boundary.wordIndex_add
  have index' := same.boundary'.wordIndex_add
  rw [Text.wordCount, Text.wordCount] at index index'
  rw [same.words, words, ← index] at index'
  exact Nat.add_right_cancel index'

theorem position_eq (same : cursor.Respaces line line' cursor')
    (words : Text.words line' = Text.words line) (type : ArgumentType) :
    cursor'.position line' type = cursor.position line type := by
  rw [Cursor.position, Cursor.position, same.wordIndex_eq words, Text.wordCount, Text.wordCount,
    words]

theorem words_front (same : cursor.Respaces line line' cursor') :
    Text.words cursor'.front = Text.words cursor.front := by
  rw [Cursor.front, Cursor.front, Text.words_trimStart, Text.words_trimStart, same.words]

end Cursor.Respaces

inductive Step.Respaces : Step → Step → Prop
  | same (step : Step) : Respaces step step
  | greedy {path : Path} {node : Node} {raw raw' text text' : Text} {position : Position}
      (greedy : node.isGreedy) (raws : Text.words raw' = Text.words raw)
      (texts : Text.words text' = Text.words text) :
      Respaces (.argument path node raw (.string text) position)
        (.argument path node raw' (.string text') position)

inductive Ending.Respaces : Ending → Ending → Prop
  | exhausted : Respaces .exhausted .exhausted
  | rejected (path : Path) (node : Node) (raw : Text) (position : Position)
      (failure : ParseFailure) :
      Respaces (.rejected path node raw position failure) (.rejected path node raw position failure)
  | tooMany {remaining remaining' : Text} (h : Text.words remaining' = Text.words remaining) :
      Respaces (.tooMany remaining) (.tooMany remaining')
  | unmatched {remaining remaining' : Text} (h : Text.words remaining' = Text.words remaining) :
      Respaces (.unmatched remaining) (.unmatched remaining')

theorem ArgumentType.raw_of_unquoted {type : ArgumentType} {value : Value} {left : Text}
    (builtIn : type.isBuiltIn) (bounded : type.isGreedy = false)
    (unquoted : type = .string → cursor.front.head? ≠ some '"')
    (word : Text.nextWord? cursor.rest = some (token, after))
    (read : type.parse cursor.front = .ok (value, left)) :
    left = after ∧ Text.trimEnd (Text.before cursor.front (type.leaves left)) = token := by
  have eq := left_of_unquoted builtIn bounded (cursor.trimStart_front.symm ▸ unquoted)
    (cursor.nextWord?_front.trans word) read
  subst eq
  rw [leaves, bounded, Cursor.front, Text.trimStart_of_nextWord? word]
  refine ⟨rfl, ?_⟩
  change Text.trimEnd (Text.before (token ++ left) left) = token
  rw [Text.before_append, Text.trimEnd_eq_self (Text.nextWord?_isWord word).2]

theorem ArgumentType.raw_of_word {type : ArgumentType} {value : Value} {left : Text}
    (wordwise : type.isWordwise) (bounded : type.isGreedy = false)
    (word : Text.nextWord? cursor.rest = some (token, after))
    (read : type.parse cursor.front = .ok (value, left)) :
    left = after ∧ Text.trimEnd (Text.before cursor.front (type.leaves left)) = token := by
  refine raw_of_unquoted (isBuiltIn_of_isWordwise wordwise) bounded ?_ word read
  rintro rfl
  cases wordwise

theorem Cursor.Respaces.first_accepts (same : cursor.Respaces line line' cursor')
    (wordwise : cursor.node.Wordwise)
    (word : Text.nextWord? cursor.rest = some (token, after)) {child : Node} :
    First (Node.Accepts cursor.front) cursor.node.children index child →
      First (Node.Accepts cursor'.front) cursor.node.children index child := by
  intro first
  obtain ⟨after', word', _⟩ := same.exists_word word
  exact first.congr fun other mem => Node.accepts_of_sameWord (wordwise.of_mem mem)
    (cursor.nextWord?_front.trans word) (cursor'.nextWord?_front.trans word')

theorem Advance.wordwise_step (one : Advance line cursor step next)
    (wordwise : cursor.node.Wordwise) : ∀ type ∈ step.node.type?, type.isWordwise := by
  obtain ⟨index, found, _, located⟩ := one.exists_child
  have eq : step.node = next.node := congrArg Prod.snd located
  rw [eq]
  exact wordwise.of_mem (List.mem_of_getElem? found)

theorem Advance.builtIn (one : Advance line cursor step next) (wordwise : cursor.node.Wordwise) :
    ∀ type ∈ step.node.type?, type.isBuiltIn :=
  fun type typed => ArgumentType.isBuiltIn_of_isWordwise (one.wordwise_step wordwise type typed)

theorem Advance.exists_respaced (one : Advance line cursor step next)
    (wordwise : cursor.node.Wordwise) (same : cursor.Respaces line line' cursor')
    (words : Text.words line' = Text.words line) :
    ∃ step' next', Advance line' cursor' step' next' ∧ step.Respaces step' ∧
      next'.node = next.node ∧ next'.path = next.path ∧
        Text.words next'.rest = Text.words next.rest := by
  cases one with
  | @literal child index after word first =>
    obtain ⟨after', word', words'⟩ := same.exists_word word
    rw [← same.node] at first
    refine ⟨_, _, .literal word' first, ?_, rfl, by rw [same.path], words'⟩
    rw [same.path]
    exact .same _
  | @argument child index token after left type value word unspelled first typed read =>
    obtain ⟨after', word', words'⟩ := same.exists_word word
    have isWordwise := wordwise.of_mem first.mem type typed
    have accepts := same.first_accepts wordwise word first
    rw [← same.node] at unspelled accepts
    cases kind : type.isGreedy with
    | true =>
      have read' := ArgumentType.parse_greedy isWordwise kind cursor'.front
      obtain ⟨rfl, rfl⟩ : value = .string (Text.trim cursor.front) ∧ left = [] := by
        rw [ArgumentType.parse_greedy isWordwise kind] at read
        cases read
        exact ⟨rfl, rfl⟩
      refine ⟨_, _, .argument word' unspelled accepts typed read', ?_, rfl, by rw [same.path], rfl⟩
      rw [same.path, same.position_eq words, ArgumentType.leaves, if_pos kind, Text.before_nil,
        Text.before_nil]
      refine .greedy ((Node.isGreedy_eq typed).trans kind) ?_ ?_
      · rw [Text.words_trimEnd, Text.words_trimEnd, same.words_front]
      · rw [Text.words_trim, Text.words_trim, same.words_front]
    | false =>
      have read' := ArgumentType.parse_of_sameWord isWordwise kind
        (cursor.nextWord?_front.trans word) (cursor'.nextWord?_front.trans word')
      rw [read] at read'
      have read' : type.parse cursor'.front = .ok (value, after') := read'
      obtain ⟨eq, raw⟩ := ArgumentType.raw_of_word isWordwise kind word read
      obtain ⟨_, raw'⟩ := ArgumentType.raw_of_word isWordwise kind word' read'
      subst eq
      refine ⟨_, _, .argument word' unspelled accepts typed read', ?_, rfl, by rw [same.path], ?_⟩
      · rw [same.path, same.position_eq words, raw, raw']
        exact .same _
      · simpa [ArgumentType.leaves, kind] using words'

theorem Advance.respace (one : Advance line cursor step next) (wordwise : cursor.node.Wordwise)
    (same : cursor.Respaces line line' cursor') (words : Text.words line' = Text.words line) :
    ∃ step' next', Advance line' cursor' step' next' ∧ step.Respaces step' ∧
      next.Respaces line line' next' := by
  obtain ⟨step', next', one', respaces, node, path, words'⟩ :=
    one.exists_respaced wordwise same words
  have wordwise' : cursor'.node.Wordwise := same.node ▸ wordwise
  exact ⟨step', next', one', respaces, node, path, words',
    one.isBoundary (one.builtIn wordwise) same.boundary,
    one'.isBoundary (one'.builtIn wordwise') same.boundary'⟩

theorem Halt.respace (halt : Halt line cursor ending) (wordwise : cursor.node.Wordwise)
    (same : cursor.Respaces line line' cursor') (words : Text.words line' = Text.words line) :
    ∃ ending', Halt line' cursor' ending' ∧ ending.Respaces ending' := by
  have remaining : Text.words (Text.trimEnd cursor'.front) =
      Text.words (Text.trimEnd cursor.front) := by
    rw [Text.words_trimEnd, Text.words_trimEnd, same.words_front]
  cases halt with
  | exhausted blank => exact ⟨_, .exhausted (same.isBlankText blank), .exhausted⟩
  | tooMany more leaf =>
    exact ⟨_, .tooMany (same.front_ne_nil more) (same.node ▸ leaf), .tooMany remaining⟩
  | unmatched word inner unspelled untyped =>
    obtain ⟨after', word', _⟩ := same.exists_word word
    rw [← same.node] at inner unspelled untyped
    exact ⟨_, .unmatched word' inner unspelled untyped, .unmatched remaining⟩
  | @rejected child index token after type failure word unspelled refused first typed read =>
    obtain ⟨after', word', _⟩ := same.exists_word word
    have here := cursor.nextWord?_front.trans word
    have here' := cursor'.nextWord?_front.trans word'
    have isWordwise := wordwise.of_mem first.mem type typed
    have refused : ∀ child ∈ cursor.node.children, ¬ child.Accepts cursor'.front :=
      fun child mem =>
        mt (Node.accepts_of_sameWord (wordwise.of_mem mem) here here').mpr (refused child mem)
    have bounded := ArgumentType.isGreedy_eq_false_of_parse_error isWordwise read
    have read' := ArgumentType.parse_of_sameWord isWordwise bounded here here'
    rw [read] at read'
    have read' : type.parse cursor'.front = .error failure := read'
    rw [← same.node] at unspelled refused first
    refine ⟨_, .rejected word' unspelled refused first typed read', ?_⟩
    rw [same.path, same.wordIndex_eq words]
    exact .rejected ..

theorem Advances.respace (run : Advances line cursor steps last)
    (wordwise : cursor.node.Wordwise) (same : cursor.Respaces line line' cursor')
    (words : Text.words line' = Text.words line) :
    ∃ steps' last', Advances line' cursor' steps' last' ∧ List.Forall₂ Step.Respaces steps steps' ∧
      last.Respaces line line' last' := by
  induction run generalizing cursor' with
  | done => exact ⟨[], cursor', .done cursor', .nil, same⟩
  | step one _ ih =>
    obtain ⟨step', next', one', first, same⟩ := one.respace wordwise same words
    obtain ⟨steps', last', run', others, same⟩ := ih (one.wordwise wordwise) same
    exact ⟨step' :: steps', last', .step one' run', .cons first others, same⟩

def Step.position? : Step → Option Position
  | literal _ _ => none
  | argument _ _ _ _ position => some position

theorem Advance.position?_eq (one : Advance line cursor step next)
    (bounded : step.node.isGreedy = false) :
    ∀ position ∈ step.position?, position = .index (Text.wordIndex line cursor.front) := by
  cases one with
  | literal => nofun
  | argument _ _ _ typed =>
    rintro position ⟨⟩
    rw [Cursor.position, (Node.isGreedy_eq typed).symm.trans bounded]
    rfl

theorem Advance.wordIndex_next (one : Advance line cursor step next)
    (wordwise : cursor.node.Wordwise) (boundary : Text.IsBoundary line cursor.rest)
    (bounded : step.node.isGreedy = false) :
    Text.wordIndex line next.front = Text.wordIndex line cursor.front + 1 := by
  have before := boundary.wordIndex_add
  have after := (one.isBoundary (one.builtIn wordwise) boundary).wordIndex_add
  rw [Text.wordCount, one.words_eq bounded (one.builtIn wordwise) fun type typed =>
    .inl (one.wordwise_step wordwise type typed), List.length_cons] at before
  rw [Text.wordCount] at after
  rw [Cursor.front, Cursor.front]
  omega

theorem Advance.bounded_of_advances (one : Advance line cursor step next)
    (more : Advances line next steps last) (mem : step' ∈ steps) : step.node.isGreedy = false := by
  by_contra greedy
  have whole := Advances.step one more
  have ends := (whole.greedy_last List.mem_cons_self (by simpa using greedy)).1
  have ends' := List.getLast?_eq_some_getLast (List.ne_nil_of_mem mem)
  rw [List.getLast?_cons, ends'] at ends
  have lt := (List.pairwise_cons.mp whole.sorted).1 _ (List.mem_of_getLast? ends')
  rw [Option.getD_some, Option.some.injEq] at ends
  rw [ends] at lt
  exact lt_irrefl _ lt

theorem Advances.takes (run : Advances line cursor steps last) (wordwise : cursor.node.Wordwise)
    (boundary : Text.IsBoundary line cursor.rest) (found : steps[index]? = some step)
    (bounded : step.node.isGreedy = false) :
    (Text.words cursor.rest)[index]? = some step.raw ∧
      ∀ position ∈ step.position?,
        position = .index (Text.wordIndex line cursor.front + index) := by
  induction run generalizing index with
  | done => cases found
  | @step cursor next last first steps one more ih =>
    cases index with
    | zero =>
      cases found
      have wordwise' := one.wordwise_step wordwise
      rw [one.words_eq bounded (one.builtIn wordwise) fun type typed => .inl (wordwise' type typed)]
      exact ⟨rfl, one.position?_eq bounded⟩
    | succ index =>
      have found : steps[index]? = some step := found
      have bounded' := one.bounded_of_advances more (List.mem_of_getElem? found)
      obtain ⟨word, position⟩ := ih (one.wordwise wordwise)
        (one.isBoundary (one.builtIn wordwise) boundary) found
      rw [one.words_eq bounded' (one.builtIn wordwise) fun type typed =>
        .inl (one.wordwise_step wordwise type typed)]
      refine ⟨word, fun position' mem => ?_⟩
      rw [position position' mem, one.wordIndex_next wordwise boundary bounded', Nat.add_assoc,
        Nat.add_comm 1]

inductive Attempt.Respaces : Attempt → Attempt → Prop
  | same (attempt : Attempt) : Respaces attempt attempt
  | greedy {raw raw' text text' : Text} {position : Position}
      (raws : Text.words raw' = Text.words raw) (texts : Text.words text' = Text.words text) :
      Respaces (.bound raw (.string text) position) (.bound raw' (.string text') position)

structure Binding.Respaces (binding binding' : Binding) : Prop where
  place : binding'.place = binding.place
  attempt : binding.attempt.Respaces binding'.attempt
  bounded : binding.place.node.isGreedy = false → binding'.attempt = binding.attempt

inductive Status.Respaces : Status → Status → Prop
  | complete : Respaces .complete .complete
  | incomplete : Respaces .incomplete .incomplete
  | invalidArgument (name : Text) : Respaces (.invalidArgument name) (.invalidArgument name)
  | tooManyArguments {remaining remaining' : Text}
      (h : Text.words remaining' = Text.words remaining) :
      Respaces (.tooManyArguments remaining) (.tooManyArguments remaining')
  | unmatched {remaining remaining' : Text} (h : Text.words remaining' = Text.words remaining) :
      Respaces (.unmatched remaining) (.unmatched remaining')

theorem Ending.Respaces.status (h : ending.Respaces ending') (executes : Bool) :
    (ending.status executes).Respaces (ending'.status executes) := by
  cases h with
  | exhausted =>
    cases executes with
    | true => exact .complete
    | false => exact .incomplete
  | rejected => exact .invalidArgument _
  | tooMany words => exact .tooManyArguments words
  | unmatched words => exact .unmatched words

namespace Step.Respaces

theorem path_eq (h : step.Respaces step') : step'.path = step.path := by cases h <;> rfl

theorem located_eq (h : step.Respaces step') : step'.located = step.located := by cases h <;> rfl

end Step.Respaces

theorem Trail.attemptAt_respace (same : List.Forall₂ Step.Respaces steps steps')
    (ends : ending.Respaces ending') (path : Path) :
    ((⟨steps, ending⟩ : Trail).attemptAt path).Respaces
      ((⟨steps', ending'⟩ : Trail).attemptAt path) := by
  unfold attemptAt
  induction same with
  | nil => cases ends <;> exact .same _
  | @cons step step' _ _ first _ ih =>
    simp only [List.find?_cons, first.path_eq]
    cases step.path == path with
    | false => exact ih
    | true =>
      cases first with
      | greedy _ raws texts => exact .greedy raws texts
      | same =>
        cases step with
        | argument => exact .same _
        | literal => cases ends <;> exact .same _

/-- How two lines with the same words are bound: the walk passes the same nodes and stops for the
same reason, and each node has the same binding. -/
structure Respaces (grammar : Grammar) (set set' : BindingSet) : Prop where
  passed : grammar.passed set' = grammar.passed set
  terminalPath : set'.terminalPath = set.terminalPath
  status : set.status.Respaces set'.status
  wordCount : set'.wordCount = set.wordCount
  bindings : List.Forall₂ Binding.Respaces set.bindings set'.bindings

/-- The nodes on the way took the words of a line, each the one of its number, unless it took all
that was left. -/
def TakesInOrder (grammar : Grammar) (line : Text) (set : BindingSet) : Prop :=
  ∀ (index : Nat) (path : Path) (node : Node),
    (grammar.passed set)[index]? = some (path, node) → node.isGreedy = false →
      ∃ word, (Text.words line)[index]? = some word ∧ set.taken? (path, node) = some word ∧
        ∀ binding ∈ set.bindings, binding.place.path = path →
          ∃ value, binding.attempt = .bound word value (.index index)

namespace Grammar

theorem place_node_eq {place : Place} (mem : place ∈ grammar.places)
    (found : grammar.at? place.path = some node) : place.node = node := by
  have here := ((grammar.mem_places_iff place.path place.node).mp ⟨place, mem, rfl, rfl⟩).1
  exact Option.some.inj (here.symm.trans found)

namespace Run

variable {last' : Cursor}

theorem respace (run : grammar.Run line last) (wordwise : grammar.isWordwise)
    (words : Text.words line' = Text.words line) :
    ∃ last', grammar.Run line' last' ∧ last.Respaces line line' last' ∧
      List.Forall₂ Step.Respaces (grammar.walk line).steps (grammar.walk line').steps ∧
      (grammar.walk line).ending.Respaces (grammar.walk line').ending := by
  have root := grammar.wordwise_root wordwise
  have start : Cursor.Respaces line line' ⟨grammar.root, [], line⟩ ⟨grammar.root, [], line'⟩ :=
    ⟨rfl, rfl, words, Text.isBoundary_self line, Text.isBoundary_self line'⟩
  obtain ⟨steps, last', run', same, there⟩ := run.steps.respace root start words
  obtain ⟨ending, halt, ends⟩ := run.halt.respace (run.steps.wordwise root) there words
  have walked : grammar.walk line' = ⟨steps, ending⟩ := run'.walk_eq halt
  rw [walked]
  exact ⟨last', .of_advances run' halt, there, same, ends⟩

theorem attemptAt_eq_of_bounded (run : grammar.Run line last) (run' : grammar.Run line' last')
    (same : List.Forall₂ Step.Respaces (grammar.walk line).steps (grammar.walk line').steps)
    (attempt : ((grammar.walk line).attemptAt path).Respaces ((grammar.walk line').attemptAt path))
    (found : grammar.at? path = some node) (bounded : node.isGreedy = false) :
    (grammar.walk line').attemptAt path = (grammar.walk line).attemptAt path := by
  rcases run.attemptAt_cases path with
    ⟨other, raw, value, position, mem, _⟩ | ⟨_, _, _, _, _, _, holds⟩ | ⟨_, _, holds⟩
  · obtain ⟨index, here⟩ := List.mem_iff_getElem?.mp mem
    obtain ⟨step', here', respaces⟩ := exists_getElem?_of_forall₂ same here
    have mem' := List.mem_of_getElem? here'
    have eq : other = node := Option.some.inj ((run.at?_of_mem mem).symm.trans found)
    cases respaces with
    | same =>
      rw [Trail.attemptAt_argument run.steps.sorted mem,
        Trail.attemptAt_argument run'.steps.sorted mem']
    | greedy greedy =>
      rw [eq, bounded] at greedy
      cases greedy
  · rw [holds] at attempt ⊢
    generalize (grammar.walk line').attemptAt path = attempt' at attempt ⊢
    cases attempt
    rfl
  · rw [holds] at attempt ⊢
    generalize (grammar.walk line').attemptAt path = attempt' at attempt ⊢
    cases attempt
    rfl

theorem takesInOrder (run : grammar.Run line last) (wordwise : grammar.isWordwise) :
    TakesInOrder grammar line (grammar.bind line) := by
  intro index path node passed bounded
  rw [run.passed_eq, List.getElem?_map, Option.map_eq_some_iff] at passed
  obtain ⟨step, found, located⟩ := passed
  have mem := List.mem_of_getElem? found
  have nodes : step.node = node := congrArg Prod.snd located
  have boundary := Text.isBoundary_self line
  obtain ⟨word, position⟩ :=
    run.steps.takes (grammar.wordwise_root wordwise) boundary found (nodes ▸ bounded)
  have start : Text.wordIndex line (Text.trimStart line) = 0 := by
    have := boundary.wordIndex_add
    omega
  refine ⟨step.raw, word, located ▸ run.taken?_eq mem, ?_⟩
  rintro binding mem' rfl
  obtain ⟨place, made⟩ := mem_bindings_iff.mp mem'
  have paths : step.path = binding.place.path := congrArg Prod.fst located
  cases step with
  | literal _ other =>
    -- Only typed nodes have bindings.
    have literal := run.steps.isLiteral_of_mem mem
    have typed := ((grammar.mem_places_iff _ _).mp ⟨_, place, rfl, rfl⟩).2
    have same : binding.place.node = other := place_node_eq place (paths ▸ run.at?_of_mem mem)
    rw [same, literal] at typed
    cases typed
  | argument _ other raw value place' =>
    obtain rfl : _ = binding.place.path := paths
    refine ⟨value, ?_⟩
    rw [made, Trail.attemptAt_argument run.steps.sorted mem, position place' rfl]
    simp [Step.raw, Cursor.front, start]

end Run

/-- Binding depends on the words of a line only, and takes them in their order, if arguments are
words, or all that is left. -/
theorem bind_respace (grammar : Grammar) (line line' : Text) (wordwise : grammar.isWordwise)
    (words : Text.words line' = Text.words line) :
    Respaces grammar (grammar.bind line) (grammar.bind line') ∧
      TakesInOrder grammar line (grammar.bind line) := by
  obtain ⟨last, run⟩ := grammar.run_exists line
  obtain ⟨last', run', there, same, ends⟩ := run.respace wordwise words
  have attempts (path : Path) := Trail.attemptAt_respace same ends path
  refine ⟨?_, run.takesInOrder wordwise⟩
  constructor
  case passed =>
    have located : List.Forall₂ (· = ·) ((grammar.walk line').steps.map Step.located)
        ((grammar.walk line).steps.map Step.located) := by
      rw [List.forall₂_map_left_iff, List.forall₂_map_right_iff]
      exact same.flip.imp fun _ _ h => Step.Respaces.located_eq h
    rw [List.forall₂_eq_eq_eq] at located
    rw [run.passed_eq, run'.passed_eq, located]
  case terminalPath => rw [run.terminalPath_eq, run'.terminalPath_eq, there.path]
  case status =>
    rw [run.status_eq, run'.status_eq, there.node]
    exact ends.status _
  case wordCount => exact congrArg List.length words
  case bindings =>
    rw [bind, bind, List.forall₂_map_left_iff, List.forall₂_map_right_iff, List.forall₂_same]
    intro place mem
    have found := ((grammar.mem_places_iff place.path place.node).mp ⟨place, mem, rfl, rfl⟩).1
    exact ⟨rfl, attempts place.path,
      run.attemptAt_eq_of_bounded run' same (attempts place.path) found⟩

theorem bind_respace_of_number :
    numberThenAll.isWordwise ∧
      Text.words [' ', '1', '\t', 'a', ' ', ' ', 'b', ' '] = Text.words ['1', ' ', 'a', ' ', 'b'] ∧
      Respaces numberThenAll (numberThenAll.bind ['1', ' ', 'a', ' ', 'b'])
        (numberThenAll.bind [' ', '1', '\t', 'a', ' ', ' ', 'b', ' ']) ∧
      TakesInOrder numberThenAll ['1', ' ', 'a', ' ', 'b']
        (numberThenAll.bind ['1', ' ', 'a', ' ', 'b']) := by
  have words : Text.words [' ', '1', '\t', 'a', ' ', ' ', 'b', ' '] =
      Text.words ['1', ' ', 'a', ' ', 'b'] := by decide +kernel
  exact ⟨rfl, words, numberThenAll.bind_respace _ _ rfl words⟩

end Grammar

end Console
