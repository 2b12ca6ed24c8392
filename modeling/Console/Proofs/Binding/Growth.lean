import Console.Proofs.Binding.Arguments
import Console.Proofs.Binding.Attempts

namespace Console

variable {line more text text' token after after' raw : Text} {cursor next last : Cursor} {step : Step}
  {steps : List Step} {grammar : Grammar} {node child : Node} {path : Path} {value : Value}
  {position : Position}

/-- A tree all of whose arguments are words, or all that is left. -/
def Node.Wordwise (node : Node) : Prop :=
  ∀ path child, node.at? path = some child → ∀ type ∈ child.type?, type.isWordwise

theorem Node.Wordwise.of_mem (wordwise : node.Wordwise) (mem : child ∈ node.children) :
    ∀ type ∈ child.type?, type.isWordwise :=
  (Everywhere.of_mem wordwise mem).here

theorem Node.accepts_of_sameWord (wordwise : ∀ type ∈ node.type?, type.isWordwise)
    (word : Text.nextWord? text = some (token, after))
    (word' : Text.nextWord? text' = some (token, after')) :
    node.Accepts text ↔ node.Accepts text' := by
  unfold Accepts
  cases typed : node.type? with
  | none => simp
  | some type =>
    have isWordwise := wordwise type typed
    cases kind : type.isGreedy with
    | true =>
      simp [ArgumentType.parse_greedy isWordwise kind]
    | false =>
      have same := ArgumentType.parse_of_sameWord isWordwise kind word word'
      cases read : type.parse text with
      | ok result =>
        obtain ⟨value, left⟩ := result
        simp [same, read, Except.map]
      | error failure => simp [same, read, Except.map]

def Cursor.extend (more : Text) (cursor : Cursor) : Cursor :=
  { cursor with rest := cursor.rest ++ more }

@[simp] theorem Cursor.extend_mk (rest : Text) :
    Cursor.extend more ⟨node, path, rest⟩ = ⟨node, path, rest ++ more⟩ := rfl

@[simp] theorem Cursor.path_extend : (cursor.extend more).path = cursor.path := rfl

theorem Cursor.front_extend (h : cursor.front ≠ []) (more : Text) :
    (cursor.extend more).front = cursor.front ++ more :=
  Text.trimStart_append h more

theorem Cursor.first_extend {index : Nat} (wordwise : cursor.node.Wordwise)
    (word : Text.nextWord? cursor.rest = some (token, after)) (starts : Text.startsBlank more)
    (first : First (Node.Accepts cursor.front) cursor.node.children index child) :
    First (Node.Accepts (cursor.extend more).front) cursor.node.children index child := by
  rw [Cursor.front_extend (Cursor.front_ne_nil word)]
  have here := cursor.nextWord?_front.trans word
  exact first.congr fun other mem => Node.accepts_of_sameWord (wordwise.of_mem mem) here
    (Text.nextWord?_append here starts)

theorem Advance.extend (one : Advance line cursor step next) (wordwise : cursor.node.Wordwise)
    (bounded : step.node.isGreedy = false) (starts : Text.startsBlank more) :
    Advance (line ++ more) (cursor.extend more) step (next.extend more) := by
  cases one with
  | literal word first => exact .literal (Text.nextWord?_append word starts) first
  | @argument child index token after left type value word unspelled first typed read =>
    have kind : type.isGreedy = false := (Node.isGreedy_eq typed).symm.trans bounded
    have front := Cursor.front_extend (Cursor.front_ne_nil word) more
    have isWordwise := wordwise.of_mem first.mem type typed
    have read : type.parse (cursor.extend more).front = .ok (value, left ++ more) := by
      rw [front, ArgumentType.parse_append isWordwise kind
        (cursor.nextWord?_front.trans word) starts, read]
      rfl
    have one : Advance (line ++ more) (cursor.extend more) _ _ :=
      .argument (Text.nextWord?_append word starts) unspelled
        (Cursor.first_extend wordwise word starts first) typed read
    simpa [ArgumentType.leaves, Cursor.position, kind, front, Text.before_append_append,
      Text.wordIndex_append] using one

theorem Advance.extend_greedy {raw : Text} {value : Value} {position : Position}
    (one : Advance line cursor (.argument path node raw value position) next)
    (wordwise : cursor.node.Wordwise) (greedy : node.isGreedy) (starts : Text.startsBlank more) :
    ∃ raw' value' first last last', raw <+: raw' ∧ position = .range first last ∧
      Advance (line ++ more) (cursor.extend more)
        (.argument path node raw' value' (.range first last')) next := by
  cases one with
  | @argument _ index token after left type _ word unspelled first typed read =>
    have kind : type.isGreedy := (Node.isGreedy_eq typed).symm.trans greedy
    have front := Cursor.front_extend (Cursor.front_ne_nil word) more
    have isWordwise := wordwise.of_mem first.mem type typed
    have one : Advance (line ++ more) (cursor.extend more) _ _ :=
      .argument (Text.nextWord?_append word starts) unspelled
        (Cursor.first_extend wordwise word starts first) typed
        (ArgumentType.parse_greedy isWordwise kind _)
    simp only [ArgumentType.leaves, Cursor.position, kind, if_true, front, Text.before_nil,
      Text.wordIndex_append, Cursor.path_extend] at one ⊢
    exact ⟨_, _, _, _, _, Text.trimEnd_prefix_append _ more, rfl, one⟩

inductive Ending.Extends : Ending → Ending → Prop
  | rejected {path : Path} {node : Node} {raw : Text} {position : Position}
      {failure : ParseFailure} :
      Extends (.rejected path node raw position failure) (.rejected path node raw position failure)
  | tooMany {remaining remaining' : Text} (h : remaining <+: remaining') :
      Extends (.tooMany remaining) (.tooMany remaining')
  | unmatched {remaining remaining' : Text} (h : remaining <+: remaining') :
      Extends (.unmatched remaining) (.unmatched remaining')

theorem Halt.extend {ending : Ending} (halt : Halt line cursor ending)
    (wordwise : cursor.node.Wordwise) (inside : ¬ Text.isBlankText cursor.rest)
    (starts : Text.startsBlank more) :
    ∃ ending', Halt (line ++ more) (cursor.extend more) ending' ∧ ending.Extends ending' := by
  have ne : cursor.front ≠ [] := mt Text.trimStart_eq_nil_iff.mp inside
  have front := Cursor.front_extend ne more
  have ne' : (cursor.extend more).front ≠ [] := by simp [front, ne]
  have longer : Text.trimEnd cursor.front <+: Text.trimEnd (cursor.extend more).front := by
    rw [front]
    exact Text.trimEnd_prefix_append ..
  cases halt with
  | exhausted blank => exact absurd blank inside
  | tooMany _ leaf => exact ⟨_, .tooMany ne' leaf, .tooMany longer⟩
  | unmatched word inner unspelled untyped =>
    exact ⟨_, .unmatched (Text.nextWord?_append word starts) inner unspelled untyped,
      .unmatched longer⟩
  | @rejected child index token after type failure word unspelled refused first typed read =>
    have here := cursor.nextWord?_front.trans word
    have isWordwise := wordwise.of_mem first.mem type typed
    have bounded := ArgumentType.isGreedy_eq_false_of_parse_error isWordwise read
    have here' := Text.nextWord?_append here starts
    have refused : ∀ child ∈ cursor.node.children, ¬ child.Accepts (cursor.extend more).front := by
      rw [front]
      exact fun child mem =>
        mt (Node.accepts_of_sameWord (wordwise.of_mem mem) here here').mpr (refused child mem)
    have read : type.parse (cursor.extend more).front = .error failure := by
      rw [front, ArgumentType.parse_append isWordwise bounded here starts, read]
      rfl
    -- The first typed child is the same one, and refuses the same word.
    have halt : Halt (line ++ more) (cursor.extend more) _ :=
      .rejected (Text.nextWord?_append word starts) unspelled refused first typed read
    rw [front, Text.wordIndex_append] at halt
    exact ⟨_, halt, .rejected⟩

theorem Advance.wordwise (one : Advance line cursor step next) (wordwise : cursor.node.Wordwise) :
    next.node.Wordwise :=
  one.everywhere wordwise

theorem Advances.wordwise (run : Advances line cursor steps last)
    (wordwise : cursor.node.Wordwise) : last.node.Wordwise :=
  run.everywhere wordwise

theorem Advances.extend (run : Advances line cursor steps last) (wordwise : cursor.node.Wordwise)
    (bounded : ∀ step ∈ steps, step.node.isGreedy = false) (starts : Text.startsBlank more) :
    Advances (line ++ more) (cursor.extend more) steps (last.extend more) := by
  induction run with
  | done => exact .done _
  | step one _ ih =>
    have first := one.extend wordwise (bounded _ List.mem_cons_self) starts
    exact .step first (ih (one.wordwise wordwise) fun step mem => bounded step (.tail _ mem))

theorem Advances.append {steps' : List Step} (run : Advances line cursor steps next)
    (run' : Advances line next steps' last) : Advances line cursor (steps ++ steps') last := by
  induction run with
  | done => exact run'
  | step one _ ih => exact .step one (ih run')

theorem Advances.exists_split {steps' : List Step}
    (run : Advances line cursor (steps ++ steps') last) :
    ∃ middle, Advances line cursor steps middle ∧ Advances line middle steps' last := by
  induction steps generalizing cursor with
  | nil => exact ⟨cursor, .done cursor, run⟩
  | cons first steps ih =>
    cases run with
    | step one more =>
      obtain ⟨middle, front, back⟩ := ih more
      exact ⟨middle, .step one front, back⟩

theorem Advances.exists_split_of_mem (run : Advances line cursor steps last)
    (mem : step ∈ steps) :
    ∃ front back middle next, steps = front ++ step :: back ∧ Advances line cursor front middle ∧
      Advance line middle step next ∧ Advances line next back last := by
  obtain ⟨front, back, rfl⟩ := List.append_of_mem mem
  obtain ⟨middle, before, after⟩ := run.exists_split
  cases after with
  | step one more => exact ⟨front, back, middle, _, rfl, before, one, more⟩

theorem Advances.exists_last (run : Advances line cursor (steps ++ [step]) last) :
    ∃ middle, Advances line cursor steps middle ∧ Advance line middle step last := by
  obtain ⟨middle, front, back⟩ := run.exists_split
  cases back with
  | step one more =>
    cases more
    exact ⟨middle, front, one⟩

theorem Advances.bounded_front (run : Advances line cursor (steps ++ [step]) last) :
    ∀ other ∈ steps, other.node.isGreedy = false := by
  intro other mem
  by_contra greedy
  obtain ⟨ends, _⟩ := run.greedy_last (List.mem_append_left _ mem) (by simpa using greedy)
  have lt := (List.pairwise_append.mp run.sorted).2.2 other mem step List.mem_cons_self
  rw [List.getLast?_concat] at ends
  rw [Option.some.inj ends] at lt
  exact lt_irrefl _ lt

def Grammar.isWordwise (grammar : Grammar) : Bool :=
  grammar.places.all fun place => place.node.type?.all (·.isWordwise)

theorem Grammar.wordwise_root (wordwise : grammar.isWordwise) : grammar.root.Wordwise :=
  everywhere_root wordwise

namespace Trail

theorem attemptAt_extends {ending ending' : Ending} (h : ending.Extends ending') :
    (⟨steps, ending'⟩ : Trail).attemptAt path = (⟨steps, ending⟩ : Trail).attemptAt path := by
  unfold attemptAt
  generalize steps.find? (·.path == path) = found
  cases h with
  | rejected => rfl
  | tooMany => rcases found with _ | _ | _ <;> rfl
  | unmatched => rcases found with _ | _ | _ <;> rfl

theorem attemptAt_concat {step' : Step} {ending : Ending} (ne : step.path ≠ path)
    (same : step'.path = step.path) :
    (⟨steps ++ [step], ending⟩ : Trail).attemptAt path =
      (⟨steps ++ [step'], ending⟩ : Trail).attemptAt path := by
  have skip : (step.path == path) = false := by simpa using ne
  simp [attemptAt, List.find?_append, same, skip]

end Trail

namespace Grammar.Run

theorem bounded_of_inside (run : grammar.Run line last) (inside : ¬ Text.isBlankText last.rest) :
    ∀ step ∈ (grammar.walk line).steps, step.node.isGreedy = false := by
  intro step mem
  by_contra greedy
  obtain ⟨_, empty⟩ := run.steps.greedy_last mem (by simpa using greedy)
  rw [empty] at inside
  exact inside rfl

theorem walk_stopped (run : grammar.Run line last) (wordwise : grammar.isWordwise)
    (inside : ¬ Text.isBlankText last.rest) (starts : Text.startsBlank more) :
    ∃ ending, grammar.walk (line ++ more) = ⟨(grammar.walk line).steps, ending⟩ ∧
      (grammar.walk line).ending.Extends ending := by
  have root := grammar.wordwise_root wordwise
  have steps := run.steps.extend root (run.bounded_of_inside inside) starts
  obtain ⟨ending, halt, longer⟩ := run.halt.extend (run.steps.wordwise root) inside starts
  exact ⟨ending, steps.walk_eq halt, longer⟩

theorem walk_continued (run : grammar.Run line last) (wordwise : grammar.isWordwise)
    (bounded : ∀ step ∈ (grammar.walk line).steps, step.node.isGreedy = false)
    (starts : Text.startsBlank more) :
    ∃ steps, (grammar.walk (line ++ more)).steps = (grammar.walk line).steps ++ steps := by
  have front := run.steps.extend (grammar.wordwise_root wordwise) bounded starts
  obtain ⟨last', back, halt⟩ :=
    Node.exists_run (line ++ more) last.node last.path (last.rest ++ more)
  have eq : grammar.walk (line ++ more) = _ := (front.append back).walk_eq halt
  exact ⟨_, by rw [eq]⟩

theorem walk_greedy (run : grammar.Run line last) (wordwise : grammar.isWordwise)
    (split : (grammar.walk line).steps = steps ++ [.argument path node raw value position])
    (greedy : node.isGreedy) (starts : Text.startsBlank more) :
    ∃ raw' value' first last last', raw <+: raw' ∧ position = .range first last ∧
      grammar.walk (line ++ more) =
        ⟨steps ++ [.argument path node raw' value' (.range first last')], .exhausted⟩ := by
  have root := grammar.wordwise_root wordwise
  have walked := run.steps
  rw [split] at walked
  obtain ⟨middle, front, one⟩ := walked.exists_last
  have front' := front.extend root walked.bounded_front starts
  obtain ⟨raw', value', start, stop, stop', longer, range, one'⟩ :=
    one.extend_greedy (front.wordwise root) greedy starts
  have mem : Step.argument path node raw value position ∈
      steps ++ [.argument path node raw value position] := by simp
  have empty : last.rest = [] := (walked.greedy_last mem greedy).2
  have halt : Halt (line ++ more) last .exhausted := .exhausted (by rw [empty]; rfl)
  have steps' := front'.append (.step one' (.done last))
  exact ⟨raw', value', start, stop, stop', longer, range, steps'.walk_eq halt⟩

theorem ending_eq (run : grammar.Run line last) (blank : Text.isBlankText last.rest) :
    (grammar.walk line).ending = .exhausted :=
  run.halt.deterministic (.exhausted blank)

end Grammar.Run

inductive Status.Extends : Status → Status → Prop
  | invalidArgument (name : Text) : Extends (.invalidArgument name) (.invalidArgument name)
  | tooManyArguments {remaining remaining' : Text} (h : remaining <+: remaining') :
      Extends (.tooManyArguments remaining) (.tooManyArguments remaining')
  | unmatched {remaining remaining' : Text} (h : remaining <+: remaining') :
      Extends (.unmatched remaining) (.unmatched remaining')

theorem Ending.Extends.status {ending ending' : Ending} (h : ending.Extends ending')
    (executes executes' : Bool) : (ending.status executes).Extends (ending'.status executes') := by
  cases h with
  | rejected => exact .invalidArgument _
  | tooMany longer => exact .tooManyArguments longer
  | unmatched longer => exact .unmatched longer

/-- How a set grows if all of its line was taken by an argument, which takes the rest, too. -/
structure TakesMore (set after : BindingSet) (step : Step) : Prop where
  status : after.status = set.status
  terminal : after.terminal?.map Step.located = some step.located
  kept : ∀ binding ∈ set.bindings, binding.place.node.isGreedy = false → binding ∈ after.bindings
  longer : ∃ place raw raw' value value' first last last',
    (place.path, place.node) = step.located ∧
      ⟨place, .bound raw value (.range first last)⟩ ∈ set.bindings ∧
      ⟨place, .bound raw' value' (.range first last')⟩ ∈ after.bindings ∧ raw <+: raw'

/-- How a set grows with its line: a mistake stays, and what was bound is kept. -/
structure Grows (grammar : Grammar) (set after : BindingSet) : Prop where
  stopped : ¬ set.IsConsumed →
    set.status.Extends after.status ∧ after.terminal? = set.terminal? ∧
      after.bindings = set.bindings
  continued : set.IsConsumed → (∀ step ∈ set.terminal?, step.node.isGreedy = false) →
    grammar.passed set <+: grammar.passed after ∧
      ∀ binding ∈ set.bindings, binding.isAttempted → binding ∈ after.bindings
  greedy : ∀ step ∈ set.terminal?, step.node.isGreedy → TakesMore set after step

namespace Grammar

namespace Run

theorem bind_stopped (run : grammar.Run line last) (wordwise : grammar.isWordwise)
    (inside : ¬ Text.isBlankText last.rest) (starts : Text.startsBlank more) :
    (grammar.bind line).status.Extends (grammar.bind (line ++ more)).status ∧
      (grammar.bind (line ++ more)).terminal? = (grammar.bind line).terminal? ∧
      (grammar.bind (line ++ more)).bindings = (grammar.bind line).bindings := by
  obtain ⟨ending, eq, longer⟩ := run.walk_stopped wordwise inside starts
  simp only [Grammar.bind, eq]
  refine ⟨longer.status _ _, trivial, ?_⟩
  apply List.map_congr_left
  intro place _
  exact congrArg (Binding.mk place) (Trail.attemptAt_extends longer)

theorem bind_continued (run : grammar.Run line last) (wordwise : grammar.isWordwise)
    (blank : Text.isBlankText last.rest)
    (bounded : ∀ step ∈ (grammar.walk line).steps, step.node.isGreedy = false)
    (starts : Text.startsBlank more) :
    grammar.passed (grammar.bind line) <+: grammar.passed (grammar.bind (line ++ more)) ∧
      ∀ binding ∈ (grammar.bind line).bindings, binding.isAttempted →
        binding ∈ (grammar.bind (line ++ more)).bindings := by
  obtain ⟨steps, eq⟩ := run.walk_continued wordwise bounded starts
  obtain ⟨last', run'⟩ := grammar.run_exists (line ++ more)
  constructor
  · rw [run.passed_eq, run'.passed_eq, eq, List.map_append]
    exact List.prefix_append ..
  · intro binding mem attempted
    obtain ⟨hp, made⟩ := mem_bindings_iff.mp mem
    refine mem_bindings_iff.mpr ⟨hp, ?_⟩
    rcases run.attemptAt_cases binding.place.path with
      ⟨node, raw, value, position, step, holds⟩ |
        ⟨node, raw, position, failure, _, ends, _⟩ | ⟨_, _, holds⟩
    · have step' : .argument binding.place.path node raw value position ∈
          (grammar.walk (line ++ more)).steps := by
        rw [eq]
        exact List.mem_append_left _ step
      rw [Trail.attemptAt_argument run'.steps.sorted step', made, holds]
    · rw [run.ending_eq blank] at ends
      cases ends
    · rw [Binding.isAttempted, made, holds] at attempted
      cases attempted

theorem exists_place_of_mem (run : grammar.Run line last)
    (mem : Step.argument path node raw value position ∈ (grammar.walk line).steps) :
    ∃ place ∈ grammar.places, place.path = path ∧ place.node = node :=
  (grammar.mem_places_iff path node).mpr
    ⟨run.at?_of_mem mem, run.steps.isLiteral_eq_false_of_mem mem⟩

theorem mem_bindings_of_mem (run : grammar.Run line last) {place : Place}
    (hp : place ∈ grammar.places)
    (mem : .argument place.path node raw value position ∈ (grammar.walk line).steps) :
    ⟨place, .bound raw value position⟩ ∈ (grammar.bind line).bindings :=
  mem_bindings_iff.mpr ⟨hp, (Trail.attemptAt_argument run.steps.sorted mem).symm⟩

theorem bind_greedy (run : grammar.Run line last) (wordwise : grammar.isWordwise)
    (terminal : (grammar.bind line).terminal? = some step) (greedy : step.node.isGreedy)
    (starts : Text.startsBlank more) :
    TakesMore (grammar.bind line) (grammar.bind (line ++ more)) step := by
  obtain ⟨steps, split⟩ := List.getLast?_eq_some_iff.mp terminal
  have mem : step ∈ (grammar.walk line).steps := by simp [split]
  have empty := (run.steps.greedy_last mem greedy).2
  have here : grammar.walk line = ⟨steps ++ [step], .exhausted⟩ :=
    congrArg₂ Trail.mk split (run.ending_eq (by rw [empty]; rfl))
  cases step with
  | literal path node =>
    have bounded := Node.isGreedy_eq_false (run.steps.isLiteral_of_mem mem)
    exact absurd (bounded.symm.trans greedy) Bool.false_ne_true
  | argument path node raw value position =>
    obtain ⟨raw', value', start, stop, stop', longer, rfl, eq⟩ :=
      run.walk_greedy wordwise split greedy starts
    obtain ⟨last', run'⟩ := grammar.run_exists (line ++ more)
    obtain ⟨place, hp, rfl, rfl⟩ := run.exists_place_of_mem mem
    constructor
    case status => simp [Grammar.bind, eq, here, Step.node]
    case terminal => simp [Grammar.bind, eq, Step.located, Step.path, Step.node]
    case kept =>
      intro binding hb bounded
      obtain ⟨hp', made⟩ := mem_bindings_iff.mp hb
      refine mem_bindings_iff.mpr ⟨hp', ?_⟩
      -- A place is known by its path, so that only the greedy node stands at its own.
      have ne : place.path ≠ binding.place.path := by
        intro same
        have same := grammar.place_unique hp hp' same
        rw [← same] at bounded
        exact absurd (bounded.symm.trans greedy) Bool.false_ne_true
      rw [made, eq, here]
      exact Trail.attemptAt_concat ne rfl
    case longer =>
      have mem' : .argument place.path place.node raw' value' (.range start stop') ∈
          (grammar.walk (line ++ more)).steps := by simp [eq]
      exact ⟨place, raw, raw', value, value', start, stop, stop', rfl,
        run.mem_bindings_of_mem hp mem, run'.mem_bindings_of_mem hp mem', longer⟩

end Run

/-- Typing on keeps what was bound, if arguments are words, or all that is left. -/
theorem bind_append (grammar : Grammar) (line more : Text) (wordwise : grammar.isWordwise)
    (starts : Text.startsBlank more) :
    Grows grammar (grammar.bind line) (grammar.bind (line ++ more)) := by
  obtain ⟨last, run⟩ := grammar.run_exists line
  constructor
  case stopped =>
    intro stopped
    exact run.bind_stopped wordwise (mt run.isConsumed_iff.mpr stopped) starts
  case continued =>
    intro consumed bounded
    exact run.bind_continued wordwise (run.isConsumed_iff.mp consumed) (run.bounded bounded) starts
  case greedy =>
    intro step terminal greedy
    exact run.bind_greedy wordwise terminal greedy starts

def numberThenAll : Grammar :=
  ⟨[⟨['n'], .typed .anyInteger none, true, [⟨['t'], .typed .greedyString none, true, []⟩]⟩], false,
    rfl⟩

theorem bind_append_of_number :
    numberThenAll.isWordwise ∧ Text.startsBlank [' ', 'b'] ∧
      Grows numberThenAll (numberThenAll.bind ['1', ' ', 'a'])
        (numberThenAll.bind ['1', ' ', 'a', ' ', 'b']) :=
  ⟨rfl, rfl, numberThenAll.bind_append ['1', ' ', 'a'] [' ', 'b'] rfl rfl⟩

end Grammar

end Console
