import Console.Proofs.Binding.Positions
import Console.Proofs.Binding.Quoting
import Console.Proofs.Text.Faults

namespace Console

variable {line text left token after : Text} {cursor next last : Cursor} {step : Step}
  {steps : List Step} {grammar : Grammar} {type : ArgumentType} {value : Value} {binding : Binding}

theorem find?_eq_some_of_unique {α : Type} {p : α → Bool} {items : List α} {item : α}
    (mem : item ∈ items) (holds : p item) (unique : ∀ other ∈ items, p other → other = item) :
    items.find? p = some item := by
  cases found : items.find? p with
  | none => exact absurd holds (List.find?_eq_none.mp found item mem)
  | some other => rw [unique other (List.mem_of_find?_eq_some found) (List.find?_some found)]

namespace Text.Quoted

theorem escape_append (s t : Text) : escape (s ++ t) = escape s ++ escape t := by
  induction s with
  | nil => rfl
  | cons c s ih =>
    rw [List.cons_append, escape, escape, ih]
    split <;> rfl

theorem any_isBlank_escape (s : Text) : (escape s).any isBlank = s.any isBlank := by
  induction s with
  | nil => rfl
  | cons c s ih =>
    rw [escape]
    split
    case isTrue =>
      rw [List.any_cons, List.any_cons, List.any_cons, ih]
      rfl
    case isFalse => rw [List.any_cons, List.any_cons, ih]

theorem escape_cons_of_isBlank {c : Char} (blank : isBlank c) (s : Text) :
    escape (c :: s) = c :: escape s := by
  have plain : ¬ (c = '"' ∨ c = '\\') := by
    rintro (rfl | rfl) <;> exact absurd blank (by decide)
  rw [escape, if_neg plain]

theorem wordCount_encode_eq_one_iff (text : Text) :
    wordCount (encode text) = 1 ↔ text.any isBlank = false := by
  constructor
  · intro one
    apply Bool.of_not_eq_true
    intro some
    obtain ⟨c, mem, blank⟩ := List.any_eq_true.mp some
    obtain ⟨front, back, rfl⟩ := List.append_of_mem mem
    -- The blank leaves a word on each side, one with each of the two quotes.
    have split : encode (front ++ c :: back) =
        ('"' :: escape front) ++ c :: (escape back ++ ['"']) := by
      rw [encode, escape_append, escape_cons_of_isBlank blank]
      simp
    have opens : words ('"' :: escape front) ≠ [] := by
      rw [ne_eq, words_eq_nil_iff]
      exact Bool.false_ne_true
    have closes : words (escape back ++ ['"']) ≠ [] := by
      rw [ne_eq, words_eq_nil_iff, isBlankText_append]
      exact fun blanks => Bool.false_ne_true blanks.2
    have := List.length_pos_iff.mpr opens
    have := List.length_pos_iff.mpr closes
    rw [split, wordCount, words_append_blank blank, List.length_append] at one
    omega
  · intro unblank
    have whole : IsWord (encode text) := by
      refine ⟨List.cons_ne_nil _ _, ?_⟩
      rw [← List.not_any_eq_all_not, encode, List.any_cons, List.any_append, any_isBlank_escape,
        unblank]
      rfl
    rw [wordCount, whole.words_eq]
    rfl

end Text.Quoted

/-- A text of several words, which only quotes can make one argument. -/
def ArgumentType.isPhrase : ArgumentType → Value → Bool
  | string, .string text => text.any Text.isBlank
  | _, _ => false

def Binding.isPhrase (binding : Binding) : Bool :=
  binding.place.node.type?.any fun type => binding.attempt.value?.any type.isPhrase

namespace ArgumentType

theorem isPhrase_of_ne (other : type ≠ .string) (value : Value) : type.isPhrase value = false := by
  unfold isPhrase
  split
  case h_1 => exact absurd rfl other
  case h_2 => rfl

theorem isPhrase_eq_false_iff (builtIn : type.isBuiltIn)
    (word : Text.nextWord? cursor.rest = some (token, after))
    (read : type.parse cursor.front = .ok (value, left)) :
    type.isPhrase value = false ↔ type.isGreedy ∨
      Text.wordCount (Text.trimEnd (Text.before cursor.front (type.leaves left))) = 1 := by
  have isWord := Text.nextWord?_isWord word
  have oneWord : Text.wordCount token = 1 := by rw [Text.wordCount, isWord.words_eq]; rfl
  cases kind : type.isGreedy with
  | true =>
    have other : type ≠ .string := by
      rintro rfl
      cases kind
    simp [isPhrase_of_ne other]
  | false =>
    by_cases quoted : type = .string ∧ cursor.front.head? = some '"'
    · obtain ⟨rfl, quote⟩ := quoted
      obtain ⟨text, rfl, taken⟩ := raw_of_quoted quote read
      rw [show string.leaves left = left from rfl, taken, Text.Quoted.wordCount_encode_eq_one_iff]
      simp [isPhrase]
    · obtain ⟨rfl, raw⟩ :=
        raw_of_unquoted builtIn kind (fun string quote => quoted ⟨string, quote⟩) word read
      have unphrased : type.isPhrase value = false := by
        by_cases string : type = .string
        · subst string
          have unquoted := fun quote => quoted ⟨rfl, quote⟩
          rw [parse, cursor.trimStart_front, if_neg unquoted, readWord, cursor.nextWord?_front, word] at read
          cases read
          have unblank := isWord.2
          rwa [← List.not_any_eq_all_not, Bool.not_eq_true'] at unblank
        · exact isPhrase_of_ne string value
      simp [unphrased, raw, oneWord]

end ArgumentType

theorem Advance.stop_of_greedy (one : Advance line cursor step next)
    (greedy : step.node.isGreedy) :
    ∀ position ∈ step.position?, position.stop = Text.wordCount line - 1 := by
  cases one with
  | literal => rintro _ ⟨⟩
  | argument _ _ _ typed =>
    rintro _ ⟨⟩
    rw [Cursor.position, if_pos ((Node.isGreedy_eq typed).symm.trans greedy)]
    rfl

theorem Advance.isPhrase_iff {path : Path} {node : Node} {raw : Text} {position : Position}
    (one : Advance line cursor (.argument path node raw value position) next)
    (builtIn : ∀ type ∈ node.type?, type.isBuiltIn) :
    (node.type?.any fun type => type.isPhrase value) = false ↔
      node.isGreedy ∨ Text.wordCount raw = 1 := by
  cases one with
  | argument word _ _ typed read =>
    rw [typed, Node.isGreedy_eq typed]
    exact ArgumentType.isPhrase_eq_false_iff (builtIn _ typed) word read

theorem Advance.stop_eq_iff (one : Advance line cursor step next)
    (builtIn : ∀ type ∈ step.node.type?, type.isBuiltIn)
    (boundary : Text.IsBoundary line cursor.rest) :
    ∀ position ∈ step.position?, position.stop + 1 = Text.wordCount line ↔
      Text.isBlankText next.rest ∧ (step.node.isGreedy ∨ Text.wordCount step.raw = 1) := by
  have count := one.wordCount_eq builtIn
  have some := one.wordCount_raw_pos builtIn
  have whole : Text.wordIndex line cursor.front + Text.wordCount cursor.rest =
      Text.wordCount line := boundary.wordIndex_add
  intro position here
  rw [← Text.wordCount_eq_zero_iff]
  cases greedy : step.node.isGreedy with
  | false =>
    obtain rfl := one.position?_eq greedy position here
    simp only [Position.stop, Bool.false_eq_true, false_or]
    omega
  | true =>
    have none : Text.wordCount [] = 0 := rfl
    rw [one.stop_of_greedy greedy position here, one.rest_of_greedy greedy]
    simp only [none, true_or, and_self, iff_true]
    omega

namespace Grammar

namespace Run

theorem exists_terminal_iff (run : grammar.Run line last) (mem : step ∈ (grammar.walk line).steps) :
    (∃ final ∈ (grammar.bind line).terminal?, final.located = step.located) ↔
      (grammar.walk line).steps.getLast? = some step := by
  constructor
  · rintro ⟨final, ends, same⟩
    have found := Trail.find?_path run.steps.sorted mem
    have found' := Trail.find?_path run.steps.sorted (List.mem_of_getLast? ends)
    rw [show final.path = step.path from congrArg Prod.fst same, found] at found'
    rw [Option.some.inj found']
    exact ends
  · exact fun ends => ⟨step, ends, rfl⟩

theorem isBlankText_iff (run : grammar.Run line last) {front back : List Step}
    (split : (grammar.walk line).steps = front ++ step :: back)
    (more : Advances line next back last) :
    Text.isBlankText next.rest ↔ (grammar.bind line).IsConsumed ∧
      ∃ final ∈ (grammar.bind line).terminal?, final.located = step.located := by
  have mem : step ∈ (grammar.walk line).steps := by
    rw [split]
    exact List.mem_append_right _ (.head _)
  rw [run.exists_terminal_iff mem, run.isConsumed_iff]
  cases more with
  | done =>
    rw [split, List.getLast?_append_cons]
    simp
  | @step _ _ _ two steps one more =>
    have sorted := run.steps.sorted
    constructor
    · intro blank
      obtain ⟨token, after, word⟩ := one.exists_word
      rw [Text.nextWord?_eq_none_iff.mpr blank] at word
      cases word
    · rintro ⟨_, ends⟩
      -- What is last does not come before another.
      have final : (two :: steps).getLast? = some step := by
        rwa [split, List.append_cons, List.getLast?_append_of_ne_nil _ (List.cons_ne_nil _ _)]
          at ends
      rw [split] at sorted
      have below := (List.pairwise_cons.mp (List.pairwise_append.mp sorted).2.1).1
      exact absurd (below step (List.mem_of_getLast? final)) (lt_irrefl _)

theorem located_mem_typedPassed (run : grammar.Run line last)
    (mem : step ∈ (grammar.walk line).steps) (typed : step.node.isLiteral = false) :
    step.located ∈ grammar.typedPassed (grammar.bind line) := by
  rw [typedPassed, run.passed_eq]
  refine List.mem_filter.mpr ⟨List.mem_map_of_mem mem, ?_⟩
  simp [Step.located, typed]

theorem blamed?_of_failed (run : grammar.Run line last)
    (mem : binding ∈ (grammar.bind line).bindings) (failed : binding.attempt.failure?.isSome) :
    grammar.blamed? (grammar.bind line) = some binding.located := by
  cases run.outcome mem with
  | bound _ _ holds => simp [holds] at failed
  | rejected _ blamed => exact blamed
  | unreached _ _ holds => simp [holds] at failed

theorem endsLine_iff (run : grammar.Run line last) (builtIn : grammar.isBuiltIn)
    (mem : binding ∈ (grammar.bind line).bindings) (unfailed : binding.attempt.failure? = none) :
    (binding.attempt.position?.any fun position =>
        position.stop + 1 == (grammar.bind line).wordCount) ↔
      (grammar.bind line).IsConsumed ∧
        (∃ final ∈ (grammar.bind line).terminal?, final.located = binding.located) ∧
          binding.isPhrase = false := by
  obtain ⟨place, made⟩ := mem_bindings_iff.mp mem
  rcases run.attemptAt_cases binding.place.path with
    ⟨node, raw, value, position, taken, holds⟩ | ⟨_, _, _, _, _, _, holds⟩ | ⟨beside, _, holds⟩
  · have here : binding.place.node = node := place_node_eq place (run.at?_of_mem taken)
    have bound := made.trans holds
    have located : binding.located =
        Step.located (.argument binding.place.path node raw value position) := Prod.ext rfl here
    obtain ⟨front, back, cursor, next, split, before, one, more⟩ :=
      run.steps.exists_split_of_mem taken
    have builtIns := run.builtIn_of_mem builtIn
    have boundary := before.isBoundary
      (fun step mem => builtIns step (split ▸ List.mem_append_left _ mem))
      (Text.isBoundary_self line)
    have ends := one.stop_eq_iff (builtIns _ taken) boundary position rfl
    have blank := run.isBlankText_iff split more
    rw [bound, located, ← and_assoc, ← blank]
    refine (beq_iff_eq.trans ends).trans (and_congr_right fun _ => ?_)
    rw [Binding.isPhrase, bound, here]
    exact (one.isPhrase_iff (builtIns _ taken)).symm
  · rw [made, holds] at unfailed
    cases unfailed
  · rw [made, holds]
    refine iff_of_false Bool.false_ne_true ?_
    rintro ⟨_, ⟨final, ends, same⟩, _⟩
    have typed := ((grammar.mem_places_iff _ _).mp ⟨_, place, rfl, rfl⟩).2
    have nodes : final.node = binding.place.node := congrArg Prod.snd same
    have passed := run.located_mem_typedPassed (List.mem_of_getLast? ends) (nodes ▸ typed)
    exact beside _ (same ▸ passed)

end Run

/-- Which argument is the last one of a line: the one that fails; or else the one at the terminal
node, if the line ends there, and does not end with a phrase. -/
structure FindsLast (set : BindingSet) : Prop where
  failed : ∀ binding ∈ set.bindings, binding.attempt.failure?.isSome →
    set.lastBound? = some binding
  bound : (∀ binding ∈ set.bindings, binding.attempt.failure? = none) → set.IsConsumed →
    ∀ final ∈ set.terminal?, final.node.isLiteral = false →
      ∃ binding ∈ set.bindings, binding.located = final.located ∧
        set.lastBound? = if binding.isPhrase then none else some binding
  absent : (∀ binding ∈ set.bindings, binding.attempt.failure? = none) →
    (set.IsConsumed → ∀ final ∈ set.terminal?, final.node.isLiteral) → set.lastBound? = none

theorem lastBound?_of_unfailed {set : BindingSet}
    (unfailed : ∀ binding ∈ set.bindings, binding.attempt.failure? = none) :
    set.lastBound? = set.bindings.find? fun binding =>
      binding.attempt.position?.any (·.stop + 1 == set.wordCount) := by
  have none : (set.bindings.find? fun binding => binding.attempt.failure?.isSome) = none := by
    rw [List.find?_eq_none]
    intro binding mem
    rw [unfailed binding mem]
    exact Bool.false_ne_true
  rw [BindingSet.lastBound?, none, Option.none_or]

/-- In a grammar of built-in types, the last argument of a line is the one at its end, if that is no
phrase. -/
theorem bind_lastBound (grammar : Grammar) (line : Text) (builtIn : grammar.isBuiltIn) :
    FindsLast (grammar.bind line) := by
  obtain ⟨last, run⟩ := grammar.run_exists line
  constructor
  case failed =>
    intro binding mem failed
    have first := find?_eq_some_of_unique mem failed fun other mem' failed' => by
      have same := (run.blamed?_of_failed mem' failed').symm.trans (run.blamed?_of_failed mem failed)
      exact binding_unique mem' mem (congrArg Prod.fst (Option.some.inj same))
    rw [BindingSet.lastBound?, first, Option.some_or]
  case bound =>
    intro unfailed consumed final ends typed
    have passed := run.located_mem_typedPassed (List.mem_of_getLast? ends) typed
    obtain ⟨place, mem, here⟩ := run.exists_place (List.mem_append_left _ passed)
    let binding : Binding := ⟨place, (grammar.walk line).attemptAt place.path⟩
    have listed : binding ∈ (grammar.bind line).bindings := mem_bindings_iff.mpr ⟨mem, rfl⟩
    -- Of all arguments only that one can lie at the end of the line.
    have only : ∀ other ∈ (grammar.bind line).bindings,
        (other.attempt.position?.any (·.stop + 1 == (grammar.bind line).wordCount)) →
          other = binding ∧ other.isPhrase = false := by
      intro other mem' found
      obtain ⟨_, ⟨final', ends', same⟩, unphrased⟩ :=
        (run.endsLine_iff builtIn mem' (unfailed other mem')).mp found
      obtain rfl := Option.some.inj (ends.symm.trans ends')
      have located := same.symm.trans here.symm
      exact ⟨binding_unique mem' listed (congrArg Prod.fst located), unphrased⟩
    refine ⟨binding, listed, here, ?_⟩
    rw [lastBound?_of_unfailed unfailed]
    split
    case isTrue phrase =>
      rw [List.find?_eq_none]
      intro other mem' found
      obtain ⟨rfl, unphrased⟩ := only other mem' found
      rw [phrase] at unphrased
      cases unphrased
    case isFalse unphrased =>
      have atEnd := (run.endsLine_iff builtIn listed (unfailed binding listed)).mpr
        ⟨consumed, ⟨final, ends, here.symm⟩, Bool.eq_false_iff.mpr unphrased⟩
      exact find?_eq_some_of_unique listed atEnd fun other mem' found => (only other mem' found).1
  case absent =>
    intro unfailed elsewhere
    rw [lastBound?_of_unfailed unfailed, List.find?_eq_none]
    intro binding mem found
    obtain ⟨consumed, ⟨final, ends, same⟩, _⟩ :=
      (run.endsLine_iff builtIn mem (unfailed binding mem)).mp found
    have typed := ((grammar.mem_places_iff _ _).mp ⟨_, (mem_bindings_iff.mp mem).1, rfl, rfl⟩).2
    have nodes : final.node = binding.place.node := congrArg Prod.snd same
    have literal := elsewhere consumed final ends
    rw [nodes, typed] at literal
    cases literal

theorem lastBound?_behind_phrase :
    setTitle.isBuiltIn ∧ ∃ binding,
      (setTitle.bind ['s', 'e', 't', ' ', '"', 'a', ' ', 'b', '"', ' ', 'c']).lastBound? =
        some binding ∧ binding.name = ['n'] := by
  let line : Text := ['s', 'e', 't', ' ', '"', 'a', ' ', 'b', '"', ' ', 'c']
  have consumed : (setTitle.bind line).IsConsumed := .inl (by decide)
  obtain ⟨binding, mem, here, found⟩ :=
    (setTitle.bind_lastBound line rfl).bound (by decide) consumed _ rfl rfl
  have same : binding = ⟨⟨[0, 0, 0], ⟨['n'], .typed .greedyString none, true, []⟩, 1⟩,
      .bound ['c'] (.string ['c']) (.range 3 3)⟩ :=
    binding_unique mem (.tail _ (.head _)) (congrArg Prod.fst here)
  subst same
  exact ⟨rfl, _, found, rfl⟩

theorem lastBound?_of_phrase :
    setTitle.isBuiltIn ∧
      (setTitle.bind ['s', 'e', 't', ' ', '"', 'a', ' ', 'b', '"']).IsConsumed ∧
      (∀ binding ∈ (setTitle.bind ['s', 'e', 't', ' ', '"', 'a', ' ', 'b', '"']).bindings,
        binding.attempt.failure? = none) ∧
      (∃ final ∈ (setTitle.bind ['s', 'e', 't', ' ', '"', 'a', ' ', 'b', '"']).terminal?,
        final.node.isLiteral = false) ∧
      (setTitle.bind ['s', 'e', 't', ' ', '"', 'a', ' ', 'b', '"']).lastBound? = none :=
  ⟨rfl, .inl (by decide), by decide, ⟨_, rfl, rfl⟩, rfl⟩

end Grammar

end Console
