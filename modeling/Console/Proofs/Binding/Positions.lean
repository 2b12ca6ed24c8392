import Console.Proofs.Binding.Isolation
import Console.Proofs.Binding.Spacing

namespace Console

variable {line : Text} {cursor next last : Cursor} {step step' : Step} {steps : List Step}
  {grammar : Grammar} {type : ArgumentType} {attempt : Attempt} {binding binding' : Binding}
  {position : Position}

theorem Advance.wordCount_eq (one : Advance line cursor step next)
    (builtIn : ∀ type ∈ step.node.type?, type.isBuiltIn) :
    Text.wordCount cursor.rest = Text.wordCount step.raw + Text.wordCount next.rest := by
  rw [Text.wordCount, Text.wordCount, Text.wordCount, ← List.length_append]
  refine congrArg List.length ?_
  cases one with
  | literal word =>
    rw [Text.words_of_nextWord? word, Step.raw, (Text.nextWord?_isWord word).words_eq]
    rfl
  | @argument _ _ _ _ left type _ _ _ _ typed read =>
    have starts := ArgumentType.startsBlank_leaves (builtIn _ typed) read
    rw [Step.raw, Text.words_trimEnd, ← Text.words_append starts,
      ArgumentType.before_append_leaves read, Cursor.front, Text.words_trimStart]

theorem ArgumentType.words_before_ne_nil {text left : Text} {value : Value}
    (builtIn : type.isBuiltIn) (first : Text.startsBlank text = false)
    (read : type.parse text = .ok (value, left)) :
    Text.words (Text.before text (type.leaves left)) ≠ [] := by
  refine Text.words_ne_nil_of_append (t := type.leaves left) ?_ (startsBlank_leaves builtIn read)
  rw [before_append_leaves read]
  exact first

theorem Advance.wordCount_raw_pos (one : Advance line cursor step next)
    (builtIn : ∀ type ∈ step.node.type?, type.isBuiltIn) : 0 < Text.wordCount step.raw := by
  rw [Text.wordCount, List.length_pos_iff]
  cases one with
  | literal word =>
    rw [Step.raw, (Text.nextWord?_isWord word).words_eq]
    exact List.cons_ne_nil _ _
  | @argument _ _ _ _ left type _ word _ _ typed read =>
    have first := Text.startsBlank_trimStart (Cursor.front_ne_nil word)
    rw [Step.raw, Text.words_trimEnd]
    exact ArgumentType.words_before_ne_nil (builtIn _ typed) first read

theorem Advance.wordIndex_lt (one : Advance line cursor step next)
    (builtIn : ∀ type ∈ step.node.type?, type.isBuiltIn)
    (boundary : Text.IsBoundary line cursor.rest) :
    Text.wordIndex line cursor.front < Text.wordIndex line next.front := by
  have count := one.wordCount_eq builtIn
  have some := one.wordCount_raw_pos builtIn
  have here := boundary.wordIndex_add
  have there := (one.isBoundary builtIn boundary).wordIndex_add
  rw [Cursor.front, Cursor.front]
  omega

theorem Cursor.start_position (cursor : Cursor) (type : ArgumentType) :
    (cursor.position line type).start = Text.wordIndex line cursor.front := by
  unfold position
  split <;> rfl

theorem Advance.start_eq (one : Advance line cursor step next) :
    ∀ position ∈ step.position?, position.start = Text.wordIndex line cursor.front := by
  cases one with
  | literal => nofun
  | argument =>
    rintro _ ⟨⟩
    exact cursor.start_position _

theorem Advances.start_bounds (run : Advances line cursor steps last)
    (builtIn : ∀ step ∈ steps, ∀ type ∈ step.node.type?, type.isBuiltIn)
    (boundary : Text.IsBoundary line cursor.rest) :
    Text.wordIndex line cursor.front ≤ Text.wordIndex line last.front ∧
      ∀ step ∈ steps, ∀ position ∈ step.position?,
        Text.wordIndex line cursor.front ≤ position.start ∧
          position.start < Text.wordIndex line last.front := by
  induction run with
  | done => exact ⟨Nat.le_refl _, nofun⟩
  | step one _ ih =>
    obtain ⟨first, others⟩ := List.forall_mem_cons.mp builtIn
    have lt := one.wordIndex_lt first boundary
    obtain ⟨le, within⟩ := ih others (one.isBoundary first boundary)
    refine ⟨by omega, fun step mem position here => ?_⟩
    cases mem with
    | head =>
      rw [one.start_eq position here]
      omega
    | tail _ mem =>
      have := within step mem position here
      omega

theorem Advances.start_lt_of_path_lt (run : Advances line cursor steps last)
    (builtIn : ∀ step ∈ steps, ∀ type ∈ step.node.type?, type.isBuiltIn)
    (boundary : Text.IsBoundary line cursor.rest) (mem : step ∈ steps) (mem' : step' ∈ steps)
    (below : step.path < step'.path) :
    ∀ position ∈ step.position?, ∀ position' ∈ step'.position?,
      position.start < position'.start := by
  induction run with
  | done => cases mem
  | step one more ih =>
    obtain ⟨first, others⟩ := List.forall_mem_cons.mp builtIn
    have sorted := (Advances.step one more).sorted
    have boundary' := one.isBoundary first boundary
    intro position here position' there
    cases mem with
    | head =>
      cases mem' with
      | head => exact absurd below (lt_irrefl _)
      | tail _ mem' =>
        have lt := one.wordIndex_lt first boundary
        have le := ((more.start_bounds others boundary').2 _ mem' position' there).1
        rw [one.start_eq position here]
        omega
    | tail _ mem =>
      cases mem' with
      | head => exact absurd below (lt_asymm ((List.pairwise_cons.mp sorted).1 _ mem))
      | tail _ mem' => exact ih others boundary' mem mem' position here position' there

inductive Cursor.Makes (line : Text) (cursor : Cursor) (type : ArgumentType) : Attempt → Prop
  | bound {value : Value} {left : Text} (read : type.parse cursor.front = .ok (value, left)) :
      Makes line cursor type
        (.bound (Text.trimEnd (Text.before cursor.front (type.leaves left))) value
          (cursor.position line type))
  | rejected {token after : Text} {failure : ParseFailure}
      (word : Text.nextWord? cursor.rest = some (token, after))
      (read : type.parse cursor.front = .error failure) :
      Makes line cursor type
        (.rejected (if failure.raw.isEmpty then token else failure.raw)
          (.index (Text.wordIndex line cursor.front)) failure)

namespace Cursor.Makes

theorem position?_eq (makes : cursor.Makes line type attempt) :
    attempt.position? = some
      (if type.isGreedy ∧ attempt.value?.isSome then
        .range (Text.wordIndex line cursor.front) (Text.wordCount line - 1)
      else .index (Text.wordIndex line cursor.front)) := by
  cases makes with
  | bound => simp [position]
  | rejected => simp

theorem exists_raw (makes : cursor.Makes line type attempt) (builtIn : type.isBuiltIn)
    (more : cursor.front ≠ []) :
    ∃ raw, attempt.raw? = some raw ∧ raw ≠ [] ∧ raw <+: cursor.front := by
  cases makes with
  | @bound value left read =>
    have split := ArgumentType.before_append_leaves read
    obtain ⟨blanks, _, trimmed⟩ :=
      Text.exists_trimEnd_append (Text.before cursor.front (type.leaves left))
    refine ⟨_, rfl, fun none => ?_, ⟨blanks ++ type.leaves left, ?_⟩⟩
    · apply ArgumentType.words_before_ne_nil builtIn (Text.startsBlank_trimStart more) read
      rw [← Text.words_trimEnd]
      exact (congrArg Text.words none).trans Text.words_nil
    · rw [← List.append_assoc, trimmed, split]
  | @rejected token after failure word read =>
    have split : cursor.front = token ++ after := Text.trimStart_of_nextWord? word
    have tokenPrefix : token <+: cursor.front := ⟨after, split.symm⟩
    obtain raw | raw := ArgumentType.raw_of_parse_error builtIn
      (cursor.nextWord?_front.trans word) read
    · refine ⟨token, ?_, (Text.nextWord?_isWord word).1, tokenPrefix⟩
      simp [raw]
    · refine ⟨cursor.front, ?_, more, List.prefix_rfl⟩
      simp [raw, more]

end Cursor.Makes

theorem Advance.exists_makes {path : Path} {node : Node} {raw : Text} {value : Value}
    (one : Advance line cursor (.argument path node raw value position) next) :
    ∃ index type, path = cursor.path ++ [index] ∧ node.type? = some type ∧ cursor.front ≠ [] ∧
      cursor.Makes line type (.bound raw value position) := by
  cases one with
  | argument word _ _ typed read =>
    exact ⟨_, _, rfl, typed, Cursor.front_ne_nil word, .bound read⟩

theorem Halt.exists_makes {path : Path} {node : Node} {raw : Text} {failure : ParseFailure}
    (halt : Halt line cursor (.rejected path node raw position failure)) :
    ∃ index type, path = cursor.path ++ [index] ∧ node.type? = some type ∧ cursor.front ≠ [] ∧
      cursor.Makes line type (.rejected raw position failure) := by
  cases halt with
  | rejected word _ _ _ typed read =>
    exact ⟨_, _, rfl, typed, Cursor.front_ne_nil word, .rejected word read⟩

theorem Attempt.isMade_of_position? (h : attempt.position? = some position) : attempt.isMade := by
  cases attempt with
  | unreached => cases h
  | bound => rfl
  | rejected => rfl

namespace Grammar

def ComesBy (grammar : Grammar) (line : Text) (cursor : Cursor) : Prop :=
  ∃ front back, (grammar.walk line).steps = front ++ back ∧
    Advances line ⟨grammar.root, [], line⟩ front cursor

/-- What is left of a line behind what the nodes above a path took, blanks skipped. -/
def Leaves (grammar : Grammar) (line : Text) (path : Path) (rest : Text) : Prop :=
  ∃ texts, (grammar.root.along [] path.dropLast).map (grammar.bind line).taken? =
    texts.map some ∧ Tiles texts line rest

namespace Run

theorem at?_of_rejected (run : grammar.Run line last) {path : Path} {node : Node} {raw : Text}
    {failure : ParseFailure}
    (ends : (grammar.walk line).ending = .rejected path node raw position failure) :
    grammar.at? path = some node := by
  have blamed := run.blamed?_eq_some_iff.mpr ⟨raw, position, failure, ends⟩
  obtain ⟨place, mem, eq⟩ := run.exists_place
    (List.mem_append_right _ (by rw [blamed]; exact List.mem_singleton_self _))
  exact ((grammar.mem_places_iff path node).mp
    ⟨place, mem, congrArg Prod.fst eq, congrArg Prod.snd eq⟩).1

theorem exists_makes (run : grammar.Run line last) (mem : binding ∈ (grammar.bind line).bindings)
    (tried : binding.isAttempted) :
    ∃ cursor index type, grammar.ComesBy line cursor ∧
      binding.place.path = cursor.path ++ [index] ∧ binding.place.node.type? = some type ∧
        cursor.front ≠ [] ∧ cursor.Makes line type binding.attempt := by
  obtain ⟨place, made⟩ := mem_bindings_iff.mp mem
  rcases run.attemptAt_cases binding.place.path with
    ⟨node, raw, value, position, step, holds⟩ |
      ⟨node, raw, position, failure, _, ends, holds⟩ | ⟨_, _, holds⟩
  · obtain ⟨front, back, cursor, _, split, before, one, _⟩ := run.steps.exists_split_of_mem step
    obtain ⟨index, type, path, typed, more, makes⟩ := one.exists_makes
    refine ⟨cursor, index, type, ⟨front, _, split, before⟩, path, ?_, more,
      made.trans holds ▸ makes⟩
    rw [place_node_eq place (run.at?_of_mem step)]
    exact typed
  · obtain ⟨index, type, path, typed, more, makes⟩ := Halt.exists_makes (ends ▸ run.halt)
    refine ⟨last, index, type, ⟨_, [], (List.append_nil _).symm, run.steps⟩, path, ?_, more,
      made.trans holds ▸ makes⟩
    rw [place_node_eq place (run.at?_of_rejected ends)]
    exact typed
  · simp [Binding.isAttempted, Attempt.isMade, made, holds] at tried

theorem isBoundary_of_comesBy (run : grammar.Run line last) (builtIn : grammar.isBuiltIn)
    (comesBy : grammar.ComesBy line cursor) : Text.IsBoundary line cursor.rest := by
  obtain ⟨front, back, split, before⟩ := comesBy
  refine before.isBoundary (fun step mem => run.builtIn_of_mem builtIn step ?_)
    (Text.isBoundary_self line)
  rw [split]
  exact List.mem_append_left _ mem

theorem exists_taken_above (run : grammar.Run line last) (comesBy : grammar.ComesBy line cursor)
    (index : Nat) :
    ∃ steps, (grammar.root.along [] (cursor.path ++ [index]).dropLast).map
        (grammar.bind line).taken? = (steps.map Step.raw).map some ∧
      Advances line ⟨grammar.root, [], line⟩ steps cursor := by
  obtain ⟨front, back, split, before⟩ := comesBy
  obtain ⟨way, _, eq, passed⟩ := before.exists_way
  have above : grammar.root.along [] cursor.path = front.map Step.located := by
    rw [passed, eq]
    rfl
  refine ⟨front, ?_, before⟩
  rw [List.dropLast_concat, above, List.map_map, List.map_map]
  refine List.map_congr_left fun step mem => run.taken?_eq ?_
  rw [split]
  exact List.mem_append_left _ mem

theorem leaves_of_comesBy (run : grammar.Run line last) (comesBy : grammar.ComesBy line cursor)
    (index : Nat) : grammar.Leaves line (cursor.path ++ [index]) cursor.front := by
  obtain ⟨steps, taken, before⟩ := run.exists_taken_above comesBy index
  exact ⟨steps.map Step.raw, taken, before.tiles⟩

theorem position_cases (run : grammar.Run line last)
    (mem : binding ∈ (grammar.bind line).bindings)
    (here : position ∈ binding.attempt.position?) :
    (∃ step ∈ (grammar.walk line).steps, step.path = binding.place.path ∧
      position ∈ step.position?) ∨
    ∃ node raw failure,
      (grammar.walk line).ending = .rejected binding.place.path node raw position failure := by
  obtain ⟨_, made⟩ := mem_bindings_iff.mp mem
  rcases run.attemptAt_cases binding.place.path with
    ⟨node, raw, value, position', step, holds⟩ |
      ⟨node, raw, position', failure, _, ends, holds⟩ | ⟨_, _, holds⟩
  · rw [made, holds] at here
    cases here
    exact .inl ⟨_, step, rfl, rfl⟩
  · rw [made, holds] at here
    cases here
    exact .inr ⟨node, raw, failure, ends⟩
  · rw [made, holds] at here
    cases here

theorem start_lt (run : grammar.Run line last) (builtIn : grammar.isBuiltIn)
    (mem : binding ∈ (grammar.bind line).bindings)
    (mem' : binding' ∈ (grammar.bind line).bindings)
    (below : binding.place.path < binding'.place.path) :
    ∀ position ∈ binding.attempt.position?, ∀ position' ∈ binding'.attempt.position?,
      position.start < position'.start := by
  have builtIn := run.builtIn_of_mem builtIn
  have boundary := Text.isBoundary_self line
  intro position here position' there
  obtain ⟨step, taken, path, here⟩ | ⟨_, _, _, ends⟩ := run.position_cases mem here
  · obtain ⟨step', taken', path', there⟩ | ⟨_, _, _, ends'⟩ := run.position_cases mem' there
    · rw [← path, ← path'] at below
      exact run.steps.start_lt_of_path_lt builtIn boundary taken taken' below _ here _ there
    · obtain ⟨_, _, rfl⟩ := Halt.rejected_below (ends' ▸ run.halt)
      exact ((run.steps.start_bounds builtIn boundary).2 step taken position here).2
  · -- Nothing that was tried comes behind the node that is to blame.
    obtain ⟨index, blamed, _⟩ := Halt.rejected_below (ends ▸ run.halt)
    obtain ⟨step', taken', path', _⟩ | ⟨_, _, _, ends'⟩ := run.position_cases mem' there
    · have above := run.steps.path_lt taken' index
      rw [← blamed, path'] at above
      exact absurd below (lt_asymm above)
    · rw [(Ending.rejected.inj (ends.symm.trans ends')).1] at below
      exact absurd below (lt_irrefl _)

end Run

/-- A binding's text begins where a word of the line does, behind what the nodes above took, and its
place is the number of that word. A value of a greedy node reaches to the last word. -/
structure LiesAt (grammar : Grammar) (line : Text) (binding : Binding) (start : Nat) : Prop where
  position : binding.attempt.position? = some
    (if binding.place.node.isGreedy ∧ binding.attempt.value?.isSome then
      .range start (Text.wordCount line - 1)
    else .index start)
  inside : start < Text.wordCount line
  text : ∃ raw rest, binding.attempt.raw? = some raw ∧ raw ≠ [] ∧ raw <+: rest ∧
    Text.WordAt line start rest ∧ grammar.Leaves line binding.place.path rest

theorem Run.exists_liesAt (run : grammar.Run line last) (builtIn : grammar.isBuiltIn)
    (mem : binding ∈ (grammar.bind line).bindings) (tried : binding.isAttempted) :
    ∃ start, grammar.LiesAt line binding start := by
  obtain ⟨cursor, index, type, comesBy, path, typed, more, makes⟩ := run.exists_makes mem tried
  have found := ((grammar.mem_places_iff _ _).mp ⟨_, (mem_bindings_iff.mp mem).1, rfl, rfl⟩).1
  have word := (run.isBoundary_of_comesBy builtIn comesBy).wordAt more
  obtain ⟨raw, holds, ne, front⟩ := makes.exists_raw (type_of_all builtIn found typed) more
  refine ⟨Text.wordIndex line cursor.front, ?_, ?_, raw, cursor.front, holds, ne, front, word, ?_⟩
  · rw [Node.isGreedy_eq typed]
    exact makes.position?_eq
  · obtain ⟨_, _, _, _, listed⟩ := word.getElem?_words
    exact (List.getElem?_eq_some_iff.mp listed).1
  · rw [path]
    exact run.leaves_of_comesBy comesBy index

theorem ComesBy.wordCount_pos (comesBy : grammar.ComesBy line cursor) (more : cursor.front ≠ []) :
    0 < Text.wordCount line := by
  obtain ⟨_, _, _, before⟩ := comesBy
  obtain ⟨front, split⟩ := before.rest_suffix
  have split : front ++ cursor.rest = line := split
  rw [Text.wordCount, List.length_pos_iff, ne_eq, Text.words_eq_nil_iff, ← split,
    Text.isBlankText_append]
  rintro ⟨_, blank⟩
  exact more (Text.trimStart_eq_nil_iff.mpr blank)

/-- In a grammar of built-in types, every argument of a line lies where a word begins, each behind
the one before. In any grammar a range ends with the last word, and there is one. -/
theorem bind_locates (grammar : Grammar) (line : Text) :
    (grammar.isBuiltIn →
      (∀ binding ∈ (grammar.bind line).attempted, ∃ start, grammar.LiesAt line binding start) ∧
      ((grammar.bind line).attempted.filterMap (·.attempt.position?)).Pairwise
        (·.start < ·.start)) ∧
    ∀ binding ∈ (grammar.bind line).bindings, ∀ position ∈ binding.attempt.position?,
      position.isRange → position.stop + 1 = (grammar.bind line).wordCount := by
  obtain ⟨last, run⟩ := grammar.run_exists line
  refine ⟨fun builtIn => ⟨fun binding tried => ?_, ?_⟩, fun binding mem position here range => ?_⟩
  · obtain ⟨mem, tried⟩ := List.mem_filter.mp tried
    exact run.exists_liesAt builtIn mem tried
  · rw [List.pairwise_filterMap]
    have sorted := List.pairwise_map.mp (grammar.bind_isolates line).sorted
    refine (sorted.sublist List.filter_sublist).imp_of_mem fun mem mem' below => ?_
    exact run.start_lt builtIn (List.mem_filter.mp mem).1 (List.mem_filter.mp mem').1 below
  · obtain ⟨cursor, _, _, comesBy, _, _, more, makes⟩ :=
      run.exists_makes mem (Attempt.isMade_of_position? here)
    have count : 0 < (grammar.bind line).wordCount := comesBy.wordCount_pos more
    rw [makes.position?_eq, Option.mem_some_iff] at here
    split at here
    case isTrue =>
      subst here
      exact Nat.sub_add_cancel count
    case isFalse =>
      subst here
      cases range

def setTitle : Grammar :=
  ⟨[⟨['s', 'e', 't'], .literal, false,
      [⟨['t'], .typed .string none, true, [⟨['n'], .typed .greedyString none, true, []⟩]⟩]⟩], false,
    rfl⟩

theorem bind_locates_of_setTitle :
    setTitle.isBuiltIn ∧
      ((setTitle.bind (Text.of "set \"a b\"  c d ")).attempted.map (·.attempt.position?)) =
        [some (.index 1), some (.range 3 4)] ∧
      ∀ binding ∈ (setTitle.bind (Text.of "set \"a b\"  c d ")).attempted,
        ∃ start, setTitle.LiesAt (Text.of "set \"a b\"  c d ") binding start :=
  ⟨rfl, by decide +kernel, ((setTitle.bind_locates (Text.of "set \"a b\"  c d ")).1 rfl).1⟩

end Grammar

end Console
