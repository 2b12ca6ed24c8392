import Console.Proofs.Binding.Positions

namespace Console

variable {line : Text} {cursor next last : Cursor} {step : Step} {steps : List Step}
  {grammar : Grammar} {type : ArgumentType} {attempt : Attempt} {binding : Binding}

def Position.IsWithin (position : Position) (count : Nat) : Prop :=
  position.start ≤ position.stop ∧ position.stop < count

instance (position : Position) (count : Nat) : Decidable (position.IsWithin count) :=
  inferInstanceAs (Decidable (_ ∧ _))

theorem Cursor.Makes.exists_isWithin_iff (makes : cursor.Makes line type attempt) :
    ∃ position, attempt.position? = some position ∧
      (position.IsWithin (Text.wordCount line) ↔
        Text.wordIndex line cursor.front < Text.wordCount line) := by
  refine ⟨_, makes.position?_eq, ?_⟩
  unfold Position.IsWithin
  split
  case isTrue =>
    simp only [Position.start, Position.stop]
    omega
  case isFalse => simp only [Position.start, Position.stop, Nat.le_refl, true_and]

theorem Advance.exists_drop_eq (one : Advance line cursor step next) :
    ∃ blanks, Text.isBlankText blanks ∧ cursor.front.drop step.raw.length = blanks ++ next.rest := by
  cases one with
  | literal word =>
    refine ⟨[], rfl, ?_⟩
    rw [Cursor.front, Text.trimStart_of_nextWord? word, Step.raw, List.drop_left]
    rfl
  | @argument _ _ _ _ left type _ _ _ _ _ read =>
    obtain ⟨blanks, blank, trimmed⟩ :=
      Text.exists_trimEnd_append (Text.before cursor.front (type.leaves left))
    have whole : cursor.front = Text.trimEnd (Text.before cursor.front (type.leaves left)) ++
        (blanks ++ type.leaves left) := by
      rw [← List.append_assoc, trimmed, ArgumentType.before_append_leaves read]
    exact ⟨blanks, blank, (congrArg (List.drop _) whole).trans List.drop_left⟩

theorem Advances.behind_eq (run : Advances line cursor steps last) :
    Text.behind (steps.map Step.raw) cursor.rest = last.front := by
  induction run with
  | done => rfl
  | @step cursor next last step steps one _ ih =>
    obtain ⟨blanks, blank, left⟩ := one.exists_drop_eq
    change Text.behind (steps.map Step.raw) (cursor.front.drop step.raw.length) = last.front
    rw [left, Text.behind_blanks_append blank, ih]

namespace Grammar

/-- What the node at a path is tried on: the line behind what the nodes above took. -/
def restAt (grammar : Grammar) (line : Text) (path : Path) : Text :=
  Text.behind ((grammar.root.along [] path.dropLast).filterMap (grammar.bind line).taken?) line

theorem Run.restAt_eq (run : grammar.Run line last) (comesBy : grammar.ComesBy line cursor)
    (index : Nat) : grammar.restAt line (cursor.path ++ [index]) = cursor.front := by
  obtain ⟨steps, taken, before⟩ := run.exists_taken_above comesBy index
  have texts := congrArg (List.filterMap id) taken
  rw [List.filterMap_map, List.filterMap_map] at texts
  rw [restAt]
  change List.filterMap (grammar.bind line).taken? _ = List.filterMap some _ at texts
  rw [texts, List.filterMap_some]
  exact before.behind_eq

/-- A position is a range of the line's words unless its node is tried inside the last word. -/
theorem bind_isWithin_iff (grammar : Grammar) (line : Text) {binding : Binding}
    (tried : binding ∈ (grammar.bind line).attempted) :
    ∃ position, binding.attempt.position? = some position ∧
      (position.IsWithin (grammar.bind line).wordCount ↔
        ¬ Text.InLastWord line (grammar.restAt line binding.place.path)) := by
  obtain ⟨last, run⟩ := grammar.run_exists line
  obtain ⟨mem, made⟩ := List.mem_filter.mp tried
  obtain ⟨cursor, index, type, comesBy, path, _, more, makes⟩ := run.exists_makes mem made
  have suffix : cursor.front <:+ line := by
    obtain ⟨_, _, _, before⟩ := comesBy
    exact (List.dropWhile_suffix _).trans before.rest_suffix
  obtain ⟨position, here, within⟩ := makes.exists_isWithin_iff
  refine ⟨position, here, ?_⟩
  rw [path, run.restAt_eq comesBy]
  exact within.trans (Text.wordIndex_lt_iff suffix (Text.startsBlank_trimStart more))

def digits : HostType where
  name := Text.of "digits"
  isGreedy := false
  read s :=
    let front := s.takeWhile Char.isDigit
    if front.isEmpty then .error ⟨.host (Text.of "Expected digits"), s⟩
    else .ok (.string front, front.length)
  suggest _ := []

def digitsThen (type : ArgumentType) : Grammar :=
  ⟨[⟨['n'], .typed (.host digits) none, true, [⟨['t'], .typed type none, true, []⟩]⟩], false, rfl⟩

theorem isWithin_of_more_words :
    ∃ binding ∈ ((digitsThen .word).bind ['1', 'a', ' ', 'b']).attempted,
      ¬ Text.InLastWord ['1', 'a', ' ', 'b']
        ((digitsThen .word).restAt ['1', 'a', ' ', 'b'] binding.place.path) ∧
      ∃ position, binding.attempt.position? = some position ∧ position = .index 1 ∧
        position.IsWithin ((digitsThen .word).bind ['1', 'a', ' ', 'b']).wordCount := by
  let binding : Binding :=
    ⟨⟨[0, 0], ⟨['t'], .typed .word none, true, []⟩, 1⟩, .bound ['a'] (.string ['a']) (.index 1)⟩
  have tried : binding ∈ ((digitsThen .word).bind ['1', 'a', ' ', 'b']).attempted :=
    List.mem_filter.mpr ⟨.tail _ (.head _), rfl⟩
  have beside : ¬ Text.InLastWord ['1', 'a', ' ', 'b']
      ((digitsThen .word).restAt ['1', 'a', ' ', 'b'] binding.place.path) := by decide
  obtain ⟨position, here, within⟩ := bind_isWithin_iff _ _ tried
  exact ⟨binding, tried, beside, position, here, (Option.some.inj here).symm, within.mpr beside⟩

/-- Behind the digits at the front of the only word, an argument lies at a second word. If it takes
all of the line, its range ends before it begins. -/
theorem not_isWithin_of_divided_word :
    (∃ binding ∈ ((digitsThen .word).bind ['1', 'a']).attempted,
      binding.attempt.position? = some (.index 1) ∧
        ¬ (Position.index 1).IsWithin ((digitsThen .word).bind ['1', 'a']).wordCount) ∧
    ∃ binding ∈ ((digitsThen .greedyString).bind ['1', 'a']).attempted,
      binding.attempt.position? = some (.range 1 0) ∧
        ¬ (Position.range 1 0).IsWithin
          ((digitsThen .greedyString).bind ['1', 'a']).wordCount := by
  constructor
  · refine ⟨⟨⟨[0, 0], ⟨['t'], .typed .word none, true, []⟩, 1⟩,
      .bound ['a'] (.string ['a']) (.index 1)⟩, ?_, rfl, by decide⟩
    exact List.mem_filter.mpr ⟨.tail _ (.head _), rfl⟩
  · refine ⟨⟨⟨[0, 0], ⟨['t'], .typed .greedyString none, true, []⟩, 1⟩,
      .bound ['a'] (.string ['a']) (.range 1 0)⟩, ?_, rfl, by decide⟩
    exact List.mem_filter.mpr ⟨.tail _ (.head _), rfl⟩

end Grammar

end Console
