import Console.Proofs.Binding.Attempts

namespace Console

/-- A line is blanks, some texts, each with blanks behind it, and a rest. -/
inductive Tiles : List Text → Text → Text → Prop
  | last {blanks rest : Text} (blank : Text.isBlankText blanks) : Tiles [] (blanks ++ rest) rest
  | next {blanks text line rest : Text} {texts : List Text} (blank : Text.isBlankText blanks)
      (more : Tiles texts line rest) : Tiles (text :: texts) (blanks ++ text ++ line) rest

/-- What is left of a line where a walk stops, and why the level there does not take it. -/
def Leftover (level : List Node) (rest : Text) : Status → Prop
  | .complete | .incomplete => rest = []
  | .tooManyArguments remaining => remaining = Text.trimEnd rest ∧ level = []
  | .unmatched remaining =>
    remaining = Text.trimEnd rest ∧ level ≠ [] ∧
      ∀ child ∈ level, child.isLiteral ∧ (Text.nextWord? rest).map Prod.fst ≠ some child.name
  | .invalidArgument _ =>
    (∃ child ∈ level, child.isLiteral = false) ∧
      ∀ child ∈ level, child.isLiteral = false → child.Refuses rest

def BindingSet.taken? (set : BindingSet) (passed : Path × Node) : Option Text :=
  if passed.2.isLiteral then some passed.2.name
  else (set.at? passed.1).bind (·.attempt.raw?)

variable {line : Text} {cursor last : Cursor} {steps : List Step}

namespace Tiles

variable {texts : List Text} {text blanks rest : Text}

theorem blanks_append (blank : Text.isBlankText blanks) (h : Tiles texts line rest) :
    Tiles texts (blanks ++ line) rest := by
  cases h with
  | last blank' =>
    rw [← List.append_assoc]
    exact .last (Text.isBlankText_append.mpr ⟨blank, blank'⟩)
  | next blank' more =>
    rw [← List.append_assoc, ← List.append_assoc]
    exact .next (Text.isBlankText_append.mpr ⟨blank, blank'⟩) more

theorem trimEnd_next (h : Tiles texts line rest) (blank : Text.isBlankText blanks) (text : Text) :
    Tiles (Text.trimEnd text :: texts) (blanks ++ text ++ line) rest := by
  obtain ⟨behind, blank', eq⟩ := Text.exists_trimEnd_append text
  have whole : blanks ++ text ++ line = blanks ++ Text.trimEnd text ++ (behind ++ line) := by
    conv => lhs; rw [← eq]
    simp
  rw [whole]
  exact .next blank (h.blanks_append blank')

end Tiles

theorem ArgumentType.before_append_leaves {type : ArgumentType} {text left : Text} {value : Value}
    (read : type.parse text = .ok (value, left)) :
    Text.before text (type.leaves left) ++ type.leaves left = text :=
  Text.before_append_suffix (leaves_suffix read)

theorem Advance.tiles {step : Step} {next : Cursor} (h : Advance line cursor step next)
    {texts : List Text} {rest : Text} (more : Tiles texts next.rest rest) :
    Tiles (step.raw :: texts) cursor.rest rest := by
  have blank := Text.isBlankText_takeWhile cursor.rest
  cases h with
  | literal word first =>
    rw [← (Text.nextWord?_eq_some word).1]
    exact .next blank more
  | @argument _ _ _ _ left type _ _ _ _ _ read =>
    have tile := more.trimEnd_next blank (Text.before cursor.front (type.leaves left))
    rw [List.append_assoc, ArgumentType.before_append_leaves read, Cursor.front,
      Text.takeWhile_append_trimStart] at tile
    exact tile

theorem Advances.tiles (run : Advances line cursor steps last) :
    Tiles (steps.map Step.raw) cursor.rest last.front := by
  induction run with
  | done cursor =>
    have tile : Tiles [] (cursor.rest.takeWhile Text.isBlank ++ cursor.front) cursor.front :=
      .last (Text.isBlankText_takeWhile cursor.rest)
    rwa [Cursor.front, Text.takeWhile_append_trimStart] at tile
  | step one more ih => exact one.tiles ih

theorem Halt.leftover {ending : Ending} (halt : Halt line cursor ending) :
    Leftover cursor.node.children cursor.front (ending.status cursor.node.executes) := by
  cases halt with
  | exhausted blank =>
    have empty : cursor.front = [] := Text.trimStart_eq_nil_iff.mpr blank
    cases cursor.node.executes with
    | true => exact empty
    | false => exact empty
  | tooMany _ leaf => exact ⟨rfl, leaf⟩
  | unmatched word inner unspelled untyped =>
    refine ⟨rfl, inner, fun child hc => ⟨untyped child hc, ?_⟩⟩
    intro eq
    rw [cursor.nextWord?_front, word] at eq
    exact unspelled child hc ⟨untyped child hc, (Option.some.inj eq).symm⟩
  | rejected word unspelled refused first =>
    exact ⟨⟨_, first.mem, first.holds⟩, fun child hc typed =>
      Node.refuses_of_not_accepts typed (refused child hc)⟩

theorem Grammar.Run.taken?_eq {grammar : Grammar} (run : grammar.Run line last) {step : Step}
    (h : step ∈ (grammar.walk line).steps) :
    (grammar.bind line).taken? step.located = some step.raw := by
  cases step with
  | literal path node =>
    have literal := run.steps.isLiteral_of_mem h
    simp [BindingSet.taken?, Step.located, Step.node, Step.raw, literal]
  | argument path node raw value position =>
    have typed := run.steps.isLiteral_eq_false_of_mem h
    have found : grammar.at? path = some node := run.at?_of_mem h
    obtain ⟨binding, bound, made⟩ := exists_binding found typed line
    have attempt := Trail.attemptAt_argument run.steps.sorted h
    simp [BindingSet.taken?, Step.located, Step.node, Step.path, Step.raw, typed, bound, made,
      attempt, Attempt.raw?]

/-- A line is what the nodes on the way to the terminal node took, with blanks around, and what is
left over, which is nothing if and only if the line is bound to its end. -/
theorem Grammar.bind_tiles (grammar : Grammar) (line : Text) :
    ∃ texts rest,
      (grammar.passed (grammar.bind line)).map (grammar.bind line).taken? = texts.map some ∧
      (grammar.passed (grammar.bind line)).getLast?.map Prod.snd =
        (grammar.bind line).terminal?.map Step.node ∧
      Tiles texts line rest ∧
      (rest = [] ↔ (grammar.bind line).IsConsumed) ∧
      (rest ≠ [] → Text.startsBlank rest = false) ∧
      Leftover (grammar.stopLevel (grammar.bind line)) rest (grammar.bind line).status := by
  obtain ⟨last, run⟩ := grammar.run_exists line
  refine ⟨(grammar.walk line).steps.map Step.raw, last.front, ?_, ?_, run.steps.tiles, ?_, ?_, ?_⟩
  · rw [run.passed_eq, List.map_map, List.map_map]
    apply List.map_congr_left
    intro step h
    exact run.taken?_eq h
  · rw [run.passed_eq, List.getLast?_map, Option.map_map]
    rfl
  · rw [run.isConsumed_iff, ← Text.trimStart_eq_nil_iff]
    rfl
  · intro more
    cases eq : last.front with
    | nil => exact absurd eq more
    | cons c rest => exact Text.isBlank_head_trimStart eq
  · rw [run.status_eq, run.stopLevel_eq]
    exact run.halt.leftover

end Console
