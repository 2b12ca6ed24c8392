import Console.Proofs.Binding.Arguments
import Console.Proofs.Binding.Attempts

namespace Console

variable {line token after rest : Text} {cursor next last : Cursor} {step : Step}
  {grammar : Grammar}

theorem Text.IsBoundary.mem_words (boundary : Text.IsBoundary line rest)
    (word : Text.nextWord? rest = some (token, after)) : token ∈ Text.words line := by
  rw [boundary.words_eq, Text.words_of_nextWord? word]
  exact List.mem_append_right _ List.mem_cons_self

theorem Advance.front_suffix (one : Advance line cursor step next) :
    next.rest <:+ cursor.front := by
  cases one with
  | literal word => exact ⟨_, (Text.trimStart_of_nextWord? word).symm⟩
  | argument _ _ _ _ read => exact ArgumentType.leaves_suffix read

theorem Advance.rest_suffix (one : Advance line cursor step next) :
    next.rest <:+ cursor.rest :=
  one.front_suffix.trans (List.dropWhile_suffix _)

theorem ArgumentType.startsBlank_leaves {type : ArgumentType} {text left : Text} {value : Value}
    (builtIn : type.isBuiltIn) (read : type.parse text = .ok (value, left)) :
    Text.startsBlank (type.leaves left) := by
  unfold leaves
  split
  · rfl
  · exact startsBlank_of_parse builtIn read

theorem Advance.startsBlank (one : Advance line cursor step next)
    (builtIn : ∀ type ∈ step.node.type?, type.isBuiltIn) : Text.startsBlank next.rest := by
  cases one with
  | literal word => exact (Text.nextWord?_eq_some word).2.2.2
  | argument _ _ _ typed read => exact ArgumentType.startsBlank_leaves (builtIn _ typed) read

theorem Advance.isBoundary (one : Advance line cursor step next)
    (builtIn : ∀ type ∈ step.node.type?, type.isBuiltIn)
    (boundary : Text.IsBoundary line cursor.rest) : Text.IsBoundary line next.rest :=
  boundary.of_suffix one.rest_suffix (one.startsBlank builtIn)

theorem Advances.rest_suffix {steps : List Step} (run : Advances line cursor steps last) :
    last.rest <:+ cursor.rest := by
  induction run with
  | done => exact List.suffix_rfl
  | step one _ ih => exact ih.trans one.rest_suffix

theorem Advances.isBoundary {steps : List Step} (run : Advances line cursor steps last)
    (builtIn : ∀ step ∈ steps, ∀ type ∈ step.node.type?, type.isBuiltIn)
    (boundary : Text.IsBoundary line cursor.rest) : Text.IsBoundary line last.rest := by
  induction run with
  | done => exact boundary
  | step one _ ih =>
    obtain ⟨first, others⟩ := List.forall_mem_cons.mp builtIn
    exact ih others (one.isBoundary first boundary)

theorem Advance.words_eq (one : Advance line cursor step next)
    (bounded : step.node.isGreedy = false)
    (builtIn : ∀ type ∈ step.node.type?, type.isBuiltIn)
    (plain : ∀ type ∈ step.node.type?, type.isWordwise ∨ '"' ∉ cursor.rest) :
    Text.words cursor.rest = step.raw :: Text.words next.rest := by
  cases one with
  | literal word => exact Text.words_of_nextWord? word
  | @argument child index token after left type value word unspelled first typed read =>
    have kind : type.isGreedy = false := (Node.isGreedy_eq typed).symm.trans bounded
    have front : type.isWordwise ∨ '"' ∉ cursor.front :=
      (plain type typed).imp_right fun unquoted quote =>
        unquoted ((List.dropWhile_suffix _).subset quote)
    have eq := ArgumentType.left_of_parse (builtIn type typed) kind front
      (cursor.nextWord?_front.trans word) read
    subst eq
    have whole := Text.trimEnd_eq_self (Text.nextWord?_isWord word).2
    have taken : Text.before cursor.front left = token := by
      rw [Cursor.front, Text.trimStart_of_nextWord? word, Text.before_append]
    simp [ArgumentType.leaves, kind, Step.raw, taken, whole, Text.words_of_nextWord? word]

def Grammar.isBuiltIn (grammar : Grammar) : Bool :=
  grammar.places.all fun place => place.node.type?.all (·.isBuiltIn)

theorem Grammar.Run.builtIn_of_mem (run : grammar.Run line last) (builtIn : grammar.isBuiltIn) :
    ∀ step ∈ (grammar.walk line).steps, ∀ type ∈ step.node.type?, type.isBuiltIn :=
  fun _ mem _ typed => Grammar.type_of_all builtIn (run.at?_of_mem mem) typed

end Console
