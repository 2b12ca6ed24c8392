import Console.Proofs.Binding.Arguments
import Console.Proofs.Binding.Attempts
import Console.Proofs.Completion.Candidates
import Console.Proofs.Grammar.Relabel

namespace Console

variable {line rest : Text} {cursor next last : Cursor} {steps : List Step} {node child : Node}
  {accepted : Path → List Text} {token after : Text} {tokens : List Text} {index : Nat}
  {path way : Path}

def Relabel.choosing (accepted : Path → List Text) : Relabel where
  type path type := .choice (if type.isGreedy then [] else accepted path)
  suggestions _ suggestions := suggestions

theorem Node.accepts_choosing (word : Text.nextWord? rest = some (token, after)) :
    (node.relabel (.choosing accepted) path).Accepts rest ↔
      node.isLiteral = false ∧ node.isGreedy = false ∧ token ∈ accepted path := by
  unfold Accepts
  rw [type?_relabel]
  cases h : node.type? with
  | none => simp [type?_eq_none_iff.mp h]
  | some type =>
    rw [isLiteral_eq_false h, isGreedy_eq h]
    cases hg : type.isGreedy <;>
      by_cases ht : token ∈ accepted path <;>
        simp [Relabel.choosing, ArgumentType.parse_choice word, hg, ht]

theorem Advance.opens {step : Step} (one : Advance line cursor step next)
    (same : cursor.node = node.relabel (.choosing accepted) cursor.path) :
    ∃ token index child, Text.words cursor.rest = token :: Text.words next.rest ∧
      next.path = cursor.path ++ [index] ∧
      next.node = child.relabel (.choosing accepted) next.path ∧
      Opens node.children token index child := by
  cases one with
  | @literal child index after word first =>
    obtain ⟨original, here, rfl⟩ := Node.exists_of_children_relabel (same ▸ first.found)
    rw [same, Node.first_relabel (Node.spells_relabel _) here] at first
    refine ⟨_, index, original, Text.words_of_nextWord? word, rfl, rfl, here, ?_, .inl first⟩
    exact Node.isGreedy_eq_false first.holds.1
  | @argument child index token after left type value word unspelled first typed read =>
    obtain ⟨original, here, rfl⟩ := Node.exists_of_children_relabel (same ▸ first.found)
    rw [same, Node.noneSpells_relabel] at unspelled
    have front := cursor.nextWord?_front.trans word
    obtain ⟨isTyped, bounded, _⟩ := (Node.accepts_choosing front).mp first.holds
    refine ⟨token, index, original, ?_, rfl, rfl, here, bounded, .inr ⟨unspelled, isTyped⟩⟩
    rw [Node.type?_relabel, Option.map_eq_some_iff] at typed
    obtain ⟨own, _, chosen⟩ := typed
    subst chosen
    rw [Text.words_of_nextWord? word]
    exact congrArg (token :: Text.words ·) (ArgumentType.left_of_readWord front read).symm

theorem Advances.leads (run : Advances line cursor steps last)
    (blank : Text.isBlankText last.rest)
    (same : cursor.node = node.relabel (.choosing accepted) cursor.path) :
    ∃ way, last.path = cursor.path ++ way ∧ Leads node (Text.words cursor.rest) way := by
  induction run generalizing node with
  | done cursor =>
    rw [Text.words_eq_nil_iff.mpr blank]
    exact ⟨[], by simp, .done node⟩
  | step one more ih =>
    obtain ⟨token, index, child, words, below, same', opens⟩ := one.opens same
    obtain ⟨way, eq, leads⟩ := ih blank same'
    rw [words]
    exact ⟨index :: way, by simp [eq, below], .step opens leads⟩

def Relabel.along (way : Path) (tokens : List Text) (path : Path) : List Text :=
  if path.isPrefixOf way then tokens[path.length - 1]?.toList else []

theorem Relabel.along_concat {front : Path} {taken : List Text}
    (h : taken.length = front.length) (i : Nat) :
    along (front ++ index :: way) (taken ++ token :: tokens) (front ++ [i]) =
      if i = index then [token] else [] := by
  unfold along
  by_cases eq : i = index <;> simp [eq, ← h, List.prefix_append_right_inj]

theorem Opens.advance (opens : Opens node.children token index child)
    (allowed : ∀ i, accepted (path ++ [i]) = if i = index then [token] else [])
    (word : Text.nextWord? rest = some (token, after)) (line : Text) :
    ∃ step, Advance line ⟨node.relabel (.choosing accepted) path, path, rest⟩ step
      ⟨child.relabel (.choosing accepted) (path ++ [index]), path ++ [index], after⟩ := by
  let cursor : Cursor := ⟨node.relabel (.choosing accepted) path, path, rest⟩
  have front : Text.nextWord? cursor.front = some (token, after) :=
    cursor.nextWord?_front.trans word
  cases opens.route with
  | inl first =>
    have named : token = (child.relabel (.choosing accepted) (path ++ [index])).name := by
      rw [Node.name_relabel, first.holds.2]
    subst named
    exact ⟨_, .literal word ((Node.first_relabel (Node.spells_relabel _) opens.found).mpr first)⟩
  | inr other =>
    have first : First (Node.Accepts cursor.front) cursor.node.children index
        (child.relabel (.choosing accepted) (path ++ [index])) := by
      refine ⟨Node.children_relabel_of _ path opens.found, ?_, ?_⟩
      · apply (Node.accepts_choosing front).mpr
        simp [other.2, opens.bounded, allowed]
      · -- Earlier siblings were given no words at all.
        intro i lt sibling here accepts
        obtain ⟨original, _, rfl⟩ := Node.exists_of_children_relabel here
        have chosen := ((Node.accepts_choosing front).mp accepts).2.2
        simp [allowed, lt.ne] at chosen
    obtain ⟨type, typed⟩ := Node.exists_type? other.2
    have eq : (child.relabel (.choosing accepted) (path ++ [index])).type? =
        some (.choice [token]) := by
      simp [typed, Relabel.choosing, allowed, ← Node.isGreedy_eq typed, opens.bounded]
    have read : (ArgumentType.choice [token]).parse cursor.front = .ok (.string token, after) := by
      rw [ArgumentType.parse_choice front, if_pos (List.mem_singleton_self token)]
    exact ⟨_, .argument word ((Node.noneSpells_relabel token).mpr other.1) first eq read⟩

theorem Leads.advances (leads : Leads node tokens way) (front : Path) (taken : List Text)
    (count : taken.length = front.length) (words : Text.words rest = tokens)
    (chosen : accepted = Relabel.along (front ++ way) (taken ++ tokens)) (line : Text) :
    ∃ steps last, Advances line ⟨node.relabel (.choosing accepted) front, front, rest⟩ steps last ∧
      last.path = front ++ way ∧ Text.isBlankText last.rest := by
  induction leads generalizing front taken rest with
  | done node => exact ⟨[], _, .done _, by simp, Text.words_eq_nil_iff.mp words⟩
  | @step node child token tokens index way opens more ih =>
    obtain ⟨after, word, words⟩ := Text.exists_nextWord? words
    have rest_chosen : accepted =
        Relabel.along ((front ++ [index]) ++ way) ((taken ++ [token]) ++ tokens) := by
      simpa using chosen
    obtain ⟨steps, last, run, eq, blank⟩ :=
      ih (front ++ [index]) (taken ++ [token]) (by simp [count]) words rest_chosen
    have allowed (i : Nat) : accepted (front ++ [i]) = if i = index then [token] else [] := by
      rw [chosen, Relabel.along_concat count]
    obtain ⟨first, one⟩ := opens.advance allowed word line
    exact ⟨first :: steps, last, .step one run, by simp [eq], blank⟩

namespace Grammar

end Grammar

end Console
