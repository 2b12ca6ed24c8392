import Console.Proofs.Registry.Expansions
import Console.Proofs.Text.LowerCase

namespace Console

variable {line text rest after label name expansion : Text} {registry : Registry}

namespace CustomAlias

theorem heads_iff (isWord : Text.IsWord name) (word : Text.nextWord? text = some (label, rest))
    (same : Text.sameIgnoringCase label name) :
    Heads name text after ↔ Text.startsBlank text = false ∧
      Text.byteSize label = Text.byteSize name ∧ Text.trimStart rest = after := by
  constructor
  · rintro ⟨front, behind, rfl, size, same', starts, rfl⟩
    have frontWord : Text.IsWord front := by
      refine ⟨mt (Text.eq_nil_iff_of_sameIgnoringCase same').mp isWord.1, ?_⟩
      rw [List.all_eq_not_any_not]
      simp only [Bool.not_not]
      rw [Text.any_isBlank_of_sameIgnoringCase same']
      simpa [List.all_eq_not_any_not] using isWord.2
    have first := Text.nextWord?_blanks_append (s := []) rfl frontWord starts
    rw [List.nil_append] at first
    cases first.symm.trans word
    refine ⟨?_, size, rfl⟩
    obtain ⟨c, more, rfl⟩ := List.exists_cons_of_ne_nil frontWord.1
    have whole := frontWord.2
    rw [List.all_cons, Bool.and_eq_true, Bool.not_eq_true'] at whole
    exact whole.1
  · rintro ⟨written, size, rfl⟩
    obtain ⟨split, _, _, starts⟩ := Text.nextWord?_eq_some word
    have front : text.takeWhile Text.isBlank = [] := by
      cases text with
      | nil => rfl
      | cons c text => rw [List.takeWhile_cons, show Text.isBlank c = false from written]; rfl
    rw [front, List.nil_append] at split
    exact ⟨label, rest, split, size, same, starts, rfl⟩

end CustomAlias

namespace Registry

def Expanded (registry : Registry) (line : Text) : Prop :=
  ∃ name expansion rest, registry.Expands line name expansion rest

theorem expanded_of_heads (written : commandText line ≠ [])
    (stored : (name, expansion) ∈ registry.customAliases)
    (heads : CustomAlias.Heads name (commandText line) rest) : registry.Expanded line := by
  let fits (other : Text × Text) : Bool := (CustomAlias.strip? (commandText line) other.1).isSome
  have found : (registry.customAliases.find? fits).isSome := by
    rw [List.find?_isSome]
    exact ⟨_, stored, Option.isSome_of_eq_some (CustomAlias.strip?_eq_some_iff.mpr heads)⟩
  obtain ⟨first, found⟩ := Option.isSome_iff_exists.mp found
  obtain ⟨here, earlier, later, split, none⟩ := List.find?_eq_some_iff_append.mp found
  obtain ⟨rest, stripped⟩ := Option.isSome_iff_exists.mp here
  refine ⟨first.1, first.2, rest, written, ⟨earlier, later, split, ?_⟩,
    CustomAlias.strip?_eq_some_iff.mp stripped⟩
  intro other mem rest heads
  have clash := none other mem
  simp [fits, CustomAlias.strip?_eq_some_iff.mpr heads] at clash

theorem Expanded.exists_heads (h : registry.Expanded line) :
    ∃ other ∈ registry.customAliases, ∃ rest,
      CustomAlias.Heads other.1 (commandText line) rest := by
  obtain ⟨name, expansion, rest, expands⟩ := h
  obtain ⟨earlier, later, split, _⟩ := expands.first
  exact ⟨(name, expansion), by simp [split], rest, expands.heads⟩

theorem commandText_ne_nil (word : Text.nextWord? (commandText line) = some (label, rest)) :
    commandText line ≠ [] := by
  intro none
  rw [none] at word
  cases word

theorem called?_of_not_expanded (h : ¬ registry.Expanded line) :
    registry.called? line = Text.nextWord? (commandText line) := by
  by_cases written : commandText line = []
  · rw [called?, ← commandText, written]
    rfl
  · have none : registry.expandCustomAliases (commandText line) = commandText line := by
      rw [expandCustomAliases, List.findSome?_eq_none_iff.mpr, Option.getD_none]
      intro other mem
      rw [Option.map_eq_none_iff, Option.eq_none_iff_forall_ne_some]
      intro rest stripped
      exact h (expanded_of_heads written mem (CustomAlias.strip?_eq_some_iff.mp stripped))
    rw [called?, ← commandText, none, if_neg (by simpa using written)]

/-- A handler is called for a line that fits, once, and for no other line; mistakes of the user are
replies, and an error is the handler's own. The label is the first word of the line, or of what a
custom alias makes of it. -/
theorem dispatch_answers (registry : Registry) (line : Text) :
    (∃ calls, (registry.dispatchWith record line).run [] = (registry.dispatch line, calls) ∧
      registry.Answers line calls (registry.dispatch line)) ∧
    (∀ error, registry.dispatch line = .error error ↔
      ∃ label rest command, registry.Calls line label rest command ∧
        (command.grammar.bind rest).status = .complete ∧
        (command.handler ⟨label, command.grammar.bind rest⟩).error? = some (.internal error)) ∧
    (Text.trim line = [] ∨ Text.trim line = ['/'] → registry.dispatch line = .ok []) ∧
    (∀ label rest command, registry.Calls line label rest command → ∀ name,
      (command.grammar.bind rest).status = .invalidArgument name →
        ∃ binding, (command.grammar.bind rest).get name = .ok binding) ∧
    (∀ name expansion rest, registry.Expands line name expansion rest →
      registry.called? line = Text.nextWord? (CustomAlias.expand expansion rest)) ∧
    (¬ registry.Expanded line → registry.called? line = Text.nextWord? (commandText line)) := by
  refine ⟨registry.exists_answers line, fun error => dispatch_eq_error_iff, ?_, ?_, ?_, ?_⟩
  · intro blank
    rw [dispatch, dispatchWith_nowhere (called?_of_blank blank)]
    rfl
  · intro label rest command _ name refused
    obtain ⟨last, run⟩ := command.grammar.run_exists rest
    exact run.exists_get refused
  · exact fun name expansion rest expands => expands.called?_eq
  · exact called?_of_not_expanded

theorem expanded_of_plain (stored : (name, expansion) ∈ registry.customAliases)
    (isWord : Text.IsWord name) (plain : Text.IsPlain name)
    (word : Text.nextWord? (commandText line) = some (label, rest)) (plainLabel : Text.IsPlain label)
    (same : Text.sameIgnoringCase label name)
    (starts : Text.startsBlank (commandText line) = false) : registry.Expanded line := by
  have size := plainLabel.byteSize_eq_of_sameIgnoringCase plain same
  exact expanded_of_heads (commandText_ne_nil word) stored
    ((CustomAlias.heads_iff isWord word same).mpr ⟨starts, size, rfl⟩)

/-- A line whose first word is a custom alias, up to case, is expanded if the alias is cut off where
that word ends, or if another alias stands there. Otherwise the word is taken for a label. -/
theorem expanded_iff (stored : (name, expansion) ∈ registry.customAliases)
    (isWord : Text.IsWord name) (word : Text.nextWord? (commandText line) = some (label, rest))
    (same : Text.sameIgnoringCase label name) :
    (registry.Expanded line ↔
      (Text.startsBlank (commandText line) = false ∧ Text.byteSize label = Text.byteSize name) ∨
        ∃ other ∈ registry.customAliases, other.1 ≠ name ∧
          ∃ after, CustomAlias.Heads other.1 (commandText line) after) ∧
    (∀ name expansion after, registry.Expands line name expansion after →
      registry.called? line = Text.nextWord? (CustomAlias.expand expansion after)) ∧
    (¬ registry.Expanded line → registry.called? line = some (label, rest)) := by
  have written := commandText_ne_nil word
  refine ⟨⟨?_, ?_⟩, fun _ _ _ expands => expands.called?_eq, ?_⟩
  · intro expanded
    obtain ⟨other, mem, after, heads⟩ := expanded.exists_heads
    by_cases named : other.1 = name
    · rw [named] at heads
      obtain ⟨starts, size, _⟩ := (CustomAlias.heads_iff isWord word same).mp heads
      exact .inl ⟨starts, size⟩
    · exact .inr ⟨other, mem, named, after, heads⟩
  · rintro (⟨starts, size⟩ | ⟨other, mem, _, after, heads⟩)
    · exact expanded_of_heads written stored
        ((CustomAlias.heads_iff isWord word same).mpr ⟨starts, size, rfl⟩)
    · exact expanded_of_heads written mem heads
  · exact fun none => (called?_of_not_expanded none).trans word

def lettered : Registry := { empty.enrolled bareSet with customAliases := [(['k'], setExpansion)] }

theorem lettered_reachable : lettered.Reachable := by
  have call : (enroll bareSet.names bareSet.grammar bareSet.handler).run empty =
      .ok () (empty.enrolled bareSet) := rfl
  have added : (empty.enrolled bareSet).addCustomAlias? ['k'] setExpansion = some lettered := rfl
  exact .addCustomAlias (.enroll .empty call) added

theorem expanded_of_capital :
    (['k'], setExpansion) ∈ lettered.customAliases ∧ Text.IsWord ['k'] ∧
      Text.nextWord? (commandText ['/', 'K', ' ', '1']) = some (['K'], [' ', '1']) ∧
      Text.sameIgnoringCase ['K'] ['k'] ∧ lettered.Expanded ['/', 'K', ' ', '1'] := by
  have stored : (['k'], setExpansion) ∈ lettered.customAliases := List.mem_cons_self
  have isWord : Text.IsWord ['k'] := by decide
  have word : Text.nextWord? (commandText ['/', 'K', ' ', '1']) = some (['K'], [' ', '1']) := by
    decide
  have same : Text.sameIgnoringCase ['K'] ['k'] := by decide +kernel
  exact ⟨stored, isWord, word, same,
    (expanded_iff stored isWord word same).1.mpr (.inl (by decide))⟩

theorem not_expanded_of_strip? (h : ∀ other ∈ registry.customAliases,
    CustomAlias.strip? (commandText line) other.1 = none) : ¬ registry.Expanded line := by
  intro expanded
  obtain ⟨other, mem, rest, heads⟩ := expanded.exists_heads
  cases (h other mem).symm.trans (CustomAlias.strip?_eq_some_iff.mpr heads)

/-- Blanks behind the slash hide an alias, and so does a capital of another size, here the sign of
the unit kelvin: the line is called by a label that no command has. -/
theorem not_expanded_of_blank_or_kelvin :
    lettered.Reachable ∧ (['k'], setExpansion) ∈ lettered.customAliases ∧ Text.IsWord ['k'] ∧
      (Text.nextWord? (commandText ['/', ' ', 'k']) = some (['k'], []) ∧
        ¬ lettered.Expanded ['/', ' ', 'k'] ∧
        lettered.dispatch ['/', ' ', 'k'] = .ok [.error (Text.of "Command not found!")]) ∧
      Text.nextWord? (commandText ['\u212A']) = some (['\u212A'], []) ∧
      Text.sameIgnoringCase ['\u212A'] ['k'] ∧ ¬ lettered.Expanded ['\u212A'] ∧
      lettered.dispatch ['\u212A'] = .ok [.error (Text.of "Command not found!")] := by
  have blank : ¬ lettered.Expanded ['/', ' ', 'k'] :=
    not_expanded_of_strip? (List.forall_mem_singleton.mpr (by decide))
  have kelvin : ¬ lettered.Expanded ['\u212A'] :=
    not_expanded_of_strip? (List.forall_mem_singleton.mpr (by decide))
  have word : Text.nextWord? (commandText ['/', ' ', 'k']) = some (['k'], []) := by decide
  have word' : Text.nextWord? (commandText ['\u212A']) = some (['\u212A'], []) := by decide
  have lower : Text.lowerCase ['\u212A'] = ['k'] := by decide +kernel
  have missing : lettered.get? ['k'] = none := rfl
  have missing' : lettered.get? ['\u212A'] = none := by rw [get?, number?, lower]; rfl
  refine ⟨lettered_reachable, List.mem_cons_self, by decide, ⟨word, blank, ?_⟩, word', ?_, kelvin,
    ?_⟩
  · rw [dispatch, dispatchWith_astray ((called?_of_not_expanded blank).trans word) missing]
    rfl
  · rw [Text.sameIgnoringCase, lower]
    rfl
  · rw [dispatch, dispatchWith_astray ((called?_of_not_expanded kelvin).trans word') missing']
    rfl

end Registry

end Console
