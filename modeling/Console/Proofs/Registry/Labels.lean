import Console.Proofs.Registry.Matching
import Console.Proofs.Registry.Orders
import Console.Proofs.Text.Trimming

namespace Console

variable {registry : Registry} {command : Command} {name label line tail : Text} {number : Nat}

/-- A line with a label. There may be blanks and a slash in front of it, and blanks behind the
slash; a slash that comes first is never a part of the label. A blank ends the label, or the line
does. -/
structure LabelledLine where
  lead : Text
  slash : Bool
  gap : Text
  label : Text
  tail : Text
  blankLead : Text.isBlankText lead
  blankGap : Text.isBlankText gap
  isWord : Text.IsWord label
  unslashed : slash = false → label.head? ≠ some '/'
  starts : Text.startsBlank tail

namespace LabelledLine

def rest (line : LabelledLine) : Text := line.label ++ line.tail

def text (line : LabelledLine) : Text :=
  line.lead ++ ((if line.slash then ['/'] else []) ++ (line.gap ++ line.rest))

end LabelledLine

namespace Registry

theorem stripSlash_eq_self (h : line.head? ≠ some '/') : stripSlash line = line := by
  cases line with
  | nil => rfl
  | cons c line =>
    rw [stripSlash, if_neg]
    rintro rfl
    exact h rfl

theorem stripSlash_of_isBlankText {blanks : Text} (blank : Text.isBlankText blanks)
    (ne : blanks ≠ []) (s : Text) : stripSlash (blanks ++ s) = blanks ++ s := by
  obtain ⟨c, more, rfl⟩ := List.exists_cons_of_ne_nil ne
  apply stripSlash_eq_self
  rintro ⟨⟩
  cases (List.all_eq_true.mp blank _ List.mem_cons_self : Text.isBlank '/')

end Registry

namespace LabelledLine

variable (line : LabelledLine)

theorem trimStart_rest : Text.trimStart line.rest = line.rest :=
  line.isWord.trimStart_append line.tail

theorem head?_append (h : line.slash = false) (s : Text) : (line.label ++ s).head? ≠ some '/' := by
  obtain ⟨c, more, eq⟩ := List.exists_cons_of_ne_nil line.isWord.1
  have plain := line.unslashed h
  rw [eq] at plain ⊢
  exact plain

theorem trimEnd_append_rest (front : Text) :
    Text.trimEnd (front ++ line.rest) = front ++ line.label ++ Text.trimEnd line.tail := by
  have last : ∀ c ∈ (front ++ line.label).getLast?, Text.isBlank c = false := by
    rw [List.getLast?_append, List.getLast?_eq_some_getLast line.isWord.1, Option.some_or,
      ← List.getLast?_eq_some_getLast]
    exact line.isWord.isTrimmed.last
  rw [rest, ← List.append_assoc, Text.trimEnd_append last]

theorem commandText_text : Registry.commandText line.text =
    (if line.slash then line.gap else []) ++ line.label ++ Text.trimEnd line.tail := by
  rw [Registry.commandText, text, Text.trim, Text.trimStart_blanks_append line.blankLead]
  cases h : line.slash with
  | true =>
    have written : Text.trimStart ('/' :: (line.gap ++ line.rest)) =
        '/' :: line.gap ++ line.rest := by
      rw [Text.trimStart_cons, if_neg (by decide), List.cons_append]
    rw [if_pos rfl, List.singleton_append, written, trimEnd_append_rest, if_pos rfl]
    rfl
  | false =>
    have front := line.trimEnd_append_rest []
    rw [List.nil_append, List.nil_append] at front
    rw [if_neg Bool.false_ne_true, if_neg Bool.false_ne_true, List.nil_append, List.nil_append,
      Text.trimStart_blanks_append line.blankGap, trimStart_rest, front]
    exact Registry.stripSlash_eq_self (line.head?_append h _)

theorem called?_text (plain : registry.customAliases = []) :
    registry.called? line.text = some (line.label, Text.trimEnd line.tail) := by
  have unexpanded : ¬ registry.Expanded line.text := by
    intro expanded
    obtain ⟨other, mem, _⟩ := expanded.exists_heads
    rw [plain] at mem
    cases mem
  rw [Registry.called?_of_not_expanded unexpanded, commandText_text]
  apply Text.nextWord?_blanks_append _ line.isWord (Text.startsBlank_trimEnd line.starts)
  cases line.slash with
  | true => exact line.blankGap
  | false => rfl

end LabelledLine

namespace Registry

structure Trimmed (registry : Registry) : Prop where
  front : ∀ front ∈ registry.fallbackPrefix, Text.IsTrimmed front
  names : ∀ command ∈ registry.commands, ∀ name ∈ command.names, Text.IsTrimmed name

theorem isTrimmed_of_mem_prefixedNames {front : Option Text} {names : List Text}
    (trimmed : ∀ text ∈ front, Text.IsTrimmed text) (mem : name ∈ prefixedNames front names) :
    Text.IsTrimmed name := by
  obtain ⟨given, _, rfl | ⟨text, here, rfl⟩⟩ := mem_prefixedNames.mp mem
  · exact Text.isTrimmed_trim given
  · have colon : Text.IsWord [':'] := by decide
    exact (trimmed text here).lowerCase.append
      (colon.isTrimmed.append (Text.isTrimmed_trim given))

theorem Reachable.isTrimmed_front (reachable : registry.Reachable) :
    ∀ front ∈ registry.fallbackPrefix, Text.IsTrimmed front := by
  obtain ⟨settings, later⟩ := reachable.exists_settings
  obtain ⟨_, _, _, rfl⟩ := later.exists_eq
  rw [Registry.ofSettings]
  split
  · nofun
  · rintro _ ⟨⟩
    exact Text.isTrimmed_trim _

theorem Reachable.trimmed (reachable : registry.Reachable) : registry.Trimmed where
  front := reachable.isTrimmed_front
  names command mem name listed := by
    obtain ⟨names, eq⟩ := reachable.exists_prefixedNames mem
    rw [eq] at listed
    exact isTrimmed_of_mem_prefixedNames reachable.isTrimmed_front listed

/-- The line calls the command of a number, and has no text for its arguments. -/
def CallsBare (registry : Registry) (line : Text) (number : Nat) : Prop :=
  ∃ label, registry.called? line = some (label, []) ∧ registry.number? label = some number

def slashed (label tail : Text) (isWord : Text.IsWord label) (starts : Text.startsBlank tail) :
    LabelledLine :=
  ⟨[], true, [], label, tail, rfl, rfl, isWord, nofun, starts⟩

theorem Reachable.exists_called? (reachable : registry.Reachable)
    (plain : registry.customAliases = []) (mem : command ∈ registry.commands)
    (listed : name ∈ command.names) :
    ∃ label rest, label ++ rest = name ∧ Text.IsWord label ∧ Text.startsBlank rest ∧
      registry.called? ('/' :: name) = some (label, rest) := by
  have ne := reachable.coherent.named command mem name listed
  have trimmed := reachable.trimmed.names command mem name listed
  obtain ⟨label, rest, word, split, whole⟩ := trimmed.exists_nextWord? ne
  have isWord := Text.nextWord?_isWord word
  have starts := (Text.nextWord?_eq_some word).2.2.2
  have called : registry.called? ('/' :: (label ++ rest)) = some (label, Text.trimEnd rest) :=
    (slashed label rest isWord starts).called?_text plain
  rw [split, whole] at called
  exact ⟨label, rest, split, isWord, starts, called⟩

theorem any_isBlank_append_iff (isWord : Text.IsWord label) (starts : Text.startsBlank tail) :
    (label ++ tail).any Text.isBlank ↔ tail ≠ [] := by
  have whole : label.any Text.isBlank = false := by
    simpa [List.all_eq_not_any_not] using isWord.2
  rw [List.any_append, whole, Bool.false_or]
  cases tail with
  | nil => simp
  | cons c tail => simp [show Text.isBlank c from starts]

/-- A command answers to a name that it lists, behind a slash, if there is no blank in the name.
Otherwise the line is called by the front of the name, and the rest of it is text for arguments. -/
theorem Reachable.callsBare_iff (reachable : registry.Reachable)
    (plain : registry.customAliases = []) (here : registry.commands[number]? = some command)
    (listed : name ∈ command.names) :
    (registry.CallsBare ('/' :: name) number ↔ ¬ name.any Text.isBlank) ∧
    (¬ name.any Text.isBlank →
      registry.BindsTo ('/' :: name) name command (command.grammar.bind [])) ∧
    (name.any Text.isBlank →
      ∃ label rest, label ++ rest = name ∧ rest ≠ [] ∧ Text.IsWord label ∧
        Text.startsBlank rest ∧ registry.called? ('/' :: name) = some (label, rest) ∧
        (registry.get? label = none →
          registry.dispatch ('/' :: name) = .ok [.error (Text.of "Command not found!")])) := by
  have mem := List.mem_of_getElem? here
  obtain ⟨label, rest, rfl, isWord, starts, called⟩ := reachable.exists_called? plain mem listed
  have stands := (reachable.coherent.resolves _ number).mpr
    ⟨command, here, Command.answersTo_of_mem listed⟩
  rw [any_isBlank_append_iff isWord starts, not_ne_iff]
  refine ⟨⟨?_, ?_⟩, ?_, fun behind => ?_⟩
  · rintro ⟨other, called', _⟩
    exact congrArg Prod.snd (Option.some.inj (called.symm.trans called'))
  · rintro rfl
    rw [List.append_nil] at called stands ⊢
    exact ⟨label, called, stands⟩
  · rintro rfl
    rw [List.append_nil] at called stands ⊢
    exact Calls.bindsTo ⟨called, (get?_eq_of_number? stands).trans here⟩
  · refine ⟨label, rest, rfl, behind, isWord, starts, called, fun missing => ?_⟩
    rw [dispatch, dispatchWith_astray called missing]
    rfl

def wordySet : Command :=
  ⟨prefixedNames (some ['A', ' ', 'B']) [['S', 'e', 't'], ['s', 'e', 't', ' ', 'u', 'p']],
    bareSet.grammar, bareSet.handler⟩

def wordy : Registry :=
  (ofSettings { Settings.standard with fallbackPrefix := ['A', ' ', 'B'] }).enrolled wordySet

theorem wordy_reachable : wordy.Reachable := by
  have call : (enroll [['S', 'e', 't'], ['s', 'e', 't', ' ', 'u', 'p']] bareSet.grammar
      bareSet.handler).run (ofSettings { Settings.standard with
        fallbackPrefix := ['A', ' ', 'B'] }) = .ok () wordy := rfl
  exact .enroll (.ofSettings _) call

theorem callsBare_of_set :
    wordy.commands[0]? = some wordySet ∧ ['S', 'e', 't'] ∈ wordySet.names ∧
      wordy.CallsBare ['/', 'S', 'e', 't'] 0 := by
  have here : wordy.commands[0]? = some wordySet := rfl
  have listed : ['S', 'e', 't'] ∈ wordySet.names := by decide +kernel
  exact ⟨here, listed, (wordy_reachable.callsBare_iff rfl here listed).1.mpr (by decide)⟩

/-- A registration takes names with blanks inside, be it in the name or in the prefix, but no line
calls the command by them. -/
theorem not_callsBare_of_blank :
    wordy.Reachable ∧ wordy.customAliases = [] ∧ wordy.commands[0]? = some wordySet ∧
      (['s', 'e', 't', ' ', 'u', 'p'] ∈ wordySet.names ∧
        ¬ wordy.CallsBare ['/', 's', 'e', 't', ' ', 'u', 'p'] 0) ∧
      ['a', ' ', 'b', ':', 'S', 'e', 't'] ∈ wordySet.names ∧
      ¬ wordy.CallsBare ['/', 'a', ' ', 'b', ':', 'S', 'e', 't'] 0 ∧
      wordy.dispatch ['/', 'a', ' ', 'b', ':', 'S', 'e', 't'] =
        .ok [.error (Text.of "Command not found!")] := by
  have called : wordy.called? ['/', 's', 'e', 't', ' ', 'u', 'p'] =
      some (['s', 'e', 't'], [' ', 'u', 'p']) := by decide +kernel
  have called' : wordy.called? ['/', 'a', ' ', 'b', ':', 'S', 'e', 't'] =
      some (['a'], [' ', 'b', ':', 'S', 'e', 't']) := by decide +kernel
  have missing : wordy.number? ['a'] = none := by decide +kernel
  refine ⟨wordy_reachable, rfl, rfl, ⟨by decide +kernel, ?_⟩, by decide +kernel, ?_, ?_⟩
  · rintro ⟨label, bare, _⟩
    cases called.symm.trans bare
  · rintro ⟨label, bare, _⟩
    cases called'.symm.trans bare
  · rw [dispatch, dispatchWith_astray called' (by rw [get?, missing]; rfl)]
    rfl

theorem Coherent.get?_nil (coherent : registry.Coherent) : registry.get? [] = none := by
  rw [Option.eq_none_iff_forall_ne_some]
  intro command found
  obtain ⟨mem, answers⟩ := coherent.get?_eq_some_iff.mp found
  obtain ⟨listed, mem', same⟩ := List.any_eq_true.mp answers
  exact coherent.named command mem listed mem' ((Text.eq_nil_iff_of_sameIgnoringCase same).mp rfl)

theorem Coherent.allCompletions_of_blank (coherent : registry.Coherent) {blanks s : Text}
    (blank : Text.isBlankText blanks) (ne : blanks ≠ []) (strip : stripSlash line = blanks ++ s) :
    registry.allCompletions line = [] := by
  obtain ⟨c, more, rfl⟩ := List.exists_cons_of_ne_nil ne
  have first : Text.isBlank c := List.all_eq_true.mp blank c List.mem_cons_self
  simp [allCompletions, strip, first, coherent.get?_nil]

theorem allCompletions_of_word (isWord : Text.IsWord label) (starts : Text.startsBlank tail)
    (behind : tail ≠ []) (strip : stripSlash line = label ++ tail)
    (found : registry.get? label = some command) :
    registry.allCompletions line = command.grammar.completeLine tail := by
  obtain ⟨front, rest⟩ : (label ++ tail).takeWhile (!Text.isBlank ·) = label ∧
      (label ++ tail).dropWhile (!Text.isBlank ·) = tail := by
    have word := Text.nextWord?_blanks_append (s := []) rfl isWord starts
    rw [List.nil_append, Text.nextWord?, isWord.trimStart_append] at word
    split at word
    · cases word
    · simpa using word
  rw [allCompletions, strip]
  simp only [front, rest, found]

end Registry

namespace LabelledLine

variable (line : LabelledLine)

theorem stripSlash_text (tight : line.lead = [] ∧ line.gap = []) :
    Registry.stripSlash line.text = line.rest := by
  rw [text, tight.1, tight.2, List.nil_append, List.nil_append]
  cases h : line.slash with
  | true => rfl
  | false => exact Registry.stripSlash_eq_self (line.head?_append h _)

theorem exists_stripSlash_text (loose : ¬ (line.lead = [] ∧ line.gap = [])) :
    ∃ blanks s, Text.isBlankText blanks ∧ blanks ≠ [] ∧
      Registry.stripSlash line.text = blanks ++ s := by
  by_cases lead : line.lead = []
  · have gap : line.gap ≠ [] := fun gap => loose ⟨lead, gap⟩
    refine ⟨line.gap, line.rest, line.blankGap, gap, ?_⟩
    rw [text, lead, List.nil_append]
    cases line.slash with
    | true => rfl
    | false => exact Registry.stripSlash_of_isBlankText line.blankGap gap line.rest
  · exact ⟨_, _, line.blankLead, lead, Registry.stripSlash_of_isBlankText line.blankLead lead _⟩

end LabelledLine

namespace Registry

/-- A line whose label dispatch finds is completed by the command's grammar if no blank stands in
front of the label. Otherwise there are no completions. -/
theorem Reachable.complete_labelled_iff (reachable : registry.Reachable)
    (plain : registry.customAliases = []) (unlimited : registry.maxSuggestions = 0)
    (line : LabelledLine) (behind : line.tail ≠ [])
    (found : registry.get? line.label = some command) :
    registry.Calls line.text line.label (Text.trimEnd line.tail) command ∧
      (registry.complete line.text = command.grammar.completeLine line.tail ↔
        line.lead = [] ∧ line.gap = [] ∨ command.grammar.completeLine line.tail = []) ∧
      (¬ (line.lead = [] ∧ line.gap = []) → registry.complete line.text = []) := by
  have all : registry.complete line.text = registry.allCompletions line.text := by
    rw [complete, if_pos unlimited]
  refine ⟨⟨line.called?_text plain, found⟩, ?_⟩
  rw [all]
  by_cases tight : line.lead = [] ∧ line.gap = []
  · have same := allCompletions_of_word line.isWord line.starts behind
      (line.stripSlash_text tight) found
    simp [tight, same]
  · obtain ⟨blanks, s, blank, ne, strip⟩ := line.exists_stripSlash_text tight
    have none := reachable.coherent.allCompletions_of_blank blank ne strip
    rw [none, eq_comm]
    simp [tight]

def mail : Command :=
  ⟨[['m', 'a', 'i', 'l']], ⟨[⟨['s', 'e', 'n', 'd'], .literal, true, []⟩], false, rfl⟩,
    fun _ => ⟨[], none⟩⟩

def mailing : Registry := empty.enrolled mail

theorem mailing_reachable : mailing.Reachable := by
  have call : (enroll mail.names mail.grammar mail.handler).run empty = .ok () mailing := rfl
  exact .enroll .empty call

theorem complete_labelled_of_slash :
    mailing.get? ['m', 'a', 'i', 'l'] = some mail ∧
      mailing.complete ['/', 'm', 'a', 'i', 'l', ' '] = mail.grammar.completeLine [' '] := by
  have found : mailing.get? ['m', 'a', 'i', 'l'] = some mail := rfl
  have all := mailing_reachable.complete_labelled_iff rfl rfl
    (slashed ['m', 'a', 'i', 'l'] [' '] (by decide) rfl) (by decide) found
  exact ⟨found, all.2.1.mpr (.inl ⟨rfl, rfl⟩)⟩

/-- Dispatch skips blanks in front of a label, or between a slash and the label. Completion takes
the label to be empty. -/
theorem not_complete_labelled_of_blank :
    mailing.Reachable ∧ mailing.customAliases = [] ∧ mailing.maxSuggestions = 0 ∧
      mail.grammar.completeLine [' '] = [['s', 'e', 'n', 'd']] ∧
      (mailing.Calls [' ', 'm', 'a', 'i', 'l', ' '] ['m', 'a', 'i', 'l'] [] mail ∧
        mailing.complete [' ', 'm', 'a', 'i', 'l', ' '] = []) ∧
      mailing.Calls ['/', ' ', 'm', 'a', 'i', 'l', ' '] ['m', 'a', 'i', 'l'] [] mail ∧
      mailing.complete ['/', ' ', 'm', 'a', 'i', 'l', ' '] = [] :=
  ⟨mailing_reachable, rfl, rfl, by decide, ⟨⟨rfl, rfl⟩, rfl⟩, ⟨rfl, rfl⟩, rfl⟩

end Registry

end Console
