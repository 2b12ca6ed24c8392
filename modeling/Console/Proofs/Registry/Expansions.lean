import Console.Proofs.Registry.Answers
import Console.Proofs.Registry.Histories

namespace Console

variable {line rest label tail name expansion text s t : Text} {registry : Registry}

namespace CustomAlias

/-- A text with every placeholder replaced, none of which lies in what replaces another. -/
def Fills (rest tail text : Text) : Prop :=
  ∃ parts : List Text, (∀ part ∈ parts, ¬ placeholder <:+: part) ∧
    joinWith placeholder parts = tail ∧ joinWith rest parts = text

theorem joinWith_cons {between part : Text} {parts : List Text} (more : parts ≠ []) :
    joinWith between (part :: parts) = part ++ (between ++ joinWith between parts) := by
  obtain ⟨next, parts, rfl⟩ := List.exists_cons_of_ne_nil more
  simp [joinWith, List.intercalate_cons_cons]

theorem joinWith_cons_cons (between : Text) (c : Char) (part : Text) (parts : List Text) :
    joinWith between ((c :: part) :: parts) = c :: joinWith between (part :: parts) := by
  cases parts with
  | nil => simp [joinWith]
  | cons => simp [joinWith, List.intercalate_cons_cons]

theorem not_placeholder_nil : ¬ placeholder <:+: [] := by decide

theorem Fills.parts_ne_nil {parts : List Text} (h : joinWith placeholder parts = s) (ne : s ≠ []) :
    parts ≠ [] := by
  rintro rfl
  exact ne h.symm

theorem fills_of_none (h : ¬ placeholder <:+: s) : Fills rest s s :=
  ⟨[s], by simpa using h, by simp [joinWith], by simp [joinWith]⟩

theorem Fills.placeholder (h : Fills rest s t) :
    Fills rest (CustomAlias.placeholder ++ s) (rest ++ t) := by
  obtain ⟨parts, plain, rfl, rfl⟩ := h
  cases parts with
  | nil => exact ⟨[[], []], by simpa using not_placeholder_nil, by simp [joinWith],
      by simp [joinWith]⟩
  | cons part parts =>
    refine ⟨[] :: part :: parts, ?_, ?_, ?_⟩
    · rw [List.forall_mem_cons]
      exact ⟨not_placeholder_nil, plain⟩
    · rw [joinWith_cons (List.cons_ne_nil part parts), List.nil_append]
    · rw [joinWith_cons (List.cons_ne_nil part parts), List.nil_append]

theorem Fills.cons {c d : Char} (h : Fills rest (d :: s) t)
    (other : [c, d] ≠ CustomAlias.placeholder) : Fills rest (c :: d :: s) (c :: t) := by
  obtain ⟨parts, plain, joined, rfl⟩ := h
  obtain ⟨part, parts, rfl⟩ :=
    List.exists_cons_of_ne_nil (Fills.parts_ne_nil joined (List.cons_ne_nil d s))
  obtain ⟨first, others⟩ := List.forall_mem_cons.mp plain
  refine ⟨(c :: part) :: parts, List.forall_mem_cons.mpr ⟨?_, others⟩, ?_, ?_⟩
  · intro within
    cases List.infix_cons_iff.mp within with
    | inr later => exact first later
    | inl here =>
      cases part with
      | nil => exact absurd here.length_le (by simp [CustomAlias.placeholder])
      | cons e part =>
        rw [joinWith_cons_cons] at joined
        obtain ⟨rfl, _⟩ := List.cons.inj joined
        have opens := List.cons_prefix_cons.mp here
        have closes := (List.cons_prefix_cons.mp opens.2).1
        exact other (by rw [← opens.1, ← closes]; rfl)
  · rw [joinWith_cons_cons, joined]
  · rw [joinWith_cons_cons]

theorem fill?_cases (rest s : Text) :
    (fill? rest s = none ∧ ¬ placeholder <:+: s) ∨
      ∃ t, fill? rest s = some t ∧ placeholder <:+: s ∧ Fills rest s t := by
  fun_induction fill? rest s with
  | case1 => exact .inl ⟨rfl, not_placeholder_nil⟩
  | case2 c => exact .inl ⟨rfl, fun h => absurd h.length_le (by simp [placeholder])⟩
  | case3 c d s opens ih =>
    right
    have split : c :: d :: s = placeholder ++ s := by rw [← opens]; rfl
    refine ⟨_, rfl, ?_, ?_⟩
    · rw [split]
      exact (List.prefix_append ..).isInfix
    · rw [split]
      rcases ih with ⟨none, plain⟩ | ⟨t, some, _, fills⟩
      · rw [none]
        exact (fills_of_none plain).placeholder
      · rw [some]
        exact fills.placeholder
  | case4 c d s other ih =>
    have later : placeholder <:+: c :: d :: s ↔ placeholder <:+: d :: s := by
      rw [List.infix_cons_iff, or_iff_right]
      intro here
      have opens := List.cons_prefix_cons.mp here
      have closes := (List.cons_prefix_cons.mp opens.2).1
      exact other (by rw [← opens.1, ← closes]; rfl)
    rcases ih with ⟨none, plain⟩ | ⟨t, some, within, fills⟩
    · exact .inl ⟨by rw [none]; rfl, mt later.mp plain⟩
    · exact .inr ⟨c :: t, by rw [some]; rfl, later.mpr within, fills.cons other⟩

theorem fill?_append (plain : ¬ placeholder <:+: s) (starts : Text.startsBlank tail) :
    fill? rest (s ++ tail) = (fill? rest tail).map (s ++ ·) := by
  induction s with
  | nil => simp
  | cons c s ih =>
    have later : fill? rest (s ++ tail) = (fill? rest tail).map (s ++ ·) :=
      ih fun within => plain (List.infix_cons within)
    cases more : s ++ tail with
    | nil =>
      obtain ⟨rfl, rfl⟩ := List.append_eq_nil_iff.mp more
      rfl
    | cons d front =>
      have other : [c, d] ≠ placeholder := by
        intro opens
        cases s with
        | nil =>
          obtain rfl : tail = d :: front := more
          obtain ⟨_, rfl⟩ : c = '\x7b' ∧ d = '\x7d' := by simpa [placeholder] using opens
          cases starts
        | cons e s =>
          obtain ⟨rfl, _⟩ := List.cons.inj more
          exact plain (opens ▸ (List.prefix_append [c, e] s).isInfix)
      rw [List.cons_append, more, fill?, if_neg other, ← more, later, Option.map_map]
      rfl

theorem startsBlank_of_fill? (h : fill? rest tail = some text) (starts : Text.startsBlank tail) :
    Text.startsBlank text := by
  fun_cases fill? rest tail with
  | case1 => cases h
  | case2 => cases h
  | case3 c d s opens =>
    obtain ⟨rfl, _⟩ : c = '\x7b' ∧ d = '\x7d' := by simpa [placeholder] using opens
    cases starts
  | case4 c d s other =>
    rw [fill?, if_neg other] at h
    obtain ⟨_, _, rfl⟩ := Option.map_eq_some_iff.mp h
    exact starts

theorem not_infix_append (plain : ¬ placeholder <:+: s) (starts : Text.startsBlank tail) :
    placeholder <:+: s ++ tail ↔ placeholder <:+: tail := by
  have split : fill? [] (s ++ tail) = (fill? [] tail).map (s ++ ·) := fill?_append plain starts
  rcases fill?_cases [] (s ++ tail) with ⟨none, without⟩ | ⟨_, some, within, _⟩
  · rcases fill?_cases [] tail with ⟨_, without'⟩ | ⟨_, some', _⟩
    · exact iff_of_false without without'
    · rw [none, some'] at split
      cases split
  · rcases fill?_cases [] tail with ⟨none', _⟩ | ⟨_, _, within', _⟩
    · rw [some, none'] at split
      cases split
    · exact iff_of_true within within'

theorem not_infix_blanks_append (blank : Text.isBlankText s) (plain : ¬ placeholder <:+: t) :
    ¬ placeholder <:+: s ++ t := by
  induction s with
  | nil => exact plain
  | cons c s ih =>
    rw [Text.isBlankText, List.all_cons, Bool.and_eq_true] at blank
    rw [List.cons_append, List.infix_cons_iff]
    rintro (here | later)
    · obtain ⟨rfl, _⟩ := List.cons_prefix_cons.mp here
      cases blank.1
    · exact ih blank.2 later

structure Completes (expansion rest tail text : Text) : Prop where
  filled : placeholder <:+: expansion → Fills rest tail text
  appended : ¬ placeholder <:+: expansion → text = tail ++ ' ' :: rest

theorem exists_nextWord?_expand (word : Text.nextWord? expansion = some (label, tail))
    (plain : ¬ placeholder <:+: label) (rest : Text) :
    ∃ text, Text.nextWord? (expand expansion rest) = some (label, text) ∧
      Completes expansion rest tail text := by
  have isWord := Text.nextWord?_isWord word
  obtain ⟨split, _, _, starts⟩ := Text.nextWord?_eq_some word
  have blank := Text.isBlankText_takeWhile expansion
  generalize expansion.takeWhile Text.isBlank = blanks at split blank
  subst split
  have front : ¬ placeholder <:+: blanks ++ label := not_infix_blanks_append blank plain
  have within := not_infix_append front starts
  rw [expand, fill?_append front starts]
  rcases fill?_cases rest tail with ⟨none, without⟩ | ⟨text, some, holds, fills⟩
  · rw [none]
    refine ⟨tail ++ ' ' :: rest, ?_, fun h => absurd (within.mp h) without, fun _ => rfl⟩
    rw [Option.map_none, Option.getD_none, List.append_assoc]
    exact Text.nextWord?_blanks_append blank isWord (Text.startsBlank_append starts rfl)
  · rw [some]
    refine ⟨text, ?_, fun _ => fills, fun h => absurd (within.mpr holds) h⟩
    exact Text.nextWord?_blanks_append blank isWord (startsBlank_of_fill? some starts)

/-- A custom alias stands at the front of a text, up to case and in as many bytes, and ends there
where a word may end. -/
def Heads (name text rest : Text) : Prop :=
  ∃ front behind, front ++ behind = text ∧ Text.byteSize front = Text.byteSize name ∧
    Text.sameIgnoringCase front name ∧ Text.startsBlank behind ∧ Text.trimStart behind = rest

theorem strip?_eq_some_iff : strip? text name = some rest ↔ Heads name text rest := by
  unfold strip?
  constructor
  · intro h
    split at h
    case h_1 => cases h
    case h_2 front behind cut =>
      obtain ⟨split, size⟩ := Text.cutAtByte?_eq_some cut
      split at h
      case isTrue same =>
        obtain ⟨same, starts⟩ := Bool.and_eq_true_iff.mp same
        exact ⟨front, behind, split, size, same, starts, Option.some.inj h⟩
      case isFalse => cases h
  · rintro ⟨front, behind, rfl, size, same, starts, rfl⟩
    simp only [← size, Text.cutAtByte?_append, same, starts]
    rfl

end CustomAlias

namespace Registry

def commandText (line : Text) : Text := stripSlash (Text.trim line)

/-- The custom alias is the first one at the front of a line. A line without text has none. -/
structure Expands (registry : Registry) (line name expansion rest : Text) : Prop where
  written : commandText line ≠ []
  first : ∃ earlier later, registry.customAliases = earlier ++ (name, expansion) :: later ∧
    ∀ other ∈ earlier, ∀ rest, ¬ CustomAlias.Heads other.1 (commandText line) rest
  heads : CustomAlias.Heads name (commandText line) rest

theorem Expands.called?_eq (expands : registry.Expands line name expansion rest) :
    registry.called? line = Text.nextWord? (CustomAlias.expand expansion rest) := by
  obtain ⟨earlier, later, stored, none⟩ := expands.first
  have skipped : earlier.findSome? (fun other =>
      (CustomAlias.strip? (commandText line) other.1).map (CustomAlias.expand other.2)) =
        Option.none := by
    rw [List.findSome?_eq_none_iff]
    intro other mem
    rw [Option.map_eq_none_iff, Option.eq_none_iff_forall_ne_some]
    intro rest here
    exact none other mem rest (CustomAlias.strip?_eq_some_iff.mp here)
  have here := CustomAlias.strip?_eq_some_iff.mpr expands.heads
  have written : (commandText line).isEmpty = false := by simpa using expands.written
  change (if (commandText line).isEmpty then Option.none
    else Text.nextWord? (registry.expandCustomAliases (commandText line))) = _
  rw [written, if_neg Bool.false_ne_true, expandCustomAliases, stored, List.findSome?_append,
    skipped, Option.none_or, List.findSome?_cons]
  simp only [here]
  rfl

/-- The first word of an expansion stands for the command that it stood for when the custom alias
was added, and a line with the alias at its front binds that command to the rest, filled in. -/
theorem Reachable.customAlias_leads (reachable : registry.Reachable)
    (stored : (name, expansion) ∈ registry.customAliases) :
    ∃ label tail number command,
      Text.nextWord? expansion = some (label, tail) ∧
      registry.number? label = some number ∧ registry.get? label = some command ∧
      (∃ before, registry.Addition name expansion before) ∧
      (∀ before, registry.Addition name expansion before →
        before.number? label = some number ∧ before.get? label = some command) ∧
      (¬ CustomAlias.placeholder <:+: label →
        ∀ line rest, registry.Expands line name expansion rest →
          ∃ text, CustomAlias.Completes expansion rest tail text ∧
            registry.Calls line label text command ∧
            registry.BindsTo line label command (command.grammar.bind text)) := by
  obtain ⟨before, addition⟩ := reachable.exists_addition stored
  obtain ⟨label, tail, number, command, word, here, found⟩ := addition.exists_target
  obtain ⟨here', found'⟩ := addition.keeps label number here
  refine ⟨label, tail, number, command, word, here', found'.trans found, ⟨before, addition⟩, ?_, ?_⟩
  · intro other addition'
    obtain ⟨label', tail', number', command', word', there, found''⟩ := addition'.exists_target
    rw [word] at word'
    cases word'
    obtain ⟨there', same⟩ := addition'.keeps label number' there
    obtain rfl : number' = number := Option.some.inj (there'.symm.trans here')
    exact ⟨there, same.symm.trans (found'.trans found)⟩
  · intro plain line rest expands
    obtain ⟨text, first, completes⟩ := CustomAlias.exists_nextWord?_expand word plain rest
    have called : registry.called? line = some (label, text) := expands.called?_eq.trans first
    have calls : registry.Calls line label text command := ⟨called, found'.trans found⟩
    exact ⟨text, completes, calls, calls.bindsTo⟩

def setExpansion : Text := ['s', 'e', 't', ' ', 'x', '\x7b', '\x7d']

def shortened : Registry :=
  { empty.enrolled bareSet with customAliases := [(['m'], setExpansion)] }

theorem customAlias_leads_to_set :
    shortened.Reachable ∧ (['m'], setExpansion) ∈ shortened.customAliases ∧
      ¬ CustomAlias.placeholder <:+: ['s', 'e', 't'] ∧
      shortened.Expands ['/', 'M', ' ', '\x7b', '\x7d'] ['m'] setExpansion ['\x7b', '\x7d'] ∧
      ∃ text, CustomAlias.Completes setExpansion ['\x7b', '\x7d'] [' ', 'x', '\x7b', '\x7d'] text ∧
        shortened.Calls ['/', 'M', ' ', '\x7b', '\x7d'] ['s', 'e', 't'] text bareSet ∧
        shortened.BindsTo ['/', 'M', ' ', '\x7b', '\x7d'] ['s', 'e', 't'] bareSet
          (bareSet.grammar.bind text) := by
  have call : (enroll bareSet.names bareSet.grammar bareSet.handler).run empty =
      .ok () (empty.enrolled bareSet) := rfl
  have added : (empty.enrolled bareSet).addCustomAlias? ['m'] setExpansion = some shortened := rfl
  have reachable : shortened.Reachable := .addCustomAlias (.enroll .empty call) added
  have stored : (['m'], setExpansion) ∈ shortened.customAliases := List.mem_cons_self
  have expands :
      shortened.Expands ['/', 'M', ' ', '\x7b', '\x7d'] ['m'] setExpansion ['\x7b', '\x7d'] :=
    ⟨by decide, ⟨[], [], rfl, nofun⟩, CustomAlias.strip?_eq_some_iff.mp (by decide)⟩
  have plain : ¬ CustomAlias.placeholder <:+: ['s', 'e', 't'] := by decide
  obtain ⟨label, tail, number, command, word, _, found, _, _, leads⟩ :=
    reachable.customAlias_leads stored
  have first : Text.nextWord? setExpansion = some (['s', 'e', 't'], [' ', 'x', '\x7b', '\x7d']) := by
    decide
  obtain ⟨rfl, rfl⟩ : label = ['s', 'e', 't'] ∧ tail = [' ', 'x', '\x7b', '\x7d'] := by
    simpa using word.symm.trans first
  have here : shortened.get? ['s', 'e', 't'] = some bareSet := rfl
  obtain rfl : bareSet = command := Option.some.inj (here.symm.trans found)
  exact ⟨reachable, stored, plain, expands, leads plain _ _ expands⟩

end Registry

end Console
