import Console.Proofs.Registry.Answers
import Console.Proofs.Registry.Names

namespace Console

variable {line rest label name : Text} {last : Cursor} {grammar : Grammar} {registry : Registry}
  {binding : Binding} {failure : ParseFailure} {command : Command}

namespace Grammar

def PassedAs (grammar : Grammar) (line name : Text) : Prop :=
  ∃ passed ∈ grammar.typedPassed (grammar.bind line), passed.2.name = name

structure Refuses (grammar : Grammar) (line : Text) (binding : Binding) (failure : ParseFailure) :
    Prop where
  listed : binding ∈ (grammar.bind line).bindings
  blamed : grammar.blamed? (grammar.bind line) = some binding.located
  failed : binding.attempt.failure? = some failure

namespace Run

theorem exists_refuses (run : grammar.Run line last)
    (h : (grammar.bind line).status = .invalidArgument name) :
    ∃ binding failure, grammar.Refuses line binding failure := by
  obtain ⟨binding, listed, -, blamed⟩ := run.exists_blamed h
  cases run.outcome listed with
  | bound _ blameless => exact absurd blamed blameless
  | rejected _ _ holds => exact ⟨binding, _, listed, blamed, by rw [holds]; rfl⟩
  | unreached _ blameless => exact absurd blamed blameless

theorem name_of_refuses (run : grammar.Run line last)
    (h : (grammar.bind line).status = .invalidArgument name)
    (refuses : grammar.Refuses line binding failure) : binding.name = name := by
  obtain ⟨path, node, blamed, named⟩ := (run.status_eq_invalidArgument_iff name).mp h
  rw [refuses.blamed] at blamed
  cases blamed
  exact named

theorem get_of_passedAs (run : grammar.Run line last) (h : grammar.PassedAs line name) :
    ∃ binding, (grammar.bind line).get name = .ok binding ∧
      binding.attempt.failure? = none := by
  obtain ⟨passed, mem, named⟩ := h
  have found : ((grammar.typedPassed (grammar.bind line)).find? (·.2.name == name)).isSome :=
    List.find?_isSome.mpr ⟨passed, mem, beq_iff_eq.mpr named⟩
  obtain ⟨first, found⟩ := Option.isSome_iff_exists.mp found
  have reached : (grammar.tried (grammar.bind line)).find? (·.2.name == name) = some first := by
    rw [tried, List.find?_append, found, Option.some_or]
  obtain ⟨binding, listed, here, eq⟩ := run.get_of_find? reached
  refine ⟨binding, eq, ?_⟩
  have passed : binding.located ∈ grammar.typedPassed (grammar.bind line) :=
    here ▸ List.mem_of_find?_eq_some found
  cases run.outcome listed with
  | bound _ _ holds => simp [holds]
  | rejected beside => exact absurd passed beside
  | unreached beside => exact absurd passed beside

theorem get_of_refuses (run : grammar.Run line last)
    (refuses : grammar.Refuses line binding failure) (h : ¬ grammar.PassedAs line binding.name) :
    (grammar.bind line).get binding.name = .ok binding := by
  have fresh :
      (grammar.typedPassed (grammar.bind line)).find? (·.2.name == binding.name) = none := by
    rw [List.find?_eq_none]
    intro passed mem named
    exact h ⟨passed, mem, beq_iff_eq.mp named⟩
  have reached : (grammar.tried (grammar.bind line)).find? (·.2.name == binding.name) =
      some binding.located := by
    rw [tried, List.find?_append, fresh, refuses.blamed]
    simp [Binding.located, Binding.name]
  obtain ⟨other, listed, here, eq⟩ := run.get_of_find? reached
  rw [eq, binding_unique listed refuses.listed (congrArg Prod.fst here)]

end Run

end Grammar

namespace Registry

theorem mistake?_of_refuses (run : grammar.Run line last)
    (h : (grammar.bind line).status = .invalidArgument name)
    (refuses : grammar.Refuses line binding failure) :
    ∃ what, mistake? (grammar.bind line) = .ok (some (Text.of "Invalid argument: " ++ what)) ∧
      (what = failure.message ↔ ¬ grammar.PassedAs line name ∨ name = failure.message) := by
  simp only [mistake?, h]
  by_cases passed : grammar.PassedAs line name
  · obtain ⟨other, found, unfailed⟩ := run.get_of_passedAs passed
    refine ⟨name, ?_, by simp [passed]⟩
    simp only [found, Except.map, unfailed, Option.map_none, Option.getD_none]
  · obtain rfl := run.name_of_refuses h refuses
    refine ⟨failure.message, ?_, by simp [passed]⟩
    simp only [run.get_of_refuses refuses passed, Except.map, refuses.failed, Option.map_some,
      Option.getD_some]

def Reports (registry : Registry) (line : Text) (failure : ParseFailure) : Prop :=
  ∃ more, registry.dispatch line =
    .ok (.error (Text.of "Invalid argument: " ++ failure.message) :: more)

/-- The failure is reported unless an argument passed before it goes by the same name. -/
theorem reports_iff (calls : registry.Calls line label rest command)
    (refused : (command.grammar.bind rest).status = .invalidArgument name) :
    (∃ binding failure, command.grammar.Refuses rest binding failure) ∧
      ∀ binding failure, command.grammar.Refuses rest binding failure →
        (registry.Reports line failure ↔
          ¬ command.grammar.PassedAs rest name ∨ name = failure.message) := by
  obtain ⟨last, run⟩ := command.grammar.run_exists rest
  refine ⟨run.exists_refuses refused, fun binding failure refuses => ?_⟩
  obtain ⟨what, mistake, same⟩ := mistake?_of_refuses run refused refuses
  have answer : registry.dispatch line = .ok _ := dispatchWith_amiss calls mistake
  rw [Reports, answer, ← same]
  simp

def setCommand (grammar : Grammar) : Command :=
  ⟨[['s', 'e', 't']], grammar, fun _ => ⟨[], none⟩⟩

def setting (grammar : Grammar) : Registry := empty.enrolled (setCommand grammar)

def digit (below : List Node) : Node := ⟨['n'], .typed (.integer 0 9) none, true, below⟩

def oneDigit : Grammar := ⟨[digit []], false, rfl⟩

def twoDigits : Grammar := ⟨[digit [digit []]], false, rfl⟩

def noDigit : ParseFailure := ⟨.badInteger, ['x']⟩

theorem reports_of_first_digit :
    (setting oneDigit).Calls ['s', 'e', 't', ' ', 'x'] ['s', 'e', 't'] [' ', 'x']
        (setCommand oneDigit) ∧
      (oneDigit.bind [' ', 'x']).status = .invalidArgument ['n'] ∧
      (setting oneDigit).Reports ['s', 'e', 't', ' ', 'x'] noDigit := by
  have calls : (setting oneDigit).Calls ['s', 'e', 't', ' ', 'x'] ['s', 'e', 't'] [' ', 'x']
      (setCommand oneDigit) := ⟨by decide, rfl⟩
  have refused : (oneDigit.bind [' ', 'x']).status = .invalidArgument ['n'] := by decide
  have refuses : oneDigit.Refuses [' ', 'x']
      ⟨⟨[0], digit [], 0⟩, .rejected ['x'] (.index 0) noDigit⟩ noDigit :=
    ⟨List.mem_cons_self, rfl, rfl⟩
  obtain ⟨_, reports⟩ := reports_iff calls refused
  refine ⟨calls, refused, (reports _ _ refuses).mpr (.inl ?_)⟩
  rintro ⟨passed, mem, _⟩
  cases mem

/-- The second digit is refused, and only its name is reported, as that of the first. -/
theorem not_reports_of_second_digit :
    (setting twoDigits).Calls ['s', 'e', 't', ' ', '1', ' ', 'x'] ['s', 'e', 't']
        [' ', '1', ' ', 'x'] (setCommand twoDigits) ∧
      (twoDigits.bind [' ', '1', ' ', 'x']).status = .invalidArgument ['n'] ∧
      twoDigits.Refuses [' ', '1', ' ', 'x']
        ⟨⟨[0, 0], digit [], 1⟩, .rejected ['x'] (.index 1) noDigit⟩ noDigit ∧
      ¬ (setting twoDigits).Reports ['s', 'e', 't', ' ', '1', ' ', 'x'] noDigit := by
  refine ⟨⟨by decide, rfl⟩, by decide, ⟨?_, rfl, rfl⟩, ?_⟩
  · exact List.mem_cons_of_mem _ List.mem_cons_self
  · rintro ⟨more, reported⟩
    have answer : (setting twoDigits).dispatch ['s', 'e', 't', ' ', '1', ' ', 'x'] =
        .ok [.error (Text.of "Invalid argument: " ++ ['n']),
          .info (Text.of "Usage: " ++ twoDigits.commandUsage ['s', 'e', 't'])] := rfl
    rw [answer] at reported
    have same : ['n'] = noDigit.message := by
      simpa using (List.cons.inj (Except.ok.inj reported)).1
    simpa [noDigit, ParseFailure.message] using congrArg List.getLast? same

end Registry

end Console
