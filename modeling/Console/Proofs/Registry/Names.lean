import Console.Registry.Basic
import Mathlib.Data.List.Basic

/-!
Names in a registry. Whatever was registered, in whatever order, the index agrees with what the
commands list: `Reachable.coherent`, by one case for each call. `enroll_cases` is the only proof
that opens a registration.
-/

namespace Console

variable {registry after : Registry} {command : Command} {name : Text} {number : Nat}
  {grammar : Grammar} {handler : Handler}

theorem Command.answersTo_iff :
    command.answersTo name ↔
      ∃ listed ∈ command.names, Text.lowerCase listed = Text.lowerCase name := by
  simp only [answersTo, Text.sameIgnoringCase, List.any_eq_true, beq_iff_eq,
    eq_comm (a := Text.lowerCase name)]

theorem Command.answersTo_of_mem (h : name ∈ command.names) : command.answersTo name :=
  answersTo_iff.mpr ⟨name, h, rfl⟩

namespace Registry

def enterAll (registry : Registry) (names : List Text) : Registry := names.foldl enter registry

def enrolled (registry : Registry) (command : Command) : Registry :=
  (registry.enterAll command.names).push command

theorem exists_enrolled_eq (registry : Registry) (command : Command) :
    ∃ index, registry.enrolled command =
      { registry with commands := registry.commands ++ [command], index := index } := by
  have entered (names : List Text) : ∃ index, registry.enterAll names =
      { registry with index := index } := by
    induction names generalizing registry with
    | nil => exact ⟨registry.index, rfl⟩
    | cons name names ih =>
      obtain ⟨index, eq⟩ := ih (registry.enter name)
      exact ⟨index, eq⟩
  obtain ⟨index, eq⟩ := entered command.names
  exact ⟨index, by rw [enrolled, eq]; rfl⟩

@[simp] theorem commands_enrolled (registry : Registry) (command : Command) :
    (registry.enrolled command).commands = registry.commands ++ [command] := by
  obtain ⟨index, eq⟩ := exists_enrolled_eq registry command
  rw [eq]

@[simp] theorem customAliases_enrolled (registry : Registry) (command : Command) :
    (registry.enrolled command).customAliases = registry.customAliases := by
  obtain ⟨index, eq⟩ := exists_enrolled_eq registry command
  rw [eq]

@[simp] theorem fallbackPrefix_enrolled (registry : Registry) (command : Command) :
    (registry.enrolled command).fallbackPrefix = registry.fallbackPrefix := by
  obtain ⟨index, eq⟩ := exists_enrolled_eq registry command
  rw [eq]

theorem number?_enter (registry : Registry) (first name : Text) :
    (registry.enter first).number? name =
      if Text.sameIgnoringCase name first then some registry.commands.length
      else registry.number? name := by
  rw [number?, enter, List.lookup_cons, Text.sameIgnoringCase]
  cases Text.lowerCase name == Text.lowerCase first <;> rfl

theorem number?_enterAll (registry : Registry) (names : List Text) (name : Text) :
    (registry.enterAll names).number? name =
      if names.any (Text.sameIgnoringCase name) then some registry.commands.length
      else registry.number? name := by
  induction names generalizing registry with
  | nil => rfl
  | cons first names ih =>
    change ((registry.enter first).enterAll names).number? name = _
    rw [ih, number?_enter, List.any_cons]
    cases Text.sameIgnoringCase name first <;> cases names.any (Text.sameIgnoringCase name) <;> rfl

theorem number?_enrolled (registry : Registry) (command : Command) (name : Text) :
    (registry.enrolled command).number? name =
      if command.answersTo name then some registry.commands.length else registry.number? name :=
  number?_enterAll registry command.names name

theorem run_forM_enter (registry : Registry) (names : List Text) :
    (names.forM fun name => (modify (·.enter name) : EStateM InternalError Registry Unit)).run
      registry = .ok () (registry.enterAll names) := by
  induction names generalizing registry with
  | nil => rfl
  | cons first names ih => exact ih (registry.enter first)

inductive Enrolls (registry : Registry) (names : List Text) (grammar : Grammar)
    (handler : Handler) : EStateM.Result InternalError Registry Unit → Prop
  | nameless (h : names = [] ∨ [] ∈ names) :
      Enrolls registry names grammar handler (.error .emptyName registry)
  | taken {taken : Text} (named : ¬ (names = [] ∨ [] ∈ names))
      (first : names.find? (fun name => (registry.number? name).isSome) = some taken) :
      Enrolls registry names grammar handler (.error (.aliasTaken taken) registry)
  | added (named : ¬ (names = [] ∨ [] ∈ names))
      (free : ∀ name ∈ names, registry.number? name = none) :
      Enrolls registry names grammar handler (.ok () (registry.enrolled ⟨names, grammar, handler⟩))

theorem nameless_iff {names : List Text} :
    (names.isEmpty || names.any (·.isEmpty)) = true ↔ names = [] ∨ [] ∈ names := by
  simp

theorem enroll_cases (registry : Registry) (names : List Text) (grammar : Grammar)
    (handler : Handler) :
    Enrolls registry (prefixedNames registry.fallbackPrefix names) grammar handler
      ((enroll names grammar handler).run registry) := by
  simp only [enroll, EStateM.run_bind, EStateM.run_get]
  -- All checks look at the names as they will be listed.
  generalize prefixedNames registry.fallbackPrefix names = all
  split
  case isTrue h => exact .nameless (nameless_iff.mp h)
  case isFalse h =>
    have named := mt nameless_iff.mpr h
    split
    case h_1 taken first => exact .taken named first
    case h_2 none =>
      simp only [EStateM.run_bind, run_forM_enter]
      refine .added named fun name mem => ?_
      simpa using List.find?_eq_none.mp none name mem

theorem enroll_eq_ok {names : List Text}
    (call : (enroll names grammar handler).run registry = .ok () after) :
    ¬ (prefixedNames registry.fallbackPrefix names = [] ∨
        [] ∈ prefixedNames registry.fallbackPrefix names) ∧
      (∀ name ∈ prefixedNames registry.fallbackPrefix names, registry.number? name = none) ∧
      after = registry.enrolled
        ⟨prefixedNames registry.fallbackPrefix names, grammar, handler⟩ := by
  have made := enroll_cases registry names grammar handler
  rw [call] at made
  cases made with
  | added named free => exact ⟨named, free, rfl⟩

theorem enroll_of_free {names : List Text}
    (named : ¬ (prefixedNames registry.fallbackPrefix names = [] ∨
      [] ∈ prefixedNames registry.fallbackPrefix names))
    (free : ∀ name ∈ prefixedNames registry.fallbackPrefix names, registry.number? name = none) :
    (enroll names grammar handler).run registry = .ok ()
      (registry.enrolled ⟨prefixedNames registry.fallbackPrefix names, grammar, handler⟩) := by
  have made := enroll_cases registry names grammar handler
  generalize (enroll names grammar handler).run registry = result at made
  cases made with
  | nameless nameless => exact absurd nameless named
  | taken _ first =>
    have known := List.find?_some first
    rw [free _ (List.mem_of_find?_eq_some first)] at known
    cases known
  | added => rfl

theorem enroll_eq_error {names : List Text} {error : InternalError}
    (call : (enroll names grammar handler).run registry = .error error after) :
    after = registry ∧ (error = .emptyName ∨ ∃ taken, error = .aliasTaken taken) := by
  have made := enroll_cases registry names grammar handler
  rw [call] at made
  cases made with
  | nameless => exact ⟨rfl, .inl rfl⟩
  | taken => exact ⟨rfl, .inr ⟨_, rfl⟩⟩

structure Coherent (registry : Registry) : Prop where
  resolves : ∀ name number, registry.number? name = some number ↔
    ∃ command, registry.commands[number]? = some command ∧ command.answersTo name
  named : ∀ command ∈ registry.commands, ∀ name ∈ command.names, name ≠ []

theorem Coherent.of_eq (coherent : registry.Coherent) (index : after.index = registry.index)
    (commands : after.commands = registry.commands) : after.Coherent where
  resolves name number := by
    rw [number?, index, commands]
    exact coherent.resolves name number
  named := by
    rw [commands]
    exact coherent.named

theorem coherent_empty : empty.Coherent where
  resolves name number := by simp [empty, number?]
  named command h := by cases h

theorem not_answersTo_of_free (free : ∀ name ∈ command.names, registry.number? name = none)
    (h : registry.number? name = some number) : ¬ command.answersTo name := by
  intro answers
  obtain ⟨listed, mem, same⟩ := Command.answersTo_iff.mp answers
  have new := free listed mem
  rw [number?, same, ← number?, h] at new
  cases new

theorem getElem?_concat_eq_some_iff {commands : List Command} {other : Command} :
    (commands ++ [command])[number]? = some other ↔
      commands[number]? = some other ∨ number = commands.length ∧ command = other := by
  rw [List.getElem?_append]
  split
  case isTrue lt => simp [Nat.ne_of_lt lt]
  case isFalse le =>
    have beyond : commands[number]? = none := List.getElem?_eq_none (Nat.le_of_not_lt le)
    rw [List.getElem?_singleton, beyond]
    split <;> simp <;> omega

theorem Coherent.enrolled (coherent : registry.Coherent)
    (named : ∀ name ∈ command.names, name ≠ [])
    (free : ∀ name ∈ command.names, registry.number? name = none) :
    (registry.enrolled command).Coherent := by
  constructor
  case resolves =>
    intro name number
    simp only [number?_enrolled, commands_enrolled, getElem?_concat_eq_some_iff]
    split
    case isTrue answers =>
      constructor
      · intro eq
        exact ⟨command, .inr ⟨(Option.some.inj eq).symm, rfl⟩, answers⟩
      · rintro ⟨other, here | ⟨rfl, rfl⟩, answers'⟩
        · have earlier := (coherent.resolves name number).mpr ⟨other, here, answers'⟩
          exact absurd answers (not_answersTo_of_free free earlier)
        · rfl
    case isFalse silent =>
      rw [coherent.resolves]
      constructor
      · rintro ⟨other, here, answers⟩
        exact ⟨other, .inl here, answers⟩
      · rintro ⟨other, here | ⟨-, rfl⟩, answers⟩
        · exact ⟨other, here, answers⟩
        · exact absurd answers silent
  case named =>
    rw [commands_enrolled]
    intro other mem
    cases List.mem_append.mp mem with
    | inl earlier => exact coherent.named other earlier
    | inr new => exact List.mem_singleton.mp new ▸ named

/-- The registries that calls lead to, whether or not each of them succeeds. -/
inductive Reachable : Registry → Prop
  | empty : Reachable .empty
  | ofSettings (settings : Settings) : Reachable (.ofSettings settings)
  | enroll {registry after : Registry} {names : List Text} {grammar : Grammar} {handler : Handler}
      (before : Reachable registry)
      (call : (enroll names grammar handler).run registry = .ok () after) : Reachable after
  | refuse {registry after : Registry} {names : List Text} {grammar : Grammar} {handler : Handler}
      {error : InternalError} (before : Reachable registry)
      (call : (Registry.enroll names grammar handler).run registry = .error error after) :
      Reachable after
  | addCustomAlias {registry after : Registry} {name expansion : Text}
      (before : Reachable registry) (call : registry.addCustomAlias? name expansion = some after) :
      Reachable after
  | applyCustomAliases {registry : Registry} (before : Reachable registry) (settings : Settings) :
      Reachable (registry.applyCustomAliases settings)

theorem addCustomAlias?_eq_some {name expansion : Text}
    (h : registry.addCustomAlias? name expansion = some after) :
    registry.startsWithName expansion ∧
      after = { registry with customAliases := registry.customAliases ++ [(name, expansion)] } := by
  unfold addCustomAlias? at h
  split at h
  case isTrue starts =>
    cases h
    exact ⟨starts, rfl⟩
  case isFalse => cases h

theorem Coherent.addCustomAlias {name expansion : Text} (coherent : registry.Coherent)
    (h : registry.addCustomAlias? name expansion = some after) : after.Coherent := by
  obtain ⟨_, rfl⟩ := addCustomAlias?_eq_some h
  exact coherent.of_eq rfl rfl

theorem exists_applyCustomAliases_eq (registry : Registry) (settings : Settings) :
    ∃ aliases, registry.applyCustomAliases settings =
      { registry with customAliases := aliases } := by
  unfold applyCustomAliases
  induction settings.commandAliases generalizing registry with
  | nil => exact ⟨registry.customAliases, rfl⟩
  | cons first aliases ih =>
    dsimp only [List.foldl_cons]
    cases added : registry.addCustomAlias? (Text.trim first.1) (Text.trim first.2) with
    | none => exact ih registry
    | some after =>
      obtain ⟨_, rfl⟩ := addCustomAlias?_eq_some added
      exact ih _

theorem Coherent.applyCustomAliases (coherent : registry.Coherent) (settings : Settings) :
    (registry.applyCustomAliases settings).Coherent := by
  obtain ⟨aliases, eq⟩ := exists_applyCustomAliases_eq registry settings
  rw [eq]
  exact coherent.of_eq rfl rfl

theorem Reachable.coherent (reachable : registry.Reachable) : registry.Coherent := by
  induction reachable with
  | empty => exact coherent_empty
  | ofSettings => exact coherent_empty.of_eq rfl rfl
  | enroll _ call ih =>
    obtain ⟨named, free, rfl⟩ := enroll_eq_ok call
    apply ih.enrolled _ free
    rintro name mem rfl
    exact named (.inr mem)
  | refuse _ call ih => exact (enroll_eq_error call).1 ▸ ih
  | addCustomAlias _ call ih => exact ih.addCustomAlias call
  | applyCustomAliases _ settings ih => exact ih.applyCustomAliases settings

theorem Reachable.exists_prefixedNames (reachable : registry.Reachable)
    (mem : command ∈ registry.commands) :
    ∃ names, command.names = prefixedNames registry.fallbackPrefix names := by
  induction reachable with
  | empty => cases mem
  | ofSettings => cases mem
  | @enroll registry _ names _ _ _ call ih =>
    obtain ⟨_, _, rfl⟩ := enroll_eq_ok call
    rw [fallbackPrefix_enrolled]
    rw [commands_enrolled] at mem
    cases List.mem_append.mp mem with
    | inl earlier => exact ih earlier
    | inr new => exact ⟨names, congrArg Command.names (List.mem_singleton.mp new)⟩
  | refuse _ call ih => exact (enroll_eq_error call).1 ▸ ih ((enroll_eq_error call).1 ▸ mem)
  | addCustomAlias _ call ih =>
    obtain ⟨_, rfl⟩ := addCustomAlias?_eq_some call
    exact ih mem
  | @applyCustomAliases registry _ settings ih =>
    obtain ⟨aliases, eq⟩ := exists_applyCustomAliases_eq registry settings
    rw [eq] at mem ⊢
    exact ih mem

theorem mem_prefixedNames {front : Option Text} {names : List Text} :
    name ∈ prefixedNames front names ↔
      ∃ given ∈ names, name = Text.trim given ∨
        ∃ text ∈ front, name = Text.lowerCase text ++ ':' :: Text.trim given := by
  simp only [prefixedNames, List.mem_eraseDups, List.mem_append, List.mem_map, List.mem_flatMap,
    Option.mem_toList]
  constructor
  · rintro (⟨given, mem, rfl⟩ | ⟨text, here, _, ⟨given, mem, rfl⟩, rfl⟩)
    · exact ⟨given, mem, .inl rfl⟩
    · exact ⟨given, mem, .inr ⟨text, here, rfl⟩⟩
  · rintro ⟨given, mem, rfl | ⟨text, here, rfl⟩⟩
    · exact .inl ⟨given, mem, rfl⟩
    · exact .inr ⟨text, here, _, ⟨given, mem, rfl⟩, rfl⟩

def Nameless (names : List Text) : Prop := names = [] ∨ ∃ name ∈ names, Text.trim name = []

theorem nameless_prefixedNames {front : Option Text} {names : List Text} :
    prefixedNames front names = [] ∨ [] ∈ prefixedNames front names ↔ Nameless names := by
  have blank : [] ∈ prefixedNames front names ↔ ∃ name ∈ names, Text.trim name = [] := by
    simp [mem_prefixedNames, eq_comm (a := ([] : Text))]
  have none : prefixedNames front names = [] ↔ names = [] := by
    constructor
    · intro empty
      cases names with
      | nil => rfl
      | cons first names =>
        have mem : Text.trim first ∈ prefixedNames front (first :: names) :=
          mem_prefixedNames.mpr ⟨first, List.mem_cons_self, .inl rfl⟩
        rw [empty] at mem
        cases mem
    · rintro rfl
      cases front <;> rfl
  rw [blank, none, Nameless]

def Lists (registry : Registry) (name : Text) : Prop :=
  ∃ command ∈ registry.commands, ∃ listed ∈ command.names,
    Text.lowerCase listed = Text.lowerCase name

theorem Coherent.isSome_number?_iff (coherent : registry.Coherent) :
    (registry.number? name).isSome ↔ registry.Lists name := by
  rw [Option.isSome_iff_exists]
  constructor
  · rintro ⟨number, found⟩
    obtain ⟨command, here, answers⟩ := (coherent.resolves name number).mp found
    exact ⟨command, List.mem_of_getElem? here, Command.answersTo_iff.mp answers⟩
  · rintro ⟨command, mem, listed⟩
    obtain ⟨number, here⟩ := List.mem_iff_getElem?.mp mem
    exact ⟨number, (coherent.resolves name number).mpr
      ⟨command, here, Command.answersTo_iff.mpr listed⟩⟩

/-- What a registration does. It fails for want of names, or since a name is taken: then the first
taken one is named. -/
structure Registers (registry : Registry) (names : List Text) (grammar : Grammar)
    (handler : Handler) (result : EStateM.Result InternalError Registry Unit) : Prop where
  nameless : (∃ after, result = .error .emptyName after) ↔ Nameless names
  taken : ∀ taken, (∃ after, result = .error (.aliasTaken taken) after) ↔
    ¬ Nameless names ∧ ∃ front back,
      prefixedNames registry.fallbackPrefix names = front ++ taken :: back ∧
        registry.Lists taken ∧ ∀ name ∈ front, ¬ registry.Lists name
  failed : ∀ error after, result = .error error after →
    after = registry ∧ (error = .emptyName ∨ ∃ taken, error = .aliasTaken taken)
  succeeded : ∀ after, result = .ok () after →
    after.commands = registry.commands ++
        [⟨prefixedNames registry.fallbackPrefix names, grammar, handler⟩] ∧
      after.customAliases = registry.customAliases ∧
      ∀ name number, registry.number? name = some number →
        after.number? name = some number ∧ after.get? name = registry.get? name

theorem Coherent.find?_taken_iff (coherent : registry.Coherent) {names : List Text} {taken : Text} :
    names.find? (fun name => (registry.number? name).isSome) = some taken ↔
      ∃ front back, names = front ++ taken :: back ∧ registry.Lists taken ∧
        ∀ name ∈ front, ¬ registry.Lists name := by
  simp only [List.find?_eq_some_iff_append, coherent.isSome_number?_iff, Bool.not_eq_true',
    ← Bool.not_eq_true]
  constructor
  · rintro ⟨listed, front, back, split, free⟩
    exact ⟨front, back, split, listed, free⟩
  · rintro ⟨front, back, split, listed, free⟩
    exact ⟨listed, front, back, split, free⟩

theorem get?_eq_of_number? (h : registry.number? name = some number) :
    registry.get? name = registry.commands[number]? := by
  rw [get?, h]
  rfl

theorem Coherent.kept (coherent : registry.Coherent)
    (free : ∀ name ∈ command.names, registry.number? name = none)
    (h : registry.number? name = some number) :
    (registry.enrolled command).number? name = some number ∧
      (registry.enrolled command).get? name = registry.get? name := by
  have silent : ¬ command.answersTo name := fun answers => not_answersTo_of_free free h answers
  have after : (registry.enrolled command).number? name = some number := by
    rw [number?_enrolled, if_neg silent, h]
  obtain ⟨earlier, here, _⟩ := (coherent.resolves name number).mp h
  rw [get?_eq_of_number? after, get?_eq_of_number? h, commands_enrolled,
    List.getElem?_append_left (List.getElem?_eq_some_iff.mp here).1]
  exact ⟨after, rfl⟩

theorem Coherent.registers (coherent : registry.Coherent) (names : List Text) (grammar : Grammar)
    (handler : Handler) :
    registry.Registers names grammar handler
      ((Registry.enroll names grammar handler).run registry) := by
  have made := enroll_cases registry names grammar handler
  generalize (enroll names grammar handler).run registry = result at made
  cases made with
  | nameless bad =>
    have bad := nameless_prefixedNames.mp bad
    constructor
    case nameless => simp [bad]
    case taken => simp [bad]
    case failed =>
      intro error after eq
      cases eq
      exact ⟨rfl, .inl rfl⟩
    case succeeded => simp
  | @taken first named found =>
    have named := mt nameless_prefixedNames.mpr named
    constructor
    case nameless => simp [named]
    case taken =>
      intro taken
      rw [← coherent.find?_taken_iff, found]
      simp [named]
    case failed =>
      intro error after eq
      cases eq
      exact ⟨rfl, .inr ⟨_, rfl⟩⟩
    case succeeded => simp
  | added named free =>
    have named := mt nameless_prefixedNames.mpr named
    constructor
    case nameless => simp [named]
    case taken =>
      intro taken
      rw [← coherent.find?_taken_iff, List.find?_eq_none.mpr (by simpa using free)]
      simp
    case failed => simp
    case succeeded =>
      intro after eq
      cases eq
      exact ⟨commands_enrolled .., customAliases_enrolled .., fun name number => coherent.kept free⟩

theorem Coherent.get?_eq_some_iff (coherent : registry.Coherent) :
    registry.get? name = some command ↔
      command ∈ registry.commands ∧ command.answersTo name := by
  constructor
  · intro found
    obtain ⟨number, stands, here⟩ := Option.bind_eq_some_iff.mp found
    obtain ⟨other, here', answers⟩ := (coherent.resolves name number).mp stands
    obtain rfl : other = command := Option.some.inj (here'.symm.trans here)
    exact ⟨List.mem_of_getElem? here, answers⟩
  · rintro ⟨mem, answers⟩
    obtain ⟨number, here⟩ := List.mem_iff_getElem?.mp mem
    have stands := (coherent.resolves name number).mpr ⟨command, here, answers⟩
    rw [get?_eq_of_number? stands, here]

theorem Coherent.apart (coherent : registry.Coherent) {i j : Nat} {first second : Command}
    (atFirst : registry.commands[i]? = some first) (atSecond : registry.commands[j]? = some second)
    {other : Text} (mem : name ∈ first.names) (mem' : other ∈ second.names)
    (same : Text.lowerCase name = Text.lowerCase other) : i = j := by
  have left := (coherent.resolves name i).mpr ⟨first, atFirst, Command.answersTo_of_mem mem⟩
  have right := (coherent.resolves other j).mpr ⟨second, atSecond, Command.answersTo_of_mem mem'⟩
  rw [number?, same, ← number?, right] at left
  exact (Option.some.inj left).symm

/-- Every name stands for the command that lists it, no two commands share a name, and a
registration adds a command if its names are new, and otherwise changes nothing. -/
theorem Reachable.names_resolve (reachable : registry.Reachable) :
    (∀ name number, registry.number? name = some number ↔
      ∃ command, registry.commands[number]? = some command ∧
        ∃ listed ∈ command.names, Text.lowerCase listed = Text.lowerCase name) ∧
    (∀ name command, registry.get? name = some command ↔
      command ∈ registry.commands ∧
        ∃ listed ∈ command.names, Text.lowerCase listed = Text.lowerCase name) ∧
    (∀ (i j : Nat) first second, registry.commands[i]? = some first →
      registry.commands[j]? = some second → ∀ name ∈ first.names, ∀ other ∈ second.names,
        Text.lowerCase name = Text.lowerCase other → i = j) ∧
    (∀ command ∈ registry.commands, ∀ name ∈ command.names, name ≠ []) ∧
    ∀ names grammar handler, registry.Registers names grammar handler
      ((Registry.enroll names grammar handler).run registry) := by
  have coherent := reachable.coherent
  refine ⟨fun name number => ?_, fun name command => ?_, ?_, coherent.named, coherent.registers⟩
  · simp only [coherent.resolves, Command.answersTo_iff]
  · rw [coherent.get?_eq_some_iff, Command.answersTo_iff]
  · intro i j first second atFirst atSecond name mem other mem' same
    exact coherent.apart atFirst atSecond mem mem' same

def bareSet : Command := ⟨[['S', 'e', 't']], ⟨[], true, rfl⟩, fun _ => ⟨[], none⟩⟩

theorem names_resolve_of_set :
    (empty.enrolled bareSet).Reachable ∧
      (empty.enrolled bareSet).get? ['S', 'E', 'T'] = some bareSet ∧
      ∃ after, (enroll [[' ', 's', 'E', 'T']] bareSet.grammar bareSet.handler).run
        (empty.enrolled bareSet) = .error (.aliasTaken ['s', 'E', 'T']) after := by
  have call : (enroll bareSet.names bareSet.grammar bareSet.handler).run empty =
      .ok () (empty.enrolled bareSet) := rfl
  have reachable : (empty.enrolled bareSet).Reachable := .enroll .empty call
  obtain ⟨_, resolves, _, _, registers⟩ := reachable.names_resolve
  have listed : (empty.enrolled bareSet).Lists ['s', 'E', 'T'] :=
    ⟨bareSet, List.mem_cons_self, ['S', 'e', 't'], List.mem_cons_self, by decide⟩
  refine ⟨reachable, (resolves _ _).mpr ?_, ((registers _ _ _).taken _).mpr ⟨?_, [], [], ?_⟩⟩
  · exact ⟨List.mem_cons_self, ['S', 'e', 't'], List.mem_cons_self, by decide⟩
  · rintro (none | ⟨name, mem, blank⟩)
    · cases none
    · obtain rfl := List.mem_singleton.mp mem
      exact absurd blank (by decide)
  · exact ⟨by decide, listed, nofun⟩

end Registry

end Console
