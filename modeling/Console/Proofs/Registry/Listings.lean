import Console.Proofs.Registry.Histories
import Console.Proofs.Registry.Labels

namespace Console.Registry

variable {registry before after : Registry} {command : Command} {name label line : Text}
  {settings : Settings}

theorem Reachable.nodup_allNames (reachable : registry.Reachable) : registry.allNames.Nodup := by
  refine List.nodup_flatMap.mpr ⟨fun command mem => ?_, ?_⟩
  · obtain ⟨names, eq⟩ := reachable.exists_prefixedNames mem
    rw [eq]
    exact nodup_eraseDups _
  · rw [List.pairwise_iff_getElem]
    intro i j hi hj lt name mem mem'
    have same := reachable.coherent.apart (List.getElem?_eq_getElem hi)
      (List.getElem?_eq_getElem hj) mem mem' rfl
    exact lt.ne same

def startingWith (registry : Registry) (front : Text) : List Text :=
  registry.commands.flatMap fun command =>
    command.names.filter fun name => (Text.lowerCase front).isPrefixOf (Text.lowerCase name)

theorem startingWith_eq (registry : Registry) (front : Text) :
    registry.startingWith front =
      registry.allNames.filter (Text.startsIgnoringCase · front) := by
  rw [allNames, List.filter_flatMap]
  rfl

theorem Reachable.nodup_startingWith (reachable : registry.Reachable) (front : Text) :
    (registry.startingWith front).Nodup := by
  rw [startingWith_eq]
  exact reachable.nodup_allNames.filter _

theorem Reachable.allCompletions_label (reachable : registry.Reachable)
    (whole : (stripSlash line).any Text.isBlank = false) :
    registry.allCompletions line = registry.startingWith (stripSlash line) := by
  have behind : (stripSlash line).dropWhile (!Text.isBlank ·) = [] := by
    rw [List.dropWhile_eq_nil_iff]
    simpa using whole
  have once := eraseDups_of_nodup (reachable.nodup_startingWith (stripSlash line))
  rw [startingWith_eq] at once ⊢
  simp only [allCompletions, behind, once]

structure Resolves (registry : Registry) (name : Text) (command : Command) : Prop where
  listed : command ∈ registry.commands ∧ name ∈ command.names
  only : ∃! number : Nat, ∃ other, registry.commands[number]? = some other ∧ name ∈ other.names
  get? : registry.get? name = some command
  usage? : registry.usage? name = some (command.grammar.commandUsage name)

theorem Reachable.resolves (reachable : registry.Reachable) (mem : name ∈ registry.allNames) :
    ∃ command, registry.Resolves name command := by
  obtain ⟨command, here, listed⟩ := List.mem_flatMap.mp mem
  obtain ⟨number, found⟩ := List.mem_iff_getElem?.mp here
  have get : registry.get? name = some command :=
    reachable.coherent.get?_eq_some_iff.mpr ⟨here, Command.answersTo_of_mem listed⟩
  refine ⟨command, ⟨here, listed⟩, ⟨number, ⟨command, found, listed⟩, ?_⟩, get, ?_⟩
  · rintro other ⟨second, found', listed'⟩
    exact reachable.coherent.apart found' found listed' listed rfl
  · rw [usage?, get]
    rfl

def withLimit (registry : Registry) (limit : Nat) : Registry :=
  { registry with maxSuggestions := limit }

theorem complete_withLimit_zero (registry : Registry) (line : Text) :
    (registry.withLimit 0).complete line = registry.allCompletions line := rfl

theorem complete_eq_take (limited : registry.maxSuggestions ≠ 0) (line : Text) :
    registry.complete line =
      ((registry.withLimit 0).complete line).take registry.maxSuggestions := by
  rw [complete_withLimit_zero, complete, if_neg limited]

theorem complete_eq_of_unlimited (unlimited : registry.maxSuggestions = 0) (line : Text) :
    registry.complete line = registry.allCompletions line := by
  rw [complete, if_pos unlimited]

theorem complete_sublist (registry : Registry) (line : Text) :
    (registry.complete line).Sublist (registry.allCompletions line) := by
  rw [complete]
  split
  · exact .refl _
  · exact List.take_sublist _ _

theorem enrolled_withLimit (registry : Registry) (command : Command) (limit : Nat) :
    (registry.withLimit limit).enrolled command = (registry.enrolled command).withLimit limit := by
  have entered (names : List Text) : (registry.withLimit limit).enterAll names =
      (registry.enterAll names).withLimit limit := by
    induction names generalizing registry with
    | nil => rfl
    | cons name names ih => exact ih (registry.enter name)
  rw [enrolled, entered]
  rfl

theorem addCustomAlias?_withLimit (registry : Registry) (name expansion : Text) (limit : Nat) :
    (registry.withLimit limit).addCustomAlias? name expansion =
      (registry.addCustomAlias? name expansion).map (·.withLimit limit) := by
  have same : (registry.withLimit limit).startsWithName expansion =
      registry.startsWithName expansion := rfl
  rw [addCustomAlias?, addCustomAlias?, same]
  split <;> rfl

theorem applyCustomAliases_withLimit (registry : Registry) (settings : Settings) (limit : Nat) :
    (registry.withLimit limit).applyCustomAliases settings =
      (registry.applyCustomAliases settings).withLimit limit := by
  obtain ⟨front, usage, most, aliases⟩ := settings
  induction aliases generalizing registry with
  | nil => rfl
  | cons first aliases ih =>
    rw [applyCustomAliases_cons _ ⟨front, usage, most, []⟩,
      applyCustomAliases_cons _ ⟨front, usage, most, []⟩, addCustomAlias?_withLimit,
      Option.getD_map]
    exact ih _

theorem Call.withLimit (call : Call before after) (limit : Nat) :
    Later (before.withLimit limit) (after.withLimit limit) := by
  cases call with
  | enroll call =>
    obtain ⟨named, free, rfl⟩ := enroll_eq_ok call
    rw [← enrolled_withLimit]
    exact .single (.enroll (enroll_of_free named free))
  | refuse call => exact (enroll_eq_error call).1 ▸ .refl
  | @addCustomAlias _ name expansion call =>
    have added := addCustomAlias?_withLimit before name expansion limit
    rw [call] at added
    exact .single (.addCustomAlias added)
  | applyCustomAliases settings =>
    rw [← applyCustomAliases_withLimit]
    exact .single (.applyCustomAliases _ settings)

theorem Later.withLimit (later : Later before after) (limit : Nat) :
    Later (before.withLimit limit) (after.withLimit limit) := by
  induction later with
  | refl => exact .refl
  | tail _ call ih => exact ih.trans (call.withLimit limit)

structure Completes (registry : Registry) (settings : Settings) : Prop where
  listed : settings.maxSuggestions ≤ 0 → ∀ label : Text, label.any Text.isBlank = false →
    registry.complete ('/' :: label) = registry.startingWith label ∧
      (label.head? ≠ some '/' → registry.complete label = registry.startingWith label)
  distinct : ∀ line : Text, line.any Text.isBlank = false → (registry.complete line).Nodup
  resolves : ∀ line : Text, line.any Text.isBlank = false → ∀ name ∈ registry.complete line,
    ∃ command, registry.Resolves name command
  capped : 0 < settings.maxSuggestions → ∀ line,
    registry.complete line =
      ((registry.withLimit 0).complete line).take settings.maxSuggestions.toNat
  uncapped :
    Later (Registry.ofSettings { settings with maxSuggestions := 0 }) (registry.withLimit 0)

theorem any_isBlank_stripSlash (whole : line.any Text.isBlank = false) :
    (stripSlash line).any Text.isBlank = false := by
  cases line with
  | nil => exact whole
  | cons c line =>
    rw [List.any_cons, Bool.or_eq_false_iff] at whole
    rw [stripSlash]
    split
    · exact whole.2
    · rw [List.any_cons, whole.1, whole.2]
      rfl

theorem Reachable.completes (reachable : registry.Reachable)
    (later : Later (Registry.ofSettings settings) registry) : registry.Completes settings := by
  have limit : registry.maxSuggestions = settings.maxSuggestions.toNat := by
    obtain ⟨_, _, _, rfl⟩ := later.exists_eq
    rfl
  constructor
  case listed =>
    intro most label whole
    have unlimited : registry.maxSuggestions = 0 := by omega
    rw [complete_eq_of_unlimited unlimited, complete_eq_of_unlimited unlimited]
    have slashed : stripSlash ('/' :: label) = label := rfl
    constructor
    · rw [reachable.allCompletions_label (slashed.symm ▸ whole), slashed]
    · intro unslashed
      have bare := stripSlash_eq_self unslashed
      rw [reachable.allCompletions_label (bare.symm ▸ whole), bare]
  case distinct =>
    intro line whole
    have all := reachable.allCompletions_label (any_isBlank_stripSlash whole)
    exact (all ▸ registry.complete_sublist line).nodup (reachable.nodup_startingWith _)
  case resolves =>
    intro line whole name mem
    have offered := (registry.complete_sublist line).mem mem
    rw [reachable.allCompletions_label (any_isBlank_stripSlash whole), startingWith_eq] at offered
    exact reachable.resolves (List.mem_filter.mp offered).1
  case capped =>
    intro most line
    rw [← limit]
    exact complete_eq_take (by omega) line
  case uncapped => exact later.withLimit 0

/-- Whatever the settings and the calls, completing a label lists the names that start with it, and
each of these leads to its command; a limit only cuts off the end. -/
theorem Reachable.completes_labels (reachable : registry.Reachable) :
    (∃ settings, Later (Registry.ofSettings settings) registry) ∧
    ∀ settings, Later (Registry.ofSettings settings) registry → registry.Completes settings :=
  ⟨reachable.exists_settings, fun _ later => reachable.completes later⟩

def spelledTwice : Registration :=
  ⟨[['S', 'e', 't'], ['s', 'e', 't']], bareSet.grammar, bareSet.handler⟩

def selling : Registration := ⟨[['s', 'e', 'l', 'l']], bareSet.grammar, bareSet.handler⟩

def atMostTwo : Settings :=
  { Settings.standard with fallbackPrefix := ['P'], maxSuggestions := 2 }

def limited : Registry :=
  ((ofSettings atMostTwo).enrolled (spelledTwice.command (some ['P']))).enrolled
    (selling.command (some ['P']))

theorem completes_labels_of_limited :
    limited.Reachable ∧ limited.Completes atMostTwo ∧
      (limited.withLimit 0).complete ['/', 'S'] =
        [['S', 'e', 't'], ['s', 'e', 't'], ['s', 'e', 'l', 'l']] ∧
      limited.complete ['/', 'S'] = [['S', 'e', 't'], ['s', 'e', 't']] ∧
      ∃ command, limited.Resolves ['s', 'e', 't'] command := by
  have first : (enroll spelledTwice.names spelledTwice.grammar spelledTwice.handler).run
      (ofSettings atMostTwo) =
        .ok () ((ofSettings atMostTwo).enrolled (spelledTwice.command (some ['P']))) := rfl
  have second : (enroll selling.names selling.grammar selling.handler).run
      ((ofSettings atMostTwo).enrolled (spelledTwice.command (some ['P']))) = .ok () limited := rfl
  have later : Later (ofSettings atMostTwo) limited :=
    .tail (.single (.enroll first)) (.enroll second)
  have reachable : limited.Reachable := (Reachable.ofSettings atMostTwo).later later
  have completes := reachable.completes_labels.2 atMostTwo later
  have all : (limited.withLimit 0).complete ['/', 'S'] =
      [['S', 'e', 't'], ['s', 'e', 't'], ['s', 'e', 'l', 'l']] := by decide +kernel
  have front : limited.complete ['/', 'S'] = [['S', 'e', 't'], ['s', 'e', 't']] := by
    rw [completes.capped (by decide), all]
    rfl
  refine ⟨reachable, completes, all, front, ?_⟩
  exact completes.resolves ['/', 'S'] (by decide) _ (by rw [front]; decide)

end Console.Registry
