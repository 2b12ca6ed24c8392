import Console.Proofs.Registry.Names
import Console.Registry.Dispatch
import Mathlib.Data.List.TakeWhile

namespace Console

structure Registration where
  names : List Text
  grammar : Grammar
  handler : Handler

def Registration.command (front : Option Text) (given : Registration) : Command :=
  ⟨prefixedNames front given.names, given.grammar, given.handler⟩

def Command.Apart (first second : Command) : Prop :=
  ∀ name ∈ second.names, ¬ first.answersTo name

theorem Command.Apart.symm {first second : Command} (apart : first.Apart second) :
    second.Apart first := by
  intro name mem answers
  obtain ⟨listed, mem', same⟩ := Command.answersTo_iff.mp answers
  exact apart listed mem' (Command.answersTo_iff.mpr ⟨name, mem, same.symm⟩)

namespace Registry

variable {registry after : Registry} {command : Command} {commands commands' : List Command}
  {given given' : List Registration} {line name : Text} {settings : Settings}

def registerAll (registry : Registry) (given : List Registration) :
    Except InternalError Registry :=
  given.foldlM (fun registry one => registry.register one.names one.grammar one.handler) registry

def enrolledAll (registry : Registry) (commands : List Command) : Registry :=
  commands.foldl enrolled registry

structure Fits (registry : Registry) (commands : List Command) : Prop where
  named : ∀ command ∈ commands, ¬ (command.names = [] ∨ [] ∈ command.names)
  free : ∀ command ∈ commands, ∀ name ∈ command.names, registry.number? name = none
  apart : commands.Pairwise Command.Apart

theorem register_eq_ok_iff (one : Registration) :
    registry.register one.names one.grammar one.handler = .ok after ↔
      (¬ ((one.command registry.fallbackPrefix).names = [] ∨
          [] ∈ (one.command registry.fallbackPrefix).names) ∧
        ∀ name ∈ (one.command registry.fallbackPrefix).names, registry.number? name = none) ∧
      after = registry.enrolled (one.command registry.fallbackPrefix) := by
  rw [register]
  constructor
  · intro made
    split at made
    case h_1 call =>
      obtain ⟨named, free, eq⟩ := enroll_eq_ok call
      exact ⟨⟨named, free⟩, (Except.ok.inj made).symm.trans eq⟩
    case h_2 => cases made
  · rintro ⟨⟨named, free⟩, rfl⟩
    rw [enroll_of_free named free]
    rfl

theorem fits_cons_iff :
    registry.Fits (command :: commands) ↔
      (¬ (command.names = [] ∨ [] ∈ command.names) ∧
        ∀ name ∈ command.names, registry.number? name = none) ∧
      (registry.enrolled command).Fits commands := by
  have free (other : Command) (name : Text) (mem : name ∈ other.names) :
      (registry.enrolled command).number? name = none ↔
        ¬ command.answersTo name ∧ registry.number? name = none := by
    rw [number?_enrolled]
    cases command.answersTo name <;> simp
  constructor
  · rintro ⟨named, unused, apart⟩
    obtain ⟨named, nameds⟩ := List.forall_mem_cons.mp named
    obtain ⟨unused, unuseds⟩ := List.forall_mem_cons.mp unused
    obtain ⟨apart, aparts⟩ := List.pairwise_cons.mp apart
    refine ⟨⟨named, unused⟩, nameds, fun other mem name listed => ?_, aparts⟩
    exact (free other name listed).mpr ⟨apart other mem name listed, unuseds other mem name listed⟩
  · rintro ⟨⟨named, unused⟩, nameds, unuseds, aparts⟩
    refine ⟨List.forall_mem_cons.mpr ⟨named, nameds⟩, List.forall_mem_cons.mpr ⟨unused, ?_⟩,
      List.pairwise_cons.mpr ⟨?_, aparts⟩⟩
    · exact fun other mem name listed =>
        ((free other name listed).mp (unuseds other mem name listed)).2
    · exact fun other mem name listed =>
        ((free other name listed).mp (unuseds other mem name listed)).1

theorem registerAll_eq_ok_iff :
    registry.registerAll given = .ok after ↔
      registry.Fits (given.map (·.command registry.fallbackPrefix)) ∧
        after = registry.enrolledAll (given.map (·.command registry.fallbackPrefix)) := by
  induction given generalizing registry with
  | nil =>
    have fits : registry.Fits [] := ⟨nofun, nofun, .nil⟩
    change Except.ok registry = Except.ok after ↔ _
    rw [Except.ok.injEq]
    exact ⟨fun eq => ⟨fits, eq.symm⟩, fun h => h.2.symm⟩
  | cons one given ih =>
    have front := fallbackPrefix_enrolled registry (one.command registry.fallbackPrefix)
    have step : registry.registerAll (one :: given) =
        (registry.register one.names one.grammar one.handler).bind (·.registerAll given) := rfl
    rw [step, List.map_cons, fits_cons_iff]
    constructor
    · intro h
      cases made : registry.register one.names one.grammar one.handler with
      | error => rw [made] at h; cases h
      | ok next =>
        rw [made] at h
        obtain ⟨first, rfl⟩ := (register_eq_ok_iff one).mp made
        obtain ⟨fits, eq⟩ := ih.mp h
        rw [front] at fits eq
        exact ⟨⟨first, fits⟩, eq⟩
    · rintro ⟨⟨first, fits⟩, eq⟩
      rw [(register_eq_ok_iff one).mpr ⟨first, rfl⟩]
      refine ih.mpr ?_
      rw [front]
      exact ⟨fits, eq⟩

theorem exists_enrolledAll_eq (registry : Registry) (commands : List Command) :
    ∃ index, registry.enrolledAll commands =
      { registry with commands := registry.commands ++ commands, index := index } := by
  induction commands generalizing registry with
  | nil => exact ⟨registry.index, by rw [List.append_nil]; rfl⟩
  | cons command commands ih =>
    obtain ⟨_, first⟩ := exists_enrolled_eq registry command
    obtain ⟨index, others⟩ := ih (registry.enrolled command)
    refine ⟨index, ?_⟩
    rw [enrolledAll, List.foldl_cons, ← enrolledAll, others, first, List.append_assoc]
    rfl

theorem Coherent.enrolledAll (coherent : registry.Coherent) (fits : registry.Fits commands) :
    (registry.enrolledAll commands).Coherent := by
  induction commands generalizing registry with
  | nil => exact coherent
  | cons command commands ih =>
    obtain ⟨⟨named, free⟩, fits⟩ := fits_cons_iff.mp fits
    refine ih (coherent.enrolled (fun name mem empty => ?_) free) fits
    exact named (.inr (empty ▸ mem))

theorem Fits.perm (fits : registry.Fits commands) (perm : commands.Perm commands') :
    registry.Fits commands' where
  named command mem := fits.named command (perm.mem_iff.mpr mem)
  free command mem := fits.free command (perm.mem_iff.mpr mem)
  apart := (perm.pairwise_iff Command.Apart.symm).mp fits.apart

/-- Registries that differ only in the order of their commands, as far as a caller can see. Without
a limit they complete a label to the same names, in another order. -/
structure Interchangeable (registry after : Registry) : Prop where
  get?_eq : ∀ name, after.get? name = registry.get? name
  usage?_eq : ∀ name, after.usage? name = registry.usage? name
  dispatch_eq : ∀ line, after.dispatch line = registry.dispatch line
  dispatchWith_eq : ∀ {m : Type → Type} [Monad m] (call : Handler → Invocation → m Outcome) line,
    after.dispatchWith call line = registry.dispatchWith call line
  complete_eq : ∀ line : Text, line.any Text.isBlank → after.complete line = registry.complete line
  complete_perm : registry.maxSuggestions = 0 →
    ∀ line, (after.complete line).Perm (registry.complete line)

theorem nodup_eraseDups {α : Type} [BEq α] [LawfulBEq α] (xs : List α) : xs.eraseDups.Nodup := by
  match xs with
  | [] => exact .nil
  | x :: xs =>
    rw [List.eraseDups_cons, List.nodup_cons]
    have shorter := List.length_filter_le (fun y => !y == x) xs
    refine ⟨?_, nodup_eraseDups _⟩
    simp
termination_by xs.length
decreasing_by
  rw [List.length_cons]
  omega

theorem eraseDups_of_nodup {α : Type} [BEq α] [LawfulBEq α] {items : List α}
    (nodup : items.Nodup) : items.eraseDups = items := by
  induction items with
  | nil => rfl
  | cons item items ih =>
    obtain ⟨new, nodup⟩ := List.nodup_cons.mp nodup
    have others : items.filter (fun other => !other == item) = items := by
      rw [List.filter_eq_self]
      intro other mem
      simpa using fun same : other = item => new (same ▸ mem)
    rw [List.eraseDups_cons, others, ih nodup]

theorem perm_eraseDups {α : Type} [BEq α] [LawfulBEq α] {xs ys : List α} (perm : xs.Perm ys) :
    xs.eraseDups.Perm ys.eraseDups := by
  refine (List.perm_ext_iff_of_nodup (nodup_eraseDups xs) (nodup_eraseDups ys)).mpr fun x => ?_
  rw [List.mem_eraseDups, List.mem_eraseDups, perm.mem_iff]

theorem Coherent.get?_eq_of_perm (coherent : registry.Coherent) (coherent' : after.Coherent)
    (perm : registry.commands.Perm after.commands) (name : Text) :
    after.get? name = registry.get? name := by
  refine Option.ext fun command => ?_
  rw [coherent.get?_eq_some_iff, coherent'.get?_eq_some_iff, perm.mem_iff]

theorem dropWhile_stripSlash_ne_nil (blank : line.any Text.isBlank) :
    (stripSlash line).dropWhile (!Text.isBlank ·) ≠ [] := by
  have stripped : (stripSlash line).any Text.isBlank := by
    cases line with
    | nil => exact blank
    | cons c line =>
      rw [stripSlash]
      split
      case isFalse => exact blank
      case isTrue slash =>
        subst slash
        simpa [show Text.isBlank '/' = false from rfl] using blank
  intro none
  obtain ⟨c, mem, blank⟩ := List.any_eq_true.mp stripped
  simpa [blank] using List.dropWhile_eq_nil_iff.mp none c mem

theorem interchangeable_of_perm (coherent : registry.Coherent) (coherent' : after.Coherent)
    (perm : registry.commands.Perm after.commands)
    (same : after = { registry with commands := after.commands, index := after.index }) :
    Interchangeable registry after := by
  have get := coherent.get?_eq_of_perm coherent' perm
  have aliases : after.customAliases = registry.customAliases := by rw [same]
  have shows : after.showUsageOnError = registry.showUsageOnError := by rw [same]
  have limit : after.maxSuggestions = registry.maxSuggestions := by rw [same]
  have dispatchWith {m : Type → Type} [Monad m] (call : Handler → Invocation → m Outcome)
      (line : Text) : after.dispatchWith call line = registry.dispatchWith call line := by
    simp only [Registry.dispatchWith, called?, expandCustomAliases, aliases, get, runWith, shows]
  constructor
  case get?_eq => exact get
  case usage?_eq =>
    intro name
    rw [usage?, usage?, get]
  case dispatch_eq =>
    intro line
    rw [dispatch, dispatch, dispatchWith]
  case dispatchWith_eq => exact dispatchWith
  case complete_eq =>
    intro line blank
    have behind := dropWhile_stripSlash_ne_nil blank
    have same : after.allCompletions line = registry.allCompletions line := by
      rw [allCompletions, allCompletions]
      generalize (stripSlash line).dropWhile (!Text.isBlank ·) = rest at behind
      cases rest with
      | nil => exact absurd rfl behind
      | cons c rest => simp only [get]
    rw [complete, complete, limit, same]
  case complete_perm =>
    intro unlimited line
    rw [complete, complete, limit, if_pos unlimited, if_pos unlimited, allCompletions,
      allCompletions]
    simp only [get]
    split
    · exact perm_eraseDups ((perm.flatMap_right (·.names)).symm.filter _)
    · exact .refl _

/-- The order of registrations does not matter: all of them succeed in one order if and only if they
do in any other, and then no caller can tell the registries apart, but for the order of names. -/
theorem registerAll_perm (settings : Settings) (perm : given.Perm given') :
    ((∃ registry, (ofSettings settings).registerAll given = .ok registry) ↔
      ∃ after, (ofSettings settings).registerAll given' = .ok after) ∧
    ∀ registry after, (ofSettings settings).registerAll given = .ok registry →
      (ofSettings settings).registerAll given' = .ok after → Interchangeable registry after := by
  have fits {given given' : List Registration} (perm : given.Perm given')
      (h : ∃ registry, (ofSettings settings).registerAll given = .ok registry) :
      ∃ after, (ofSettings settings).registerAll given' = .ok after := by
    obtain ⟨registry, made⟩ := h
    obtain ⟨fits, _⟩ := registerAll_eq_ok_iff.mp made
    exact ⟨_, registerAll_eq_ok_iff.mpr ⟨fits.perm (perm.map _), rfl⟩⟩
  refine ⟨⟨fits perm, fits perm.symm⟩, fun registry after made made' => ?_⟩
  obtain ⟨fits, rfl⟩ := registerAll_eq_ok_iff.mp made
  obtain ⟨fits', rfl⟩ := registerAll_eq_ok_iff.mp made'
  have coherent : (ofSettings settings).Coherent := coherent_empty.of_eq rfl rfl
  obtain ⟨index, eq⟩ := exists_enrolledAll_eq (ofSettings settings)
    (given.map (·.command (ofSettings settings).fallbackPrefix))
  obtain ⟨index', eq'⟩ := exists_enrolledAll_eq (ofSettings settings)
    (given'.map (·.command (ofSettings settings).fallbackPrefix))
  refine interchangeable_of_perm (coherent.enrolledAll fits) (coherent.enrolledAll fits') ?_ ?_
  · rw [eq, eq']
    exact (perm.map _).append_left _
  · rw [eq, eq']

def openAndShut : List Registration :=
  [⟨[['O', 'p', 'e', 'n']], bareSet.grammar, bareSet.handler⟩,
    ⟨[[' ', 's', 'h', 'u', 't']], bareSet.grammar, bareSet.handler⟩]

theorem registerAll_perm_of_two :
    openAndShut.Perm openAndShut.reverse ∧
      ∃ registry after,
        (ofSettings { Settings.standard with fallbackPrefix := ['A'] }).registerAll openAndShut =
          .ok registry ∧
        (ofSettings { Settings.standard with fallbackPrefix := ['A'] }).registerAll
          openAndShut.reverse = .ok after ∧ Interchangeable registry after := by
  have perm : openAndShut.Perm openAndShut.reverse := openAndShut.reverse_perm.symm
  have both := registerAll_perm { Settings.standard with fallbackPrefix := ['A'] } perm
  have ok : ((ofSettings { Settings.standard with fallbackPrefix := ['A'] }).registerAll
      openAndShut).isOk := by decide +kernel
  cases made : (ofSettings { Settings.standard with fallbackPrefix := ['A'] }).registerAll
      openAndShut with
  | error =>
    rw [made] at ok
    cases ok
  | ok registry =>
    obtain ⟨after, made'⟩ := both.1.mp ⟨registry, made⟩
    exact ⟨perm, registry, after, rfl, made', both.2 registry after made made'⟩

end Registry

end Console
