import Console.Proofs.Registry.Names
import Mathlib.Logic.Relation

namespace Console.Registry

variable {registry before after : Registry} {name expansion label tail : Text}

inductive Call : Registry → Registry → Prop
  | enroll {registry after : Registry} {names : List Text} {grammar : Grammar} {handler : Handler}
      (call : (Registry.enroll names grammar handler).run registry = .ok () after) :
      Call registry after
  | refuse {registry after : Registry} {names : List Text} {grammar : Grammar} {handler : Handler}
      {error : InternalError}
      (call : (Registry.enroll names grammar handler).run registry = .error error after) :
      Call registry after
  | addCustomAlias {registry after : Registry} {name expansion : Text}
      (call : registry.addCustomAlias? name expansion = some after) : Call registry after
  | applyCustomAliases (registry : Registry) (settings : Settings) :
      Call registry (registry.applyCustomAliases settings)

abbrev Later (before after : Registry) : Prop := Relation.ReflTransGen Call before after

theorem Reachable.call (reachable : before.Reachable) (call : Call before after) :
    after.Reachable := by
  cases call with
  | enroll call => exact reachable.enroll call
  | refuse call => exact reachable.refuse call
  | addCustomAlias call => exact reachable.addCustomAlias call
  | applyCustomAliases settings => exact reachable.applyCustomAliases settings

theorem Reachable.later (reachable : before.Reachable) (later : Later before after) :
    after.Reachable := by
  induction later with
  | refl => exact reachable
  | tail _ call ih => exact ih.call call

theorem Call.exists_eq (call : Call before after) :
    ∃ commands index aliases, after =
      { before with commands := commands, index := index, customAliases := aliases } := by
  cases call with
  | enroll call =>
    obtain ⟨_, _, rfl⟩ := enroll_eq_ok call
    exact (exists_enrolled_eq before _).elim fun index eq => ⟨_, index, before.customAliases, eq⟩
  | refuse call => exact ⟨_, _, _, (enroll_eq_error call).1⟩
  | addCustomAlias call => exact ⟨_, _, _, (addCustomAlias?_eq_some call).2⟩
  | applyCustomAliases settings =>
    obtain ⟨aliases, eq⟩ := exists_applyCustomAliases_eq before settings
    exact ⟨_, _, aliases, eq⟩

theorem Later.exists_eq (later : Later before after) :
    ∃ commands index aliases, after =
      { before with commands := commands, index := index, customAliases := aliases } := by
  induction later with
  | refl => exact ⟨_, _, _, rfl⟩
  | tail _ call ih =>
    obtain ⟨_, _, _, rfl⟩ := ih
    obtain ⟨_, _, _, rfl⟩ := call.exists_eq
    exact ⟨_, _, _, rfl⟩

theorem Reachable.exists_settings (reachable : registry.Reachable) :
    ∃ settings, Later (Registry.ofSettings settings) registry := by
  induction reachable with
  | empty => exact ⟨.standard, .refl⟩
  | ofSettings settings => exact ⟨settings, .refl⟩
  | enroll _ call ih => exact ih.imp fun _ later => later.tail (.enroll call)
  | refuse _ call ih => exact ih.imp fun _ later => later.tail (.refuse call)
  | addCustomAlias _ call ih => exact ih.imp fun _ later => later.tail (.addCustomAlias call)
  | applyCustomAliases _ given ih =>
    exact ih.imp fun _ later => later.tail (.applyCustomAliases _ given)

def Keeps (before after : Registry) : Prop :=
  ∀ name number, before.number? name = some number →
    after.number? name = some number ∧ after.get? name = before.get? name

theorem Keeps.of_eq (commands : after.commands = before.commands)
    (index : after.index = before.index) : Keeps before after := by
  intro name number found
  have same : after.number? name = before.number? name := by rw [number?, number?, index]
  refine ⟨same.trans found, ?_⟩
  rw [get?, get?, same, commands]

theorem Keeps.trans {between : Registry} (first : Keeps before between)
    (second : Keeps between after) : Keeps before after := by
  intro name number found
  obtain ⟨found', same⟩ := first name number found
  obtain ⟨found'', same'⟩ := second name number found'
  exact ⟨found'', same'.trans same⟩

theorem keeps_addCustomAlias (h : before.addCustomAlias? name expansion = some after) :
    Keeps before after := by
  obtain ⟨_, rfl⟩ := addCustomAlias?_eq_some h
  exact .of_eq rfl rfl

theorem keeps_applyCustomAliases (registry : Registry) (settings : Settings) :
    Keeps registry (registry.applyCustomAliases settings) := by
  obtain ⟨aliases, eq⟩ := exists_applyCustomAliases_eq registry settings
  rw [eq]
  exact .of_eq rfl rfl

theorem Coherent.keeps (coherent : before.Coherent) (call : Call before after) :
    Keeps before after := by
  cases call with
  | enroll call =>
    obtain ⟨_, free, rfl⟩ := enroll_eq_ok call
    exact fun name number => coherent.kept free
  | refuse call => exact (enroll_eq_error call).1 ▸ .of_eq rfl rfl
  | addCustomAlias call => exact keeps_addCustomAlias call
  | applyCustomAliases settings => exact keeps_applyCustomAliases before settings

theorem Later.kept (later : Later before after) (reachable : before.Reachable) :
    Keeps before after := by
  induction later with
  | refl => exact .of_eq rfl rfl
  | tail earlier call ih => exact ih.trans ((reachable.later earlier).coherent.keeps call)

/-- A call that added a custom alias, some time before a registry came to be. -/
structure Addition (registry : Registry) (name expansion : Text) (before : Registry) : Prop where
  reachable : before.Reachable
  later : ∃ after, before.addCustomAlias? name expansion = some after ∧ Later after registry

theorem Addition.step (addition : before.Addition name expansion registry)
    (call : Call before after) : after.Addition name expansion registry := by
  obtain ⟨added, here, later⟩ := addition.later
  exact ⟨addition.reachable, added, here, later.tail call⟩

theorem mem_customAliases_of_add (first : Text × Text)
    (call : before.addCustomAlias? first.1 first.2 = some after)
    (h : (name, expansion) ∈ after.customAliases) :
    (name, expansion) ∈ before.customAliases ∨ (name, expansion) = first := by
  obtain ⟨_, rfl⟩ := addCustomAlias?_eq_some call
  simpa [Prod.ext_iff] using h

theorem Reachable.addition_of_add (reachable : before.Reachable) (first : Text × Text)
    (call : before.addCustomAlias? first.1 first.2 = some after)
    (earlier : ∀ name expansion, (name, expansion) ∈ before.customAliases →
      ∃ start, before.Addition name expansion start)
    (h : (name, expansion) ∈ after.customAliases) :
    ∃ start, after.Addition name expansion start := by
  cases mem_customAliases_of_add first call h with
  | inl old =>
    obtain ⟨start, addition⟩ := earlier name expansion old
    exact ⟨start, addition.step (.addCustomAlias call)⟩
  | inr new =>
    subst new
    exact ⟨before, reachable, after, call, .refl⟩

theorem applyCustomAliases_cons (registry : Registry) (settings : Settings)
    (first : Text × Text) (aliases : List (Text × Text)) :
    registry.applyCustomAliases { settings with commandAliases := first :: aliases } =
      ((registry.addCustomAlias? (Text.trim first.1) (Text.trim first.2)).getD
        registry).applyCustomAliases { settings with commandAliases := aliases } :=
  rfl

theorem Reachable.addition_of_apply (reachable : registry.Reachable) (settings : Settings)
    (earlier : ∀ name expansion, (name, expansion) ∈ registry.customAliases →
      ∃ start, registry.Addition name expansion start)
    (h : (name, expansion) ∈ (registry.applyCustomAliases settings).customAliases) :
    ∃ start, (registry.applyCustomAliases settings).Addition name expansion start := by
  obtain ⟨front, usage, limit, aliases⟩ := settings
  induction aliases generalizing registry with
  | nil => exact earlier name expansion h
  | cons first aliases ih =>
    rw [applyCustomAliases_cons registry ⟨front, usage, limit, []⟩] at h ⊢
    cases call : registry.addCustomAlias? (Text.trim first.1) (Text.trim first.2) with
    | none =>
      rw [call] at h
      exact ih reachable earlier h
    | some added =>
      rw [call] at h
      refine ih (reachable.addCustomAlias call) ?_ h
      intro name expansion mem
      exact reachable.addition_of_add (Text.trim first.1, Text.trim first.2) call earlier mem

theorem Reachable.exists_addition (reachable : registry.Reachable)
    (stored : (name, expansion) ∈ registry.customAliases) :
    ∃ before, registry.Addition name expansion before := by
  induction reachable generalizing name expansion with
  | empty => cases stored
  | ofSettings => cases stored
  | enroll before call ih =>
    obtain ⟨_, _, rfl⟩ := enroll_eq_ok call
    rw [customAliases_enrolled] at stored
    obtain ⟨start, addition⟩ := ih stored
    exact ⟨start, addition.step (.enroll call)⟩
  | refuse _ call ih => exact (enroll_eq_error call).1 ▸ ih ((enroll_eq_error call).1 ▸ stored)
  | addCustomAlias before call ih =>
    exact before.addition_of_add (_, _) call (fun _ _ => ih) stored
  | applyCustomAliases before settings ih =>
    exact before.addition_of_apply settings (fun _ _ => ih) stored

theorem Addition.exists_target (addition : registry.Addition name expansion before) :
    ∃ label tail number command, Text.nextWord? expansion = some (label, tail) ∧
      before.number? label = some number ∧ before.get? label = some command := by
  obtain ⟨added, call, _⟩ := addition.later
  have starts := (addCustomAlias?_eq_some call).1
  unfold startsWithName at starts
  split at starts
  case h_1 => cases starts
  case h_2 label tail word =>
    obtain ⟨command, found⟩ := Option.isSome_iff_exists.mp starts
    obtain ⟨number, here, _⟩ := Option.bind_eq_some_iff.mp found
    exact ⟨label, tail, number, command, word, here, found⟩

theorem Addition.keeps (addition : registry.Addition name expansion before) :
    Keeps before registry := by
  obtain ⟨added, call, later⟩ := addition.later
  have reachable := addition.reachable.addCustomAlias call
  exact (keeps_addCustomAlias call).trans (later.kept reachable)

end Console.Registry
