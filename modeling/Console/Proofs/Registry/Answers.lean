import Console.Proofs.Binding.Accessors
import Console.Registry.Dispatch

namespace Console

variable {line rest label : Text} {last : Cursor} {grammar : Grammar} {registry : Registry}
  {command : Command} {m : Type → Type} [Monad m] {call : Handler → Invocation → m Outcome}

theorem Grammar.Run.exists_get (run : grammar.Run line last) {name : Text}
    (h : (grammar.bind line).status = .invalidArgument name) :
    ∃ binding, (grammar.bind line).get name = .ok binding := by
  obtain ⟨binding, listed, rfl, _⟩ := run.exists_blamed h
  exact BindingSet.exists_get listed

namespace Registry

theorem mistake?_of_complete {set : BindingSet} (h : set.status = .complete) :
    mistake? set = .ok none := by
  rw [mistake?, h]

theorem exists_mistake (h : (grammar.bind line).status ≠ .complete) :
    ∃ mistake, mistake? (grammar.bind line) = .ok (some mistake) := by
  cases status : (grammar.bind line).status with
  | complete => exact absurd status h
  | incomplete => exact ⟨_, by rw [mistake?, status]⟩
  | tooManyArguments => exact ⟨_, by rw [mistake?, status]⟩
  | unmatched => exact ⟨_, by rw [mistake?, status]⟩
  | invalidArgument name =>
    obtain ⟨last, run⟩ := grammar.run_exists line
    obtain ⟨binding, found⟩ := run.exists_get status
    simp only [mistake?, status, found]
    exact ⟨_, rfl⟩

def usageLines (registry : Registry) (command : Command) (label : Text) : List Reply :=
  if registry.showUsageOnError then
    [.info (Text.of "Usage: " ++ command.grammar.commandUsage label)]
  else []

/-- The line calls a command under the label, with the rest of the line. -/
structure Calls (registry : Registry) (line label rest : Text) (command : Command) : Prop where
  called : registry.called? line = some (label, rest)
  found : registry.get? label = some command

theorem dispatchWith_nowhere (h : registry.called? line = none) :
    registry.dispatchWith call line = pure (.ok []) := by
  rw [dispatchWith, h]

theorem dispatchWith_astray (called : registry.called? line = some (label, rest))
    (missing : registry.get? label = none) :
    registry.dispatchWith call line =
      pure (.ok [.error (Text.of "Command not found!")]) := by
  simp only [dispatchWith, called, missing]

theorem dispatchWith_amiss {mistake : Text} (calls : registry.Calls line label rest command)
    (h : mistake? (command.grammar.bind rest) = .ok (some mistake)) :
    registry.dispatchWith call line =
      pure (.ok (.error mistake :: registry.usageLines command label)) := by
  simp only [dispatchWith, calls.called, calls.found, runWith, h, usageLines]

theorem dispatchWith_through (calls : registry.Calls line label rest command)
    (fits : (command.grammar.bind rest).status = .complete) :
    registry.dispatchWith call line =
      call command.handler ⟨label, command.grammar.bind rest⟩ >>= fun outcome =>
        pure outcome.answer := by
  simp only [dispatchWith, calls.called, calls.found, runWith, mistake?_of_complete fits]

/-- A line calls a command under a label on arguments. If these are complete the handler is called
with them and answers, whatever effect a call may have. Otherwise a mistake in them is answered, and
the label is not what is wrong. -/
structure BindsTo (registry : Registry) (line label : Text) (command : Command)
    (arguments : BindingSet) : Prop where
  through : arguments.status = .complete →
    ∀ {m : Type → Type} [Monad m] (call : Handler → Invocation → m Outcome),
      registry.dispatchWith call line =
        call command.handler ⟨label, arguments⟩ >>= fun outcome => pure outcome.answer
  amiss : arguments.status ≠ .complete →
    ∃ mistake, mistake? arguments = .ok (some mistake) ∧
      mistake ≠ Text.of "Command not found!" ∧
      ∀ {m : Type → Type} [Monad m] (call : Handler → Invocation → m Outcome),
        registry.dispatchWith call line =
          pure (.ok (.error mistake :: registry.usageLines command label))

theorem append_ne_notFound {front : Text}
    (h : front ≠ [] ∧ front.head? ≠ (Text.of "Command not found!").head?) (more : Text) :
    front ++ more ≠ Text.of "Command not found!" := by
  intro same
  obtain ⟨c, front, rfl⟩ := List.exists_cons_of_ne_nil h.1
  have first := congrArg List.head? same
  exact h.2 first

theorem mistake?_ne_notFound {set : BindingSet} {mistake : Text}
    (h : mistake? set = .ok (some mistake)) : mistake ≠ Text.of "Command not found!" := by
  unfold mistake? at h
  split at h
  case h_1 => cases h
  case h_2 => cases h; decide +kernel
  case h_3 => cases h; exact append_ne_notFound (by decide +kernel) _
  case h_4 name _ =>
    cases found : set.get name with
    | error => rw [found] at h; cases h
    | ok binding => rw [found] at h; cases h; exact append_ne_notFound (by decide +kernel) _
  case h_5 => cases h; exact append_ne_notFound (by decide +kernel) _

theorem Calls.bindsTo (calls : registry.Calls line label rest command) :
    registry.BindsTo line label command (command.grammar.bind rest) where
  through fits _ _ _ := dispatchWith_through calls fits
  amiss misfit := by
    obtain ⟨mistake, h⟩ := exists_mistake misfit
    exact ⟨mistake, h, mistake?_ne_notFound h, fun _ => dispatchWith_amiss calls h⟩

def record (handler : Handler) (invocation : Invocation) :
    StateM (List (Handler × Invocation)) Outcome := do
  modify (· ++ [(handler, invocation)])
  return handler invocation

/-- The calls that a line leads to, with the answer to it. -/
inductive Answers (registry : Registry) (line : Text) :
    List (Handler × Invocation) → Except InternalError (List Reply) → Prop
  | nowhere (h : registry.called? line = none) : Answers registry line [] (.ok [])
  | astray {label rest : Text} (called : registry.called? line = some (label, rest))
      (missing : registry.get? label = none) :
      Answers registry line [] (.ok [.error (Text.of "Command not found!")])
  | amiss {label rest mistake : Text} {command : Command}
      (calls : registry.Calls line label rest command)
      (misfit : (command.grammar.bind rest).status ≠ .complete)
      (h : mistake? (command.grammar.bind rest) = .ok (some mistake)) :
      Answers registry line [] (.ok (.error mistake :: registry.usageLines command label))
  | through {label rest : Text} {command : Command} {arguments : BindingSet}
      (calls : registry.Calls line label rest command)
      (bound : command.grammar.bind rest = arguments) (fits : arguments.status = .complete)
      (returned : (command.handler ⟨label, arguments⟩).error? = none) :
      Answers registry line [(command.handler, ⟨label, arguments⟩)]
        (.ok (command.handler ⟨label, arguments⟩).replies)
  | failed {label rest : Text} {command : Command} {arguments : BindingSet} {error : RuntimeError}
      (calls : registry.Calls line label rest command)
      (bound : command.grammar.bind rest = arguments) (fits : arguments.status = .complete)
      (returned : (command.handler ⟨label, arguments⟩).error? = some (.runtime error)) :
      Answers registry line [(command.handler, ⟨label, arguments⟩)]
        (.ok ((command.handler ⟨label, arguments⟩).replies ++ [.error error.message]))
  | broke {label rest : Text} {command : Command} {arguments : BindingSet} {error : InternalError}
      (calls : registry.Calls line label rest command)
      (bound : command.grammar.bind rest = arguments) (fits : arguments.status = .complete)
      (returned : (command.handler ⟨label, arguments⟩).error? = some (.internal error)) :
      Answers registry line [(command.handler, ⟨label, arguments⟩)] (.error error)

theorem exists_answers (registry : Registry) (line : Text) :
    ∃ calls, (registry.dispatchWith record line).run [] = (registry.dispatch line, calls) ∧
      registry.Answers line calls (registry.dispatch line) := by
  cases called : registry.called? line with
  | none =>
    rw [dispatch, dispatchWith_nowhere called, dispatchWith_nowhere called]
    exact ⟨[], rfl, .nowhere called⟩
  | some pair =>
    obtain ⟨label, rest⟩ := pair
    cases found : registry.get? label with
    | none =>
      rw [dispatch, dispatchWith_astray called found, dispatchWith_astray called found]
      exact ⟨[], rfl, .astray called found⟩
    | some command =>
      have calls : registry.Calls line label rest command := ⟨called, found⟩
      by_cases fits : (command.grammar.bind rest).status = .complete
      · rw [dispatch, dispatchWith_through calls fits, dispatchWith_through calls fits]
        refine ⟨[(command.handler, ⟨label, command.grammar.bind rest⟩)], rfl, ?_⟩
        change registry.Answers line _ (command.handler ⟨label, command.grammar.bind rest⟩).answer
        unfold Outcome.answer
        split
        case h_1 returned => exact .through calls rfl fits returned
        case h_2 error returned => exact .failed calls rfl fits returned
        case h_3 error returned => exact .broke calls rfl fits returned
      · obtain ⟨mistake, h⟩ := exists_mistake fits
        rw [dispatch, dispatchWith_amiss calls h, dispatchWith_amiss calls h]
        exact ⟨[], rfl, .amiss calls fits h⟩

theorem called?_of_blank (h : Text.trim line = [] ∨ Text.trim line = ['/']) :
    registry.called? line = none := by
  rcases h with h | h <;> simp [called?, stripSlash, h]

theorem dispatch_eq_error_iff {error : InternalError} :
    registry.dispatch line = .error error ↔
      ∃ label rest command, registry.Calls line label rest command ∧
        (command.grammar.bind rest).status = .complete ∧
        (command.handler ⟨label, command.grammar.bind rest⟩).error? = some (.internal error) := by
  constructor
  · intro broken
    obtain ⟨calls, _, answers⟩ := registry.exists_answers line
    rw [broken] at answers
    cases answers with
    | broke calls bound fits returned =>
      subst bound
      exact ⟨_, _, _, calls, fits, returned⟩
  · rintro ⟨label, rest, command, calls, fits, returned⟩
    rw [dispatch, dispatchWith_through calls fits]
    change (command.handler ⟨label, command.grammar.bind rest⟩).answer = _
    rw [Outcome.answer, returned]

end Registry

end Console
