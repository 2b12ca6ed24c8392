import Console.Proofs.Binding.Attempts
import Console.Proofs.Grammar.Relabel

namespace Console

variable {line : Text} {cursor next last : Cursor} {steps : List Step}

def Relabel.suggesting (suggest : Path → Text → List Text) : Relabel where
  type _ type := type
  suggestions path _ := some (suggest path)

def Grammar.suggesting (grammar : Grammar) (suggest : Path → Text → List Text) : Grammar :=
  grammar.relabel (.suggesting suggest)

def Cursor.relabel (change : Relabel) (cursor : Cursor) : Cursor :=
  { cursor with node := cursor.node.relabel change cursor.path }

namespace Node

variable {suggest : Path → Text → List Text}

theorem type?_suggesting (path : Path) (node : Node) :
    (node.relabel (.suggesting suggest) path).type? = node.type? := by
  cases h : node.type? <;> simp [Relabel.suggesting, h]

theorem accepts_suggesting (text : Text) (path : Path) (node : Node) :
    (node.relabel (.suggesting suggest) path).Accepts text ↔ node.Accepts text := by
  simp only [Accepts, type?_suggesting]

end Node

theorem Advance.suggesting {step : Step} (one : Advance line cursor step next)
    (suggest : Path → Text → List Text) :
    ∃ step, Advance line (cursor.relabel (.suggesting suggest)) step
      (next.relabel (.suggesting suggest)) := by
  cases one with
  | @literal child index after word first =>
    have same := child.name_relabel (.suggesting suggest) (cursor.path ++ [index])
    refine ⟨_, .literal (by rw [same]; exact word) ?_⟩
    rw [same]
    exact (Node.first_relabel (Node.spells_relabel _) first.found).mpr first
  | argument word unspelled first typed read =>
    refine ⟨_, .argument word ((Node.noneSpells_relabel _).mpr unspelled) ?_ ?_ read⟩
    · exact (Node.first_relabel (Node.accepts_suggesting _) first.found).mpr first
    · rw [Node.type?_suggesting, typed]

theorem Advances.suggesting (run : Advances line cursor steps last)
    (suggest : Path → Text → List Text) :
    ∃ steps, Advances line (cursor.relabel (.suggesting suggest)) steps
      (last.relabel (.suggesting suggest)) := by
  induction run with
  | done cursor => exact ⟨[], .done _⟩
  | step one more ih =>
    obtain ⟨first, one⟩ := one.suggesting suggest
    obtain ⟨steps, more⟩ := ih
    exact ⟨first :: steps, .step one more⟩

theorem Grammar.Run.suggesting {grammar : Grammar} (run : grammar.Run line last)
    (blank : Text.isBlankText last.rest) (suggest : Path → Text → List Text) :
    (grammar.suggesting suggest).Run line (last.relabel (.suggesting suggest)) := by
  obtain ⟨steps, walked⟩ := run.steps.suggesting suggest
  change Advances line ⟨grammar.root.relabel (.suggesting suggest) [], [], line⟩ _ _ at walked
  rw [← root_relabel] at walked
  exact .of_advances walked (.exhausted blank)

end Console
