import Console.Proofs.Binding.Arguments
import Console.Proofs.Completion.Candidates
import Console.Proofs.Text.LowerCase

namespace Console

variable {s front more partialWord text : Text} {tokens : List Text} {node : Node} {path : Path}
  {grammar : Grammar}

namespace Text

theorem startsIgnoringCase_iff : startsIgnoringCase s front ↔ lowerCase front <+: lowerCase s :=
  List.isPrefixOf_iff_prefix

theorem startsIgnoringCase_self (s : Text) : startsIgnoringCase s s :=
  startsIgnoringCase_iff.mpr List.prefix_rfl

theorem startsIgnoringCase_front_iff (starts : startsIgnoringCase s (front ++ more)) :
    startsIgnoringCase s front ↔ ¬ Resumes front more := by
  rw [startsIgnoringCase_iff] at starts ⊢
  rw [← lowerCase_prefix_append_iff]
  constructor
  · intro short
    exact List.prefix_of_prefix_length_le short starts (length_lowerAfter_le [] front more)
  · intro inside
    exact inside.trans starts

end Text

theorem filter_eraseDups {α : Type} [BEq α] [LawfulBEq α] (p : α → Bool) (xs : List α) :
    xs.eraseDups.filter p = (xs.filter p).eraseDups := by
  match xs with
  | [] => rfl
  | x :: xs =>
    have ih := filter_eraseDups p (xs.filter (!· == x))
    have swap : (xs.filter (!· == x)).filter p = (xs.filter p).filter (!· == x) := by
      rw [List.filter_filter, List.filter_filter]
      simp only [Bool.and_comm]
    rw [List.eraseDups_cons]
    by_cases holds : p x
    · rw [List.filter_cons_of_pos holds, List.filter_cons_of_pos holds, List.eraseDups_cons, ih,
        swap]
    · -- What is dropped for the sake of `x` would be dropped with it.
      have gone : (xs.filter p).filter (!· == x) = xs.filter p := by
        apply List.filter_eq_self.mpr
        intro y mem
        have kept := (List.mem_filter.mp mem).2
        simp only [Bool.not_eq_true', beq_eq_false_iff_ne]
        rintro rfl
        exact holds kept
      rw [List.filter_cons_of_neg holds, List.filter_cons_of_neg holds, ih, swap, gone]
termination_by xs.length
decreasing_by exact Nat.lt_succ_of_le (List.length_filter_le _ xs)

def Node.SuggestsFixed (node : Node) : Prop :=
  ∀ partialWord other, node.suggest partialWord = node.suggest other

namespace Node

theorem suggestsFixed_of_isLiteral (literal : node.isLiteral) : node.SuggestsFixed := by
  intro partialWord other
  unfold isLiteral at literal
  unfold suggest
  split at literal
  case h_1 kind => rw [kind]
  case h_2 => cases literal

theorem suggestsFixed_of_isBuiltIn {type : ArgumentType} (kind : node.kind = .typed type none)
    (builtIn : type.isBuiltIn) : node.SuggestsFixed := by
  intro partialWord other
  unfold suggest
  rw [kind]
  cases type with
  | host => cases builtIn
  | _ => rfl

theorem suggestsFixed_of_constant {type : ArgumentType} {texts : List Text}
    (kind : node.kind = .typed type (some fun _ => texts)) : node.SuggestsFixed := by
  intro partialWord other
  unfold suggest
  rw [kind]

end Node

namespace Grammar

def SuggestsFixed (grammar : Grammar) : Prop :=
  ∀ path node, grammar.at? path = some node → node.SuggestsFixed

theorem suggestsFixed_of_places (typed : ∀ place ∈ grammar.places, place.node.SuggestsFixed) :
    grammar.SuggestsFixed := by
  intro path node found
  cases literal : node.isLiteral with
  | true => exact Node.suggestsFixed_of_isLiteral literal
  | false =>
    obtain ⟨place, mem, _, rfl⟩ := (grammar.mem_places_iff path node).mpr ⟨found, literal⟩
    exact typed place mem

theorem SuggestsFixed.of_mem (fixed : grammar.SuggestsFixed)
    (mem : (path, node) ∈ grammar.candidates tokens) : node.SuggestsFixed :=
  fixed path node (mem_candidates_iff.mp mem).2.1

theorem SuggestsFixed.suggestions_eq (fixed : grammar.SuggestsFixed) (tokens : List Text)
    (partialWord other : Text) :
    (grammar.candidates tokens).flatMap (·.2.suggest partialWord) =
      (grammar.candidates tokens).flatMap (·.2.suggest other) :=
  List.flatMap_congr fun _ mem => fixed.of_mem mem partialWord other

theorem SuggestsFixed.mem_complete_iff (fixed : grammar.SuggestsFixed) {other : Text}
    (mem : text ∈ grammar.complete (tokens ++ [partialWord])) :
    text ∈ grammar.complete (tokens ++ [other]) ↔ Text.startsIgnoringCase text other := by
  obtain ⟨⟨located, listed, suggested⟩, _⟩ := Grammar.mem_complete_iff.mp mem
  rw [Grammar.mem_complete_iff, and_iff_right_iff_imp]
  intro _
  exact ⟨located, listed, fixed.of_mem listed partialWord other ▸ suggested⟩

/-- What is offered as a partial word is typed on. Unless the new letters resume a word behind a
final sigma, what starts with them is kept; otherwise everything offered is new. -/
structure Narrows (grammar : Grammar) (tokens : List Text) (front more : Text) : Prop where
  kept : ¬ Text.Resumes front more →
    grammar.complete (tokens ++ [front ++ more]) =
      (grammar.complete (tokens ++ [front])).filter (Text.startsIgnoringCase · (front ++ more))
  fresh : Text.Resumes front more →
    ∀ text ∈ grammar.complete (tokens ++ [front ++ more]),
      text ∉ grammar.complete (tokens ++ [front])
  typed : front ++ more ∈ grammar.complete (tokens ++ [[]]) →
    (front ++ more ∈ grammar.complete (tokens ++ [front]) ↔ ¬ Text.Resumes front more)

theorem complete_front (grammar : Grammar) (tokens : List Text) (front more : Text)
    (fixed : grammar.SuggestsFixed) : Narrows grammar tokens front more := by
  constructor
  case kept =>
    intro inside
    rw [complete_eq, complete_eq, filter_eraseDups, List.filter_filter,
      fixed.suggestions_eq tokens (front ++ more) front]
    congr 1
    apply List.filter_congr
    intro text _
    rw [Bool.eq_self_and]
    intro starts
    exact (Text.startsIgnoringCase_front_iff starts).mpr inside
  case fresh =>
    intro resumes text mem offered
    have starts := (Grammar.mem_complete_iff.mp mem).2
    have short := (Grammar.mem_complete_iff.mp offered).2
    exact (Text.startsIgnoringCase_front_iff starts).mp short resumes
  case typed =>
    intro listed
    rw [fixed.mem_complete_iff listed]
    exact Text.startsIgnoringCase_front_iff (Text.startsIgnoringCase_self _)

def sigmas : Grammar :=
  ⟨[.literal ['Δ', 'Σ', 'Δ'], .typed ['c'] (.choice [['Δ', 'Σ']]),
    ⟨['w'], .typed .word (some fun _ => [['δ', 'σ', 'δ']]), true, []⟩], true, rfl⟩

theorem suggestsFixed_sigmas : sigmas.SuggestsFixed := by
  apply suggestsFixed_of_places
  have places : sigmas.places =
      [⟨[1], .typed ['c'] (.choice [['Δ', 'Σ']]), 0⟩,
        ⟨[2], ⟨['w'], .typed .word (some fun _ => [['δ', 'σ', 'δ']]), true, []⟩, 0⟩] := rfl
  rw [places, List.forall_mem_cons, List.forall_mem_singleton]
  exact ⟨Node.suggestsFixed_of_isBuiltIn rfl rfl, Node.suggestsFixed_of_constant rfl⟩

theorem complete_front_of_sigmas :
    sigmas.SuggestsFixed ∧ ¬ Text.Resumes ['Δ'] ['Σ', 'Δ'] ∧
      Narrows sigmas [] ['Δ'] ['Σ', 'Δ'] := by
  have inside := Text.not_resumes_of_notMem (by decide : 'Σ' ∉ ['Δ']) ['Σ', 'Δ']
  have narrows := sigmas.complete_front [] ['Δ'] ['Σ', 'Δ'] suggestsFixed_sigmas
  exact ⟨suggestsFixed_sigmas, inside, narrows⟩

/-- A name is offered for its first letter and for all of it, but not for its first two. -/
theorem not_offered_at_sigma :
    sigmas.SuggestsFixed ∧
      ['Δ', 'Σ', 'Δ'] ∈ sigmas.complete [['Δ']] ∧
      ['Δ', 'Σ', 'Δ'] ∉ sigmas.complete [['Δ', 'Σ']] ∧
      ['Δ', 'Σ', 'Δ'] ∈ sigmas.complete [['Δ', 'Σ', 'Δ']] := by
  refine ⟨suggestsFixed_sigmas, ?_⟩
  decide +kernel

end Grammar

end Console
