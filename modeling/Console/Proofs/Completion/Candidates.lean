import Console.Completion
import Console.Proofs.Grammar.Places

namespace Console

/-- A word can lead to a child of a level: to the first literal of that name, or, if there is none,
to any typed child. Nothing comes after a greedy child, so that it does not count. -/
structure Opens (level : List Node) (token : Text) (index : Nat) (child : Node) : Prop where
  found : level[index]? = some child
  bounded : child.isGreedy = false
  route : First (Node.Spells token) level index child ∨
    Node.NoneSpells level token ∧ child.isLiteral = false

inductive Leads : Node → List Text → Path → Prop
  | done (node : Node) : Leads node [] []
  | step {node child : Node} {token : Text} {tokens : List Text} {index : Nat} {way : Path}
      (opens : Opens node.children token index child) (more : Leads child tokens way) :
      Leads node (token :: tokens) (index :: way)

theorem Opens.noneSpells {level : List Node} {token : Text} {index : Nat} {child : Node}
    (opens : Opens level token index child) (typed : child.isLiteral = false) :
    Node.NoneSpells level token := by
  cases opens.route with
  | inl first =>
    rw [first.holds.1] at typed
    cases typed
  | inr other => exact other.1

variable {node child last : Node} {level : List Node} {token : Text} {tokens : List Text}
  {index : Nat} {path way front back : Path}

namespace Leads

theorem length_eq (h : Leads node tokens way) : way.length = tokens.length := by
  induction h with
  | done => rfl
  | step _ _ ih => simp [ih]

end Leads

def Route.options : Route → List (Node × Nat)
  | literal node index => [(node, index)]
  | typed options => options

namespace Node

def opened (level : List Node) (token : Text) : List (Node × Nat) :=
  (Route.ofWord level token).options.filter (!·.1.isGreedy)

theorem mem_opened_iff : (child, index) ∈ opened level token ↔ Opens level token index child := by
  rw [opened, List.mem_filter]
  cases Route.ofWord_cases level token with
  | inl found =>
    obtain ⟨i, literal, first, route⟩ := found
    have bounded : literal.isGreedy = false := isGreedy_eq_false first.holds.1
    rw [route]
    constructor
    · intro h
      obtain ⟨rfl, rfl⟩ : child = literal ∧ index = i := by simpa [Route.options] using h.1
      exact ⟨first.found, bounded, .inl first⟩
    · intro h
      cases h.route with
      | inl first' =>
        obtain ⟨rfl, rfl⟩ := first'.unique first
        simp [Route.options, bounded]
      | inr other => exact absurd first.holds (other.1 literal first.mem)
  | inr none =>
    obtain ⟨unspelled, route⟩ := none
    rw [route]
    constructor
    · intro h
      obtain ⟨⟨here, typed⟩, bounded⟩ :
          (level[index]? = some child ∧ child.isLiteral = false) ∧ child.isGreedy = false := by
        simpa [Route.options, List.mem_zipIdx_iff_getElem?] using h
      exact ⟨here, bounded, .inr ⟨unspelled, typed⟩⟩
    · intro h
      cases h.route with
      | inl first => exact absurd first.holds (unspelled child first.mem)
      | inr other =>
        simp [Route.options, List.mem_zipIdx_iff_getElem?, h.found, h.bounded, other.2]

theorem after_eq (level : List Node) (token : Text) :
    after level token = (opened level token).map (·.1.children) := by
  unfold after opened
  cases Route.ofWord level token with
  | literal node index => cases h : node.isGreedy <;> simp [Route.nodes, Route.options, h]
  | typed options => simp [Route.nodes, Route.options, List.filter_map, Function.comp_def]

def candidates (node : Node) (path : Path) : List Text → List (Path × Node)
  | [] => node.children.zipIdx.map fun child => (path ++ [child.2], child.1)
  | token :: tokens =>
    (opened node.children token).flatMap fun child =>
      child.1.candidates (path ++ [child.2]) tokens

theorem mem_candidates_iff {reached : Path} :
    (reached, last) ∈ node.candidates path tokens ↔
      ∃ way index, reached = path ++ way ++ [index] ∧ Leads node tokens way ∧
        node.at? (way ++ [index]) = some last := by
  induction tokens generalizing node path with
  | nil =>
    rw [candidates, List.mem_map]
    constructor
    · rintro ⟨⟨child, index⟩, h, eq⟩
      cases eq
      refine ⟨[], index, by simp, .done node, ?_⟩
      simp [at?_cons, List.mem_zipIdx_iff_getElem?.mp h]
    · rintro ⟨way, index, eq, leads, found⟩
      cases leads
      refine ⟨(last, index), List.mem_zipIdx_iff_getElem?.mpr ?_, by simp [eq]⟩
      simpa [at?_cons] using found
  | cons token tokens ih =>
    rw [candidates, List.mem_flatMap]
    constructor
    · rintro ⟨⟨child, i⟩, h, below⟩
      have opens := mem_opened_iff.mp h
      obtain ⟨way, index, eq, leads, found⟩ := ih.mp below
      refine ⟨i :: way, index, by simp [eq], .step opens leads, ?_⟩
      simpa [at?_cons, opens.found] using found
    · rintro ⟨way, index, eq, leads, found⟩
      cases leads with
      | @step _ child _ _ i way opens more =>
        refine ⟨(child, i), mem_opened_iff.mpr opens, ih.mpr ⟨way, index, by simp [eq], more, ?_⟩⟩
        simpa [at?_cons, opens.found] using found

def levels (level : List Node) (tokens : List Text) : List (List Node) :=
  tokens.foldl (fun levels token => levels.flatMap (after · token)) [level]

theorem foldl_after (tokens : List Text) (start : List (List Node)) :
    tokens.foldl (fun levels token => levels.flatMap (after · token)) start =
      start.flatMap (levels · tokens) := by
  induction tokens generalizing start with
  | nil => simp [levels]
  | cons token tokens ih =>
    rw [List.foldl_cons, ih, List.flatMap_assoc]
    apply List.flatMap_congr
    intro level _
    rw [levels, List.foldl_cons, ih, List.flatMap_singleton]

theorem levels_cons (level : List Node) (token : Text) (tokens : List Text) :
    levels level (token :: tokens) = (after level token).flatMap (levels · tokens) := by
  rw [levels, List.foldl_cons, foldl_after, List.flatMap_singleton]

theorem flatten_levels (node : Node) (path : Path) (tokens : List Text) :
    (levels node.children tokens).flatten = (node.candidates path tokens).map Prod.snd := by
  induction tokens generalizing node path with
  | nil => simp [levels, candidates, Function.comp_def]
  | cons token tokens ih =>
    rw [levels_cons, after_eq, candidates, List.flatMap_map, List.map_flatMap, ← List.flatMap_id,
      List.flatMap_assoc]
    apply List.flatMap_congr
    intro child _
    rw [List.flatMap_id]
    exact ih child.1 _

end Node

namespace Grammar

def candidates (grammar : Grammar) (tokens : List Text) : List (Path × Node) :=
  grammar.root.candidates [] tokens

theorem mem_candidates_iff {grammar : Grammar} :
    (path, node) ∈ grammar.candidates tokens ↔
      path.length = tokens.length + 1 ∧ grammar.at? path = some node ∧
        Leads grammar.root tokens path.dropLast := by
  rw [candidates, Node.mem_candidates_iff]
  constructor
  · rintro ⟨way, index, eq, leads, found⟩
    have eq : path = way ++ [index] := eq
    subst eq
    refine ⟨by simp [leads.length_eq], ?_, by simpa using leads⟩
    rw [at?, if_neg (by simp)]
    exact found
  · rintro ⟨count, found, leads⟩
    have split : path ≠ [] := by
      intro empty
      simp [empty] at count
    rw [at?, if_neg (by simpa using split)] at found
    refine ⟨path.dropLast, path.getLast split, ?_, leads, ?_⟩
    · simp [List.dropLast_append_getLast]
    · rw [List.dropLast_append_getLast]
      exact found

theorem complete_eq (grammar : Grammar) (tokens : List Text) (partialWord : Text) :
    grammar.complete (tokens ++ [partialWord]) =
      (((grammar.candidates tokens).flatMap (·.2.suggest partialWord)).filter
        (Text.startsIgnoringCase · partialWord)).eraseDups := by
  have same : (grammar.levels tokens).flatten = (grammar.candidates tokens).map Prod.snd :=
    grammar.root.flatten_levels [] tokens
  rw [complete_concat, offers, same, List.flatMap_map]

theorem mem_complete_iff {grammar : Grammar} {text partialWord : Text} :
    text ∈ grammar.complete (tokens ++ [partialWord]) ↔
      (∃ located ∈ grammar.candidates tokens, text ∈ located.2.suggest partialWord) ∧
        Text.startsIgnoringCase text partialWord := by
  rw [complete_eq, List.mem_eraseDups, List.mem_filter, List.mem_flatMap]

end Grammar

end Console
