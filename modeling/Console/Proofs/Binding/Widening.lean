import Console.Proofs.Binding.Boundaries

namespace Console

variable {line token : Text} {tokens : List Text} {node node' child child' : Node}
  {index slot : Nat} {path : Path} {cursor cursor' next last : Cursor} {step step' : Step}
  {steps steps' : List Step} {grammar wider : Grammar}

/-- A tree in which levels have more nodes at their ends. None of these nodes is a literal for one
of some words; what stands below them does not matter. -/
inductive Node.Widens (tokens : List Text) : Node → Node → Prop
  | intro {name : Text} {kind : NodeKind} {executes : Bool} {children children' more : List Node}
      (below : List.Forall₂ (Widens tokens) children children')
      (beside : ∀ child ∈ more, child.isLiteral → child.name ∉ tokens) :
      Widens tokens ⟨name, kind, executes, children⟩ ⟨name, kind, executes, children' ++ more⟩

namespace Node.Widens

theorem name_eq (h : Widens tokens node node') : node'.name = node.name := by cases h; rfl

theorem executes_eq (h : Widens tokens node node') : node'.executes = node.executes := by
  cases h; rfl

theorem type?_eq (h : Widens tokens node node') : node'.type? = node.type? := by cases h; rfl

theorem isLiteral_eq (h : Widens tokens node node') : node'.isLiteral = node.isLiteral := by
  cases h; rfl

theorem spells_iff (h : Widens tokens node node') (token : Text) :
    node'.Spells token ↔ node.Spells token := by
  rw [Spells, Spells, h.isLiteral_eq, h.name_eq]

theorem accepts_iff (h : Widens tokens node node') (text : Text) :
    node'.Accepts text ↔ node.Accepts text := by
  rw [Accepts, Accepts, h.type?_eq]

theorem exists_child (h : Widens tokens node node') (found : node.children[index]? = some child) :
    ∃ child', node'.children[index]? = some child' ∧ Widens tokens child child' := by
  cases h with
  | intro below =>
    obtain ⟨child', found', widens⟩ := exists_getElem?_of_forall₂ below found
    refine ⟨child', ?_, widens⟩
    exact (List.getElem?_append_left (List.getElem?_eq_some_iff.mp found').1).trans found'

theorem exists_first {p p' : Node → Prop} (h : Widens tokens node node')
    (alike : ∀ child child', Widens tokens child child' → (p' child' ↔ p child))
    (first : First p node.children index child) :
    ∃ child', First p' node'.children index child' ∧ Widens tokens child child' := by
  obtain ⟨child', found', widens⟩ := h.exists_child first.found
  refine ⟨child', ⟨found', (alike _ _ widens).mpr first.holds, ?_⟩, widens⟩
  intro i lt other' found holds
  have old : i < node.children.length :=
    lt.trans (List.getElem?_eq_some_iff.mp first.found).1
  obtain ⟨other'', same, widens⟩ := h.exists_child (List.getElem?_eq_getElem old)
  obtain rfl := Option.some.inj (found.symm.trans same)
  exact first.least i lt _ (List.getElem?_eq_getElem old) ((alike _ _ widens).mp holds)

theorem noneSpells (h : Widens tokens node node') (mem : token ∈ tokens)
    (unspelled : NoneSpells node.children token) : NoneSpells node'.children token := by
  cases h with
  | intro below beside =>
    intro child' found spelled
    rcases List.mem_append.mp found with old | new
    · obtain ⟨index, found⟩ := List.mem_iff_getElem?.mp old
      obtain ⟨child, found, widens⟩ := exists_getElem?_of_forall₂ below.flip found
      exact unspelled child (List.mem_of_getElem? found) ((widens.spells_iff token).mp spelled)
    · exact beside child' new spelled.1 (spelled.2 ▸ mem)

end Node.Widens

structure Place.Widens (tokens : List Text) (place place' : Place) : Prop where
  path : place'.path = place.path
  slot : place'.slot = place.slot
  node : place.node.Widens tokens place'.node

theorem Node.Widens.exists_place (h : Widens tokens node node') {place : Place}
    (mem : place ∈ node.places path slot) :
    ∃ place' ∈ node'.places path slot, place.Widens tokens place' := by
  induction node using childInduction generalizing node' path slot with
  | below node ih =>
    have below {slot : Nat} (mem : place ∈ node.placesBelow path slot) :
        ∃ place' ∈ node'.placesBelow path slot, place.Widens tokens place' := by
      obtain ⟨index, child, found, mem⟩ := mem_placesBelow_iff.mp mem
      obtain ⟨child', found', widens⟩ := h.exists_child found
      obtain ⟨place', mem', same⟩ := ih child (List.mem_of_getElem? found) widens mem
      exact ⟨place', mem_placesBelow_iff.mpr ⟨index, child', found', mem'⟩, same⟩
    cases kind : node.isLiteral with
    | true =>
      rw [places_literal kind] at mem
      rw [places_literal (h.isLiteral_eq.trans kind)]
      exact below mem
    | false =>
      rw [places_typed kind] at mem
      rw [places_typed (h.isLiteral_eq.trans kind)]
      cases List.mem_cons.mp mem with
      | inl own =>
        subst own
        exact ⟨_, List.mem_cons_self, rfl, rfl, h⟩
      | inr lower =>
        obtain ⟨place', mem', same⟩ := below lower
        exact ⟨place', .tail _ mem', same⟩

inductive Step.Widens (tokens : List Text) : Step → Step → Prop
  | literal {path : Path} {node node' : Node} (widens : node.Widens tokens node') :
      Widens tokens (.literal path node) (.literal path node')
  | argument {path : Path} {node node' : Node} {raw : Text} {value : Value} {position : Position}
      (widens : node.Widens tokens node') :
      Widens tokens (.argument path node raw value position)
        (.argument path node' raw value position)

structure Cursor.Widens (tokens : List Text) (cursor cursor' : Cursor) : Prop where
  node : cursor.node.Widens tokens cursor'.node
  path : cursor'.path = cursor.path
  rest : cursor'.rest = cursor.rest

theorem Advance.widen (one : Advance line cursor step next)
    (widens : cursor.Widens tokens cursor')
    (known : ∀ token after, Text.nextWord? cursor.rest = some (token, after) → token ∈ tokens) :
    ∃ step' next', Advance line cursor' step' next' ∧ step.Widens tokens step' ∧
      next.Widens tokens next' := by
  obtain ⟨node', path', rest'⟩ := cursor'
  obtain ⟨below, samePath, sameRest⟩ := widens
  dsimp only at below samePath sameRest
  subst samePath sameRest
  cases one with
  | literal word first =>
    obtain ⟨child', first', same⟩ :=
      below.exists_first (fun child child' same => same.spells_iff _) first
    rw [← same.name_eq] at word first'
    exact ⟨_, _, .literal word first', .literal same, same, rfl, rfl⟩
  | argument word unspelled first typed read =>
    obtain ⟨child', first', same⟩ :=
      below.exists_first (fun child child' same => same.accepts_iff cursor.front) first
    have unspelled' := below.noneSpells (known _ _ word) unspelled
    exact ⟨_, _, .argument word unspelled' first' (same.type?_eq.trans typed) read,
      .argument same, same, rfl, rfl⟩

theorem Advances.widen (run : Advances line cursor steps last)
    (builtIn : ∀ step ∈ steps, ∀ type ∈ step.node.type?, type.isBuiltIn)
    (boundary : Text.IsBoundary line cursor.rest)
    (widens : cursor.Widens (Text.words line) cursor') :
    ∃ steps' last', Advances line cursor' steps' last' ∧
      List.Forall₂ (Step.Widens (Text.words line)) steps steps' ∧
        last.Widens (Text.words line) last' := by
  induction run generalizing cursor' with
  | done => exact ⟨[], cursor', .done cursor', .nil, widens⟩
  | step one _ ih =>
    obtain ⟨first, others⟩ := List.forall_mem_cons.mp builtIn
    obtain ⟨step', next', one', same, widens⟩ :=
      one.widen widens fun _ _ word => boundary.mem_words word
    obtain ⟨steps', last', run', sames, widens⟩ := ih others (one.isBoundary first boundary) widens
    exact ⟨step' :: steps', last', .step one' run', .cons same sames, widens⟩

namespace Step.Widens

theorem path_eq (h : step.Widens tokens step') : step'.path = step.path := by cases h <;> rfl

theorem node_widens (h : step.Widens tokens step') : step.node.Widens tokens step'.node := by
  cases h <;> assumption

end Step.Widens

theorem Trail.attemptAt_widen (same : List.Forall₂ (Step.Widens tokens) steps steps')
    (path : Path) :
    (⟨steps', .exhausted⟩ : Trail).attemptAt path =
      (⟨steps, .exhausted⟩ : Trail).attemptAt path := by
  unfold attemptAt
  induction same with
  | nil => rfl
  | @cons step step' _ _ first _ ih =>
    simp only [List.find?_cons, first.path_eq]
    cases step.path == path with
    | true => cases first <;> rfl
    | false => exact ih

/-- How a line is bound to a grammar and to a wider one: the walk passes the same nodes, and their
bindings stay as they are. Nothing new is attempted. -/
structure Keeps (tokens : List Text) (grammar wider : Grammar) (set after : BindingSet) :
    Prop where
  status : after.status = set.status
  wordCount : after.wordCount = set.wordCount
  terminalPath : after.terminalPath = set.terminalPath
  passed : List.Forall₂ (fun old new => new.1 = old.1 ∧ old.2.Widens tokens new.2)
    (grammar.passed set) (wider.passed after)
  kept : ∀ binding ∈ set.bindings, ∃ binding' ∈ after.bindings,
    binding.place.Widens tokens binding'.place ∧ binding'.attempt = binding.attempt
  fresh : ∀ binding ∈ after.bindings, binding.isAttempted →
    (grammar.at? binding.place.path).isSome

namespace Grammar

def Widens (tokens : List Text) (grammar wider : Grammar) : Prop :=
  grammar.root.Widens tokens wider.root

theorem Widens.exists_place (h : grammar.Widens tokens wider) {place : Place}
    (mem : place ∈ grammar.places) : ∃ place' ∈ wider.places, place.Widens tokens place' := by
  have root (grammar : Grammar) : grammar.root.places [] 0 = grammar.places :=
    Node.places_literal rfl [] 0
  rw [← root] at mem ⊢
  exact Node.Widens.exists_place h mem

theorem Run.widen (run : grammar.Run line last) (builtIn : grammar.isBuiltIn)
    (blank : Text.isBlankText last.rest) (widens : grammar.Widens (Text.words line) wider) :
    ∃ steps last', grammar.walk line = ⟨(grammar.walk line).steps, .exhausted⟩ ∧
      wider.walk line = ⟨steps, .exhausted⟩ ∧ wider.Run line last' ∧
      List.Forall₂ (Step.Widens (Text.words line)) (grammar.walk line).steps steps ∧
      last.Widens (Text.words line) last' := by
  have start : Cursor.Widens (Text.words line) ⟨grammar.root, [], line⟩ ⟨wider.root, [], line⟩ :=
    ⟨widens, rfl, rfl⟩
  obtain ⟨steps, last', run', same, ends⟩ :=
    run.steps.widen (run.builtIn_of_mem builtIn) (Text.isBoundary_self line) start
  have halt : Halt line last' .exhausted := .exhausted (by rw [ends.rest]; exact blank)
  have exhausted := run.halt.deterministic (.exhausted blank)
  exact ⟨steps, last', congrArg (Trail.mk _) exhausted, run'.walk_eq halt,
    .of_advances run' halt, same, ends⟩

/-- More alternatives do not change how a line is bound that was bound to its end, if arguments have
built-in types and no new literal at a level of the grammar is a word of the line. -/
theorem bind_widen (grammar wider : Grammar) (line : Text) (builtIn : grammar.isBuiltIn)
    (consumed : (grammar.bind line).IsConsumed)
    (widens : grammar.Widens (Text.words line) wider) :
    Keeps (Text.words line) grammar wider (grammar.bind line) (wider.bind line) := by
  obtain ⟨last, run⟩ := grammar.run_exists line
  obtain ⟨steps, last', walked, walked', run', same, ends⟩ :=
    run.widen builtIn (run.isConsumed_iff.mp consumed) widens
  have attempts (path : Path) :
      (wider.walk line).attemptAt path = (grammar.walk line).attemptAt path := by
    rw [walked, walked']
    exact Trail.attemptAt_widen same path
  constructor
  case status =>
    rw [run.status_eq, run'.status_eq, ends.node.executes_eq, walked, walked']
  case wordCount => rfl
  case terminalPath => rw [run.terminalPath_eq, run'.terminalPath_eq, ends.path]
  case passed =>
    rw [run.passed_eq, run'.passed_eq, walked', List.forall₂_map_left_iff,
      List.forall₂_map_right_iff]
    exact same.imp fun _ _ h => ⟨h.path_eq, h.node_widens⟩
  case kept =>
    intro binding mem
    obtain ⟨mem, made⟩ := mem_bindings_iff.mp mem
    obtain ⟨place', mem', same⟩ := widens.exists_place mem
    refine ⟨⟨place', (wider.walk line).attemptAt place'.path⟩,
      mem_bindings_iff.mpr ⟨mem', rfl⟩, same, ?_⟩
    rw [made, ← attempts, same.path]
  case fresh =>
    intro binding mem attempted
    obtain ⟨_, made⟩ := mem_bindings_iff.mp mem
    rw [attempts] at made
    rcases run.attemptAt_cases binding.place.path with
      ⟨node, raw, value, position, step, _⟩ | ⟨_, _, _, _, _, ends, _⟩ | ⟨_, _, holds⟩
    · exact Option.isSome_of_eq_some (run.at?_of_mem step)
    · rw [walked] at ends
      cases ends
    · rw [Binding.isAttempted, made, holds] at attempted
      cases attempted

def setNumber : Grammar :=
  ⟨[⟨['s', 'e', 't'], .literal, false, [⟨['n'], .typed .anyInteger none, true, []⟩]⟩], false, rfl⟩

def setMore : Grammar :=
  ⟨[⟨['s', 'e', 't'], .literal, false,
      [⟨['n'], .typed .anyInteger none, true, [⟨['t'], .typed .greedyString none, true, []⟩]⟩,
        ⟨['w'], .typed .word none, true, []⟩]⟩,
    ⟨['g', 'e', 't'], .literal, false, []⟩], false, rfl⟩

theorem bind_widen_of_number :
    setNumber.isBuiltIn ∧ (setNumber.bind ['s', 'e', 't', ' ', '5']).IsConsumed ∧
      setNumber.Widens (Text.words ['s', 'e', 't', ' ', '5']) setMore ∧
      Keeps (Text.words ['s', 'e', 't', ' ', '5']) setNumber setMore
        (setNumber.bind ['s', 'e', 't', ' ', '5']) (setMore.bind ['s', 'e', 't', ' ', '5']) := by
  have consumed : (setNumber.bind ['s', 'e', 't', ' ', '5']).IsConsumed :=
    .inl (by decide +kernel)
  have number : Node.Widens (Text.words ['s', 'e', 't', ' ', '5'])
      ⟨['n'], .typed .anyInteger none, true, []⟩
      ⟨['n'], .typed .anyInteger none, true,
        [] ++ [⟨['t'], .typed .greedyString none, true, []⟩]⟩ :=
    .intro .nil (by decide)
  have set : Node.Widens (Text.words ['s', 'e', 't', ' ', '5'])
      ⟨['s', 'e', 't'], .literal, false, [_]⟩
      ⟨['s', 'e', 't'], .literal, false, [_] ++ [⟨['w'], .typed .word none, true, []⟩]⟩ :=
    .intro (.cons number .nil) (by decide)
  have widens : Node.Widens (Text.words ['s', 'e', 't', ' ', '5']) ⟨[], .literal, false, [_]⟩
      ⟨[], .literal, false, [_] ++ [⟨['g', 'e', 't'], .literal, false, []⟩]⟩ :=
    .intro (.cons set .nil) (by decide)
  exact ⟨rfl, consumed, widens, bind_widen setNumber setMore _ rfl consumed widens⟩

end Grammar

end Console
