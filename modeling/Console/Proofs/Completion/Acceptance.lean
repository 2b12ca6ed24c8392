import Console.Proofs.Binding.Growth
import Console.Proofs.Binding.Values
import Console.Proofs.Completion.Continuations

namespace Console

variable {line text token after partialWord front : Text} {cursor next last : Cursor} {step : Step}
  {steps : List Step} {node child : Node} {level : List Node} {tokens : List Text}
  {path way way' : Path} {index : Nat} {grammar : Grammar}

/-- A type that suggests words only, if anything, and reads words only, or everything. -/
def ArgumentType.IsPlain : ArgumentType → Prop
  | choice choices => ∀ text ∈ choices, Text.IsWord text
  | string => False
  | host _ => False
  | _ => True

def Node.IsPlain (node : Node) : Prop :=
  match node.kind with
  | .literal => Text.IsWord node.name
  | .typed type suggestions => suggestions = none ∧ type.IsPlain

structure PlainLevel (level : List Node) : Prop where
  plain : ∀ node ∈ level, node.IsPlain
  single : level.countP (!·.isLiteral) ≤ 1

def Grammar.IsPlain (grammar : Grammar) : Prop :=
  grammar.root.Everywhere fun node => PlainLevel node.children

theorem ArgumentType.IsPlain.isWordwise {type : ArgumentType} (plain : type.IsPlain) :
    type.isWordwise := by
  cases type with
  | string => cases plain
  | host => cases plain
  | _ => rfl

theorem Value.isWord_writeBool (truth : Bool) : Text.IsWord (writeBool truth) := by
  cases truth <;> (unfold writeBool Text.of; decide +kernel)

namespace ArgumentType

theorem parse_boolean {truth : Bool}
    (word : Text.nextWord? front = some (Value.writeBool truth, after)) :
    boolean.parse front = .ok (.boolean truth, after) := by
  have apart : Value.writeBool false ≠ Value.writeBool true := by
    unfold Value.writeBool Text.of
    decide +kernel
  have read : readBoolean (Value.writeBool truth) = .ok (.boolean truth) := by
    simp only [readBoolean, lowerCase_writeBool]
    cases truth with
    | true => exact if_pos rfl
    | false => exact (if_neg apart).trans (if_pos rfl)
  simp only [parse, readWord, word, read]

theorem IsPlain.accepts {type : ArgumentType} (plain : type.IsPlain)
    (suggested : text ∈ type.suggest partialWord) :
    Text.IsWord text ∧ ∀ front after, Text.nextWord? front = some (text, after) →
      ∃ value left, type.parse front = .ok (value, left) := by
  cases type with
  | boolean =>
    obtain ⟨truth, rfl⟩ : ∃ truth, text = Value.writeBool truth := by
      rcases List.mem_pair.mp suggested with rfl | rfl
      · exact ⟨true, rfl⟩
      · exact ⟨false, rfl⟩
    exact ⟨Value.isWord_writeBool truth, fun _ _ word => ⟨_, _, parse_boolean word⟩⟩
  | choice choices =>
    have mem : text ∈ choices := suggested
    refine ⟨plain text mem, fun front after word => ⟨.string text, after, ?_⟩⟩
    rw [parse_choice word, if_pos mem]
  | host => cases plain
  | _ => cases suggested

end ArgumentType

namespace Node.IsPlain

theorem isWordwise (plain : node.IsPlain) : ∀ type ∈ node.type?, type.isWordwise := by
  unfold IsPlain at plain
  unfold type?
  cases kind : node.kind with
  | literal => nofun
  | typed type suggestions =>
    rintro _ ⟨⟩
    rw [kind] at plain
    exact plain.2.isWordwise

theorem takes (plain : node.IsPlain) (suggested : text ∈ node.suggest partialWord) :
    Text.IsWord text ∧ (node.Spells text ∨
      ∀ front after, Text.nextWord? front = some (text, after) → node.Accepts front) := by
  unfold IsPlain at plain
  unfold suggest at suggested
  cases kind : node.kind with
  | literal =>
    rw [kind] at plain suggested
    cases List.mem_singleton.mp suggested
    refine ⟨plain, .inl ⟨?_, rfl⟩⟩
    rw [isLiteral, kind]
  | typed type suggestions =>
    rw [kind] at plain suggested
    obtain ⟨rfl, plain⟩ := plain
    obtain ⟨isWord, accepts⟩ := plain.accepts suggested
    refine ⟨isWord, .inr fun front after word => ?_⟩
    obtain ⟨value, left, read⟩ := accepts front after word
    exact ⟨type, value, left, by rw [type?, kind], read⟩

end Node.IsPlain

namespace Grammar.IsPlain

theorem isPlain (plain : grammar.IsPlain) (found : grammar.root.at? (way ++ [index]) = some node) :
    node.IsPlain := by
  rw [Node.at?_append, Option.bind_eq_some_iff] at found
  obtain ⟨parent, above, below⟩ := found
  obtain ⟨child, listed, here⟩ := Node.at?_cons_eq_some.mp below
  cases here
  exact (plain way parent above).plain node (List.mem_of_getElem? listed)

theorem isWordwise (plain : grammar.IsPlain) : grammar.isWordwise := by
  apply List.all_eq_true.mpr
  intro place mem
  have found := ((grammar.mem_places_iff place.path place.node).mp ⟨place, mem, rfl, rfl⟩).1
  obtain empty | ⟨way, index, split⟩ := place.path.eq_nil_or_concat'
  · rw [empty] at found
    cases found
  · rw [split, at?, if_neg (by simp)] at found
    cases typed : place.node.type? with
    | none => rfl
    | some type => exact (plain.isPlain found).isWordwise type typed

end Grammar.IsPlain

theorem eq_of_countP_le_one {α : Type} {p : α → Bool} {xs : List α} (single : xs.countP p ≤ 1)
    {i j : Nat} {x y : α} (hx : xs[i]? = some x) (hy : xs[j]? = some y) (px : p x) (py : p y) :
    i = j := by
  -- Of two places, one would be in front of a cut and the other behind it.
  have two {i j : Nat} {x y : α} (lt : i < j) (hx : xs[i]? = some x) (hy : xs[j]? = some y)
      (px : p x) (py : p y) : 2 ≤ xs.countP p := by
    rw [← List.take_append_drop j xs, List.countP_append]
    have front : x ∈ xs.take j := List.mem_of_getElem? (by rwa [List.getElem?_take_of_lt lt])
    have back : y ∈ xs.drop j :=
      List.mem_of_getElem? (i := 0) (by rwa [List.getElem?_drop, Nat.add_zero])
    have := List.countP_pos_iff.mpr ⟨x, front, px⟩
    have := List.countP_pos_iff.mpr ⟨y, back, py⟩
    omega
  rcases Nat.lt_trichotomy i j with lt | eq | gt
  · have := two lt hx hy px py
    omega
  · exact eq
  · have := two gt hy hx py px
    omega

theorem Opens.unique {index' : Nat} {child' : Node} (single : level.countP (!·.isLiteral) ≤ 1)
    (opens : Opens level token index child) (opens' : Opens level token index' child') :
    index = index' ∧ child = child' := by
  rcases opens.route with first | ⟨unspelled, typed⟩
  · rcases opens'.route with first' | ⟨unspelled', _⟩
    · exact first.unique first'
    · exact absurd first.holds (unspelled' child first.mem)
  · rcases opens'.route with first' | ⟨_, typed'⟩
    · exact absurd first'.holds (unspelled child' first'.mem)
    · obtain rfl := eq_of_countP_le_one single opens.found opens'.found (by simp [typed])
        (by simp [typed'])
      exact ⟨rfl, Option.some.inj (opens.found.symm.trans opens'.found)⟩

theorem Leads.unique (leads : Leads node tokens way) (leads' : Leads node tokens way')
    (plain : node.Everywhere fun node => PlainLevel node.children) : way = way' := by
  induction leads generalizing way' with
  | done =>
    cases leads'
    rfl
  | step opens _ ih =>
    cases leads' with
    | step opens' more' =>
      obtain ⟨rfl, rfl⟩ := opens.unique plain.here.single opens'
      rw [ih more' (plain.of_mem (List.mem_of_getElem? opens.found))]

theorem exists_first {p : Node → Prop} (mem : node ∈ level) (holds : p node) :
    ∃ index first, First p level index first := by
  classical
  obtain ⟨i, found⟩ := List.mem_iff_getElem?.mp mem
  have some : ∃ i node, level[i]? = some node ∧ p node := ⟨i, node, found, holds⟩
  obtain ⟨first, here, holds⟩ := Nat.find_spec some
  refine ⟨Nat.find some, first, here, holds, ?_⟩
  intro i before other there holds
  exact Nat.find_min some before ⟨other, there, holds⟩

theorem Cursor.exists_advance (line : Text)
    (word : Text.nextWord? cursor.rest = some (token, after))
    (mem : child ∈ cursor.node.children)
    (takes : child.Spells token ∨ child.Accepts cursor.front) :
    ∃ step next, Advance line cursor step next := by
  rcases Route.ofWord_cases cursor.node.children token with
    ⟨index, literal, first, _⟩ | ⟨unspelled, _⟩
  · obtain ⟨_, rfl⟩ := first.holds
    exact ⟨_, _, .literal word first⟩
  · have accepts := takes.resolve_left (unspelled child mem)
    obtain ⟨index, other, first⟩ := exists_first mem accepts
    obtain ⟨type, value, left, typed, read⟩ := first.holds
    exact ⟨_, _, .argument word unspelled first typed read⟩

theorem Advance.isBlankText_next (one : Advance line cursor step next)
    (wordwise : cursor.node.Wordwise)
    (word : Text.nextWord? cursor.rest = some (token, [])) : Text.isBlankText next.rest := by
  cases greedy : step.node.isGreedy with
  | true =>
    have run := Advances.step one (.done next)
    rw [(run.greedy_last List.mem_cons_self greedy).2]
    rfl
  | false =>
    have words := one.words_eq greedy (one.builtIn wordwise) fun type typed =>
      .inl (one.wordwise_step wordwise type typed)
    rw [Text.words_of_nextWord? word] at words
    exact Text.words_eq_nil_iff.mp (List.tail_eq_of_cons_eq words).symm

namespace Grammar

namespace Run

theorem follows_of_isPlain (run : grammar.Run line last) (blank : Text.isBlankText last.rest)
    (bounded : ∀ step ∈ (grammar.bind line).terminal?, step.node.isGreedy = false)
    (plain : grammar.IsPlain) : grammar.Follows line := by
  have wordwise : ∀ step ∈ (grammar.walk line).steps, ∀ type ∈ step.node.type?,
      type.isWordwise := fun _ mem _ typed =>
    type_of_all plain.isWordwise (run.at?_of_mem mem) typed
  apply run.follows_of_takesWords bounded
  apply run.takesWords_iff.mpr
  exact run.steps.raws_eq_words blank (run.bounded bounded)
    (fun step mem type typed => ArgumentType.isBuiltIn_of_isWordwise (wordwise step mem type typed))
    fun step mem type typed => .inl (wordwise step mem type typed)

theorem exists_child_of_offered (run : grammar.Run line last) (follows : grammar.Follows line)
    (plain : grammar.IsPlain) (whole : partialWord.all (!Text.isBlank ·))
    (offered : text ∈ grammar.completeLine (line ++ ' ' :: partialWord)) :
    Text.IsWord text ∧ ∃ child ∈ last.node.children, child.Spells text ∨
      ∀ front after, Text.nextWord? front = some (text, after) → child.Accepts front := by
  obtain ⟨⟨⟨path, child⟩, listed, suggested⟩, _⟩ := (mem_completeLine_iff whole).mp offered
  obtain ⟨way, index, _, leads, found⟩ := Node.mem_candidates_iff.mp listed
  obtain ⟨isWord, takes⟩ := (plain.isPlain found).takes suggested
  refine ⟨isWord, child, ?_, takes⟩
  rw [leads.unique follows plain, Node.at?_append, run.at?_terminalPath] at found
  obtain ⟨other, here, same⟩ := Node.at?_cons_eq_some.mp found
  cases same
  exact List.mem_of_getElem? here

theorem offered (run : grammar.Run line last) (blank : Text.isBlankText last.rest)
    (bounded : ∀ step ∈ (grammar.bind line).terminal?, step.node.isGreedy = false)
    (plain : grammar.IsPlain) (whole : partialWord.all (!Text.isBlank ·))
    (offered : text ∈ grammar.completeLine (line ++ ' ' :: partialWord)) :
    ∃ step next index, grammar.Run (line ++ ' ' :: text) next ∧ Text.isBlankText next.rest ∧
      (grammar.walk (line ++ ' ' :: text)).steps = (grammar.walk line).steps ++ [step] ∧
      last.node.children[index]? = some next.node ∧
      step.located = (last.path ++ [index], next.node) := by
  have follows := run.follows_of_isPlain blank bounded plain
  obtain ⟨isWord, child, mem, takes⟩ := run.exists_child_of_offered follows plain whole offered
  have root := grammar.wordwise_root plain.isWordwise
  have space : Text.startsBlank (' ' :: text) := rfl
  have front := run.steps.extend root (run.bounded bounded) space
  have word : Text.nextWord? (last.extend (' ' :: text)).rest = some (text, []) := by
    have blanks : Text.isBlankText (last.rest ++ [' ']) :=
      Text.isBlankText_append.mpr ⟨blank, rfl⟩
    have ends : Text.startsBlank [] := rfl
    have first := Text.nextWord?_blanks_append blanks isWord ends
    rwa [List.append_nil, List.append_assoc] at first
  have accepted := takes.imp_right fun accepts =>
    accepts (last.extend (' ' :: text)).front [] ((Cursor.nextWord?_front _).trans word)
  obtain ⟨step, next, one⟩ := Cursor.exists_advance (line ++ ' ' :: text) word mem accepted
  have ends := one.isBlankText_next (run.steps.wordwise root) word
  obtain ⟨index, found, below, located⟩ := one.exists_child
  have steps := front.append (.step one (.done next))
  have walked : grammar.walk (line ++ ' ' :: text) = _ := steps.walk_eq (.exhausted ends)
  refine ⟨step, next, index, .of_advances steps (.exhausted ends), ends, by rw [walked], found, ?_⟩
  rw [located, below]
  rfl

end Run

/-- What completion offers behind a line is bound, to a child of the terminal node. -/
theorem bind_offered (grammar : Grammar) {line partialWord text : Text} (plain : grammar.IsPlain)
    (consumed : (grammar.bind line).IsConsumed)
    (bounded : ∀ step ∈ (grammar.bind line).terminal?, step.node.isGreedy = false)
    (whole : partialWord.all (!Text.isBlank ·))
    (offered : text ∈ grammar.completeLine (line ++ ' ' :: partialWord)) :
    (grammar.bind (line ++ ' ' :: text)).IsConsumed ∧
      ∃ index child, (grammar.stopLevel (grammar.bind line))[index]? = some child ∧
        grammar.passed (grammar.bind (line ++ ' ' :: text)) =
          grammar.passed (grammar.bind line) ++
            [((grammar.bind line).terminalPath ++ [index], child)] := by
  obtain ⟨last, run⟩ := grammar.run_exists line
  have blank := run.isConsumed_iff.mp consumed
  obtain ⟨step, next, index, run', ends, steps, found, located⟩ :=
    run.offered blank bounded plain whole offered
  refine ⟨run'.isConsumed_iff.mpr ends, index, next.node, ?_, ?_⟩
  · rw [run.stopLevel_eq]
    exact found
  · rw [run'.passed_eq, run.passed_eq, run.terminalPath_eq, steps, List.map_append,
      List.map_singleton, located]

def mode : Node := .typed ['m'] (.choice [['o', 'n'], ['o', 'f', 'f']])

def off : Node := .literal ['o', 'f', 'f']

def modes : Grammar := ⟨[(Node.literal ['s', 'e', 't']).withChildren [mode, off]], false, rfl⟩

theorem isPlain_modes : modes.IsPlain := by
  have leaf {node : Node} (none : node.children = []) :
      node.Everywhere fun node => PlainLevel node.children := by
    refine .of_children ⟨?_, ?_⟩ ?_
    all_goals simp [none]
  have set : Node.IsPlain ((Node.literal ['s', 'e', 't']).withChildren [mode, off]) :=
    show Text.IsWord ['s', 'e', 't'] by decide
  have words : ∀ text ∈ [['o', 'n'], ['o', 'f', 'f']], Text.IsWord text := by decide
  have choice : mode.IsPlain := ⟨rfl, words⟩
  have literal : off.IsPlain := words _ (.tail _ List.mem_cons_self)
  refine .of_children ⟨List.forall_mem_singleton.mpr set, by decide⟩ ?_
  refine List.forall_mem_singleton.mpr (.of_children ⟨?_, by decide⟩ ?_)
  · exact List.forall_mem_cons.mpr ⟨choice, List.forall_mem_singleton.mpr literal⟩
  · exact List.forall_mem_cons.mpr ⟨leaf rfl, List.forall_mem_singleton.mpr (leaf rfl)⟩

theorem bind_offered_of_modes :
    modes.IsPlain ∧ (modes.bind ['s', 'e', 't']).IsConsumed ∧
      ['o', 'f', 'f'] ∈ modes.completeLine (['s', 'e', 't'] ++ ' ' :: ['O']) ∧
      (modes.bind (['s', 'e', 't'] ++ ' ' :: ['o', 'f', 'f'])).IsConsumed := by
  have consumed : (modes.bind ['s', 'e', 't']).IsConsumed := .inr (by decide)
  have bounded : ∀ step ∈ (modes.bind ['s', 'e', 't']).terminal?, step.node.isGreedy = false := by
    rintro step h
    cases h
    rfl
  have offered : ['o', 'f', 'f'] ∈ modes.completeLine (['s', 'e', 't'] ++ ' ' :: ['O']) := by
    decide +kernel
  exact ⟨isPlain_modes, consumed, offered,
    (modes.bind_offered isPlain_modes consumed bounded (by decide) offered).1⟩

end Grammar

end Console
