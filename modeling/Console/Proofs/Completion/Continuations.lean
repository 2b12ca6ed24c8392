import Console.Proofs.Binding.Boundaries
import Console.Proofs.Binding.Suggestions
import Console.Proofs.Binding.Tiling
import Console.Proofs.Completion.Candidates
import Mathlib.Data.Fintype.EquivFin

namespace Console

variable {line text token after left : Text} {cursor next last : Cursor} {steps : List Step}
  {node child : Node} {tokens : List Text} {index : Nat} {path way : Path} {grammar : Grammar}

theorem Grammar.partialWords_append {partialWord : Text}
    (whole : partialWord.all (!Text.isBlank ·)) (line : Text) :
    partialWords (line ++ ' ' :: partialWord) = Text.words line ++ [partialWord] := by
  rw [partialWords, Text.words_append_blank rfl]
  have space : Text.isBlank ' ' := rfl
  cases h : partialWord.reverse with
  | nil =>
    have empty : partialWord = [] := List.reverse_eq_nil_iff.mp h
    simp [empty, Text.startsBlank, space]
  | cons c front =>
    have mem : c ∈ partialWord := by
      rw [← List.mem_reverse, h]
      exact List.mem_cons_self
    have inner : Text.isBlank c = false := by simpa using List.all_eq_true.mp whole c mem
    rw [Text.IsWord.words_eq ⟨List.ne_nil_of_mem mem, whole⟩]
    simp [h, Text.startsBlank, inner]

theorem Grammar.mem_completeLine_iff {partialWord : Text}
    (whole : partialWord.all (!Text.isBlank ·)) :
    text ∈ grammar.completeLine (line ++ ' ' :: partialWord) ↔
      (∃ located ∈ grammar.candidates (Text.words line), text ∈ located.2.suggest partialWord) ∧
        Text.startsIgnoringCase text partialWord := by
  rw [completeLine, partialWords_append whole, mem_complete_iff]

namespace Grammar

def OffersNext (grammar : Grammar) (line : Text) : Prop :=
  ∀ child ∈ grammar.stopLevel (grammar.bind line),
    ∀ partialWord : Text, partialWord.all (!Text.isBlank ·) →
      ∀ text ∈ child.suggest partialWord, Text.startsIgnoringCase text partialWord →
        text ∈ grammar.completeLine (line ++ ' ' :: partialWord)

/-- The words of a line lead to the terminal node, each to the next node on the way. -/
def Follows (grammar : Grammar) (line : Text) : Prop :=
  Leads grammar.root (Text.words line) (grammar.bind line).terminalPath

def TakesWords (grammar : Grammar) (line : Text) : Prop :=
  (grammar.passed (grammar.bind line)).map (grammar.bind line).taken? =
    (Text.words line).map some

theorem follows_of_mem_candidates
    (h : ((grammar.bind line).terminalPath ++ [index], child) ∈
      grammar.candidates (Text.words line)) : grammar.Follows line := by
  have leads := (mem_candidates_iff.mp h).2.2
  rwa [List.dropLast_concat] at leads

theorem Run.mem_candidates (run : grammar.Run line last) (follows : grammar.Follows line)
    (found : last.node.children[index]? = some child) :
    ((grammar.bind line).terminalPath ++ [index], child) ∈
      grammar.candidates (Text.words line) := by
  have led : grammar.root.at? ((grammar.bind line).terminalPath ++ [index]) = some child := by
    rw [Node.at?_append, run.at?_terminalPath]
    simp [Node.at?_cons, found]
  exact Node.mem_candidates_iff.mpr ⟨_, index, rfl, follows, led⟩

theorem Run.offersNext (run : grammar.Run line last) (follows : grammar.Follows line) :
    grammar.OffersNext line := by
  intro child hc partialWord whole text suggested starts
  rw [run.stopLevel_eq] at hc
  obtain ⟨index, found⟩ := List.mem_iff_getElem?.mp hc
  apply (mem_completeLine_iff whole).mpr
  exact ⟨⟨_, run.mem_candidates follows found, suggested⟩, starts⟩

end Grammar

theorem Advance.opens_of_raw {step : Step} (one : Advance line cursor step next)
    (bounded : step.node.isGreedy = false) (words : Text.words cursor.rest = step.raw :: tokens) :
    ∃ index, next.path = cursor.path ++ [index] ∧
      Opens cursor.node.children step.raw index next.node ∧ Text.words next.rest = tokens := by
  cases one with
  | @literal child index after word first =>
    rw [Text.words_of_nextWord? word] at words
    exact ⟨index, rfl, ⟨first.found, bounded, .inl first⟩, List.tail_eq_of_cons_eq words⟩
  | @argument child index token after left type value word unspelled first typed read =>
    rw [Text.words_of_nextWord? word] at words
    obtain ⟨whole, more⟩ := List.cons_eq_cons.mp words
    change token = Text.trimEnd (Text.before cursor.front (type.leaves left)) at whole
    have leaves : type.leaves left = left := by
      change child.isGreedy = false at bounded
      rw [Node.isGreedy_eq typed] at bounded
      simp [ArgumentType.leaves, bounded]
    refine ⟨index, rfl, ⟨first.found, bounded, .inr ⟨?_, Node.isLiteral_eq_false typed⟩⟩, ?_⟩
    · exact whole ▸ unspelled
    · rw [leaves] at whole ⊢
      rw [Text.words_of_trimEnd_before word (ArgumentType.suffix_of_parse read) whole.symm, more]

theorem Advances.leads_of_raws (run : Advances line cursor steps last)
    (bounded : ∀ step ∈ steps, step.node.isGreedy = false)
    (raws : steps.map Step.raw = Text.words cursor.rest) :
    ∃ way, last.path = cursor.path ++ way ∧ Leads cursor.node (Text.words cursor.rest) way := by
  induction run with
  | done cursor =>
    rw [← raws]
    exact ⟨[], by simp, .done _⟩
  | @step cursor next last first steps one more ih =>
    rw [List.map_cons] at raws
    obtain ⟨index, below, opens, words⟩ :=
      one.opens_of_raw (bounded first List.mem_cons_self) raws.symm
    obtain ⟨way, eq, leads⟩ := ih (fun step h => bounded step (.tail _ h)) words.symm
    rw [← raws]
    rw [words] at leads
    exact ⟨index :: way, by simp [eq, below], .step opens leads⟩

theorem Grammar.Run.takesWords_iff (run : grammar.Run line last) :
    grammar.TakesWords line ↔ (grammar.walk line).steps.map Step.raw = Text.words line := by
  have taken : (grammar.passed (grammar.bind line)).map (grammar.bind line).taken? =
      ((grammar.walk line).steps.map Step.raw).map some := by
    rw [run.passed_eq, List.map_map, List.map_map]
    apply List.map_congr_left
    intro step h
    exact run.taken?_eq h
  rw [TakesWords, taken]
  exact (List.map_injective_iff.mpr (Option.some_injective Text)).eq_iff

theorem Grammar.Run.follows_of_takesWords (run : grammar.Run line last)
    (bounded : ∀ step ∈ (grammar.bind line).terminal?, step.node.isGreedy = false)
    (takes : grammar.TakesWords line) : grammar.Follows line := by
  have raws := run.takesWords_iff.mp takes
  obtain ⟨way, eq, leads⟩ := run.steps.leads_of_raws (run.bounded bounded) raws
  have same : (grammar.bind line).terminalPath = way := by rw [run.terminalPath_eq, eq]; rfl
  rw [Follows, same]
  exact leads

theorem Advances.raws_eq_words (run : Advances line cursor steps last)
    (blank : Text.isBlankText last.rest)
    (bounded : ∀ step ∈ steps, step.node.isGreedy = false)
    (builtIn : ∀ step ∈ steps, ∀ type ∈ step.node.type?, type.isBuiltIn)
    (plain : ∀ step ∈ steps, ∀ type ∈ step.node.type?, type.isWordwise ∨ '"' ∉ cursor.rest) :
    steps.map Step.raw = Text.words cursor.rest := by
  induction run with
  | done cursor => exact (Text.words_eq_nil_iff.mpr blank).symm
  | @step cursor next last first steps one more ih =>
    have words := one.words_eq (bounded first List.mem_cons_self) (builtIn first List.mem_cons_self)
      (plain first List.mem_cons_self)
    rw [words, List.map_cons]
    congr 1
    apply ih blank (fun step h => bounded step (.tail _ h)) (fun step h => builtIn step (.tail _ h))
    intro step h type typed
    apply (plain step (.tail _ h) type typed).imp_right
    exact fun unquoted quote => unquoted (one.rest_suffix.subset quote)

theorem Grammar.Run.takesWords (run : grammar.Run line last) (blank : Text.isBlankText last.rest)
    (bounded : ∀ step ∈ (grammar.bind line).terminal?, step.node.isGreedy = false)
    (builtIn : grammar.isBuiltIn) (unquoted : '"' ∉ line) : grammar.TakesWords line := by
  apply run.takesWords_iff.mpr
  exact run.steps.raws_eq_words blank (run.bounded bounded) (run.builtIn_of_mem builtIn)
    fun _ _ _ _ => .inr unquoted

variable {suggest : Path → Text → List Text}

theorem Node.isGreedy_suggesting (path : Path) (node : Node) :
    (node.relabel (.suggesting suggest) path).isGreedy = node.isGreedy := by
  cases h : node.type? with
  | none =>
    have literal := type?_eq_none_iff.mp h
    rw [isGreedy_eq_false literal, isGreedy_eq_false (by simpa using literal)]
  | some type => rw [isGreedy_eq h, isGreedy_eq ((type?_suggesting path node).trans h)]

theorem Node.opens_suggesting (found : node.children[index]? = some child) :
    Opens (node.relabel (.suggesting suggest) path).children token index
        (child.relabel (.suggesting suggest) (path ++ [index])) ↔
      Opens node.children token index child := by
  have first : First (Spells token) (node.relabel (.suggesting suggest) path).children index
      (child.relabel (.suggesting suggest) (path ++ [index])) ↔
        First (Spells token) node.children index child :=
    first_relabel (spells_relabel token) found
  have none : NoneSpells (node.relabel (.suggesting suggest) path).children token ↔
      NoneSpells node.children token := noneSpells_relabel token
  constructor
  · intro opens
    refine ⟨found, (isGreedy_suggesting _ child).symm.trans opens.bounded, ?_⟩
    rw [← first, ← none, ← isLiteral_relabel (.suggesting suggest) (path ++ [index]) child]
    exact opens.route
  · intro opens
    refine ⟨children_relabel_of _ path found, (isGreedy_suggesting _ child).trans opens.bounded, ?_⟩
    rw [first, none, isLiteral_relabel]
    exact opens.route

theorem Node.leads_suggesting :
    Leads (node.relabel (.suggesting suggest) path) tokens way ↔ Leads node tokens way := by
  constructor
  · intro leads
    induction way generalizing node path tokens with
    | nil => cases leads; exact .done node
    | cons index way ih =>
      cases leads with
      | step opens more =>
        obtain ⟨original, here, rfl⟩ := exists_of_children_relabel opens.found
        exact .step ((opens_suggesting here).mp opens) (ih more)
  · intro leads
    induction leads generalizing path with
    | done node => exact .done _
    | step opens more ih => exact .step ((opens_suggesting opens.found).mpr opens) ih

theorem Grammar.Run.follows_suggesting (run : grammar.Run line last)
    (blank : Text.isBlankText last.rest) (suggest : Path → Text → List Text) :
    (grammar.suggesting suggest).Follows line ↔ grammar.Follows line := by
  rw [Follows, Follows, (run.suggesting blank suggest).terminalPath_eq, run.terminalPath_eq,
    Grammar.suggesting, root_relabel]
  exact Node.leads_suggesting

theorem Node.suggest_suggesting (path : Path) (node : Node) (partialWord : Text) :
    (node.relabel (.suggesting suggest) path).suggest partialWord =
      if node.isLiteral then [node.name] else suggest path partialWord := by
  rw [relabel_eq]
  cases h : node.kind <;>
    simp [Node.suggest, NodeKind.relabel, Relabel.suggesting, isLiteral, h]

theorem Grammar.mem_candidates_suggesting {reached : Path}
    (h : (reached, node) ∈ (grammar.suggesting suggest).candidates tokens) :
    ∃ original : Node, node = original.relabel (.suggesting suggest) reached ∧
      (reached, original) ∈ grammar.candidates tokens := by
  obtain ⟨way, index, eq, leads, found⟩ := Node.mem_candidates_iff.mp h
  rw [Grammar.suggesting, root_relabel] at leads found
  rw [Node.at?_relabel, Option.map_eq_some_iff] at found
  obtain ⟨original, here, same⟩ := found
  refine ⟨original, ?_, ?_⟩
  · rw [← same, eq, List.append_assoc]
  · exact Node.mem_candidates_iff.mpr ⟨way, index, eq, Node.leads_suggesting.mp leads, here⟩

theorem Grammar.Run.follows_of_offersNext (run : grammar.Run line last)
    (blank : Text.isBlankText last.rest) (hc : child ∈ last.node.children)
    (typed : child.isLiteral = false)
    (offers : ∀ suggest, (grammar.suggesting suggest).OffersNext line) : grammar.Follows line := by
  obtain ⟨index, found⟩ := List.mem_iff_getElem?.mp hc
  obtain ⟨fresh, unused⟩ := Infinite.exists_notMem_finset
    ((grammar.candidates (Text.words line)).map (·.2.name)).toFinset
  let suggest : Path → Text → List Text := fun path _ =>
    if path = last.path ++ [index] then [fresh] else []
  -- Only the child suggests the fresh text, so that completion looks at the child if it offers it.
  have run' := run.suggesting blank suggest
  have offered : fresh ∈ (grammar.suggesting suggest).completeLine (line ++ ' ' :: []) := by
    apply offers suggest (child.relabel (.suggesting suggest) (last.path ++ [index])) _ [] rfl
    · rw [Node.suggest_suggesting, typed]
      simp [suggest]
    · rfl
    · rw [run'.stopLevel_eq]
      apply List.mem_of_getElem?
      exact Node.children_relabel_of _ last.path found
  obtain ⟨⟨located, hm, suggested⟩, _⟩ := (mem_completeLine_iff rfl).mp offered
  obtain ⟨original, same, listed⟩ := mem_candidates_suggesting hm
  rw [same, Node.suggest_suggesting] at suggested
  cases literal : original.isLiteral with
  | true =>
    rw [literal, if_pos rfl, List.mem_singleton] at suggested
    rw [suggested, List.mem_toFinset] at unused
    exact absurd (List.mem_map.mpr ⟨_, listed, rfl⟩) unused
  | false =>
    have here : located.1 = last.path ++ [index] := by
      by_contra other
      simp [literal, suggest, other] at suggested
    rw [here, ← run.terminalPath_eq] at listed
    exact follows_of_mem_candidates listed

namespace Grammar

/-- Completion offers what may come next if the words of the line lead to the terminal node, and,
whatever a typed node there may suggest, only then. They do if each node on the way took a word, as
the built-in types do in a line without quotation marks. -/
theorem offersNext_iff_follows (grammar : Grammar) {line : Text}
    (consumed : (grammar.bind line).IsConsumed)
    (bounded : ∀ step ∈ (grammar.bind line).terminal?, step.node.isGreedy = false) :
    (grammar.Follows line → grammar.OffersNext line) ∧
    ((∃ child ∈ grammar.stopLevel (grammar.bind line), child.isLiteral = false) →
      ((∀ suggest, (grammar.suggesting suggest).OffersNext line) ↔ grammar.Follows line)) ∧
    (grammar.TakesWords line → grammar.Follows line) ∧
    (grammar.isBuiltIn → '"' ∉ line → grammar.TakesWords line) := by
  obtain ⟨last, run⟩ := grammar.run_exists line
  have blank := run.isConsumed_iff.mp consumed
  refine ⟨run.offersNext, ?_, run.follows_of_takesWords bounded, run.takesWords blank bounded⟩
  rintro ⟨child, hc, typed⟩
  rw [run.stopLevel_eq] at hc
  constructor
  · exact run.follows_of_offersNext blank hc typed
  · intro follows suggest
    apply (run.suggesting blank suggest).offersNext
    exact (run.follows_suggesting blank suggest).mpr follows

def titleThenFlag : Grammar :=
  ⟨[⟨['t'], .typed .string none, true, [⟨['f'], .typed .boolean none, true, []⟩]⟩], false, rfl⟩

theorem offersNext_of_plain_title :
    (titleThenFlag.bind ['a']).IsConsumed ∧
      (∀ step ∈ (titleThenFlag.bind ['a']).terminal?, step.node.isGreedy = false) ∧
      titleThenFlag.OffersNext ['a'] := by
  have consumed : (titleThenFlag.bind ['a']).IsConsumed := .inl (by decide)
  have bounded : ∀ step ∈ (titleThenFlag.bind ['a']).terminal?, step.node.isGreedy = false := by
    rintro step h
    cases h
    rfl
  obtain ⟨offers, _, follows, takes⟩ := titleThenFlag.offersNext_iff_follows consumed bounded
  exact ⟨consumed, bounded, offers (follows (takes rfl (by decide)))⟩

/-- Behind a quoted title of two words a flag is accepted, but not offered. -/
theorem not_offersNext_of_quoted_title :
    titleThenFlag.isBuiltIn ∧
      (titleThenFlag.bind ['"', 'a', ' ', 'b', '"']).IsConsumed ∧
      (∀ step ∈ (titleThenFlag.bind ['"', 'a', ' ', 'b', '"']).terminal?,
        step.node.isGreedy = false) ∧
      ¬ titleThenFlag.OffersNext ['"', 'a', ' ', 'b', '"'] := by
  refine ⟨rfl, .inl (by decide), ?_, ?_⟩
  · rintro step h
    cases h
    rfl
  · intro offers
    have offered := offers ⟨['f'], .typed .boolean none, true, []⟩ List.mem_cons_self [] rfl
      (Text.of "true") List.mem_cons_self rfl
    have none : titleThenFlag.completeLine (['"', 'a', ' ', 'b', '"'] ++ ' ' :: []) = [] := by
      decide
    rw [none] at offered
    cases offered

end Grammar

end Console
