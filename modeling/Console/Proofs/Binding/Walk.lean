import Console.Binding.Trail
import Console.Proofs.Grammar.Levels
import Console.Proofs.Grammar.Paths
import Console.Proofs.Text.Words

/-!
The walk of a line as a run of single steps. A `Cursor` is where a walk stands; `Advance` says what
one step can do and `Halt` how a walk can end there. `exists_run` and `Advances.walk_eq` say that a
walk is the one run of steps up to an end. What holds of walks is proved from these rules, by
induction on the run.
-/

namespace Console

/-- Where a walk stands: the node below which it goes on, and the rest of the line. -/
structure Cursor where
  node : Node
  path : Path
  rest : Text

def ArgumentType.leaves (type : ArgumentType) (left : Text) : Text :=
  if type.isGreedy then [] else left

theorem ArgumentType.leaves_suffix {type : ArgumentType} {text left : Text} {value : Value}
    (read : type.parse text = .ok (value, left)) : type.leaves left <:+ text := by
  unfold leaves
  split
  · exact List.nil_suffix
  · exact ArgumentType.suffix_of_parse read

namespace Cursor

def front (cursor : Cursor) : Text := Text.trimStart cursor.rest

def position (line : Text) (cursor : Cursor) (type : ArgumentType) : Position :=
  if type.isGreedy then .range (Text.wordIndex line cursor.front) (Text.wordCount line - 1)
  else .index (Text.wordIndex line cursor.front)

theorem nextWord?_front (cursor : Cursor) :
    Text.nextWord? cursor.front = Text.nextWord? cursor.rest := by
  simp [Text.nextWord?, front]

@[simp] theorem trimStart_front (cursor : Cursor) : Text.trimStart cursor.front = cursor.front :=
  Text.trimStart_trimStart _

theorem front_ne_nil {cursor : Cursor} {token after : Text}
    (h : Text.nextWord? cursor.rest = some (token, after)) : cursor.front ≠ [] :=
  Text.trimStart_ne_nil_of_nextWord? h

end Cursor

namespace Node

variable {node : Node}

def Accepts (text : Text) (node : Node) : Prop :=
  ∃ type value left, node.type? = some type ∧ type.parse text = .ok (value, left)

def Refuses (text : Text) (node : Node) : Prop :=
  ∃ type failure, node.type? = some type ∧ type.parse text = .error failure

theorem accepts_or_refuses {type : ArgumentType} (h : node.type? = some type) (text : Text) :
    node.Accepts text ∨ node.Refuses text := by
  cases hp : type.parse text with
  | ok read => exact .inl ⟨type, read.1, read.2, h, hp⟩
  | error failure => exact .inr ⟨type, failure, h, hp⟩

theorem refuses_of_not_accepts {text : Text} (typed : node.isLiteral = false)
    (unaccepted : ¬ node.Accepts text) : node.Refuses text := by
  obtain ⟨type, typed⟩ := exists_type? typed
  exact (accepts_or_refuses typed text).resolve_left unaccepted

end Node

/-- One step of a walk: to the literal that takes the next word, or, if there is none, to the first
typed child that accepts the rest of the line. -/
inductive Advance (line : Text) (cursor : Cursor) : Step → Cursor → Prop
  | literal {child : Node} {index : Nat} {after : Text}
      (word : Text.nextWord? cursor.rest = some (child.name, after))
      (first : First (Node.Spells child.name) cursor.node.children index child) :
      Advance line cursor (.literal (cursor.path ++ [index]) child)
        ⟨child, cursor.path ++ [index], after⟩
  | argument {child : Node} {index : Nat} {token after left : Text} {type : ArgumentType}
      {value : Value} (word : Text.nextWord? cursor.rest = some (token, after))
      (unspelled : Node.NoneSpells cursor.node.children token)
      (first : First (Node.Accepts cursor.front) cursor.node.children index child)
      (typed : child.type? = some type) (read : type.parse cursor.front = .ok (value, left)) :
      Advance line cursor
        (.argument (cursor.path ++ [index]) child
          (Text.trimEnd (Text.before cursor.front (type.leaves left))) value
          (cursor.position line type))
        ⟨child, cursor.path ++ [index], type.leaves left⟩

/-- How a walk can end: at the end of the line, below a leaf, where no child takes the next word,
or at the first typed child, if all typed children refuse the rest of the line. -/
inductive Halt (line : Text) (cursor : Cursor) : Ending → Prop
  | exhausted (blank : Text.isBlankText cursor.rest) : Halt line cursor .exhausted
  | tooMany (more : cursor.front ≠ []) (leaf : cursor.node.children = []) :
      Halt line cursor (.tooMany (Text.trimEnd cursor.front))
  | unmatched {token after : Text} (word : Text.nextWord? cursor.rest = some (token, after))
      (inner : cursor.node.children ≠ [])
      (unspelled : Node.NoneSpells cursor.node.children token)
      (untyped : ∀ child ∈ cursor.node.children, child.isLiteral) :
      Halt line cursor (.unmatched (Text.trimEnd cursor.front))
  | rejected {child : Node} {index : Nat} {token after : Text} {type : ArgumentType}
      {failure : ParseFailure}
      (word : Text.nextWord? cursor.rest = some (token, after))
      (unspelled : Node.NoneSpells cursor.node.children token)
      (refused : ∀ child ∈ cursor.node.children, ¬ child.Accepts cursor.front)
      (first : First (·.isLiteral = false) cursor.node.children index child)
      (typed : child.type? = some type) (read : type.parse cursor.front = .error failure) :
      Halt line cursor
        (.rejected (cursor.path ++ [index]) child
          (if failure.raw.isEmpty then token else failure.raw)
          (.index (Text.wordIndex line cursor.front)) failure)

inductive Advances (line : Text) : Cursor → List Step → Cursor → Prop
  | done (cursor : Cursor) : Advances line cursor [] cursor
  | step {cursor next last : Cursor} {step : Step} {steps : List Step}
      (one : Advance line cursor step next) (more : Advances line next steps last) :
      Advances line cursor (step :: steps) last

namespace Move

variable {line : Text} {node : Node} {path : Path} {index : Nat}

theorem isSome_accept?_iff {rest : Text} :
    (accept? line path rest (node, index)).isSome ↔ node.Accepts rest := by
  unfold accept? Node.Accepts
  cases node.type? with
  | none => simp
  | some type =>
    cases hp : type.parse rest with
    | error failure => simp [hp]
    | ok read =>
      constructor
      · intro _
        exact ⟨type, read.1, read.2, rfl, hp⟩
      · intro _
        cases hg : type.isGreedy <;> simp [hp, hg]

theorem isSome_refuse?_iff {rest token : Text} :
    (refuse? line path rest token (node, index)).isSome ↔ node.Refuses rest := by
  unfold refuse? Node.Refuses
  cases node.type? with
  | none => simp
  | some type =>
    cases hp : type.parse rest with
    | ok read => simp [hp]
    | error failure => simp [hp]

theorem findSome?_options {α : Type} {f : Node × Nat → Option α} (level : List Node)
    (hf : ∀ node index, node.isLiteral → f (node, index) = none) :
    (level.zipIdx.filter fun child => !child.1.isLiteral).findSome? f =
      level.zipIdx.findSome? f := by
  induction level.zipIdx with
  | nil => rfl
  | cons child more ih =>
    cases hl : child.1.isLiteral with
    | true => simp [hl, hf child.1 child.2 hl, ih]
    | false => simp [hl, ih, List.findSome?_cons]

theorem accept?_eq_none {rest : Text} (h : node.isLiteral) :
    accept? line path rest (node, index) = none := by
  simp [accept?, Node.type?_eq_none h]

theorem refuse?_eq_none {rest token : Text} (h : node.isLiteral) :
    refuse? line path rest token (node, index) = none := by
  simp [refuse?, Node.type?_eq_none h]

inductive Lawful (line : Text) (cursor : Cursor) : Move → Prop
  | advance {index : Nat} {step : Step} {next : Cursor} (one : Advance line cursor step next)
      (found : cursor.node.children[index]? = some next.node) (below : step.path = next.path) :
      Lawful line cursor (.advance index step next.rest)
  | stop {ending : Ending} (halt : Halt line cursor ending) : Lawful line cursor (.stop ending)

variable {cursor : Cursor} {token after : Text}

theorem accept?_eq {type : ArgumentType} {value : Value} {left : Text}
    (typed : node.type? = some type) (read : type.parse cursor.front = .ok (value, left)) :
    accept? line cursor.path cursor.front (node, index) =
      some (.advance index
        (.argument (cursor.path ++ [index]) node
          (Text.trimEnd (Text.before cursor.front (type.leaves left))) value
          (cursor.position line type))
        (type.leaves left)) := by
  unfold accept? ArgumentType.leaves Cursor.position
  cases hg : type.isGreedy with
  | true => simp [typed, read, hg]
  | false => simp [typed, read, hg]

theorem lawful_of_accept? {move : Move}
    (word : Text.nextWord? cursor.rest = some (token, after))
    (unspelled : Node.NoneSpells cursor.node.children token)
    (first : First (Node.Accepts cursor.front) cursor.node.children index node)
    (given : accept? line cursor.path cursor.front (node, index) = some move) :
    Lawful line cursor move := by
  obtain ⟨type, value, left, typed, read⟩ := first.holds
  rw [accept?_eq typed read] at given
  cases given
  exact .advance (.argument word unspelled first typed read) first.found rfl

theorem lawful_of_refuse? {move : Move}
    (word : Text.nextWord? cursor.rest = some (token, after))
    (unspelled : Node.NoneSpells cursor.node.children token)
    (refused : ∀ child ∈ cursor.node.children, ¬ child.Accepts cursor.front)
    (first : First (Node.Refuses cursor.front) cursor.node.children index node)
    (given : refuse? line cursor.path cursor.front token (node, index) = some move) :
    Lawful line cursor move := by
  obtain ⟨type, failure, typed, read⟩ := first.holds
  have blamed : First (·.isLiteral = false) cursor.node.children index node := by
    apply first.congr
    intro other hm
    constructor
    · rintro ⟨_, _, typed', _⟩
      exact Node.isLiteral_eq_false typed'
    · intro hl
      exact Node.refuses_of_not_accepts hl (refused other hm)
  simp only [refuse?, typed, read, Option.some.injEq] at given
  subst given
  exact .stop (.rejected word unspelled refused blamed typed read)

theorem lawful_choose (line : Text) (word : Text.nextWord? cursor.rest = some (token, after)) :
    Lawful line cursor (choose line cursor.node.children cursor.path cursor.front) := by
  have hw : Text.nextWord? cursor.front = some (token, after) := by
    rw [cursor.nextWord?_front, word]
  unfold choose
  simp only [hw, Option.getD_some]
  -- A leaf, then a literal of that name, then the first child that accepts, then one to blame.
  by_cases leaf : cursor.node.children.isEmpty
  · rw [if_pos leaf]
    exact .stop (.tooMany (Cursor.front_ne_nil word) (List.isEmpty_iff.mp leaf))
  rw [if_neg leaf]
  cases Route.ofWord_cases cursor.node.children token with
  | inl found =>
    obtain ⟨index, child, first, route⟩ := found
    rw [route]
    obtain ⟨-, rfl⟩ := first.holds
    exact .advance (.literal word first) first.found rfl
  | inr none =>
    obtain ⟨unspelled, route⟩ := none
    rw [route]
    simp only
    rw [findSome?_options _ fun _ _ => accept?_eq_none,
      findSome?_options _ fun _ _ => refuse?_eq_none]
    cases ha : cursor.node.children.zipIdx.findSome? (accept? line cursor.path cursor.front) with
    | some move =>
      obtain ⟨index, child, first, given⟩ :=
        (findSome?_zipIdx_iff fun _ _ _ => isSome_accept?_iff).mp ha
      exact lawful_of_accept? word unspelled first given
    | none =>
      have refused : ∀ child ∈ cursor.node.children, ¬ child.Accepts cursor.front :=
        (findSome?_zipIdx_eq_none_iff fun _ _ _ => isSome_accept?_iff).mp ha
      cases hr : cursor.node.children.zipIdx.findSome?
          (refuse? line cursor.path cursor.front token) with
      | some move =>
        obtain ⟨index, child, first, given⟩ :=
          (findSome?_zipIdx_iff fun _ _ _ => isSome_refuse?_iff).mp hr
        exact lawful_of_refuse? word unspelled refused first given
      | none =>
        refine .stop (.unmatched word (mt List.isEmpty_iff.mpr leaf) unspelled ?_)
        have unrefused : ∀ child ∈ cursor.node.children, ¬ child.Refuses cursor.front :=
          (findSome?_zipIdx_eq_none_iff fun _ _ _ => isSome_refuse?_iff).mp hr
        intro child hm
        apply Bool.of_not_eq_false
        intro hl
        exact unrefused child hm (Node.refuses_of_not_accepts hl (refused child hm))

end Move

theorem Node.walkAmong_eq (line : Text) (nodes : List Node) (index : Nat) (path : Path)
    (rest : Text) :
    walkAmong line nodes index path rest =
      (nodes[index]?.map (·.walk line path rest)).getD ⟨[], .exhausted⟩ := by
  induction nodes generalizing index with
  | nil => rw [walkAmong]; rfl
  | cons node nodes ih =>
    cases index with
    | zero => rw [walkAmong]; rfl
    | succ index => rw [walkAmong, ih]; rfl

theorem Node.walk_eq (line : Text) (node : Node) (path : Path) (rest : Text) :
    node.walk line path rest =
      if (Text.trimStart rest).isEmpty then ⟨[], .exhausted⟩
      else match Move.choose line node.children path (Text.trimStart rest) with
        | .stop ending => ⟨[], ending⟩
        | .advance index step rest =>
          let trail := walkAmong line node.children index step.path rest
          ⟨step :: trail.steps, trail.ending⟩ := by
  cases node
  unfold walk
  rfl

theorem Node.exists_run (line : Text) (node : Node) (path : Path) (rest : Text) :
    ∃ last, Advances line ⟨node, path, rest⟩ (node.walk line path rest).steps last ∧
      Halt line last (node.walk line path rest).ending := by
  induction node using Node.childInduction generalizing path rest with
  | below node ih =>
    rw [walk_eq]
    by_cases blank : (Text.trimStart rest).isEmpty
    · rw [if_pos blank]
      refine ⟨_, .done _, .exhausted ?_⟩
      exact Text.trimStart_eq_nil_iff.mp (List.isEmpty_iff.mp blank)
    · rw [if_neg blank]
      obtain ⟨token, after, word⟩ :=
        Text.nextWord?_of_trimStart_ne_nil (mt List.isEmpty_iff.mpr blank)
      let cursor : Cursor := ⟨node, path, rest⟩
      have lawful := Move.lawful_choose line (cursor.nextWord?_front.symm.trans word)
      generalize hm : Move.choose line node.children path (Text.trimStart rest) = move
      rw [show Move.choose line cursor.node.children cursor.path cursor.front = move from hm]
        at lawful
      cases lawful with
      | stop halt => exact ⟨cursor, .done cursor, halt⟩
      | @advance index step next one found below =>
        simp only
        rw [walkAmong_eq, found, below]
        obtain ⟨last, run, halt⟩ := ih next.node (List.mem_of_getElem? found) next.path next.rest
        exact ⟨last, .step one run, halt⟩

variable {line : Text} {cursor : Cursor}

theorem Advance.exists_word {step : Step} {next : Cursor} (h : Advance line cursor step next) :
    ∃ token after, Text.nextWord? cursor.rest = some (token, after) := by
  cases h with
  | literal word => exact ⟨_, _, word⟩
  | argument word => exact ⟨_, _, word⟩

theorem Advance.deterministic {step step' : Step} {next next' : Cursor}
    (h : Advance line cursor step next) (h' : Advance line cursor step' next') :
    step = step' ∧ next = next' := by
  cases h with
  | literal word first =>
    cases h' with
    | literal word' first' =>
      rw [word] at word'
      simp only [Option.some.injEq, Prod.mk.injEq] at word'
      rw [word'.1] at first
      obtain ⟨rfl, rfl⟩ := first.unique first'
      exact ⟨rfl, by rw [word'.2]⟩
    | argument word' unspelled =>
      rw [word] at word'
      cases word'
      exact absurd first.holds (unspelled _ first.mem)
  | argument word unspelled first typed read =>
    cases h' with
    | literal word' first' =>
      rw [word] at word'
      cases word'
      exact absurd first'.holds (unspelled _ first'.mem)
    | argument word' unspelled' first' typed' read' =>
      obtain ⟨rfl, rfl⟩ := first.unique first'
      rw [typed] at typed'
      cases typed'
      rw [read] at read'
      cases read'
      exact ⟨rfl, rfl⟩

theorem Advance.not_halt {step : Step} {next : Cursor} {ending : Ending}
    (h : Advance line cursor step next) : ¬ Halt line cursor ending := by
  obtain ⟨token, after, word⟩ := h.exists_word
  intro halt
  cases halt with
  | exhausted blank =>
    rw [Text.nextWord?_eq_none_iff.mpr blank] at word
    cases word
  | tooMany _ leaf =>
    cases h with
    | literal _ first => rw [leaf] at first; cases first.mem
    | argument _ _ first => rw [leaf] at first; cases first.mem
  | unmatched word' _ unspelled untyped =>
    cases h with
    | literal word first =>
      rw [word] at word'
      cases word'
      exact unspelled _ first.mem first.holds
    | argument _ _ first typed =>
      have := untyped _ first.mem
      rw [Node.isLiteral_eq_false typed] at this
      cases this
  | rejected word' unspelled refused =>
    cases h with
    | literal word first =>
      rw [word] at word'
      cases word'
      exact unspelled _ first.mem first.holds
    | argument _ _ first => exact refused _ first.mem first.holds

theorem Halt.deterministic {ending ending' : Ending} (h : Halt line cursor ending)
    (h' : Halt line cursor ending') : ending = ending' := by
  cases h with
  | exhausted blank =>
    have none := Text.nextWord?_eq_none_iff.mpr blank
    cases h' with
    | exhausted => rfl
    | tooMany more => exact absurd (Text.trimStart_eq_nil_iff.mpr blank) more
    | unmatched word => rw [none] at word; cases word
    | rejected word => rw [none] at word; cases word
  | tooMany more leaf =>
    cases h' with
    | exhausted blank => exact absurd (Text.trimStart_eq_nil_iff.mpr blank) more
    | tooMany => rfl
    | unmatched _ inner => exact absurd leaf inner
    | rejected _ _ _ first => rw [leaf] at first; cases first.mem
  | unmatched word inner _ untyped =>
    cases h' with
    | exhausted blank => rw [Text.nextWord?_eq_none_iff.mpr blank] at word; cases word
    | tooMany _ leaf => exact absurd leaf inner
    | unmatched => rfl
    | rejected _ _ _ first =>
      have := untyped _ first.mem
      rw [first.holds] at this
      cases this
  | rejected word _ _ first typed read =>
    cases h' with
    | exhausted blank => rw [Text.nextWord?_eq_none_iff.mpr blank] at word; cases word
    | tooMany _ leaf => rw [leaf] at first; cases first.mem
    | unmatched _ _ _ untyped =>
      have := untyped _ first.mem
      rw [first.holds] at this
      cases this
    | rejected word' _ _ first' typed' read' =>
      obtain ⟨rfl, rfl⟩ := first.unique first'
      rw [typed] at typed'
      cases typed'
      rw [read] at read'
      cases read'
      rw [word] at word'
      cases word'
      rfl

theorem Advances.deterministic {steps steps' : List Step} {last last' : Cursor}
    {ending ending' : Ending} (run : Advances line cursor steps last) (halt : Halt line last ending)
    (run' : Advances line cursor steps' last') (halt' : Halt line last' ending') :
    steps = steps' ∧ last = last' ∧ ending = ending' := by
  induction run generalizing steps' with
  | done cursor =>
    cases run' with
    | done => exact ⟨rfl, rfl, halt.deterministic halt'⟩
    | step one => exact absurd halt one.not_halt
  | step one more ih =>
    cases run' with
    | done => exact absurd halt' one.not_halt
    | step one' more' =>
      obtain ⟨rfl, rfl⟩ := one.deterministic one'
      obtain ⟨rfl, rfl, rfl⟩ := ih halt more'
      exact ⟨rfl, rfl, rfl⟩

theorem Advances.walk_eq {steps : List Step} {last : Cursor} {ending : Ending}
    (run : Advances line cursor steps last) (halt : Halt line last ending) :
    cursor.node.walk line cursor.path cursor.rest = ⟨steps, ending⟩ := by
  obtain ⟨last', run', halt'⟩ := Node.exists_run line cursor.node cursor.path cursor.rest
  obtain ⟨steps_eq, _, ending_eq⟩ := run'.deterministic halt' run halt
  rw [← steps_eq, ← ending_eq]

end Console
