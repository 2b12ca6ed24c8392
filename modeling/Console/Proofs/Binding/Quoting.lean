import Console.Proofs.Binding.Arguments
import Console.Proofs.Binding.Attempts

namespace Console

namespace Text.Quoted

variable {text rest : Text}

theorem encode_append (text rest : Text) :
    encode text ++ rest = '"' :: (escape text ++ '"' :: rest) := by
  simp [encode]

theorem trimStart_encode_append (text rest : Text) :
    trimStart (encode text ++ rest) = encode text ++ rest := by
  rw [encode_append, trimStart_cons]
  rfl

theorem trimEnd_encode (text : Text) : trimEnd (encode text) = encode text := by
  have ends : encode text = ('"' :: escape text) ++ ['"'] := rfl
  rw [ends, trimEnd, List.reverse_append, List.reverse_singleton, List.singleton_append,
    List.dropWhile_cons_of_neg (by decide), List.reverse_cons, List.reverse_reverse]

theorem parse_encode (text : Text) (starts : startsBlank rest) :
    ArgumentType.string.parse (encode text ++ rest) = .ok (.string text, rest) := by
  rw [ArgumentType.parse, trimStart_encode_append, if_pos (by rw [encode_append]; rfl),
    ArgumentType.readQuoted, trimStart_encode_append, decode_encode text starts]

end Text.Quoted

theorem ArgumentType.raw_of_quoted {cursor : Cursor} {value : Value} {left : Text}
    (quote : cursor.front.head? = some '"') (read : string.parse cursor.front = .ok (value, left)) :
    ∃ text, value = .string text ∧
      Text.trimEnd (Text.before cursor.front left) = Text.Quoted.encode text := by
  rw [parse, cursor.trimStart_front, if_pos quote, readQuoted_eq_ok_iff,
    cursor.trimStart_front] at read
  obtain ⟨text, rfl, decoded⟩ := read
  refine ⟨text, rfl, ?_⟩
  rw [(Text.Quoted.eq_encode_of_decode decoded).1, Text.before_append, Text.Quoted.trimEnd_encode]

structure Quotation where
  name : Text
  blanks : Text
  value : Text

namespace Quotation

variable {line done rest path : Text} {items front back : List Quotation} {item : Quotation}

def node (item : Quotation) (below : List Node) : Node :=
  (Node.typed item.name .string).withChildren below

def text (item : Quotation) : Text := item.blanks ++ Text.Quoted.encode item.value

def chain : List Quotation → List Node
  | [] => []
  | item :: items => [item.node (chain items)]

def written (items : List Quotation) : Text := items.flatMap text

structure Spaced (items : List Quotation) : Prop where
  blank : ∀ item ∈ items, Text.isBlankText item.blanks
  apart : ∀ item ∈ items.tail, item.blanks ≠ []

theorem Spaced.tail (spaced : Spaced (item :: items)) : Spaced items where
  blank other mem := spaced.blank other (.tail _ mem)
  apart other mem := spaced.apart other (List.mem_of_mem_tail mem)

theorem Spaced.startsBlank (spaced : Spaced (item :: items)) (blank : Text.isBlankText rest) :
    Text.startsBlank (written items ++ rest) := by
  cases items with
  | nil => exact Text.startsBlank_of_isBlankText blank
  | cons next items =>
    have first := spaced.blank next (.tail _ List.mem_cons_self)
    obtain ⟨c, blanks, eq⟩ := List.exists_cons_of_ne_nil (spaced.apart next List.mem_cons_self)
    rw [written, List.flatMap_cons, text, eq]
    rw [eq] at first
    exact (Bool.and_eq_true_iff.mp first).1

def steps (path : Path) (done : Text) : List Quotation → List Step
  | [] => []
  | item :: items =>
    .argument (path ++ [0]) (item.node (chain items)) (Text.Quoted.encode item.value)
      (.string item.value) (.index (Text.wordCount (done ++ item.blanks))) ::
      steps (path ++ [0]) (done ++ item.text) items

theorem advance {cursor : Cursor} (blank : Text.isBlankText item.blanks)
    (starts : Text.startsBlank rest) (level : cursor.node.children = chain (item :: items))
    (here : cursor.rest = item.text ++ rest) (split : line = done ++ cursor.rest) :
    Advance line cursor
      (.argument (cursor.path ++ [0]) (item.node (chain items)) (Text.Quoted.encode item.value)
        (.string item.value) (.index (Text.wordCount (done ++ item.blanks))))
      ⟨item.node (chain items), cursor.path ++ [0], rest⟩ := by
  have front : cursor.front = Text.Quoted.encode item.value ++ rest := by
    rw [Cursor.front, here, text, List.append_assoc, Text.trimStart_blanks_append blank,
      Text.Quoted.trimStart_encode_append]
  have ne : Text.trimStart cursor.front ≠ [] := by
    rw [front, Text.Quoted.trimStart_encode_append, Text.Quoted.encode_append]
    exact List.cons_ne_nil _ _
  have word := Text.nextWord?_eq ne
  rw [cursor.nextWord?_front] at word
  have read : ArgumentType.string.parse cursor.front = .ok (.string item.value, rest) := by
    rw [front, Text.Quoted.parse_encode item.value starts]
  have typed : (item.node (chain items)).type? = some .string := rfl
  have first : First (Node.Accepts cursor.front) cursor.node.children 0
      (item.node (chain items)) := by
    refine ⟨by rw [level]; rfl, ⟨_, _, _, typed, read⟩, ?_⟩
    rintro i before
    cases before
  have unspelled (token : Text) : Node.NoneSpells cursor.node.children token := by
    rw [level, chain, Node.NoneSpells, List.forall_mem_singleton]
    rintro ⟨literal, _⟩
    cases literal
  have took : Text.before cursor.front (ArgumentType.string.leaves rest) =
      Text.Quoted.encode item.value := by
    rw [front]
    exact Text.before_append _ _
  have index : cursor.position line .string =
      .index (Text.wordCount (done ++ item.blanks)) := by
    have whole : line = done ++ item.blanks ++ cursor.front := by
      rw [split, here, front, text]
      simp
    change Position.index (Text.wordIndex line cursor.front) = _
    rw [Text.wordIndex, whole, Text.before_append]
  have one : Advance line cursor _ _ := .argument word (unspelled _) first typed read
  rwa [took, Text.Quoted.trimEnd_encode, index] at one

theorem advances {cursor : Cursor} (spaced : Spaced items) (blank : Text.isBlankText rest)
    (level : cursor.node.children = chain items) (here : cursor.rest = written items ++ rest)
    (split : line = done ++ cursor.rest) :
    ∃ last, Advances line cursor (steps cursor.path done items) last ∧ last.rest = rest ∧
      last.path = cursor.path ++ List.replicate items.length 0 ∧
      last.node = (items.getLast?.map (·.node [])).getD cursor.node := by
  induction items generalizing cursor done with
  | nil => exact ⟨cursor, .done cursor, here, by simp, rfl⟩
  | cons item items ih =>
    have here' : cursor.rest = item.text ++ (written items ++ rest) := by
      rw [here, written, List.flatMap_cons, List.append_assoc]
      rfl
    have one := advance (spaced.blank item List.mem_cons_self) (spaced.startsBlank blank) level
      here' split
    let next : Cursor := ⟨item.node (chain items), cursor.path ++ [0], written items ++ rest⟩
    have level' : next.node.children = chain items := rfl
    have split' : line = done ++ item.text ++ next.rest := by
      rw [split, here', List.append_assoc]
    obtain ⟨last, more, end_rest, end_path, end_node⟩ := ih spaced.tail level' rfl split'
    refine ⟨last, .step one more, end_rest, ?_, ?_⟩
    · rw [end_path, List.length_cons, List.replicate_succ, List.append_assoc]
      rfl
    · rw [end_node]
      cases items with
      | nil => rfl
      | cons next items => simp [List.getLast?_cons]

theorem mem_steps (path : Path) (done : Text) (front back : List Quotation) (item : Quotation) :
    .argument (path ++ List.replicate (front.length + 1) 0) (item.node (chain back))
      (Text.Quoted.encode item.value) (.string item.value)
      (.index (Text.wordCount (done ++ written front ++ item.blanks))) ∈
        steps path done (front ++ item :: back) := by
  induction front generalizing path done with
  | nil => simp [steps, written]
  | cons first front ih =>
    have below : path ++ [0] ++ List.replicate (front.length + 1) 0 =
        path ++ List.replicate ((first :: front).length + 1) 0 := by
      rw [List.length_cons, List.replicate_succ (n := front.length + 1), List.append_assoc]
      rfl
    have before : done ++ first.text ++ written front = done ++ written (first :: front) := by
      rw [List.append_assoc, written, written, List.flatMap_cons]
    have later := ih (path ++ [0]) (done ++ first.text)
    rw [below, before] at later
    exact .tail _ later

theorem places_chain (path : Path) (slot : Nat) (front back : List Quotation) (item : Quotation) :
    (Node.placesAmong path slot 0 (chain (front ++ item :: back)))[front.length]? =
      some ⟨path ++ List.replicate (front.length + 1) 0, item.node (chain back),
        slot + front.length⟩ := by
  induction front generalizing path slot with
  | nil => rfl
  | cons first front ih =>
    have later := ih (path ++ [0]) (slot + 1)
    rw [List.cons_append, chain, Node.placesAmong, Node.placesAmong, List.append_nil,
      Node.places_typed rfl, List.length_cons, List.getElem?_cons_succ]
    refine later.trans ?_
    rw [List.replicate_succ (n := front.length + 1), List.append_assoc, Nat.add_assoc,
      Nat.add_comm 1]
    rfl

theorem length_places_chain (path : Path) (slot : Nat) (items : List Quotation) :
    (Node.placesAmong path slot 0 (chain items)).length = items.length := by
  induction items generalizing path slot with
  | nil => rfl
  | cons item items ih =>
    rw [chain, Node.placesAmong, Node.placesAmong, List.append_nil, Node.places_typed rfl,
      List.length_cons, List.length_cons]
    exact congrArg (· + 1) (ih _ _)

end Quotation

namespace Grammar

open Quotation

/-- Texts in quotes are bound to a chain of nodes as they were, in order. -/
theorem bind_quoted {grammar : Grammar} {items : List Quotation} {blanks : Text}
    (level : grammar.nodes = chain items) (spaced : Spaced items)
    (blank : Text.isBlankText blanks) (more : items ≠ []) :
    (grammar.bind (written items ++ blanks)).status = .complete ∧
    (grammar.bind (written items ++ blanks)).terminalPath = List.replicate items.length 0 ∧
    (grammar.bind (written items ++ blanks)).terminal?.map Step.node =
      items.getLast?.map (·.node []) ∧
    (grammar.bind (written items ++ blanks)).bindings.length = items.length ∧
    ∀ front item back, items = front ++ item :: back →
      (grammar.bind (written items ++ blanks)).bindings[front.length]? =
        some ⟨⟨List.replicate (front.length + 1) 0, item.node (chain back), front.length⟩,
          .bound (Text.Quoted.encode item.value) (.string item.value)
            (.index (Text.wordCount (written front ++ item.blanks)))⟩ := by
  let start : Cursor := ⟨grammar.root, [], written items ++ blanks⟩
  have whole : written items ++ blanks = [] ++ start.rest := rfl
  obtain ⟨last, run, rest, path, node⟩ := advances spaced blank level rfl whole
  have halt : Halt (written items ++ blanks) last .exhausted := .exhausted (rest ▸ blank)
  have walk : grammar.walk (written items ++ blanks) = ⟨steps [] [] items, .exhausted⟩ :=
    run.walk_eq halt
  have walked : grammar.Run (written items ++ blanks) last := .of_advances run halt
  have lastNode : last.node = (items.getLast more).node [] := by
    rw [node, List.getLast?_eq_some_getLast more]
    rfl
  refine ⟨?_, walked.terminalPath_eq.trans path, ?_, ?_, ?_⟩
  · rw [walked.status_eq, walk, lastNode]
    rfl
  · have ends := congrArg Prod.snd run.getLast?_steps
    rw [lastNode] at ends
    rw [bind, walk, List.getLast?_eq_some_getLast more]
    change (steps [] [] items).getLast?.map Step.node = _
    cases final : (steps [] [] items).getLast? with
    | none =>
      rw [List.getLast?_eq_none_iff] at final
      obtain ⟨item, items, rfl⟩ := List.exists_cons_of_ne_nil more
      cases final
    | some step =>
      rw [final] at ends
      exact congrArg some ends
  · rw [bind, List.length_map, places, level]
    exact length_places_chain [] 0 items
  · rintro front item back rfl
    have place := places_chain [] 0 front back item
    have step := mem_steps [] [] front back item
    rw [← show (grammar.walk _).steps = steps [] [] _ from congrArg Trail.steps walk] at step
    have taken := Trail.attemptAt_argument walked.steps.sorted step
    rw [List.nil_append] at taken
    rw [bind, List.getElem?_map, places, level, place, Option.map_some]
    simp only [List.nil_append, Nat.zero_add, taken]

def spacedQuotations : List Quotation :=
  [⟨['a'], [], ['x', ' ', '"', '\\']⟩, ⟨['b'], [' ', '\t'], []⟩]

def chainOfTwo : Grammar := ⟨chain spacedQuotations, false, by decide⟩

theorem bind_quoted_of_two :
    Spaced spacedQuotations ∧
      (chainOfTwo.bind (written spacedQuotations ++ [' '])).status = .complete ∧
      ((chainOfTwo.bind (written spacedQuotations ++ [' '])).bindings[1]?.map (·.attempt)) =
        some (.bound ['"', '"'] (.string []) (.index 2)) := by
  have spaced : Spaced spacedQuotations := ⟨by decide, by decide⟩
  have level : chainOfTwo.nodes = chain spacedQuotations := rfl
  have blank : Text.isBlankText [' '] := by decide
  obtain ⟨complete, _, _, _, bindings⟩ := bind_quoted level spaced blank (by decide)
  have second := bindings [⟨['a'], [], ['x', ' ', '"', '\\']⟩] ⟨['b'], [' ', '\t'], []⟩ [] rfl
  refine ⟨spaced, complete, ?_⟩
  rw [List.length_singleton] at second
  rw [second]
  rfl

end Grammar

end Console
