import Console.Usage
import Console.Proofs.Grammar.Order
import Mathlib.Order.MinMax

/-!
The columns of a usage are the rows of the tree. All columns are filled by one walk that goes down
before it goes on to the next branch; `collect_eq` says what a tree adds to each of them, whatever is
there already, and `usage_showsRows` what this makes of a usage.
-/

namespace Console

variable {grammar : Grammar} {node : Node} {path : Path} {depth : Nat} {located : Path × Node}

theorem joinWith_ne_nil {text : Text} (filled : text ≠ []) (between : Text) (texts : List Text) :
    joinWith between (text :: texts) ≠ [] := by
  cases texts with
  | nil => simpa [joinWith] using filled
  | cons next texts => simp [joinWith, List.intercalate_cons_cons, filled]

def ofLength (length : Nat) (nodes : List (Path × Node)) : List (Path × Node) :=
  nodes.filter (·.1.length == length)

namespace Node

theorem allNamed_iff {nodes : List Node} : allNamed nodes ↔ ∀ node ∈ nodes, node.isNamed := by
  induction nodes with
  | nil => simp [allNamed]
  | cons node nodes ih => rw [allNamed, Bool.and_eq_true, ih, List.forall_mem_cons]

theorem everywhere_named (named : node.isNamed) : node.Everywhere (·.name ≠ []) := by
  induction node using childInduction with
  | below node ih =>
    obtain ⟨name, kind, executes, children⟩ := node
    rw [isNamed, Bool.and_eq_true, allNamed_iff] at named
    refine .of_children ?_ fun child mem => ih child mem (named.2 child mem)
    simpa using named.1

theorem display_literal (literal : node.isLiteral) : node.display = node.name := by
  rw [display, if_pos literal]

theorem display_typed (typed : node.isLiteral = false) :
    node.display = if node.executes then Text.of "[<" ++ node.name ++ Text.of ">]"
      else '<' :: (node.name ++ ['>']) := by
  rw [display, if_neg (Bool.eq_false_iff.mp typed)]

theorem display_ne_nil (named : node.name ≠ []) : node.display ≠ [] := by
  cases kind : node.isLiteral with
  | true => rwa [display_literal kind]
  | false =>
    rw [display_typed kind]
    split <;> simp [named]

mutual

def height : Node → Nat
  | ⟨_, _, _, children⟩ => heightAmong children + 1

def heightAmong : List Node → Nat
  | [] => 0
  | node :: nodes => max node.height (heightAmong nodes)

end

theorem height_eq (node : Node) : node.height = heightAmong node.children + 1 := by
  cases node
  rw [height]

theorem lt_heightAmong_iff {nodes : List Node} :
    depth < heightAmong nodes ↔ ∃ node ∈ nodes, depth < node.height := by
  induction nodes with
  | nil => simp [heightAmong]
  | cons node nodes ih => rw [heightAmong, lt_max_iff, ih, List.exists_mem_cons_iff]

theorem lt_height_iff :
    depth < node.height ↔ ∃ way child, node.at? way = some child ∧ way.length = depth := by
  induction depth generalizing node with
  | zero =>
    rw [height_eq]
    exact ⟨fun _ => ⟨[], node, rfl, rfl⟩, fun _ => Nat.succ_pos _⟩
  | succ depth ih =>
    rw [height_eq, Nat.succ_lt_succ_iff, lt_heightAmong_iff]
    constructor
    · rintro ⟨child, mem, lt⟩
      obtain ⟨index, listed⟩ := List.mem_iff_getElem?.mp mem
      obtain ⟨way, last, led, length⟩ := ih.mp lt
      exact ⟨index :: way, last, at?_cons_eq_some.mpr ⟨child, listed, led⟩,
        congrArg Nat.succ length⟩
    · rintro ⟨way, last, led, length⟩
      cases way with
      | nil => cases length
      | cons index way =>
        obtain ⟨child, listed, led⟩ := at?_cons_eq_some.mp led
        exact ⟨child, List.mem_of_getElem? listed, ih.mpr ⟨way, last, led, Nat.succ.inj length⟩⟩

theorem getElem?_pushAt (text : Text) (depth : Nat) (columns : List (List Text)) (i : Nat) :
    (pushAt text depth columns)[i]?.getD [] =
      columns[i]?.getD [] ++ if i = depth then [text] else [] := by
  induction depth, columns using pushAt.induct generalizing i with
  | case1 => cases i <;> rfl
  | case2 column columns => cases i <;> simp [pushAt]
  | case3 depth ih => cases i <;> simp [pushAt, ih]
  | case4 depth column columns ih => cases i <;> simp [pushAt, ih]

theorem length_pushAt (text : Text) (depth : Nat) (columns : List (List Text)) :
    (pushAt text depth columns).length = max columns.length (depth + 1) := by
  induction depth, columns using pushAt.induct with
  | case1 => rfl
  | case2 column columns => simp [pushAt]
  | case3 depth ih => simp [pushAt, ih]
  | case4 depth column columns ih => simp [pushAt, ih]

mutual

theorem length_collect (depth : Nat) (columns : List (List Text)) :
    ∀ node : Node, (node.collect depth columns).length = max columns.length (depth + node.height)
  | ⟨name, kind, executes, children⟩ => by
    have reached : depth + 1 ≤
        (pushAt (display ⟨name, kind, executes, children⟩) depth columns).length := by
      rw [length_pushAt]
      omega
    rw [collect, length_collectAmong reached, length_pushAt, height]
    omega

theorem length_collectAmong {depth : Nat} {columns : List (List Text)}
    (reached : depth ≤ columns.length) :
    ∀ nodes : List Node, (collectAmong depth columns nodes).length =
      max columns.length (depth + heightAmong nodes)
  | [] => by
    rw [collectAmong, heightAmong]
    omega
  | node :: nodes => by
    have further : depth ≤ (node.collect depth columns).length := by
      rw [length_collect]
      omega
    rw [collectAmong, length_collectAmong further, length_collect, heightAmong]
    omega

end

theorem ofLength_inOrder (length : Nat) (node : Node) (path : Path) :
    ofLength length (node.inOrder path) =
      (if path.length = length then [(path, node)] else []) ++
        ofLength length (node.inOrderBelow path) := by
  by_cases same : path.length = length <;> simp [inOrder_eq, ofLength, same]

mutual

theorem collect_eq (path : Path) (index i : Nat) (columns : List (List Text)) :
    ∀ node : Node, (node.collect path.length columns)[i]?.getD [] =
      columns[i]?.getD [] ++ (ofLength (i + 1) (node.inOrder (path ++ [index]))).map (·.2.display)
  | ⟨name, kind, executes, children⟩ => by
    have below := collectAmong_eq (path ++ [index]) 0 i
      (pushAt (display ⟨name, kind, executes, children⟩) path.length columns) children
    rw [List.length_append, List.length_singleton, getElem?_pushAt, List.append_assoc] at below
    rw [collect, below, ofLength_inOrder, List.map_append, List.length_append,
      List.length_singleton]
    simp only [Nat.add_right_cancel_iff, eq_comm (a := path.length)]
    split <;> rfl

theorem collectAmong_eq (path : Path) (index i : Nat) (columns : List (List Text)) :
    ∀ nodes : List Node, (collectAmong path.length columns nodes)[i]?.getD [] =
      columns[i]?.getD [] ++ (ofLength (i + 1) (inOrderAmong path index nodes)).map (·.2.display)
  | [] => by
    rw [collectAmong, inOrderAmong]
    exact (List.append_nil _).symm
  | node :: nodes => by
    have both : ofLength (i + 1) (inOrderAmong path index (node :: nodes)) =
        ofLength (i + 1) (node.inOrder (path ++ [index])) ++
          ofLength (i + 1) (inOrderAmong path (index + 1) nodes) := by
      rw [inOrderAmong]
      exact List.filter_append _ _
    rw [collectAmong, collectAmong_eq path (index + 1) i, collect_eq path index i, both,
      List.map_append, List.append_assoc]

end

end Node

namespace Grammar

def height (grammar : Grammar) : Nat := Node.heightAmong grammar.nodes

def row (grammar : Grammar) (depth : Nat) : List (Path × Node) :=
  ofLength (depth + 1) grammar.inOrder

def column (grammar : Grammar) (depth : Nat) : Text :=
  joinWith ['|'] ((grammar.row depth).map (·.2.display)).eraseDups

structure ShowsRows (grammar : Grammar) : Prop where
  usage : grammar.usage = joinWith [' '] ((List.range grammar.height).map grammar.column)
  height : ∀ depth, depth < grammar.height ↔
    ∃ path node, grammar.at? path = some node ∧ path.length = depth + 1
  rows : ∀ depth path node, (path, node) ∈ grammar.row depth ↔
    grammar.at? path = some node ∧ path.length = depth + 1
  ordered : ∀ depth, (grammar.row depth).Pairwise fun a b => a.1 < b.1
  literal : ∀ node : Node, node.isLiteral → node.display = node.name
  typed : ∀ node : Node, node.isLiteral = false →
    node.display = if node.executes then Text.of "[<" ++ node.name ++ Text.of ">]"
      else '<' :: (node.name ++ ['>'])
  filled : ∀ depth < grammar.height, grammar.column depth ≠ []
  bare : ∀ label, grammar.commandUsage label = '/' :: label ↔ grammar.nodes = []

theorem mem_row_iff :
    located ∈ grammar.row depth ↔
      grammar.at? located.1 = some located.2 ∧ located.1.length = depth + 1 := by
  rw [row, ofLength, List.mem_filter, mem_inOrder_iff, beq_iff_eq]

theorem lt_height_iff :
    depth < grammar.height ↔
      ∃ path node, grammar.at? path = some node ∧ path.length = depth + 1 := by
  have root : depth < grammar.height ↔ depth + 1 < grammar.root.height := by
    rw [Node.height_eq, Nat.succ_lt_succ_iff]
    rfl
  rw [root, Node.lt_height_iff]
  refine exists_congr fun path => exists_congr fun node => and_congr_left fun length => ?_
  cases path with
  | nil => cases length
  | cons index path => rfl

theorem name_ne_nil (found : grammar.at? path = some node) : node.name ≠ [] := by
  cases path with
  | nil => cases found
  | cons index path =>
    obtain ⟨child, listed, led⟩ := Node.at?_cons_eq_some.mp found
    have named := Node.allNamed_iff.mp grammar.allNamed child (List.mem_of_getElem? listed)
    exact Node.everywhere_named named path node led

theorem column_ne_nil (lt : depth < grammar.height) : grammar.column depth ≠ [] := by
  obtain ⟨path, node, found, length⟩ := lt_height_iff.mp lt
  have mem : (path, node) ∈ grammar.row depth := mem_row_iff.mpr ⟨found, length⟩
  cases row : grammar.row depth with
  | nil =>
    rw [row] at mem
    cases mem
  | cons first others =>
    have here : first ∈ grammar.row depth := row ▸ List.mem_cons_self
    rw [column, row, List.map_cons, List.eraseDups_cons]
    exact joinWith_ne_nil (Node.display_ne_nil (name_ne_nil (mem_row_iff.mp here).1)) _ _

theorem collectAmong_nodes (grammar : Grammar) :
    Node.collectAmong 0 [] grammar.nodes =
      (List.range grammar.height).map fun depth => (grammar.row depth).map (·.2.display) := by
  apply List.ext_getElem
  · rw [List.length_map, List.length_range, Node.length_collectAmong (Nat.zero_le _),
      List.length_nil, Nat.zero_add, Nat.zero_max]
    rfl
  · intro depth lt _
    have shown := Node.collectAmong_eq [] 0 depth [] grammar.nodes
    rw [List.length_nil, List.getElem?_eq_getElem lt, Option.getD_some] at shown
    rw [shown, List.getElem_map, List.getElem_range]
    rfl

theorem usage_eq (grammar : Grammar) :
    grammar.usage = joinWith [' '] ((List.range grammar.height).map grammar.column) := by
  rw [usage, collectAmong_nodes, List.map_map]
  rfl

theorem usage_eq_nil_iff : grammar.usage = [] ↔ grammar.nodes = [] := by
  constructor
  · intro bare
    by_contra filled
    obtain ⟨node, mem⟩ := List.exists_mem_of_ne_nil _ filled
    have lt : 0 < grammar.height :=
      Node.lt_heightAmong_iff.mpr ⟨node, mem, Node.height_eq node ▸ Nat.succ_pos _⟩
    obtain ⟨height, eq⟩ := Nat.exists_eq_succ_of_ne_zero lt.ne'
    rw [usage_eq, eq, List.range_succ_eq_map, List.map_cons] at bare
    exact joinWith_ne_nil (column_ne_nil lt) _ _ bare
  · intro none
    rw [usage, none, Node.collectAmong]
    rfl

theorem commandUsage_eq_iff {label : Text} :
    grammar.commandUsage label = '/' :: label ↔ grammar.nodes = [] := by
  rw [← usage_eq_nil_iff, commandUsage, List.cons.injEq]
  cases grammar.usage with
  | nil => simp
  | cons first others => simp

/-- Whatever the shape of the tree, a usage has a column for each of its rows, and shows there all
that may stand at that depth. -/
theorem usage_showsRows (grammar : Grammar) : grammar.ShowsRows where
  usage := grammar.usage_eq
  height _ := lt_height_iff
  rows _ _ _ := mem_row_iff
  ordered _ := grammar.inOrder_sorted.filter _
  literal _ := Node.display_literal
  typed _ := Node.display_typed
  filled _ := column_ne_nil
  bare _ := commandUsage_eq_iff

def branches : Grammar :=
  ⟨[⟨Text.of "get", .literal, false, [.typed (Text.of "key") .word]⟩,
    ⟨Text.of "set", .literal, false,
      [⟨Text.of "key", .typed .word none, false, [.typed (Text.of "value") .anyInteger]⟩]⟩], false,
    by decide +kernel⟩

example : branches.usage = Text.of "get|set [<key>]|<key> [<value>]" := by decide +kernel

end Grammar

end Console
