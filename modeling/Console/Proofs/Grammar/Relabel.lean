import Console.Proofs.Grammar.Levels
import Console.Proofs.Grammar.Paths

namespace Console

/-- What the typed nodes take and suggest instead, by their paths. -/
structure Relabel where
  type : Path → ArgumentType → ArgumentType
  suggestions : Path → Option (Text → List Text) → Option (Text → List Text)

variable {change : Relabel} {node child : Node} {path : Path} {index : Nat}

def NodeKind.relabel (change : Relabel) (path : Path) : NodeKind → NodeKind
  | literal => literal
  | typed type suggestions => typed (change.type path type) (change.suggestions path suggestions)

namespace Node

mutual

def relabel (change : Relabel) (path : Path) : Node → Node
  | ⟨name, kind, executes, children⟩ =>
    ⟨name, kind.relabel change path, executes, relabelAmong change path 0 children⟩

def relabelAmong (change : Relabel) (path : Path) (index : Nat) : List Node → List Node
  | [] => []
  | node :: nodes =>
    node.relabel change (path ++ [index]) :: relabelAmong change path (index + 1) nodes

end

theorem relabel_eq (change : Relabel) (path : Path) (node : Node) :
    node.relabel change path =
      ⟨node.name, node.kind.relabel change path, node.executes,
        relabelAmong change path 0 node.children⟩ := by
  cases node
  rw [relabel]

@[simp] theorem name_relabel (change : Relabel) (path : Path) (node : Node) :
    (node.relabel change path).name = node.name := by
  rw [relabel_eq]

@[simp] theorem isLiteral_relabel (change : Relabel) (path : Path) (node : Node) :
    (node.relabel change path).isLiteral = node.isLiteral := by
  rw [relabel_eq]
  cases h : node.kind <;> simp [isLiteral, NodeKind.relabel, h]

@[simp] theorem type?_relabel (change : Relabel) (path : Path) (node : Node) :
    (node.relabel change path).type? = node.type?.map (change.type path) := by
  rw [relabel_eq]
  cases h : node.kind <;> simp [type?, NodeKind.relabel, h]

theorem relabelAmong_eq (change : Relabel) (path : Path) (index : Nat) (nodes : List Node) :
    relabelAmong change path index nodes =
      (nodes.zipIdx index).map fun child => child.1.relabel change (path ++ [child.2]) := by
  induction nodes generalizing index with
  | nil => rw [relabelAmong]; rfl
  | cons node nodes ih => rw [relabelAmong, ih, List.zipIdx_cons, List.map_cons]

theorem children_relabel (change : Relabel) (path : Path) (node : Node) (index : Nat) :
    (node.relabel change path).children[index]? =
      node.children[index]?.map (·.relabel change (path ++ [index])) := by
  rw [relabel_eq, relabelAmong_eq, List.getElem?_map, List.getElem?_zipIdx, Option.map_map]
  simp [Function.comp_def]

theorem children_relabel_of (change : Relabel) (path : Path)
    (found : node.children[index]? = some child) :
    (node.relabel change path).children[index]? =
      some (child.relabel change (path ++ [index])) := by
  rw [children_relabel, found]
  rfl

theorem exists_of_children_relabel
    (found : (node.relabel change path).children[index]? = some child) :
    ∃ original, node.children[index]? = some original ∧
      child = original.relabel change (path ++ [index]) := by
  rw [children_relabel, Option.map_eq_some_iff] at found
  obtain ⟨original, here, eq⟩ := found
  exact ⟨original, here, eq.symm⟩

theorem allNamed_relabelAmong {nodes : List Node}
    (same : ∀ node ∈ nodes, ∀ path, (node.relabel change path).isNamed = node.isNamed)
    (path : Path) (index : Nat) :
    allNamed (relabelAmong change path index nodes) = allNamed nodes := by
  induction nodes generalizing index with
  | nil => rw [relabelAmong]
  | cons node nodes ih =>
    rw [relabelAmong, allNamed, allNamed, same node List.mem_cons_self, ih]
    exact fun other h => same other (.tail _ h)

theorem isNamed_relabel (change : Relabel) (path : Path) (node : Node) :
    (node.relabel change path).isNamed = node.isNamed := by
  induction node using childInduction generalizing path with
  | below node ih =>
    cases node
    rw [relabel, isNamed, isNamed, allNamed_relabelAmong ih]

theorem spells_relabel (token : Text) (path : Path) (node : Node) :
    (node.relabel change path).Spells token ↔ node.Spells token := by
  simp [Spells]

theorem noneSpells_relabel (token : Text) :
    NoneSpells (node.relabel change path).children token ↔ NoneSpells node.children token := by
  constructor
  · intro none child hc spelled
    obtain ⟨i, found⟩ := List.mem_iff_getElem?.mp hc
    apply none (child.relabel change (path ++ [i]))
    · exact List.mem_of_getElem? (children_relabel_of change path found)
    · exact (spells_relabel token _ child).mpr spelled
  · intro none child hc spelled
    obtain ⟨i, found⟩ := List.mem_iff_getElem?.mp hc
    obtain ⟨original, here, rfl⟩ := exists_of_children_relabel found
    exact none original (List.mem_of_getElem? here) ((spells_relabel token _ original).mp spelled)

theorem first_relabel {p : Node → Prop}
    (keeps : ∀ path (other : Node), p (other.relabel change path) ↔ p other)
    (found : node.children[index]? = some child) :
    First p (node.relabel change path).children index (child.relabel change (path ++ [index])) ↔
      First p node.children index child := by
  constructor
  · intro first
    refine ⟨found, (keeps _ child).mp first.holds, ?_⟩
    intro i hi other ho holds
    apply first.least i hi (other.relabel change (path ++ [i]))
    · exact children_relabel_of change path ho
    · exact (keeps _ other).mpr holds
  · intro first
    refine ⟨children_relabel_of change path found, (keeps _ child).mpr first.holds, ?_⟩
    intro i hi other ho holds
    obtain ⟨original, here, rfl⟩ := exists_of_children_relabel ho
    exact first.least i hi original here ((keeps _ original).mp holds)

theorem at?_relabel (change : Relabel) (path : Path) (node : Node) (way : Path) :
    (node.relabel change path).at? way = (node.at? way).map (·.relabel change (path ++ way)) := by
  induction way generalizing node path with
  | nil => simp
  | cons index way ih =>
    rw [at?_cons, at?_cons, children_relabel]
    cases node.children[index]? with
    | none => rfl
    | some child => simp [ih]

end Node

namespace Grammar

def relabel (grammar : Grammar) (change : Relabel) : Grammar where
  nodes := Node.relabelAmong change [] 0 grammar.nodes
  executes := grammar.executes
  allNamed := by
    rw [Node.allNamed_relabelAmong fun node _ path => node.isNamed_relabel change path]
    exact grammar.allNamed

@[simp] theorem root_relabel (grammar : Grammar) (change : Relabel) :
    (grammar.relabel change).root = grammar.root.relabel change [] := by
  rw [Node.relabel_eq]
  rfl

end Grammar

end Console
