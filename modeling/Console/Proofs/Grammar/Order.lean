import Console.Grammar.Places
import Console.Proofs.Grammar.Levels
import Console.Proofs.Grammar.Paths
import Mathlib.Data.List.Nodup

namespace Console

variable {node child : Node} {index : Nat} {path : Path} {located : Path × Node}

theorem Path.eq_of_sorted {α : Type} {path : α → Path} {items items' : List α}
    (sorted : items.Pairwise fun a b => path a < path b)
    (sorted' : items'.Pairwise fun a b => path a < path b)
    (same : ∀ item, item ∈ items ↔ item ∈ items') : items = items' := by
  have nodup {l : List α} (h : l.Pairwise fun a b => path a < path b) : l.Nodup :=
    h.imp fun lt eq => lt.ne (congrArg path eq)
  apply List.Perm.eq_of_pairwise _ sorted sorted'
  · exact (List.perm_ext_iff_of_nodup (nodup sorted) (nodup sorted')).mpr (same ·)
  · intro a b _ _ lt gt
    exact absurd gt (lt_asymm lt)

theorem pairwise_zipIdx (level : List Node) :
    level.zipIdx.Pairwise fun a b => a.2 < b.2 := by
  have indices : (level.zipIdx.map Prod.snd).Pairwise (· < ·) := by
    rw [List.zipIdx_map_snd]
    exact List.pairwise_lt_range'
  exact List.pairwise_map.mp indices

namespace Node

mutual

def inOrder (path : Path) : Node → List (Path × Node)
  | ⟨name, kind, executes, children⟩ =>
    (path, ⟨name, kind, executes, children⟩) :: inOrderAmong path 0 children

def inOrderAmong (path : Path) (index : Nat) : List Node → List (Path × Node)
  | [] => []
  | node :: nodes => node.inOrder (path ++ [index]) ++ inOrderAmong path (index + 1) nodes

end

def inOrderBelow (node : Node) (path : Path) : List (Path × Node) :=
  inOrderAmong path 0 node.children

theorem inOrder_eq (node : Node) (path : Path) :
    node.inOrder path = (path, node) :: node.inOrderBelow path := by
  cases node
  rw [inOrder]
  rfl

theorem inOrderAmong_eq (path : Path) (index : Nat) (nodes : List Node) :
    inOrderAmong path index nodes =
      (nodes.zipIdx index).flatMap fun child => child.1.inOrder (path ++ [child.2]) := by
  induction nodes generalizing index with
  | nil => rw [inOrderAmong]; rfl
  | cons node nodes ih => rw [inOrderAmong, ih, List.zipIdx_cons, List.flatMap_cons]

theorem inOrderBelow_eq (node : Node) (path : Path) :
    node.inOrderBelow path =
      node.children.zipIdx.flatMap fun child => child.1.inOrder (path ++ [child.2]) :=
  inOrderAmong_eq path 0 node.children

theorem mem_inOrderBelow_iff :
    located ∈ node.inOrderBelow path ↔
      ∃ (index : Nat) (child : Node), node.children[index]? = some child ∧
        located ∈ child.inOrder (path ++ [index]) := by
  rw [inOrderBelow_eq, List.mem_flatMap]
  constructor
  · rintro ⟨⟨child, index⟩, listed, below⟩
    exact ⟨index, child, List.mem_zipIdx_iff_getElem?.mp listed, below⟩
  · rintro ⟨index, child, found, below⟩
    exact ⟨(child, index), List.mem_zipIdx_iff_getElem?.mpr found, below⟩

theorem mem_inOrder_iff :
    located ∈ node.inOrder path ↔
      ∃ way, located.1 = path ++ way ∧ node.at? way = some located.2 := by
  induction node using childInduction generalizing path with
  | below node ih =>
    rw [inOrder_eq, List.mem_cons, mem_inOrderBelow_iff]
    constructor
    · rintro (rfl | ⟨index, child, found, below⟩)
      · exact ⟨[], by simp, rfl⟩
      · obtain ⟨way, eq, led⟩ := (ih child (List.mem_of_getElem? found)).mp below
        exact ⟨index :: way, by simp [eq], at?_cons_eq_some.mpr ⟨child, found, led⟩⟩
    · rintro ⟨way, eq, led⟩
      cases way with
      | nil => exact .inl (Prod.ext (by simpa using eq) (Option.some.inj led).symm)
      | cons index way =>
        obtain ⟨child, found, led⟩ := at?_cons_eq_some.mp led
        refine .inr ⟨index, child, found, ?_⟩
        exact (ih child (List.mem_of_getElem? found)).mpr ⟨way, by simp [eq], led⟩

theorem exists_of_mem_inOrderBelow (mem : located ∈ node.inOrderBelow path) :
    ∃ index way, located.1 = path ++ index :: way ∧
      node.at? (index :: way) = some located.2 := by
  obtain ⟨index, child, found, below⟩ := mem_inOrderBelow_iff.mp mem
  obtain ⟨way, eq, led⟩ := mem_inOrder_iff.mp below
  exact ⟨index, way, by simp [eq], at?_cons_eq_some.mpr ⟨child, found, led⟩⟩

theorem inOrder_sorted (node : Node) (path : Path) :
    (node.inOrder path).Pairwise fun a b => a.1 < b.1 := by
  induction node using childInduction generalizing path with
  | below node ih =>
    rw [inOrder_eq]
    refine .cons (fun located mem => ?_) ?_
    · obtain ⟨index, way, eq, _⟩ := exists_of_mem_inOrderBelow mem
      rw [eq]
      exact Path.lt_append path index way
    · rw [inOrderBelow_eq, List.pairwise_flatMap]
      constructor
      · rintro ⟨child, index⟩ listed
        exact ih child (List.mem_of_getElem? (List.mem_zipIdx_iff_getElem?.mp listed)) _
      · -- What is below two children parts where these two do.
        apply (pairwise_zipIdx node.children).imp
        intro a b lt x hx y hy
        obtain ⟨front, hfront, _⟩ := mem_inOrder_iff.mp hx
        obtain ⟨back, hback, _⟩ := mem_inOrder_iff.mp hy
        rw [hfront, hback, List.append_assoc, List.append_assoc]
        exact Path.append_lt_append lt path front back

theorem inOrderBelow_sorted (node : Node) (path : Path) :
    (node.inOrderBelow path).Pairwise fun a b => a.1 < b.1 := by
  have sorted := node.inOrder_sorted path
  rw [inOrder_eq] at sorted
  exact (List.pairwise_cons.mp sorted).2

mutual

theorem find?_eq (name : Text) (path : Path) :
    ∀ node : Node, node.find? name path = (node.inOrder path).find? (·.2.name == name)
  | ⟨own, kind, executes, children⟩ => by
    rw [find?, inOrder, List.find?_cons, findAmong?_eq name path 0 children]
    cases same : own == name with
    | true => rw [if_pos (beq_iff_eq.mp same)]
    | false => rw [if_neg (beq_eq_false_iff_ne.mp same)]

theorem findAmong?_eq (name : Text) (path : Path) (index : Nat) :
    ∀ nodes : List Node,
      findAmong? name path index nodes = (inOrderAmong path index nodes).find? (·.2.name == name)
  | [] => by rw [findAmong?, inOrderAmong]; rfl
  | node :: nodes => by
    rw [findAmong?, inOrderAmong, List.find?_append, find?_eq name (path ++ [index]) node,
      findAmong?_eq name path (index + 1) nodes]

end

end Node

namespace Grammar

variable {grammar : Grammar}

def inOrder (grammar : Grammar) : List (Path × Node) := grammar.root.inOrderBelow []

theorem inOrder_sorted (grammar : Grammar) : grammar.inOrder.Pairwise fun a b => a.1 < b.1 :=
  grammar.root.inOrderBelow_sorted []

theorem mem_inOrder_iff :
    located ∈ grammar.inOrder ↔ grammar.at? located.1 = some located.2 := by
  constructor
  · intro mem
    obtain ⟨index, way, eq, led⟩ := Node.exists_of_mem_inOrderBelow mem
    rw [eq]
    exact led
  · obtain ⟨path, last⟩ := located
    intro found
    cases path with
    | nil => cases found
    | cons index way =>
      obtain ⟨child, listed, led⟩ := Node.at?_cons_eq_some.mp found
      exact Node.mem_inOrderBelow_iff.mpr
        ⟨index, child, listed, Node.mem_inOrder_iff.mpr ⟨way, rfl, led⟩⟩

theorem find?_eq (grammar : Grammar) (name : Text) :
    grammar.find? name = grammar.inOrder.find? (·.2.name == name) :=
  Node.findAmong?_eq name [] 0 grammar.nodes

theorem find?_eq_none_iff {name : Text} :
    grammar.find? name = none ↔ ∀ path node, grammar.at? path = some node → node.name ≠ name := by
  rw [find?_eq, List.find?_eq_none]
  constructor
  · intro none path node found same
    exact none (path, node) (mem_inOrder_iff.mpr found) (beq_iff_eq.mpr same)
  · intro unnamed located mem same
    exact unnamed located.1 located.2 (mem_inOrder_iff.mp mem) (beq_iff_eq.mp same)

end Grammar

end Console
