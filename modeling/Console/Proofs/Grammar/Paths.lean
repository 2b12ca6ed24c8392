import Console.Grammar.Places
import Mathlib.Data.List.Lex

namespace Console

variable {node child : Node} {index : Nat} {path way front : Path}

namespace Path

theorem lt_append (path : Path) (index : Nat) (way : Path) : path < path ++ index :: way := by
  induction path with
  | nil => exact List.nil_lt_cons index way
  | cons i path ih => exact List.cons_lt_cons_self.mpr ih

theorem lt_of_prefix (begins : path <+: way) (differs : path ≠ way) : path < way := by
  obtain ⟨rest, rfl⟩ := begins
  cases rest with
  | nil => exact absurd (List.append_nil path).symm differs
  | cons index rest => exact lt_append path index rest

theorem append_lt_append {i j : Nat} (h : i < j) (path : Path) (front back : Path) :
    path ++ i :: front < path ++ j :: back := by
  induction path with
  | nil => exact List.Lex.rel h
  | cons k path ih => exact List.cons_lt_cons_self.mpr ih

end Path

namespace Node

theorem sizeOf_lt_of_mem (h : child ∈ node.children) : sizeOf child < sizeOf node := by
  cases node with
  | mk name kind executes children =>
    have := List.sizeOf_lt_of_mem h
    simp only [Node.mk.sizeOf_spec]
    simp only at this
    omega

@[elab_as_elim] theorem childInduction {motive : Node → Prop} (node : Node)
    (below : ∀ node : Node, (∀ child ∈ node.children, motive child) → motive node) :
    motive node :=
  below node fun child _ => childInduction child below
termination_by sizeOf node
decreasing_by exact sizeOf_lt_of_mem ‹_›

@[simp] theorem at?_nil (node : Node) : node.at? [] = some node := rfl

theorem at?_cons (node : Node) (index : Nat) (way : Path) :
    node.at? (index :: way) = node.children[index]?.bind (·.at? way) := rfl

theorem at?_append (node : Node) (front back : Path) :
    node.at? (front ++ back) = (node.at? front).bind (·.at? back) := by
  induction front generalizing node with
  | nil => rfl
  | cons index front ih =>
    rw [List.cons_append, at?_cons, at?_cons]
    cases node.children[index]? with
    | none => rfl
    | some child => exact ih child

theorem at?_cons_eq_some {last : Node} :
    node.at? (index :: way) = some last ↔
      ∃ child, node.children[index]? = some child ∧ child.at? way = some last := by
  rw [at?_cons, Option.bind_eq_some_iff]

def Everywhere (p : Node → Prop) (node : Node) : Prop :=
  ∀ path child, node.at? path = some child → p child

namespace Everywhere

variable {p : Node → Prop}

theorem here (all : node.Everywhere p) : p node := all [] node rfl

theorem below (all : node.Everywhere p) (found : node.at? way = some child) :
    child.Everywhere p := by
  intro path other found'
  apply all (way ++ path)
  rw [at?_append, found]
  exact found'

theorem of_mem (all : node.Everywhere p) (mem : child ∈ node.children) : child.Everywhere p := by
  obtain ⟨index, found⟩ := List.mem_iff_getElem?.mp mem
  exact all.below (at?_cons_eq_some.mpr ⟨child, found, at?_nil child⟩)

theorem of_children (here : p node) (below : ∀ child ∈ node.children, child.Everywhere p) :
    node.Everywhere p := by
  intro path other found
  cases path with
  | nil =>
    cases found
    exact here
  | cons index path =>
    obtain ⟨child, listed, found⟩ := at?_cons_eq_some.mp found
    exact below child (List.mem_of_getElem? listed) path other found

end Everywhere

/-- The nodes that a path passes below a node, with their own paths. -/
def along (node : Node) (path : Path) : Path → List (Path × Node)
  | [] => []
  | index :: way =>
    match node.children[index]? with
    | none => []
    | some child => (path ++ [index], child) :: child.along (path ++ [index]) way

@[simp] theorem along_nil (node : Node) (path : Path) : node.along path [] = [] := rfl

theorem along_cons (h : node.children[index]? = some child) (path way : Path) :
    node.along path (index :: way) =
      (path ++ [index], child) :: child.along (path ++ [index]) way := by
  simp [along, h]

theorem along_append {last : Node} (h : node.at? front = some last) (path way : Path) :
    node.along path (front ++ way) = node.along path front ++ last.along (path ++ front) way := by
  induction front generalizing node path with
  | nil =>
    cases h
    simp
  | cons index front ih =>
    obtain ⟨child, hc, hl⟩ := at?_cons_eq_some.mp h
    rw [List.cons_append, along_cons hc, along_cons hc, ih hl, List.cons_append]
    simp

theorem exists_of_mem_along {passed : Path × Node} (h : passed ∈ node.along path way) :
    ∃ index front, index :: front <+: way ∧ passed.1 = path ++ index :: front ∧
      node.at? (index :: front) = some passed.2 := by
  induction way generalizing node path with
  | nil => cases h
  | cons index way ih =>
    cases hc : node.children[index]? with
    | none => simp [along, hc] at h
    | some child =>
      rw [along_cons hc, List.mem_cons] at h
      cases h with
      | inl eq =>
        subst eq
        exact ⟨index, [], by simp, rfl, by simp [at?_cons, hc]⟩
      | inr below =>
        obtain ⟨next, front, begins, eq, found⟩ := ih below
        refine ⟨index, next :: front, ?_, ?_, ?_⟩
        · exact List.cons_prefix_cons.mpr ⟨rfl, begins⟩
        · rw [eq, List.append_assoc]; rfl
        · rw [at?_cons, hc]; exact found

theorem mem_along_of_prefix {last : Node} (begins : index :: front <+: way)
    (led : node.at? (index :: front) = some last) (path : Path) :
    (path ++ index :: front, last) ∈ node.along path way := by
  induction way generalizing node path index front with
  | nil => cases List.prefix_nil.mp begins
  | cons i way ih =>
    obtain ⟨rfl, rest⟩ := List.cons_prefix_cons.mp begins
    obtain ⟨child, listed, led⟩ := at?_cons_eq_some.mp led
    rw [along_cons listed, List.mem_cons]
    cases front with
    | nil =>
      cases led
      exact .inl rfl
    | cons j front =>
      have below := ih rest led (path ++ [index])
      rw [List.append_assoc] at below
      exact .inr below

theorem along_nested (node : Node) (path way : Path) :
    (node.along path way).Pairwise fun a b => ∃ index front, b.1 = a.1 ++ index :: front := by
  induction way generalizing node path with
  | nil => exact .nil
  | cons index way ih =>
    cases hc : node.children[index]? with
    | none => simp [along, hc]
    | some child =>
      rw [along_cons hc]
      refine .cons (fun passed h => ?_) (ih child _)
      obtain ⟨i, front, _, eq, _⟩ := exists_of_mem_along h
      exact ⟨i, front, eq⟩

theorem along_sorted (node : Node) (path way : Path) :
    (node.along path way).Pairwise fun a b => a.1 < b.1 :=
  (along_nested node path way).imp fun ⟨index, front, eq⟩ => eq ▸ Path.lt_append _ index front

theorem along_prefix (node : Node) (path way : Path) :
    (node.along path way).Pairwise fun a b => a.1 <+: b.1 :=
  (along_nested node path way).imp fun ⟨index, front, eq⟩ => ⟨index :: front, eq.symm⟩

end Node

end Console
