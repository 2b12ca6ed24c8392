import Console.Proofs.Binding.Accessors
import Mathlib.Data.List.Find
import Mathlib.Data.List.Sort

namespace Console

variable {grammar : Grammar} {line name : Text} {above below : Place}

theorem find?_filter_eq {α : Type} {p q : α → Bool} {items : List α}
    (kept : ∀ item ∈ items, q item → p item) : (items.filter p).find? q = items.find? q := by
  rw [List.find?_filter]
  apply List.find?_congr
  intro item mem
  cases matched : q item with
  | false => simp
  | true => simp [kept item mem matched]

namespace Grammar

theorem length_typedAbove_lt (found : grammar.at? above.path = some above.node)
    (typed : above.node.isLiteral = false) {path : Path} (begins : above.path <+: path)
    (differs : above.path ≠ path) :
    (grammar.typedAbove above.path).length < (grammar.typedAbove path).length := by
  have own : above.located ∉ grammar.typedAbove above.path := fun mem =>
    (mem_typedAbove_iff.mp mem).2.2.2 rfl
  have nodup : (above.located :: grammar.typedAbove above.path).Nodup :=
    List.nodup_cons.mpr ⟨own, (grammar.inOrder_sorted.filter _).imp fun lt eq =>
      lt.ne (congrArg Prod.fst eq)⟩
  refine (List.subperm_of_subset nodup fun other mem => ?_).length_le
  obtain rfl | mem := List.mem_cons.mp mem
  · exact mem_typedAbove_iff.mpr ⟨found, typed, begins, differs⟩
  · obtain ⟨found', typed', begins', differs'⟩ := mem_typedAbove_iff.mp mem
    refine mem_typedAbove_iff.mpr ⟨found', typed', begins'.trans begins, fun same => ?_⟩
    rw [same] at begins'
    exact differs (begins.eq_of_length_le begins'.length_le)

structure Flattens (grammar : Grammar) : Prop where
  ordered : grammar.inOrder.Pairwise fun a b => a.1 < b.1
  whole : ∀ path node, (path, node) ∈ grammar.inOrder ↔ grammar.at? path = some node
  listed : grammar.places.map Place.located = grammar.inOrder.filter (!·.2.isLiteral)
  slots : ∀ place ∈ grammar.places, place.slot = (grammar.typedAbove place.path).length
  descends : ∀ (i j : Nat) (above below : Place), grammar.places[i]? = some above →
    grammar.places[j]? = some below → above.path <+: below.path → above.path ≠ below.path →
      i < j ∧ above.slot < below.slot
  found : ∀ name, grammar.find? name = grammar.inOrder.find? (·.2.name == name)
  missing : ∀ name, grammar.find? name = none ↔
    ∀ path node, grammar.at? path = some node → node.name ≠ name
  typed : ∀ name,
    (∀ path node, grammar.at? path = some node → node.isLiteral → node.name ≠ name) →
      grammar.find? name = (grammar.places.find? (·.node.name == name)).map Place.located ∧
      ∀ line, (∀ binding ∈ (grammar.bind line).attempted, binding.name ≠ name) →
        ((grammar.bind line).get name).map Binding.located =
          (grammar.find? name).elim (.error (.unknownArgument name)) .ok

theorem index_lt_of_path_lt {i j : Nat} (first : grammar.places[i]? = some above)
    (second : grammar.places[j]? = some below) (lt : above.path < below.path) : i < j := by
  have sorted : (grammar.places.map Place.path).SortedLT :=
    (List.pairwise_map.mpr grammar.places_sorted).sortedLT
  have onPath {k : Nat} {place : Place} (listed : grammar.places[k]? = some place) :
      (grammar.places.map Place.path)[k]? = some place.path := by
    rw [List.getElem?_map, listed]
    rfl
  obtain ⟨_, first⟩ := List.getElem?_eq_some_iff.mp (onPath first)
  obtain ⟨_, second⟩ := List.getElem?_eq_some_iff.mp (onPath second)
  rwa [← first, ← second, sorted.getElem_lt_getElem_iff] at lt

theorem descends {i j : Nat} (first : grammar.places[i]? = some above)
    (second : grammar.places[j]? = some below) (begins : above.path <+: below.path)
    (differs : above.path ≠ below.path) : i < j ∧ above.slot < below.slot := by
  have mem := List.mem_of_getElem? first
  obtain ⟨found, typed⟩ := (grammar.mem_places_iff _ _).mp ⟨above, mem, rfl, rfl⟩
  constructor
  · exact index_lt_of_path_lt first second (Path.lt_of_prefix begins differs)
  · rw [slot_eq mem, slot_eq (List.mem_of_getElem? second)]
    exact length_typedAbove_lt found typed begins differs

theorem find?_of_typed
    (typed : ∀ path node, grammar.at? path = some node → node.isLiteral → node.name ≠ name) :
    grammar.find? name = (grammar.places.find? (·.node.name == name)).map Place.located := by
  have kept : ∀ located ∈ grammar.inOrder, (located.2.name == name) → (!located.2.isLiteral) := by
    intro located mem same
    rw [Bool.not_eq_true']
    by_contra literal
    exact typed _ _ (mem_inOrder_iff.mp mem) (Bool.of_not_eq_false literal) (beq_iff_eq.mp same)
  rw [find?_eq, ← find?_filter_eq kept, ← map_located_places, List.find?_map]
  rfl

theorem get_of_untried (untried : ∀ binding ∈ (grammar.bind line).attempted, binding.name ≠ name) :
    ((grammar.bind line).get name).map Binding.located =
      ((grammar.places.find? (·.node.name == name)).map Place.located).elim
        (.error (.unknownArgument name)) .ok := by
  have none : (grammar.bind line).attempted.find? (·.name == name) = none := by simpa using untried
  have listed : (grammar.bind line).bindings.find? (·.name == name) =
      (grammar.places.find? (·.node.name == name)).map
        fun place => ⟨place, (grammar.walk line).attemptAt place.path⟩ := List.find?_map
  rw [BindingSet.get_eq, none, listed]
  cases grammar.places.find? (·.node.name == name) <;> rfl

/-- The typed nodes are listed in the order of the tree, each with the number of those above it, and
a name is looked for in the same order. -/
theorem flattens (grammar : Grammar) : grammar.Flattens where
  ordered := grammar.inOrder_sorted
  whole path node := mem_inOrder_iff
  listed := grammar.map_located_places
  slots place mem := slot_eq mem
  descends i j above below := descends
  found := grammar.find?_eq
  missing name := find?_eq_none_iff
  typed name typed := by
    have first := find?_of_typed typed
    refine ⟨first, fun line untried => ?_⟩
    rw [first]
    exact get_of_untried untried

end Grammar

end Console
