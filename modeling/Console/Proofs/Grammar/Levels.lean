import Console.Grammar.Route
import Mathlib.Data.List.Basic
import Mathlib.Data.List.Forall2

namespace Console

variable {level : List Node} {index : Nat} {node other : Node} {token : Text}

structure First (p : Node → Prop) (level : List Node) (index : Nat) (node : Node) : Prop where
  found : level[index]? = some node
  holds : p node
  least : ∀ i < index, ∀ other, level[i]? = some other → ¬ p other

namespace First

variable {p q : Node → Prop}

theorem mem (h : First p level index node) : node ∈ level := List.mem_of_getElem? h.found

theorem congr (h : First p level index node) (hpq : ∀ other ∈ level, p other ↔ q other) :
    First q level index node where
  found := h.found
  holds := (hpq node h.mem).mp h.holds
  least i hi other ho hq := h.least i hi other ho ((hpq other (List.mem_of_getElem? ho)).mpr hq)

theorem unique {index' : Nat} {node' : Node} (h : First p level index node)
    (h' : First p level index' node') : index = index' ∧ node = node' := by
  have eq : index = index' := by
    apply Nat.le_antisymm
    · apply Nat.not_lt.mp
      intro lt
      exact h.least _ lt _ h'.found h'.holds
    · apply Nat.not_lt.mp
      intro lt
      exact h'.least _ lt _ h.found h.holds
  subst eq
  exact ⟨rfl, Option.some.inj (h.found.symm.trans h'.found)⟩

end First

theorem exists_mem_zipIdx (h : node ∈ level) : ∃ index, (node, index) ∈ level.zipIdx := by
  obtain ⟨index, found⟩ := List.mem_iff_getElem?.mp h
  exact ⟨index, List.mem_zipIdx_iff_getElem?.mpr found⟩

theorem exists_getElem?_of_forall₂ {α β : Type} {r : α → β → Prop} {xs : List α} {ys : List β}
    (related : List.Forall₂ r xs ys) {i : Nat} {x : α} (found : xs[i]? = some x) :
    ∃ y, ys[i]? = some y ∧ r x y := by
  induction related generalizing i with
  | nil => cases found
  | cons first _ ih =>
    cases i with
    | zero =>
      cases found
      exact ⟨_, rfl, first⟩
    | succ i => exact ih found

theorem findSome?_zipIdx_iff {α : Type} {p : Node → Prop} {f : Node × Nat → Option α} {a : α}
    (hf : ∀ node ∈ level, ∀ index, (f (node, index)).isSome ↔ p node) :
    level.zipIdx.findSome? f = some a ↔
      ∃ index node, First p level index node ∧ f (node, index) = some a := by
  rw [List.findSome?_eq_some_iff]
  constructor
  · rintro ⟨before, ⟨node, index⟩, behind, split, given, skipped⟩
    have at_index : ∀ i < before.length, ∀ other, level[i]? = some other → (other, i) ∈ before := by
      intro i hi other ho
      have hz : level.zipIdx[i]? = some (other, i) := by simp [List.getElem?_zipIdx, ho]
      rw [split, List.getElem?_append_left hi] at hz
      exact List.mem_of_getElem? hz
    have here : level.zipIdx[before.length]? = some (node, index) := by rw [split]; simp
    rw [List.getElem?_zipIdx, Option.map_eq_some_iff] at here
    obtain ⟨found, ho, eq⟩ := here
    obtain ⟨rfl, rfl⟩ : found = node ∧ before.length = index := by simpa using eq
    refine ⟨before.length, found, ⟨ho, ?_, ?_⟩, given⟩
    · exact (hf found (List.mem_of_getElem? ho) _).mp (by rw [given]; rfl)
    · intro i hi other hother holds
      have := (hf other (List.mem_of_getElem? hother) i).mpr holds
      rw [skipped _ (at_index i hi other hother)] at this
      cases this
  · rintro ⟨index, node, first, given⟩
    have here : level.zipIdx[index]? = some (node, index) := by
      simp [List.getElem?_zipIdx, first.found]
    refine ⟨level.zipIdx.take index, (node, index), level.zipIdx.drop (index + 1), ?_, given, ?_⟩
    · obtain ⟨lt, eq⟩ := List.getElem?_eq_some_iff.mp here
      rw [← eq, List.getElem_cons_drop, List.take_append_drop]
    · rintro ⟨other, i⟩ hmem
      obtain ⟨j, hj⟩ := List.mem_iff_getElem?.mp hmem
      obtain ⟨hz, hlt⟩ : level.zipIdx[j]? = some (other, i) ∧ j < index := by
        rw [List.getElem?_take] at hj
        split at hj
        · exact ⟨hj, by assumption⟩
        · cases hj
      rw [List.getElem?_zipIdx, Option.map_eq_some_iff] at hz
      obtain ⟨found, ho, eq⟩ := hz
      obtain ⟨rfl, rfl⟩ : found = other ∧ j = i := by simpa using eq
      rw [← Option.not_isSome_iff_eq_none, hf found (List.mem_of_getElem? ho)]
      exact first.least j hlt found ho

theorem findSome?_zipIdx_eq_none_iff {α : Type} {p : Node → Prop} {f : Node × Nat → Option α}
    (hf : ∀ node ∈ level, ∀ index, (f (node, index)).isSome ↔ p node) :
    level.zipIdx.findSome? f = none ↔ ∀ node ∈ level, ¬ p node := by
  rw [List.findSome?_eq_none_iff]
  constructor
  · intro none node mem
    obtain ⟨index, there⟩ := exists_mem_zipIdx mem
    rw [← hf node mem index, none _ there]
    exact Bool.false_ne_true
  · rintro none ⟨node, index⟩ there
    have mem := List.mem_of_getElem? (List.mem_zipIdx_iff_getElem?.mp there)
    rw [← Option.not_isSome_iff_eq_none, hf node mem index]
    exact none node mem

theorem find?_zipIdx_iff {q : Node → Bool} :
    level.zipIdx.find? (fun child => q child.1) = some (node, index) ↔
      First (q ·) level index node := by
  have hq : ∀ node ∈ level, ∀ index,
      (Option.guard (fun child : Node × Nat => q child.1) (node, index)).isSome ↔ q node := by
    intro node _ index
    simp [Option.guard_apply]
  rw [List.find?_eq_findSome?_guard, findSome?_zipIdx_iff hq]
  constructor
  · rintro ⟨index', node', first, given⟩
    cases (Option.guard_eq_some_iff.mp given).1
    exact first
  · intro first
    exact ⟨index, node, first, Option.guard_eq_some_iff.mpr ⟨rfl, first.holds⟩⟩

namespace Node

def Spells (token : Text) (node : Node) : Prop := node.isLiteral ∧ node.name = token

instance (token : Text) (node : Node) : Decidable (node.Spells token) :=
  inferInstanceAs (Decidable (_ ∧ _))

def NoneSpells (level : List Node) (token : Text) : Prop := ∀ child ∈ level, ¬ child.Spells token

theorem type?_eq_none (h : node.isLiteral) : node.type? = none := type?_eq_none_iff.mpr h

theorem exists_type? (h : node.isLiteral = false) : ∃ type, node.type? = some type := by
  cases ht : node.type? with
  | none => rw [type?_eq_none_iff, h] at ht; cases ht
  | some type => exact ⟨type, rfl⟩

theorem isLiteral_eq_false {type : ArgumentType} (h : node.type? = some type) :
    node.isLiteral = false := by
  cases hl : node.isLiteral with
  | true => rw [type?_eq_none hl] at h; cases h
  | false => rfl

theorem isGreedy_eq {type : ArgumentType} (h : node.type? = some type) :
    node.isGreedy = type.isGreedy := by
  unfold type? at h
  unfold isGreedy
  split at h
  · cases h
  · cases h
    rfl

theorem isGreedy_eq_false (h : node.isLiteral) : node.isGreedy = false := by
  unfold isLiteral at h
  unfold isGreedy
  split at h
  · rfl
  · cases h

end Node

namespace Route

open Node

theorem ofWord_cases (level : List Node) (token : Text) :
    (∃ index node, First (Spells token) level index node ∧
      ofWord level token = .literal node index) ∨
    (NoneSpells level token ∧
      ofWord level token = .typed (level.zipIdx.filter fun child => !child.1.isLiteral)) := by
  unfold ofWord
  cases hf : level.zipIdx.find? fun child => child.1.isLiteral && child.1.name == token with
  | some found =>
    left
    have first := (find?_zipIdx_iff (q := fun node => node.isLiteral && node.name == token)).mp hf
    refine ⟨found.2, found.1, first.congr fun other _ => ?_, rfl⟩
    simp [Spells]
  | none =>
    right
    refine ⟨?_, rfl⟩
    intro child hc spelled
    obtain ⟨i, hi⟩ := exists_mem_zipIdx hc
    have skipped := List.find?_eq_none.mp hf (child, i) hi
    simp [spelled.1, spelled.2] at skipped

end Route

end Console
