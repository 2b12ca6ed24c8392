import Console.Settings.OfToml

namespace Console

namespace Toml

/-- A library keeps to TOML, given what a text holds if it is a document. Documents are parsed, and
only they. An item is put where there is none, and nothing else changes. A document is printed with
all that it holds, and what was printed is not printed in another way once it is parsed. A text is
decoded by the types of the settings in it. -/
structure Library.Lawful (library : Library) (toml : Text → Option Table) : Prop where
  parses : ∀ s, (library.parse s).map library.root = toml s
  empty : toml [] = some []
  occupied : ∀ document name item, (library.root document).lookup name ≠ none →
    library.orInsert document name item = document
  vacant : ∀ document name item, (library.root document).lookup name = none →
    ∀ other, (library.root (library.orInsert document name item)).lookup other =
      if other = name then some item.value else (library.root document).lookup other
  prints : ∀ document, ∃ root, toml (library.print document) = some root ∧
    ∀ name, root.lookup name = (library.root document).lookup name
  keeps : ∀ document again, library.parse (library.print document) = some again →
    library.print again = library.print document
  decodes : ∀ s, library.decode s = (toml s).bind Settings.ofTable?

end Toml

namespace Settings

open Toml

variable {library : Library} {toml : Text → Option Table} {s t name : Text}
  {document : library.Document} {root : Table} {items : List (Text × Item)}

/-- A table with all that another one holds, and with the defaults of what that lacks. -/
def IsFilled (root filled : Table) : Prop :=
  ∀ name, filled.lookup name = (root.lookup name).or ((defaults.lookup name).map Item.value)

theorem IsFilled.lookup_ne_none {filled : Table} (h : IsFilled root filled) :
    ∀ entry ∈ defaults, filled.lookup entry.1 ≠ none := by
  intro entry mem none
  rw [h] at none
  have missing := Option.map_eq_none_iff.mp (Option.or_eq_none_iff.mp none).2
  exact absurd rfl (bne_iff_ne.mp (List.lookup_eq_none_iff.mp missing entry mem))

section Items

variable (lawful : library.Lawful toml)
include lawful

theorem lookup_orInsert (document : library.Document) (name : Text) (item : Item) (other : Text) :
    (library.root (library.orInsert document name item)).lookup other =
      ((library.root document).lookup other).or (if other = name then some item.value else none) := by
  cases here : (library.root document).lookup name with
  | none =>
    rw [lawful.vacant document name item here]
    by_cases same : other = name
    · rw [if_pos same, if_pos same, same, here, Option.none_or]
    · rw [if_neg same, if_neg same, Option.or_none]
  | some value =>
    rw [lawful.occupied document name item (by rw [here]; nofun)]
    by_cases same : other = name
    · rw [same, here, Option.some_or]
    · rw [if_neg same, Option.or_none]

theorem lookup_fillWith (document : library.Document) (items : List (Text × Item)) (name : Text) :
    (library.root (fillWith library document items)).lookup name =
      ((library.root document).lookup name).or ((items.lookup name).map Item.value) := by
  induction items generalizing document with
  | nil => rw [fillWith, List.foldl_nil, List.lookup_nil, Option.map_none, Option.or_none]
  | cons entry items ih =>
    rw [fillWith, List.foldl_cons, ← fillWith, ih, lookup_orInsert lawful, Option.or_assoc,
      List.lookup_cons]
    by_cases same : name = entry.1
    · rw [if_pos same, beq_iff_eq.mpr same, Option.some_or, Option.map_some]
    · rw [if_neg same, beq_eq_false_iff_ne.mpr same, Option.none_or]

theorem fillWith_eq_self
    (given : ∀ entry ∈ items, (library.root document).lookup entry.1 ≠ none) :
    fillWith library document items = document := by
  induction items with
  | nil => rfl
  | cons entry items ih =>
    obtain ⟨here, later⟩ := List.forall_mem_cons.mp given
    rw [fillWith, List.foldl_cons, ← fillWith, lawful.occupied _ _ _ here, ih later]

end Items

section Patch

variable (lawful : library.Lawful toml)
include lawful

theorem patch?_eq_none_iff : patch? library s = none ↔ toml s = none := by
  rw [patch?, Option.map_eq_none_iff, ← lawful.parses s, Option.map_eq_none_iff]

theorem exists_patched (h : toml s = some root) :
    ∃ t filled, patch? library s = some t ∧ toml t = some filled ∧ IsFilled root filled := by
  rw [← lawful.parses s] at h
  obtain ⟨document, parsed, rfl⟩ := Option.map_eq_some_iff.mp h
  obtain ⟨filled, reads, same⟩ := lawful.prints (fillWith library document defaults)
  exact ⟨_, filled, by rw [patch?, parsed]; rfl, reads,
    fun name => (same name).trans (lookup_fillWith lawful document defaults name)⟩

theorem exists_patched_of_patch? (h : patch? library s = some t) :
    ∃ root filled, toml s = some root ∧ toml t = some filled ∧ IsFilled root filled := by
  obtain ⟨root, holds⟩ : ∃ root, toml s = some root := by
    rw [← Option.ne_none_iff_exists', Ne, ← patch?_eq_none_iff lawful, h]
    exact Option.some_ne_none t
  obtain ⟨t', filled, patched, reads, fills⟩ := exists_patched lawful holds
  obtain rfl := Option.some.inj (patched.symm.trans h)
  exact ⟨root, filled, holds, reads, fills⟩

theorem patch?_patched (h : patch? library s = some t) : patch? library t = some t := by
  obtain ⟨_, filled, _, reads, fills⟩ := exists_patched_of_patch? lawful h
  obtain ⟨document, _, rfl⟩ := Option.map_eq_some_iff.mp h
  rw [← lawful.parses] at reads
  obtain ⟨again, parsed, rfl⟩ := Option.map_eq_some_iff.mp reads
  rw [patch?, parsed, Option.map_some, fillWith_eq_self lawful fills.lookup_ne_none,
    lawful.keeps _ _ parsed]

theorem patch?_ne_nil (h : patch? library s = some t) : t ≠ [] := by
  rintro rfl
  obtain ⟨_, filled, _, reads, fills⟩ := exists_patched_of_patch? lawful h
  obtain rfl := Option.some.inj (lawful.empty.symm.trans reads)
  exact fills.lookup_ne_none _ List.mem_cons_self List.lookup_nil

theorem ofToml_patched (h : patch? library s = some t) : ofToml library t = ofToml library s := by
  rw [ofToml, ofToml, h, patch?_patched lawful h]

end Patch

end Settings

end Console
