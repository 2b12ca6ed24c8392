import Console.Proofs.Grammar.Order

namespace Console

def Place.located (place : Place) : Path × Node := (place.path, place.node)

variable {node child last : Node} {index slot : Nat} {path way front : Path} {place : Place}
  {located : Path × Node}

namespace Node

def slotBelow (node : Node) (slot : Nat) : Nat := if node.isLiteral then slot else slot + 1

def placesBelow (node : Node) (path : Path) (slot : Nat) : List Place :=
  placesAmong path slot 0 node.children

theorem placesAmong_eq (path : Path) (slot index : Nat) (nodes : List Node) :
    placesAmong path slot index nodes =
      (nodes.zipIdx index).flatMap fun child => child.1.places (path ++ [child.2]) slot := by
  induction nodes generalizing index with
  | nil => rw [placesAmong]; rfl
  | cons node nodes ih => rw [placesAmong, ih, List.zipIdx_cons, List.flatMap_cons]

theorem placesBelow_eq (node : Node) (path : Path) (slot : Nat) :
    node.placesBelow path slot =
      node.children.zipIdx.flatMap fun child => child.1.places (path ++ [child.2]) slot :=
  placesAmong_eq path slot 0 node.children

theorem places_literal (h : node.isLiteral) (path : Path) (slot : Nat) :
    node.places path slot = node.placesBelow path slot := by
  cases node with
  | mk name kind executes children =>
    cases kind with
    | literal => rw [places]; rfl
    | typed => cases h

theorem places_typed (h : node.isLiteral = false) (path : Path) (slot : Nat) :
    node.places path slot = ⟨path, node, slot⟩ :: node.placesBelow path (slot + 1) := by
  cases node with
  | mk name kind executes children =>
    cases kind with
    | literal => cases h
    | typed => rw [places]; rfl

theorem places_eq (node : Node) (path : Path) (slot : Nat) :
    node.places path slot =
      (if node.isLiteral then [] else [⟨path, node, slot⟩]) ++
        node.placesBelow path (node.slotBelow slot) := by
  cases h : node.isLiteral with
  | true => rw [places_literal h, slotBelow, h]; rfl
  | false => rw [places_typed h, slotBelow, h]; rfl

theorem mem_placesBelow_iff :
    place ∈ node.placesBelow path slot ↔
      ∃ (index : Nat) (child : Node), node.children[index]? = some child ∧
        place ∈ child.places (path ++ [index]) slot := by
  rw [placesBelow_eq, List.mem_flatMap]
  constructor
  · rintro ⟨⟨child, index⟩, hc, hp⟩
    exact ⟨index, child, List.mem_zipIdx_iff_getElem?.mp hc, hp⟩
  · rintro ⟨index, child, hc, hp⟩
    exact ⟨(child, index), List.mem_zipIdx_iff_getElem?.mpr hc, hp⟩

theorem map_located_places (node : Node) (path : Path) (slot : Nat) :
    (node.places path slot).map Place.located =
      (node.inOrder path).filter (!·.2.isLiteral) := by
  induction node using childInduction generalizing path slot with
  | below node ih =>
    have below (slot : Nat) : (node.placesBelow path slot).map Place.located =
        (node.inOrderBelow path).filter (!·.2.isLiteral) := by
      rw [placesBelow_eq, inOrderBelow_eq, List.map_flatMap, List.filter_flatMap]
      apply List.flatMap_congr
      rintro ⟨child, index⟩ listed
      exact ih child (List.mem_of_getElem? (List.mem_zipIdx_iff_getElem?.mp listed)) _ _
    rw [places_eq, inOrder_eq, List.map_append, below, List.filter_cons]
    cases node.isLiteral <;> rfl

def typedAlong (node : Node) (path : Path) (slot : Nat) : Path → List Place
  | [] => []
  | index :: way =>
    match node.children[index]? with
    | none => []
    | some child =>
      (if child.isLiteral then [] else [⟨path ++ [index], child, slot⟩]) ++
        child.typedAlong (path ++ [index]) (child.slotBelow slot) way

theorem typedAlong_cons (h : node.children[index]? = some child) (path : Path) (slot : Nat)
    (way : Path) :
    node.typedAlong path slot (index :: way) =
      (if child.isLiteral then [] else [⟨path ++ [index], child, slot⟩]) ++
        child.typedAlong (path ++ [index]) (child.slotBelow slot) way := by
  simp [typedAlong, h]

theorem typedAlong_eq_nil (h : node.children[index]? = none) (path : Path) (slot : Nat)
    (way : Path) : node.typedAlong path slot (index :: way) = [] := by
  simp [typedAlong, h]

theorem map_slot_typedAlong (node : Node) (path : Path) (slot : Nat) (way : Path) :
    (node.typedAlong path slot way).map Place.slot =
      List.range' slot (node.typedAlong path slot way).length := by
  induction way generalizing node path slot with
  | nil => rfl
  | cons index way ih =>
    cases hc : node.children[index]? with
    | none => rw [typedAlong_eq_nil hc]; rfl
    | some child =>
      rw [typedAlong_cons hc, List.map_append, ih]
      cases hl : child.isLiteral with
      | true => simp [slotBelow, hl]
      | false => simp [slotBelow, hl, List.range'_succ]

theorem typedAlong_eq_filter (node : Node) (path : Path) (slot : Nat) (way : Path) :
    (node.typedAlong path slot way).map (fun place => (place.path, place.node)) =
      (node.along path way).filter (!·.2.isLiteral) := by
  induction way generalizing node path slot with
  | nil => rfl
  | cons index way ih =>
    cases hc : node.children[index]? with
    | none => rw [typedAlong_eq_nil hc]; simp [along, hc]
    | some child =>
      rw [typedAlong_cons hc, along_cons hc, List.map_append, ih]
      cases hl : child.isLiteral with
      | true => simp [hl]
      | false => simp [hl]

theorem mem_placesBelow_of_mem_typedAlong (h : place ∈ node.typedAlong path slot way) :
    place ∈ node.placesBelow path slot := by
  induction way generalizing node path slot with
  | nil => cases h
  | cons index way ih =>
    cases hc : node.children[index]? with
    | none => rw [typedAlong_eq_nil hc] at h; cases h
    | some child =>
      rw [typedAlong_cons hc, List.mem_append] at h
      refine mem_placesBelow_iff.mpr ⟨index, child, hc, ?_⟩
      rw [places_eq, List.mem_append]
      cases h with
      | inl own => exact .inl own
      | inr below => exact .inr (ih below)

theorem typedAlong_sorted (node : Node) (path : Path) (slot : Nat) (way : Path) :
    (node.typedAlong path slot way).Pairwise fun a b => a.path < b.path := by
  have sorted := (node.along_sorted path way).filter (!·.2.isLiteral)
  rw [← typedAlong_eq_filter node path slot way, List.pairwise_map] at sorted
  exact sorted

theorem typedAlong_append (led : node.at? front = some last) (path : Path) (slot : Nat)
    (way : Path) :
    node.typedAlong path slot (front ++ way) =
      node.typedAlong path slot front ++
        last.typedAlong (path ++ front) (slot + (node.typedAlong path slot front).length) way := by
  induction front generalizing node path slot with
  | nil =>
    cases led
    simp [typedAlong]
  | cons index front ih =>
    obtain ⟨child, listed, led⟩ := at?_cons_eq_some.mp led
    have deeper : slot + (node.typedAlong path slot (index :: front)).length =
        child.slotBelow slot +
          (child.typedAlong (path ++ [index]) (child.slotBelow slot) front).length := by
      rw [typedAlong_cons listed, List.length_append, slotBelow]
      cases child.isLiteral with
      | true => simp
      | false => simp only [Bool.false_eq_true, if_false, List.length_singleton]; omega
    rw [deeper, List.cons_append, typedAlong_cons listed, typedAlong_cons listed, ih led,
      List.append_assoc, List.append_assoc]
    rfl

end Node

namespace Grammar

theorem map_located_places (grammar : Grammar) :
    grammar.places.map Place.located = grammar.inOrder.filter (!·.2.isLiteral) := by
  have all := grammar.root.map_located_places [] 0
  have literal : grammar.root.isLiteral := rfl
  rw [Node.places_literal literal, Node.inOrder_eq, List.filter_cons_of_neg (by simp [literal])]
    at all
  exact all

theorem places_sorted (grammar : Grammar) :
    grammar.places.Pairwise fun a b => a.path < b.path := by
  have sorted := grammar.inOrder_sorted.filter (!·.2.isLiteral)
  rwa [← map_located_places, List.pairwise_map] at sorted

theorem place_unique (grammar : Grammar) {place place' : Place} (h : place ∈ grammar.places)
    (h' : place' ∈ grammar.places) (eq : place.path = place'.path) : place = place' := by
  have nodup : (grammar.places.map Place.path).Nodup :=
    List.pairwise_map.mpr (grammar.places_sorted.imp fun lt => lt.ne)
  exact List.inj_on_of_nodup_map nodup h h' eq

theorem mem_places_iff (grammar : Grammar) (path : Path) (node : Node) :
    (∃ place ∈ grammar.places, place.path = path ∧ place.node = node) ↔
      grammar.at? path = some node ∧ node.isLiteral = false := by
  have listed : (∃ place ∈ grammar.places, place.path = path ∧ place.node = node) ↔
      (path, node) ∈ grammar.places.map Place.located := by
    simp [Place.located]
  rw [listed, map_located_places, List.mem_filter, mem_inOrder_iff, Bool.not_eq_true']

def typedAbove (grammar : Grammar) (path : Path) : List (Path × Node) :=
  grammar.inOrder.filter fun above =>
    !above.2.isLiteral && (above.1.isPrefixOf path && above.1 != path)

theorem mem_typedAbove_iff {grammar : Grammar} :
    located ∈ grammar.typedAbove path ↔
      grammar.at? located.1 = some located.2 ∧ located.2.isLiteral = false ∧
        located.1 <+: path ∧ located.1 ≠ path := by
  simp [typedAbove, List.mem_filter, mem_inOrder_iff]

theorem mem_along_root_iff {grammar : Grammar} :
    located ∈ grammar.root.along [] path ↔
      grammar.at? located.1 = some located.2 ∧ located.1 <+: path := by
  constructor
  · intro passed
    obtain ⟨index, front, begins, eq, found⟩ := Node.exists_of_mem_along passed
    rw [List.nil_append] at eq
    rw [eq]
    exact ⟨found, begins⟩
  · obtain ⟨way, last⟩ := located
    rintro ⟨found, begins⟩
    cases way with
    | nil => cases found
    | cons index front => exact Node.mem_along_of_prefix begins found []

theorem typedAbove_eq (grammar : Grammar) (way : Path) (index : Nat) :
    grammar.typedAbove (way ++ [index]) =
      (grammar.root.along [] way).filter (!·.2.isLiteral) := by
  apply Path.eq_of_sorted (grammar.inOrder_sorted.filter _)
    ((grammar.root.along_sorted [] way).filter _)
  intro located
  change located ∈ grammar.typedAbove (way ++ [index]) ↔ _
  rw [mem_typedAbove_iff, List.mem_filter, mem_along_root_iff, Bool.not_eq_true',
    List.prefix_concat_iff]
  constructor
  · rintro ⟨found, typed, begins, differs⟩
    exact ⟨⟨found, begins.resolve_left differs⟩, typed⟩
  · rintro ⟨⟨found, begins⟩, typed⟩
    refine ⟨found, typed, .inr begins, fun same => ?_⟩
    have shorter := begins.length_le
    rw [same, List.length_append, List.length_singleton] at shorter
    omega

theorem slot_eq {grammar : Grammar} (mem : place ∈ grammar.places) :
    place.slot = (grammar.typedAbove place.path).length := by
  obtain ⟨found, typed⟩ :=
    (grammar.mem_places_iff place.path place.node).mp ⟨place, mem, rfl, rfl⟩
  obtain nil | ⟨way, index, eq⟩ := List.eq_nil_or_concat' place.path
  · rw [nil] at found
    cases found
  · let passed := grammar.root.typedAlong [] 0 way
    have count : passed.length = (grammar.typedAbove place.path).length := by
      rw [eq, typedAbove_eq, ← Node.typedAlong_eq_filter _ _ 0, List.length_map]
    -- The path passes its own end in the slot after those above it.
    have listed : ⟨place.path, place.node, passed.length⟩ ∈ grammar.places := by
      have led : grammar.root.at? (way ++ [index]) = some place.node := by
        rw [eq] at found
        simpa [at?] using found
      rw [Node.at?_append, Option.bind_eq_some_iff] at led
      obtain ⟨parent, above, led⟩ := led
      obtain ⟨child, at_index, same⟩ := Node.at?_cons_eq_some.mp led
      cases same
      have last : ⟨place.path, place.node, passed.length⟩ ∈
          grammar.root.typedAlong [] 0 (way ++ [index]) := by
        rw [Node.typedAlong_append above, Node.typedAlong_cons at_index, typed, eq]
        simp [passed]
      exact Node.mem_placesBelow_of_mem_typedAlong last
    have same := grammar.place_unique mem listed rfl
    rw [← count, same]

theorem type_of_all {grammar : Grammar} {p : ArgumentType → Bool}
    (all : grammar.places.all fun place => place.node.type?.all p) {path : Path} {node : Node}
    {type : ArgumentType} (found : grammar.at? path = some node) (typed : node.type? = some type) :
    p type := by
  obtain ⟨place, mem, _, same⟩ :=
    (grammar.mem_places_iff path node).mpr ⟨found, Node.isLiteral_eq_false typed⟩
  have holds := List.all_eq_true.mp all place mem
  rwa [same, typed] at holds

theorem everywhere_root {grammar : Grammar} {p : ArgumentType → Bool}
    (all : grammar.places.all fun place => place.node.type?.all p) :
    grammar.root.Everywhere fun node => ∀ type ∈ node.type?, p type := by
  intro path child found type typed
  cases path with
  | nil =>
    cases found
    cases typed
  | cons index path =>
    have found : grammar.at? (index :: path) = some child := found
    exact type_of_all all found typed

end Grammar

end Console
