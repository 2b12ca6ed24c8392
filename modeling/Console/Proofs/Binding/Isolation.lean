import Console.Proofs.Binding.Attempts

namespace Console

variable {line : Text} {cursor last : Cursor} {grammar : Grammar}

def Binding.located (binding : Binding) : Path × Node := (binding.place.path, binding.place.node)

def BindingSet.attempted (set : BindingSet) : List Binding := set.bindings.filter (·.isAttempted)

/-- The node that a refusal is blamed on: the first typed child of the level where the walk
stopped. -/
def Grammar.blamed? (grammar : Grammar) (set : BindingSet) : Option (Path × Node) :=
  match set.status with
  | .invalidArgument _ =>
    ((grammar.stopLevel set).zipIdx.find? fun child => !child.1.isLiteral).map
      fun child => (set.terminalPath ++ [child.2], child.1)
  | _ => none

/-- The bindings of a line hold what the walk reached, and nothing else. -/
structure Isolates (grammar : Grammar) (set : BindingSet) : Prop where
  sorted : (set.bindings.map (·.place.path)).Pairwise (· < ·)
  listed : ∀ path node, (path, node) ∈ set.bindings.map Binding.located ↔
    grammar.at? path = some node ∧ node.isLiteral = false
  attempted : set.attempted.map Binding.located =
    grammar.typedPassed set ++ (grammar.blamed? set).toList
  blamed : ∀ name, set.status = .invalidArgument name ↔
    ∃ path node, grammar.blamed? set = some (path, node) ∧ node.name = name
  bound : ∀ binding ∈ set.bindings, binding.located ∈ grammar.typedPassed set →
    binding.attempt.raw?.isSome ∧ binding.attempt.value?.isSome ∧
      binding.attempt.position?.isSome ∧ binding.attempt.failure? = none
  rejected : ∀ binding ∈ set.bindings, grammar.blamed? set = some binding.located →
    binding.attempt.raw?.isSome ∧ binding.attempt.value? = none ∧
      binding.attempt.position?.isSome ∧ binding.attempt.failure?.isSome
  untouched : ∀ binding ∈ set.bindings, binding.located ∉ grammar.typedPassed set →
    grammar.blamed? set ≠ some binding.located →
      binding.attempt.raw? = none ∧ binding.attempt.value? = none ∧
        binding.attempt.position? = none ∧ binding.attempt.failure? = none
  slots : set.attempted.map (·.place.slot) = List.range set.attempted.length
  ranges : ∀ binding ∈ set.bindings, binding.attempt.position?.any (·.isRange) ↔
    binding.place.node.isGreedy ∧ binding.attempt.value?.isSome
  ranges_last : ∀ binding ∈ set.bindings, binding.attempt.position?.any (·.isRange) →
    set.attempted.getLast? = some binding

theorem Advance.isRange_eq {path : Path} {node : Node} {raw : Text} {value : Value}
    {position : Position} {next : Cursor}
    (h : Advance line cursor (.argument path node raw value position) next) :
    position.isRange = node.isGreedy := by
  cases h with
  | @argument _ _ _ _ _ type _ _ _ _ typed =>
    rw [Node.isGreedy_eq typed]
    unfold Cursor.position
    cases type.isGreedy with
    | true => rfl
    | false => rfl

theorem Halt.rejected_of_status {ending : Ending} (halt : Halt line cursor ending) {name : Text}
    (h : ending.status cursor.node.executes = .invalidArgument name) :
    ∃ path node raw position failure, ending = .rejected path node raw position failure ∧
      node.name = name := by
  cases halt with
  | exhausted => cases he : cursor.node.executes <;> rw [he] at h <;> cases h
  | tooMany => cases h
  | unmatched => cases h
  | rejected => exact ⟨_, _, _, _, _, rfl, Status.invalidArgument.inj h⟩

namespace Grammar.Run

theorem blamed?_eq_some_iff (run : grammar.Run line last) {path : Path} {node : Node} :
    grammar.blamed? (grammar.bind line) = some (path, node) ↔
      ∃ raw position failure,
        (grammar.walk line).ending = .rejected path node raw position failure := by
  have halt := run.halt
  unfold blamed?
  rw [run.status_eq, run.stopLevel_eq, run.terminalPath_eq]
  cases h : (grammar.walk line).ending with
  | exhausted =>
    cases last.node.executes <;> simp [Ending.status]
  | tooMany => simp [Ending.status]
  | unmatched => simp [Ending.status]
  | rejected stop child raw position failure =>
    rw [h] at halt
    cases halt with
    | @rejected _ index _ _ _ _ _ _ _ first =>
      have found : last.node.children.zipIdx.find? (fun child => !child.1.isLiteral) =
          some (child, index) :=
        (find?_zipIdx_iff (q := fun node => !node.isLiteral)).mpr (first.congr (by simp))
      simp only [Ending.status, found, Option.map_some, Option.some.injEq, Prod.mk.injEq,
        Ending.rejected.injEq]
      constructor
      · rintro ⟨rfl, rfl⟩
        exact ⟨_, _, _, rfl, rfl, rfl, rfl, rfl⟩
      · rintro ⟨_, _, _, rfl, rfl, _⟩
        exact ⟨rfl, rfl⟩

theorem status_eq_invalidArgument_iff (run : grammar.Run line last) (name : Text) :
    (grammar.bind line).status = .invalidArgument name ↔
      ∃ path node, grammar.blamed? (grammar.bind line) = some (path, node) ∧ node.name = name := by
  constructor
  · intro h
    rw [run.status_eq] at h
    obtain ⟨path, node, raw, position, failure, ends, named⟩ := run.halt.rejected_of_status h
    exact ⟨path, node, run.blamed?_eq_some_iff.mpr ⟨raw, position, failure, ends⟩, named⟩
  · rintro ⟨path, node, blamed, named⟩
    obtain ⟨raw, position, failure, ends⟩ := run.blamed?_eq_some_iff.mp blamed
    rw [run.status_eq, ends, ← named]
    rfl

theorem exists_typedAlong (run : grammar.Run line last) :
    ∃ way, (grammar.root.typedAlong [] 0 way).map (fun place => (place.path, place.node)) =
      grammar.typedPassed (grammar.bind line) ++
        (grammar.blamed? (grammar.bind line)).toList := by
  obtain ⟨way, found, path, _⟩ := run.steps.exists_way
  have passed : grammar.typedPassed (grammar.bind line) =
      (grammar.root.along [] way).filter (!·.2.isLiteral) := by
    rw [typedPassed, Grammar.passed, run.terminalPath_eq, path]
    rfl
  cases h : grammar.blamed? (grammar.bind line) with
  | none =>
    refine ⟨way, ?_⟩
    rw [Node.typedAlong_eq_filter, passed]
    simp
  | some blamed =>
    obtain ⟨raw, position, failure, ends⟩ := run.blamed?_eq_some_iff.mp h
    have halt := run.halt
    rw [ends] at halt
    -- The refusal adds one node to the way, a child of the node where the walk stands.
    generalize hb : blamed.1 = stop at halt
    generalize hn : blamed.2 = node at halt
    cases halt with
    | @rejected _ index _ _ _ _ _ _ _ first =>
      refine ⟨way ++ [index], ?_⟩
      rw [Node.typedAlong_eq_filter, Node.along_append found, Node.along_cons first.found,
        List.filter_append, passed]
      have eq : blamed = (last.path ++ [index], node) := Prod.ext hb hn
      simp [first.holds, eq, path]

theorem exists_place (run : grammar.Run line last) {located : Path × Node}
    (h : located ∈ grammar.typedPassed (grammar.bind line) ++
      (grammar.blamed? (grammar.bind line)).toList) :
    ∃ place ∈ grammar.places, (place.path, place.node) = located := by
  obtain ⟨way, eq⟩ := run.exists_typedAlong
  rw [← eq] at h
  obtain ⟨place, hp, eq⟩ := List.mem_map.mp h
  exact ⟨place, Node.mem_placesBelow_of_mem_typedAlong hp, eq⟩

end Grammar.Run

inductive Binding.Outcome (binding : Binding) (grammar : Grammar) (set : BindingSet) : Prop
  | bound {raw : Text} {value : Value} {position : Position}
      (passed : binding.located ∈ grammar.typedPassed set)
      (blameless : grammar.blamed? set ≠ some binding.located)
      (holds : binding.attempt = .bound raw value position)
      (greedy : position.isRange = binding.place.node.isGreedy)
  | rejected {raw : Text} {index : Nat} {failure : ParseFailure}
      (beside : binding.located ∉ grammar.typedPassed set)
      (blamed : grammar.blamed? set = some binding.located)
      (holds : binding.attempt = .rejected raw (.index index) failure)
  | unreached (beside : binding.located ∉ grammar.typedPassed set)
      (blameless : grammar.blamed? set ≠ some binding.located)
      (holds : binding.attempt = .unreached)

namespace Grammar

theorem binding_unique {binding binding' : Binding} (h : binding ∈ (grammar.bind line).bindings)
    (h' : binding' ∈ (grammar.bind line).bindings) (eq : binding.place.path = binding'.place.path) :
    binding = binding' := by
  obtain ⟨hp, made⟩ := mem_bindings_iff.mp h
  obtain ⟨hp', made'⟩ := mem_bindings_iff.mp h'
  have attempts : binding.attempt = binding'.attempt := by rw [made, made', eq]
  cases binding
  cases binding'
  rw [Binding.mk.injEq]
  exact ⟨grammar.place_unique hp hp' eq, attempts⟩

theorem Run.outcome (run : grammar.Run line last) {binding : Binding}
    (h : binding ∈ (grammar.bind line).bindings) :
    binding.Outcome grammar (grammar.bind line) := by
  obtain ⟨hp, made⟩ := mem_bindings_iff.mp h
  -- A place is known by its path, so that a node met there is the node of the binding.
  have here {node : Node} (mem : (binding.place.path, node) ∈
      grammar.typedPassed (grammar.bind line) ++ (grammar.blamed? (grammar.bind line)).toList) :
      (binding.place.path, node) = binding.located := by
    obtain ⟨place, hp', eq⟩ := run.exists_place mem
    rw [← eq, grammar.place_unique hp' hp (congrArg Prod.fst eq)]
    rfl
  rcases run.attemptAt_cases binding.place.path with
    ⟨node, raw, value, position, step, holds⟩ |
      ⟨node, raw, position, failure, beside, ends, holds⟩ | ⟨beside, other, holds⟩
  · have passed := run.mem_typedPassed_iff.mpr ⟨raw, value, position, step⟩
    have eq := here (List.mem_append_left _ passed)
    refine .bound (eq ▸ passed) ?_ (made.trans holds) ?_
    · intro blamed
      obtain ⟨_, _, _, ends⟩ := run.blamed?_eq_some_iff.mp blamed
      exact run.path_ne_of_rejected ends step rfl
    · obtain ⟨_, _, one⟩ := run.steps.exists_advance step
      rw [one.isRange_eq]
      exact congrArg (fun located => located.2.isGreedy) eq
  · have blamed := run.blamed?_eq_some_iff.mpr ⟨raw, position, failure, ends⟩
    have eq := here (List.mem_append_right _ (by rw [blamed]; exact List.mem_singleton_self _))
    obtain ⟨_, _, single⟩ := Halt.rejected_below (ends ▸ run.halt)
    exact .rejected (beside _) (eq ▸ blamed) (single ▸ made.trans holds)
  · refine .unreached (beside _) ?_ (made.trans holds)
    intro blamed
    obtain ⟨raw, position, failure, ends⟩ := run.blamed?_eq_some_iff.mp blamed
    exact other _ raw position failure ends

namespace Run

theorem isAttempted_iff (run : grammar.Run line last) {binding : Binding}
    (h : binding ∈ (grammar.bind line).bindings) :
    binding.isAttempted ↔ binding.located ∈ grammar.typedPassed (grammar.bind line) ++
      (grammar.blamed? (grammar.bind line)).toList := by
  rw [List.mem_append, Option.mem_toList]
  unfold Binding.isAttempted Attempt.isMade
  cases run.outcome h with
  | bound passed _ holds => simp [holds, passed]
  | rejected beside blamed holds => simp [holds, blamed]
  | unreached beside blameless holds => simp [holds, beside, blameless]

theorem attempted_eq (run : grammar.Run line last) {way : Path}
    (tried : (grammar.root.typedAlong [] 0 way).map (fun place => (place.path, place.node)) =
      grammar.typedPassed (grammar.bind line) ++ (grammar.blamed? (grammar.bind line)).toList) :
    (grammar.bind line).attempted.map (·.place) = grammar.root.typedAlong [] 0 way := by
  have places : (grammar.bind line).bindings.map (·.place) = grammar.places := by
    simp [Grammar.bind, Function.comp_def]
  have sub : ((grammar.bind line).attempted.map (·.place)).Sublist grammar.places := by
    rw [← places]
    exact List.filter_sublist.map _
  apply Path.eq_of_sorted (grammar.places_sorted.sublist sub) (Node.typedAlong_sorted ..)
  intro place
  constructor
  · intro h
    obtain ⟨binding, mem, eq⟩ := List.mem_map.mp h
    obtain ⟨mem, attempted⟩ := List.mem_filter.mp mem
    have located := (run.isAttempted_iff mem).mp attempted
    rw [← tried] at located
    obtain ⟨place', hp', eq'⟩ := List.mem_map.mp located
    have same := grammar.place_unique (Node.mem_placesBelow_of_mem_typedAlong hp')
      (mem_bindings_iff.mp mem).1 (congrArg Prod.fst eq')
    rwa [← eq, ← same]
  · intro h
    have listed : place ∈ (grammar.bind line).bindings.map (·.place) := by
      rw [places]
      exact Node.mem_placesBelow_of_mem_typedAlong h
    obtain ⟨binding, mem, eq⟩ := List.mem_map.mp listed
    have located : binding.located ∈ grammar.typedPassed (grammar.bind line) ++
        (grammar.blamed? (grammar.bind line)).toList := by
      rw [← tried]
      exact List.mem_map.mpr ⟨place, h, by rw [← eq]; rfl⟩
    exact List.mem_map.mpr
      ⟨binding, List.mem_filter.mpr ⟨mem, (run.isAttempted_iff mem).mpr located⟩, eq⟩

theorem exists_blamed (run : grammar.Run line last) {name : Text}
    (h : (grammar.bind line).status = .invalidArgument name) :
    ∃ binding ∈ (grammar.bind line).bindings, binding.name = name ∧
      grammar.blamed? (grammar.bind line) = some binding.located := by
  obtain ⟨path, node, blamed, named⟩ := (run.status_eq_invalidArgument_iff name).mp h
  have met : (path, node) ∈ grammar.typedPassed (grammar.bind line) ++
      (grammar.blamed? (grammar.bind line)).toList := by simp [blamed]
  obtain ⟨place, mem, here⟩ := run.exists_place met
  cases here
  exact ⟨⟨place, (grammar.walk line).attemptAt place.path⟩, mem_bindings_iff.mpr ⟨mem, rfl⟩, named,
    blamed⟩

theorem greedy_last (run : grammar.Run line last) {step : Step}
    (h : step ∈ (grammar.walk line).steps) (typed : step.node.isLiteral = false)
    (greedy : step.node.isGreedy) :
    (grammar.typedPassed (grammar.bind line)).getLast? = some step.located ∧
      grammar.blamed? (grammar.bind line) = none := by
  obtain ⟨ends, empty⟩ := run.steps.greedy_last h greedy
  constructor
  · obtain ⟨front, split⟩ := List.getLast?_eq_some_iff.mp ends
    have kept : step.located.2.isLiteral = false := typed
    rw [typedPassed, run.passed_eq, split, List.map_append, List.filter_append]
    simp [kept]
  · rw [Option.eq_none_iff_forall_ne_some]
    rintro ⟨path, node⟩ blamed
    obtain ⟨raw, position, failure, refused⟩ := run.blamed?_eq_some_iff.mp blamed
    have halt := run.halt
    rw [refused] at halt
    cases halt with
    | rejected word =>
      rw [empty] at word
      cases word

theorem range_last (run : grammar.Run line last) {binding : Binding}
    (located : (grammar.bind line).attempted.map Binding.located =
      grammar.typedPassed (grammar.bind line) ++ (grammar.blamed? (grammar.bind line)).toList)
    (h : binding ∈ (grammar.bind line).bindings)
    (range : binding.attempt.position?.any (·.isRange)) :
    (grammar.bind line).attempted.getLast? = some binding := by
  cases run.outcome h with
  | rejected _ _ holds => simp [holds, Position.isRange] at range
  | unreached _ _ holds => simp [holds] at range
  | bound passed _ holds greedy =>
    obtain ⟨_, _, _, step⟩ := run.mem_typedPassed_iff.mp passed
    have typed := run.steps.isLiteral_eq_false_of_mem step
    have ranged : binding.place.node.isGreedy := by simpa [holds, greedy] using range
    obtain ⟨ends, blameless⟩ := run.greedy_last step typed ranged
    have final := congrArg List.getLast? located
    rw [blameless, Option.toList_none, List.append_nil, ends, List.getLast?_map,
      Option.map_eq_some_iff] at final
    obtain ⟨binding', found, eq⟩ := final
    have mem := (List.mem_filter.mp (List.mem_of_getLast? found)).1
    rw [found, binding_unique h mem (congrArg Prod.fst eq).symm]

end Run

theorem slots_eq {way : Path}
    (attempted : (grammar.bind line).attempted.map (·.place) =
      grammar.root.typedAlong [] 0 way) :
    (grammar.bind line).attempted.map (·.place.slot) =
      List.range (grammar.bind line).attempted.length := by
  have slots := congrArg (List.map Place.slot) attempted
  have count := congrArg List.length attempted
  rw [Node.map_slot_typedAlong, List.map_map] at slots
  rw [List.length_map] at count
  rw [← count, ← List.range_eq_range'] at slots
  exact slots

/-- Each typed node has one binding, and the walk of a line touches those that it reached. -/
theorem bind_isolates (grammar : Grammar) (line : Text) :
    Isolates grammar (grammar.bind line) := by
  obtain ⟨last, run⟩ := grammar.run_exists line
  obtain ⟨way, tried⟩ := run.exists_typedAlong
  have along := run.attempted_eq tried
  have located : (grammar.bind line).attempted.map Binding.located =
      grammar.typedPassed (grammar.bind line) ++
        (grammar.blamed? (grammar.bind line)).toList := by
    rw [← tried, ← along, List.map_map]
    rfl
  constructor
  case sorted =>
    have sorted := List.pairwise_map.mpr grammar.places_sorted
    simpa [Grammar.bind, Function.comp_def] using sorted
  case listed =>
    intro path node
    rw [← grammar.mem_places_iff]
    simp [Grammar.bind, Binding.located]
  case attempted => exact located
  case blamed => exact run.status_eq_invalidArgument_iff
  case bound =>
    intro binding h passed
    cases run.outcome h with
    | bound _ _ holds => simp [holds]
    | rejected beside => exact absurd passed beside
    | unreached beside => exact absurd passed beside
  case rejected =>
    intro binding h blamed
    cases run.outcome h with
    | bound _ blameless => exact absurd blamed blameless
    | rejected _ _ holds => simp [holds]
    | unreached _ blameless => exact absurd blamed blameless
  case untouched =>
    intro binding h beside blameless
    cases run.outcome h with
    | bound passed => exact absurd passed beside
    | rejected _ blamed => exact absurd blamed blameless
    | unreached _ _ holds => simp [holds]
  case slots => exact slots_eq along
  case ranges =>
    intro binding h
    cases run.outcome h with
    | bound _ _ holds greedy => simp [holds, greedy]
    | rejected _ _ holds => simp [holds, Position.isRange]
    | unreached _ _ holds => simp [holds]
  case ranges_last => exact fun binding h range => run.range_last located h range

end Grammar

end Console
