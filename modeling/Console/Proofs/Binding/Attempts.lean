import Console.Binding.BindingSet
import Console.Proofs.Binding.Walk
import Console.Proofs.Grammar.Places

/-!
Where the steps of a walk lie, and what binding makes of them. `exists_way` says that the steps are
the nodes along one path, and `attemptAt_argument`, `attemptAt_rejected` and `attemptAt_unreached`
what the binding of a node is.
-/

namespace Console

variable {line : Text} {cursor last : Cursor} {steps : List Step}

def Step.located (step : Step) : Path × Node := (step.path, step.node)

theorem Advance.exists_child {step : Step} {next : Cursor} (h : Advance line cursor step next) :
    ∃ index, cursor.node.children[index]? = some next.node ∧ next.path = cursor.path ++ [index] ∧
      step.located = (next.path, next.node) := by
  cases h with
  | literal _ first => exact ⟨_, first.found, rfl, rfl⟩
  | argument _ _ first => exact ⟨_, first.found, rfl, rfl⟩

theorem Advance.everywhere {p : Node → Prop} {step : Step} {next : Cursor}
    (one : Advance line cursor step next) (all : cursor.node.Everywhere p) :
    next.node.Everywhere p := by
  obtain ⟨index, found, _⟩ := one.exists_child
  exact all.of_mem (List.mem_of_getElem? found)

theorem Advances.everywhere {p : Node → Prop} (run : Advances line cursor steps last)
    (all : cursor.node.Everywhere p) : last.node.Everywhere p := by
  induction run with
  | done => exact all
  | step one _ ih => exact ih (one.everywhere all)

theorem Advances.exists_way (run : Advances line cursor steps last) :
    ∃ way, cursor.node.at? way = some last.node ∧ last.path = cursor.path ++ way ∧
      steps.map Step.located = cursor.node.along cursor.path way := by
  induction run with
  | done cursor => exact ⟨[], rfl, by simp, rfl⟩
  | step one more ih =>
    obtain ⟨way, found, eq, passed⟩ := ih
    obtain ⟨index, child, below, located⟩ := one.exists_child
    refine ⟨index :: way, ?_, ?_, ?_⟩
    · rw [Node.at?_cons, child]; exact found
    · rw [eq, below, List.append_assoc]; rfl
    · rw [List.map_cons, located, passed, Node.along_cons child, below]

theorem Advances.getLast?_steps (run : Advances line cursor steps last) :
    (steps.getLast?.map Step.located).getD (cursor.path, cursor.node) = (last.path, last.node) := by
  induction run with
  | done cursor => rfl
  | @step cursor next last step steps one more ih =>
    obtain ⟨_, _, _, located⟩ := one.exists_child
    rw [← located] at ih
    rw [List.getLast?_cons, Option.map_some, Option.getD_some, ← ih]
    cases steps.getLast? <;> rfl

theorem Advances.sorted (run : Advances line cursor steps last) :
    steps.Pairwise fun a b => a.path < b.path := by
  obtain ⟨way, _, _, passed⟩ := run.exists_way
  have sorted := cursor.node.along_sorted cursor.path way
  rw [← passed, List.pairwise_map] at sorted
  exact sorted

theorem Advances.exists_advance (run : Advances line cursor steps last) {step : Step}
    (h : step ∈ steps) : ∃ cursor next, Advance line cursor step next := by
  induction run with
  | done => cases h
  | step one more ih =>
    cases List.mem_cons.mp h with
    | inl eq => exact ⟨_, _, eq ▸ one⟩
    | inr more => exact ih more

theorem Advances.isLiteral_of_mem (run : Advances line cursor steps last) {path : Path}
    {node : Node} (h : Step.literal path node ∈ steps) : node.isLiteral := by
  obtain ⟨_, _, one⟩ := run.exists_advance h
  cases one with
  | literal _ first => exact first.holds.1

theorem Advances.isLiteral_eq_false_of_mem (run : Advances line cursor steps last) {path : Path}
    {node : Node} {raw : Text} {value : Value} {position : Position}
    (h : Step.argument path node raw value position ∈ steps) : node.isLiteral = false := by
  obtain ⟨_, _, one⟩ := run.exists_advance h
  cases one with
  | argument _ _ _ typed => exact Node.isLiteral_eq_false typed

theorem Advances.path_lt (run : Advances line cursor steps last) {step : Step} (h : step ∈ steps)
    (index : Nat) : step.path < last.path ++ [index] := by
  obtain ⟨way, _, eq, passed⟩ := run.exists_way
  have mem : step.located ∈ cursor.node.along cursor.path way := by
    rw [← passed]
    exact List.mem_map_of_mem h
  obtain ⟨i, front, ⟨back, split⟩, start, _⟩ := Node.exists_of_mem_along mem
  change step.path = _ at start
  rw [start, eq, ← split]
  cases back with
  | nil =>
    rw [List.append_nil]
    exact Path.lt_append _ index []
  | cons j back =>
    have longer := Path.lt_append (cursor.path ++ i :: front) j (back ++ [index])
    simpa using longer

theorem Advance.rest_of_greedy {step : Step} (one : Advance line cursor step next)
    (greedy : step.node.isGreedy) : next.rest = [] := by
  cases one with
  | literal _ first =>
    have bounded := Node.isGreedy_eq_false first.holds.1
    exact absurd (bounded.symm.trans greedy) Bool.false_ne_true
  | argument _ _ _ typed => exact if_pos ((Node.isGreedy_eq typed).symm.trans greedy)

theorem Advances.greedy_last (run : Advances line cursor steps last) {step : Step}
    (h : step ∈ steps) (greedy : step.node.isGreedy) :
    steps.getLast? = some step ∧ last.rest = [] := by
  induction run with
  | done => cases h
  | @step cursor next last first steps one more ih =>
    cases List.mem_cons.mp h with
    | inr later =>
      obtain ⟨ends, empty⟩ := ih later
      refine ⟨?_, empty⟩
      rw [List.getLast?_cons, ends]
      rfl
    | inl eq =>
      subst eq
      -- The rest of the line is gone, so that no step can follow.
      have empty := one.rest_of_greedy greedy
      cases more with
      | done => exact ⟨rfl, empty⟩
      | step two =>
        obtain ⟨token, after, word⟩ := two.exists_word
        rw [empty] at word
        cases word

theorem Halt.rejected_below {path : Path} {node : Node} {raw : Text} {position : Position}
    {failure : ParseFailure}
    (halt : Halt line cursor (.rejected path node raw position failure)) :
    ∃ index, path = cursor.path ++ [index] ∧
      position = .index (Text.wordIndex line cursor.front) := by
  cases halt with
  | @rejected _ index => exact ⟨index, rfl, rfl⟩

attribute [simp] Attempt.raw? Attempt.value? Attempt.position? Attempt.failure?

namespace Trail

variable {trail : Trail} {path : Path}

theorem find?_path (sorted : steps.Pairwise fun a b => a.path < b.path) {step : Step}
    (h : step ∈ steps) : steps.find? (·.path == step.path) = some step := by
  induction sorted with
  | nil => cases h
  | @cons first steps below _ ih =>
    cases List.mem_cons.mp h with
    | inl eq =>
      subst eq
      simp
    | inr more =>
      have ne : (first.path == step.path) = false := by
        simpa using (below step more).ne
      rw [List.find?_cons, ne]
      exact ih more

theorem attemptAt_argument (sorted : trail.steps.Pairwise fun a b => a.path < b.path)
    {node : Node} {raw : Text} {value : Value} {position : Position}
    (h : .argument path node raw value position ∈ trail.steps) :
    trail.attemptAt path = .bound raw value position := by
  have found := find?_path sorted h
  change trail.steps.find? (·.path == path) = _ at found
  simp [attemptAt, found]

theorem attemptAt_rejected {node : Node} {raw : Text} {position : Position}
    {failure : ParseFailure} (fresh : ∀ step ∈ trail.steps, step.path ≠ path)
    (h : trail.ending = .rejected path node raw position failure) :
    trail.attemptAt path = .rejected raw position failure := by
  have none : trail.steps.find? (·.path == path) = none := by simpa using fresh
  simp [attemptAt, none, h]

theorem attemptAt_unreached
    (untyped : ∀ step ∈ trail.steps, step.path = path → ∃ node, step = .literal path node)
    (other : ∀ node raw position failure,
      trail.ending ≠ .rejected path node raw position failure) :
    trail.attemptAt path = .unreached := by
  unfold attemptAt
  split
  case h_1 stop node raw value position found =>
    have same : (stop == path) = true :=
      List.find?_some (p := fun step : Step => step.path == path) found
    obtain ⟨_, literal⟩ := untyped _ (List.mem_of_find?_eq_some found) (beq_iff_eq.mp same)
    cases literal
  case h_2 stop node raw position failure ending _ =>
    rw [if_neg]
    rintro rfl
    exact other node raw position failure ending
  case h_3 => rfl

end Trail

namespace BindingSet

def terminalPath (set : BindingSet) : Path := (set.terminal?.map (·.path)).getD []

def IsConsumed (set : BindingSet) : Prop := set.status = .complete ∨ set.status = .incomplete

def at? (set : BindingSet) (path : Path) : Option Binding :=
  set.bindings.find? (·.place.path == path)

end BindingSet

namespace Grammar

def passed (grammar : Grammar) (set : BindingSet) : List (Path × Node) :=
  grammar.root.along [] set.terminalPath

def typedPassed (grammar : Grammar) (set : BindingSet) : List (Path × Node) :=
  (grammar.passed set).filter (!·.2.isLiteral)

def stopLevel (grammar : Grammar) (set : BindingSet) : List Node :=
  ((grammar.root.at? set.terminalPath).map (·.children)).getD []

structure Run (grammar : Grammar) (line : Text) (last : Cursor) : Prop where
  steps : Advances line ⟨grammar.root, [], line⟩ (grammar.walk line).steps last
  halt : Halt line last (grammar.walk line).ending

theorem run_exists (grammar : Grammar) (line : Text) : ∃ last, Run grammar line last := by
  obtain ⟨last, run, halt⟩ := Node.exists_run line grammar.root [] line
  exact ⟨last, run, halt⟩

namespace Run

variable {grammar : Grammar}

theorem of_advances {ending : Ending} (run : Advances line ⟨grammar.root, [], line⟩ steps last)
    (halt : Halt line last ending) : Run grammar line last := by
  have eq : grammar.walk line = ⟨steps, ending⟩ := run.walk_eq halt
  constructor
  · rw [eq]; exact run
  · rw [eq]; exact halt

theorem terminalPath_eq (run : Run grammar line last) :
    (grammar.bind line).terminalPath = last.path := by
  have eq := congrArg Prod.fst run.steps.getLast?_steps
  unfold BindingSet.terminalPath bind
  cases h : (grammar.walk line).steps.getLast? with
  | none => simpa [h] using eq
  | some step => simpa [h, Step.located] using eq

theorem at?_terminalPath (run : Run grammar line last) :
    grammar.root.at? (grammar.bind line).terminalPath = some last.node := by
  obtain ⟨way, found, eq, _⟩ := run.steps.exists_way
  rw [run.terminalPath_eq, eq]
  exact found

theorem passed_eq (run : Run grammar line last) :
    grammar.passed (grammar.bind line) = (grammar.walk line).steps.map Step.located := by
  obtain ⟨way, _, eq, passed⟩ := run.steps.exists_way
  rw [passed, Grammar.passed, run.terminalPath_eq, eq]
  rfl

theorem stopLevel_eq (run : Run grammar line last) :
    grammar.stopLevel (grammar.bind line) = last.node.children := by
  rw [stopLevel, run.at?_terminalPath]
  rfl

theorem status_eq (run : Run grammar line last) :
    (grammar.bind line).status = (grammar.walk line).ending.status last.node.executes := by
  have eq := congrArg Prod.snd run.steps.getLast?_steps
  unfold bind
  cases h : (grammar.walk line).steps.getLast? with
  | none =>
    simp only [h, Option.map_none, Option.getD_none] at eq ⊢
    rw [← eq]
    rfl
  | some step =>
    simp only [h, Option.map_some, Option.getD_some] at eq ⊢
    rw [← eq]
    rfl

theorem isConsumed_iff (run : Run grammar line last) :
    (grammar.bind line).IsConsumed ↔ Text.isBlankText last.rest := by
  have halt := run.halt
  rw [← Text.trimStart_eq_nil_iff, BindingSet.IsConsumed, run.status_eq]
  change _ ↔ last.front = []
  generalize (grammar.walk line).ending = ending at halt
  cases halt with
  | exhausted blank =>
    have empty : last.front = [] := Text.trimStart_eq_nil_iff.mpr blank
    cases last.node.executes <;> simp [Ending.status, empty]
  | tooMany more => simp [Ending.status, more]
  | unmatched word => simp [Ending.status, Cursor.front_ne_nil word]
  | rejected word => simp [Ending.status, Cursor.front_ne_nil word]

theorem at?_of_mem (run : Run grammar line last) {step : Step}
    (h : step ∈ (grammar.walk line).steps) : grammar.at? step.path = some step.node := by
  have mem := List.mem_map_of_mem (f := Step.located) h
  rw [← run.passed_eq] at mem
  obtain ⟨index, front, _, eq, found⟩ := Node.exists_of_mem_along mem
  change step.path = [] ++ index :: front at eq
  rw [eq]
  exact found

theorem bounded (run : Run grammar line last)
    (bounded : ∀ step ∈ (grammar.bind line).terminal?, step.node.isGreedy = false) :
    ∀ step ∈ (grammar.walk line).steps, step.node.isGreedy = false := by
  intro step h
  apply Bool.eq_false_iff.mpr
  intro greedy
  have ends := (run.steps.greedy_last h greedy).1
  rw [bounded step ends] at greedy
  cases greedy

theorem mem_typedPassed_iff (run : Run grammar line last) {path : Path} {node : Node} :
    (path, node) ∈ grammar.typedPassed (grammar.bind line) ↔
      ∃ raw value position,
        .argument path node raw value position ∈ (grammar.walk line).steps := by
  rw [typedPassed, List.mem_filter, run.passed_eq, List.mem_map]
  constructor
  · rintro ⟨⟨step, h, eq⟩, typed⟩
    cases step with
    | literal _ node =>
      cases eq
      change (!node.isLiteral) = true at typed
      rw [run.steps.isLiteral_of_mem h] at typed
      cases typed
    | argument _ _ raw value position =>
      cases eq
      exact ⟨raw, value, position, h⟩
  · rintro ⟨raw, value, position, h⟩
    exact ⟨⟨_, h, rfl⟩, by simp [run.steps.isLiteral_eq_false_of_mem h]⟩

theorem path_ne_of_rejected (run : Run grammar line last) {path : Path} {node : Node} {raw : Text}
    {position : Position} {failure : ParseFailure}
    (ends : (grammar.walk line).ending = .rejected path node raw position failure) {step : Step}
    (h : step ∈ (grammar.walk line).steps) : step.path ≠ path := by
  intro eq
  obtain ⟨index, below, _⟩ := Halt.rejected_below (ends ▸ run.halt)
  have lt := run.steps.path_lt h index
  rw [eq, below] at lt
  exact lt_irrefl _ lt

theorem attemptAt_cases (run : Run grammar line last) (path : Path) :
    (∃ node raw value position,
      .argument path node raw value position ∈ (grammar.walk line).steps ∧
      (grammar.walk line).attemptAt path = .bound raw value position) ∨
    (∃ node raw position failure,
      (∀ node, (path, node) ∉ grammar.typedPassed (grammar.bind line)) ∧
      (grammar.walk line).ending = .rejected path node raw position failure ∧
      (grammar.walk line).attemptAt path = .rejected raw position failure) ∨
    (∀ node, (path, node) ∉ grammar.typedPassed (grammar.bind line)) ∧
      (∀ node raw position failure,
        (grammar.walk line).ending ≠ .rejected path node raw position failure) ∧
      (grammar.walk line).attemptAt path = .unreached := by
  by_cases passed : ∃ node, (path, node) ∈ grammar.typedPassed (grammar.bind line)
  · left
    obtain ⟨node, mem⟩ := passed
    obtain ⟨raw, value, position, h⟩ := run.mem_typedPassed_iff.mp mem
    exact ⟨node, raw, value, position, h, Trail.attemptAt_argument run.steps.sorted h⟩
  have fresh : ∀ node, (path, node) ∉ grammar.typedPassed (grammar.bind line) :=
    fun node mem => passed ⟨node, mem⟩
  by_cases rejected : ∃ node raw position failure,
      (grammar.walk line).ending = .rejected path node raw position failure
  · right; left
    obtain ⟨node, raw, position, failure, h⟩ := rejected
    have other : ∀ step ∈ (grammar.walk line).steps, step.path ≠ path :=
      fun step mem => run.path_ne_of_rejected h mem
    exact ⟨node, raw, position, failure, fresh, h, Trail.attemptAt_rejected other h⟩
  · right; right
    have other : ∀ node raw position failure,
        (grammar.walk line).ending ≠ .rejected path node raw position failure :=
      fun node raw position failure h => rejected ⟨node, raw, position, failure, h⟩
    refine ⟨fresh, other, Trail.attemptAt_unreached ?_ other⟩
    intro step mem eq
    cases step with
    | literal _ node => exact ⟨node, by rw [← eq]; rfl⟩
    | argument _ node raw value position =>
      cases eq
      exact absurd (run.mem_typedPassed_iff.mpr ⟨raw, value, position, mem⟩) (fresh node)

end Run

theorem mem_bindings_iff {grammar : Grammar} {binding : Binding} :
    binding ∈ (grammar.bind line).bindings ↔
      binding.place ∈ grammar.places ∧
        binding.attempt = (grammar.walk line).attemptAt binding.place.path := by
  simp only [bind, List.mem_map]
  constructor
  · rintro ⟨place, mem, rfl⟩
    exact ⟨mem, rfl⟩
  · rintro ⟨mem, made⟩
    exact ⟨binding.place, mem, by rw [← made]⟩

theorem exists_binding {grammar : Grammar} {path : Path} {node : Node}
    (found : grammar.at? path = some node) (typed : node.isLiteral = false) (line : Text) :
    ∃ binding, (grammar.bind line).at? path = some binding ∧
      binding.attempt = (grammar.walk line).attemptAt path := by
  obtain ⟨place, hp, eq, _⟩ := (grammar.mem_places_iff path node).mpr ⟨found, typed⟩
  have mem : ⟨place, (grammar.walk line).attemptAt place.path⟩ ∈ (grammar.bind line).bindings :=
    List.mem_map_of_mem hp
  cases h : (grammar.bind line).at? path with
  | none =>
    have := List.find?_eq_none.mp h _ mem
    simp [eq] at this
  | some binding =>
    refine ⟨binding, rfl, ?_⟩
    obtain ⟨place', _, made⟩ := List.mem_map.mp (List.mem_of_find?_eq_some h)
    have same := List.find?_some h
    subst made
    rw [beq_iff_eq.mp same]

end Grammar

end Console
