import Console.Proofs.Binding.Isolation

namespace Console

variable {line name : Text} {last : Cursor} {grammar : Grammar} {set : BindingSet}
  {binding : Binding} {α : Type} {view : Value.View α}

theorem eq_or_of_find?_eq_some {items : List α} {p : α → Bool} {r : α → α → Prop} {item : α}
    (sorted : items.Pairwise r) (found : items.find? p = some item) :
    ∀ other ∈ items, p other → other = item ∨ r item other := by
  obtain ⟨_, front, back, rfl, others⟩ := List.find?_eq_some_iff_append.mp found
  intro other mem holds
  rw [List.mem_append, List.mem_cons] at mem
  rcases mem with mem | rfl | mem
  · have := others other mem
    simp [holds] at this
  · exact .inl rfl
  · exact .inr ((List.pairwise_cons.mp (List.pairwise_append.mp sorted).2.1).1 other mem)

namespace BindingSet

theorem get_eq (set : BindingSet) (name : Text) :
    set.get name = ((set.attempted.find? (·.name == name)).or
      (set.bindings.find? (·.name == name))).elim (.error (.unknownArgument name)) .ok := by
  have reached : set.attempted.find? (·.name == name) =
      (set.bindings.filter (·.name == name)).find? (·.isAttempted) := by
    rw [List.find?_filter, attempted, List.find?_filter]
    simp only [and_comm]
  have listed : set.bindings.find? (·.name == name) =
      (set.bindings.filter (·.name == name)).head? := List.head?_filter.symm
  rw [get, reached, listed]
  cases set.bindings.filter (·.name == name) with
  | nil => rfl
  | cons first others =>
    change Except.ok (((first :: others).find? (·.isAttempted)).getD first) = _
    cases (first :: others).find? (·.isAttempted) <;> rfl

theorem get_of_attempted (h : set.attempted.find? (·.name == name) = some binding) :
    set.get name = .ok binding := by
  rw [get_eq, h]
  rfl

theorem get_of_unattempted (none : set.attempted.find? (·.name == name) = none)
    (h : set.bindings.find? (·.name == name) = some binding) : set.get name = .ok binding := by
  rw [get_eq, none, h]
  rfl

theorem get_of_unnamed (none : ∀ binding ∈ set.bindings, binding.name ≠ name) :
    set.get name = .error (.unknownArgument name) := by
  have unnamed : set.bindings.find? (·.name == name) = Option.none := by simpa using none
  have unreached : set.attempted.find? (·.name == name) = Option.none := by
    rw [List.find?_eq_none] at unnamed ⊢
    exact fun binding mem => unnamed binding (List.mem_filter.mp mem).1
  rw [get_eq, unreached, unnamed]
  rfl

theorem exists_get (mem : binding ∈ set.bindings) :
    ∃ found, set.get binding.name = .ok found := by
  have named : (set.bindings.find? (·.name == binding.name)).isSome :=
    List.find?_isSome.mpr ⟨binding, mem, BEq.rfl⟩
  obtain ⟨first, named⟩ := Option.isSome_iff_exists.mp named
  cases reached : set.attempted.find? (·.name == binding.name) with
  | none => exact ⟨first, get_of_unattempted reached named⟩
  | some found => exact ⟨found, get_of_attempted reached⟩

end BindingSet

namespace Grammar

def tried (grammar : Grammar) (set : BindingSet) : List (Path × Node) :=
  grammar.typedPassed set ++ (grammar.blamed? set).toList

def Names (grammar : Grammar) (name : Text) : Prop :=
  ∃ path node, grammar.at? path = some node ∧ node.isLiteral = false ∧ node.name = name

theorem names_iff : grammar.Names name ↔ ∃ place ∈ grammar.places, place.node.name = name := by
  constructor
  · rintro ⟨path, node, found, typed, named⟩
    obtain ⟨place, mem, _, rfl⟩ := (grammar.mem_places_iff path node).mpr ⟨found, typed⟩
    exact ⟨place, mem, named⟩
  · rintro ⟨place, mem, named⟩
    obtain ⟨found, typed⟩ := (grammar.mem_places_iff _ _).mp ⟨place, mem, rfl, rfl⟩
    exact ⟨place.path, place.node, found, typed, named⟩

/-- Where a name leads to: of the nodes of that name that the line came to, to the one closest to
the root; if it came to none, to the one before all others. -/
structure LeadsTo (grammar : Grammar) (set : BindingSet) (name : Text) (binding : Binding) :
    Prop where
  listed : binding ∈ set.bindings
  named : binding.name = name
  closest : (∃ other ∈ grammar.tried set, other.2.name = name) →
    binding.located ∈ grammar.tried set ∧
      ∀ other ∈ grammar.tried set, other.2.name = name → binding.place.path <+: other.1
  first : (∀ other ∈ grammar.tried set, other.2.name ≠ name) →
    ∀ path node, grammar.at? path = some node → node.isLiteral = false → node.name = name →
      binding.place.path ≤ path

namespace Run

theorem map_located_attempted (run : grammar.Run line last) :
    (grammar.bind line).attempted.map Binding.located = grammar.tried (grammar.bind line) := by
  obtain ⟨way, tried⟩ := run.exists_typedAlong
  rw [Grammar.tried, ← tried, ← run.attempted_eq tried, List.map_map]
  rfl

theorem get_of_find? (run : grammar.Run line last) {located : Path × Node}
    (h : (grammar.tried (grammar.bind line)).find? (·.2.name == name) = some located) :
    ∃ binding ∈ (grammar.bind line).bindings, binding.located = located ∧
      (grammar.bind line).get name = .ok binding := by
  rw [← run.map_located_attempted, List.find?_map, Option.map_eq_some_iff] at h
  obtain ⟨binding, found, here⟩ := h
  have mem := (List.mem_filter.mp (List.mem_of_find?_eq_some found)).1
  exact ⟨binding, mem, here, BindingSet.get_of_attempted found⟩

theorem tried_prefix (run : grammar.Run line last) :
    (grammar.tried (grammar.bind line)).Pairwise fun a b => a.1 <+: b.1 := by
  obtain ⟨way, tried⟩ := run.exists_typedAlong
  rw [Grammar.tried, ← tried, Node.typedAlong_eq_filter]
  exact (grammar.root.along_prefix [] way).filter _

theorem exists_leadsTo_of_tried (run : grammar.Run line last) {located : Path × Node}
    (first : (grammar.tried (grammar.bind line)).find? (·.2.name == name) = some located) :
    ∃ binding, grammar.LeadsTo (grammar.bind line) name binding ∧
      (grammar.bind line).get name = .ok binding := by
  obtain ⟨binding, mem, rfl, found⟩ := run.get_of_find? first
  have here := List.mem_of_find?_eq_some first
  have same := List.find?_some first
  have named : binding.name = name := beq_iff_eq.mp same
  refine ⟨binding, ⟨mem, named, fun _ => ⟨here, fun other mem' same => ?_⟩, ?_⟩, found⟩
  · obtain rfl | above :=
      eq_or_of_find?_eq_some run.tried_prefix first other mem' (beq_iff_eq.mpr same)
    · exact List.prefix_rfl
    · exact above
  · exact fun untried => absurd named (untried _ here)

theorem leadsTo_of_untried (run : grammar.Run line last)
    (untried : ∀ other ∈ grammar.tried (grammar.bind line), other.2.name ≠ name)
    (first : (grammar.bind line).bindings.find? (·.name == name) = some binding) :
    grammar.LeadsTo (grammar.bind line) name binding ∧
      (grammar.bind line).get name = .ok binding := by
  have named := List.find?_some first
  have sorted := List.pairwise_map.mp (grammar.bind_isolates line).sorted
  have unattempted : (grammar.bind line).attempted.find? (·.name == name) = none := by
    rw [List.find?_eq_none]
    intro other mem same
    refine untried other.located ?_ (beq_iff_eq.mp same)
    rw [← run.map_located_attempted]
    exact List.mem_map_of_mem mem
  refine ⟨⟨List.mem_of_find?_eq_some first, beq_iff_eq.mp named, ?_, ?_⟩,
    BindingSet.get_of_unattempted unattempted first⟩
  · rintro ⟨other, mem, same⟩
    exact absurd same (untried other mem)
  · intro _ path node found typed same
    obtain ⟨place, mem, rfl, rfl⟩ := (grammar.mem_places_iff path node).mpr ⟨found, typed⟩
    obtain eq | lt := eq_or_of_find?_eq_some sorted first
      ⟨place, (grammar.walk line).attemptAt place.path⟩ (mem_bindings_iff.mpr ⟨mem, rfl⟩)
      (beq_iff_eq.mpr same)
    · rw [← eq]
    · exact lt.le

theorem exists_leadsTo (run : grammar.Run line last) (named : grammar.Names name) :
    ∃ binding, grammar.LeadsTo (grammar.bind line) name binding ∧
      (grammar.bind line).get name = .ok binding := by
  cases tried : (grammar.tried (grammar.bind line)).find? (·.2.name == name) with
  | some located => exact run.exists_leadsTo_of_tried tried
  | none =>
    obtain ⟨place, listed, named⟩ := names_iff.mp named
    have some : ((grammar.bind line).bindings.find? (·.name == name)).isSome :=
      List.find?_isSome.mpr
        ⟨⟨place, (grammar.walk line).attemptAt place.path⟩, mem_bindings_iff.mpr ⟨listed, rfl⟩,
          beq_iff_eq.mpr named⟩
    obtain ⟨binding, first⟩ := Option.isSome_iff_exists.mp some
    exact ⟨binding, run.leadsTo_of_untried (by simpa using tried) first⟩

end Run

end Grammar

inductive Reading
  | present
  | mistyped
  | refused
  | missing
  deriving DecidableEq, Repr

def Reading.of : Except CommandError α → Reading
  | .ok _ => present
  | .error (.internal _) => mistyped
  | .error (.runtime (.invalidArgument _)) => refused
  | .error (.runtime _) => missing

namespace BindingSet

structure Ignores (set : BindingSet) (name : Text) : Prop where
  get : set.get name = .error (.unknownArgument name)
  isBound : set.isBound name = .error (.unknownArgument name)
  rawValue? : set.rawValue? name = .error (.unknownArgument name)
  slot : set.slot name = .error (.unknownArgument name)
  value? : ∀ {α : Type} (view : Value.View α), set.value? view name = .error (.unknownArgument name)
  require : ∀ {α : Type} (view : Value.View α),
    set.require view name = .error (.internal (.unknownArgument name))

def Reads (set : BindingSet) (view : Value.View α) (name : Text) (binding : Binding) :
    Reading → Prop
  | .present => ∃ value x, binding.attempt.value? = some value ∧ view.read value = some x ∧
      set.require view name = .ok x ∧ set.value? view name = .ok (some x) ∧
        set.isBound name = .ok true
  | .mistyped => ∃ value, binding.attempt.value? = some value ∧ view.read value = none ∧
      set.require view name =
        .error (.internal (.wrongArgumentType name view.expected value.kindName)) ∧
      set.value? view name = .error (.wrongArgumentType name view.expected value.kindName) ∧
        set.isBound name = .ok true
  | .refused => ∃ failure raw, binding.attempt.failure? = some failure ∧
      set.require view name = .error (.runtime (.invalidArgument failure)) ∧
      set.value? view name = .ok none ∧ set.rawValue? name = .ok (some raw) ∧
        set.isBound name = .ok true
  | .missing => set.require view name = .error (.runtime (.missingArgument name)) ∧
      set.value? view name = .ok none ∧ set.rawValue? name = .ok none ∧
        set.isBound name = .ok false

structure SpeaksOf (set : BindingSet) (name : Text) (binding : Binding) : Prop where
  get : set.get name = .ok binding
  isBound : set.isBound name = .ok binding.isAttempted
  rawValue? : set.rawValue? name = .ok binding.attempt.raw?
  slot : set.slot name = .ok binding.place.slot
  reads : ∀ {α : Type} (view : Value.View α), ∃! reading, set.Reads view name binding reading
  missing : ∀ {α : Type} (view : Value.View α),
    set.require view name = .error (.runtime (.missingArgument name)) ↔ set.isBound name = .ok false

theorem ignores_of_get (h : set.get name = .error (.unknownArgument name)) : set.Ignores name where
  get := h
  isBound := by rw [isBound, h]; rfl
  rawValue? := by rw [rawValue?, h]; rfl
  slot := by rw [slot, h]; rfl
  value? view := by rw [value?, h]; rfl
  require view := by rw [require, value?, h]; rfl

theorem isBound_of_get (found : set.get name = .ok binding) :
    set.isBound name = .ok binding.isAttempted := by
  rw [isBound, found]
  rfl

theorem rawValue?_of_get (found : set.get name = .ok binding) :
    set.rawValue? name = .ok binding.attempt.raw? := by
  rw [rawValue?, found]
  rfl

theorem value?_of_get (found : set.get name = .ok binding) (view : Value.View α) :
    set.value? view name = match binding.attempt.value? with
      | none => .ok none
      | some value =>
        match view.read value with
        | some x => .ok (some x)
        | none => .error (.wrongArgumentType name view.expected value.kindName) := by
  rw [value?, found]
  rfl

theorem require_of_get (found : set.get name = .ok binding)
    (absent : set.value? view name = .ok none) :
    set.require view name = .error (.runtime (match binding.attempt.failure? with
      | some failure => .invalidArgument failure
      | none => .missingArgument name)) := by
  rw [require, absent, unavailable, found]
  obtain ⟨_, attempt⟩ := binding
  cases attempt <;> rfl

theorem exists_reads (found : set.get name = .ok binding) (view : Value.View α) :
    ∃ reading, set.Reads view name binding reading := by
  obtain ⟨place, attempt⟩ := binding
  have attempted := isBound_of_get found
  have raw := rawValue?_of_get found
  have given := value?_of_get found view
  cases attempt with
  | unreached => exact ⟨.missing, require_of_get found given, given, raw, attempted⟩
  | rejected text position failure =>
    exact ⟨.refused, failure, text, rfl, require_of_get found given, given, raw, attempted⟩
  | bound text value position =>
    simp only [Attempt.value?] at given
    cases read : view.read value with
    | some x =>
      rw [read] at given
      refine ⟨.present, value, x, rfl, read, ?_, given, attempted⟩
      rw [require, given]
      rfl
    | none =>
      rw [read] at given
      refine ⟨.mistyped, value, rfl, read, ?_, given, attempted⟩
      rw [require, given]
      rfl

theorem Reads.eq_of {reading : Reading} (h : set.Reads view name binding reading) :
    reading = .of (set.require view name) := by
  cases reading with
  | present =>
    obtain ⟨_, _, _, _, answer, _⟩ := h
    rw [answer]
    rfl
  | mistyped =>
    obtain ⟨_, _, _, answer, _⟩ := h
    rw [answer]
    rfl
  | refused =>
    obtain ⟨_, _, _, answer, _⟩ := h
    rw [answer]
    rfl
  | missing =>
    rw [h.1]
    rfl

theorem speaksOf_of_get (found : set.get name = .ok binding) : set.SpeaksOf name binding where
  get := found
  isBound := isBound_of_get found
  rawValue? := rawValue?_of_get found
  slot := by rw [slot, found]; rfl
  reads view := by
    obtain ⟨reading, reads⟩ := exists_reads found view
    exact ⟨reading, reads, fun other reads' => reads'.eq_of.trans reads.eq_of.symm⟩
  missing view := by
    obtain ⟨reading, reads⟩ := exists_reads found view
    cases reading with
    | present =>
      obtain ⟨_, _, _, _, answer, _, attempted⟩ := reads
      simp [answer, attempted]
    | mistyped =>
      obtain ⟨_, _, _, answer, _, attempted⟩ := reads
      simp [answer, attempted]
    | refused =>
      obtain ⟨_, _, _, answer, _, _, attempted⟩ := reads
      simp [answer, attempted]
    | missing => simp [reads.1, reads.2.2.2]

end BindingSet

/-- A name that no typed node has is unknown to all accessors. Of any other name they all speak of
one binding, and for each view there is one reading. -/
theorem Grammar.bind_accessors (grammar : Grammar) (line name : Text) :
    (¬ grammar.Names name → (grammar.bind line).Ignores name) ∧
    (grammar.Names name → ∃ binding, grammar.LeadsTo (grammar.bind line) name binding ∧
      (grammar.bind line).SpeaksOf name binding) := by
  obtain ⟨last, run⟩ := grammar.run_exists line
  constructor
  · intro unnamed
    refine BindingSet.ignores_of_get (BindingSet.get_of_unnamed fun binding mem named => ?_)
    exact unnamed (names_iff.mpr ⟨binding.place, (mem_bindings_iff.mp mem).1, named⟩)
  · intro named
    obtain ⟨binding, leads, found⟩ := run.exists_leadsTo named
    exact ⟨binding, leads, BindingSet.speaksOf_of_get found⟩

namespace Grammar

def number (below : List Node) : Node := ⟨['n'], .typed (.integer 0 9) none, true, below⟩

def numbers : Grammar :=
  ⟨[⟨['a'], .literal, false, [number []]⟩, ⟨['b'], .literal, false, [number [number []]]⟩], false,
    rfl⟩

theorem accessors_of_numbers :
    ¬ numbers.Names ['m'] ∧ (numbers.bind ['b', ' ', '1', ' ', 'x']).Ignores ['m'] ∧
      numbers.Names ['n'] ∧ ∃ binding, binding.place.path = [1, 0] ∧
        numbers.LeadsTo (numbers.bind ['b', ' ', '1', ' ', 'x']) ['n'] binding ∧
        (numbers.bind ['b', ' ', '1', ' ', 'x']).SpeaksOf ['n'] binding ∧
        (numbers.bind ['b', ' ', '1', ' ', 'x']).Reads .integer ['n'] binding .present := by
  have unnamed : ¬ numbers.Names ['m'] := mt names_iff.mp (by decide)
  have named : numbers.Names ['n'] := names_iff.mpr (by decide)
  have ignores := (numbers.bind_accessors ['b', ' ', '1', ' ', 'x'] ['m']).1 unnamed
  obtain ⟨binding, leads, speaks⟩ :=
    (numbers.bind_accessors ['b', ' ', '1', ' ', 'x'] ['n']).2 named
  have same : binding = ⟨⟨[1, 0], number [number []], 0⟩, .bound ['1'] (.integer 1) (.index 1)⟩ :=
    (Except.ok.inj speaks.get).symm
  subst same
  exact ⟨unnamed, ignores, named, _, rfl, leads, speaks, .integer 1, 1, rfl, rfl, rfl, rfl, rfl⟩

end Grammar

end Console
