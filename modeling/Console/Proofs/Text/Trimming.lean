import Console.Proofs.Text.LowerCase
import Console.Proofs.Text.Words

namespace Console.Text

variable {s t : Text} {c : Char}

structure IsTrimmed (s : Text) : Prop where
  head : ∀ c ∈ s.head?, isBlank c = false
  last : ∀ c ∈ s.getLast?, isBlank c = false

theorem trimStart_eq_self (head : ∀ c ∈ s.head?, isBlank c = false) : trimStart s = s := by
  cases s with
  | nil => rfl
  | cons c s => exact trimStart_of_startsBlank (head c rfl)

theorem isBlank_head?_trimStart (s : Text) : ∀ c ∈ (trimStart s).head?, isBlank c = false := by
  cases h : trimStart s with
  | nil => nofun
  | cons c rest =>
    rintro _ ⟨⟩
    exact isBlank_head_trimStart h

theorem isBlank_getLast?_trimEnd (s : Text) : ∀ c ∈ (trimEnd s).getLast?, isBlank c = false := by
  rw [trimEnd, List.getLast?_reverse]
  exact isBlank_head?_trimStart s.reverse

theorem trimEnd_append (last : ∀ c ∈ s.getLast?, isBlank c = false) (t : Text) :
    trimEnd (s ++ t) = s ++ trimEnd t := by
  have whole : s.reverse.dropWhile isBlank = s.reverse :=
    trimStart_eq_self (by rwa [List.head?_reverse])
  rw [trimEnd, trimEnd, List.reverse_append, List.dropWhile_append]
  split
  case isTrue none =>
    rw [whole, List.isEmpty_iff.mp none, List.reverse_reverse, List.reverse_nil, List.append_nil]
  case isFalse => rw [List.reverse_append, List.reverse_reverse]

theorem startsBlank_trimEnd (starts : startsBlank s) : startsBlank (trimEnd s) := by
  obtain ⟨blanks, _, eq⟩ := exists_trimEnd_append s
  cases h : trimEnd s with
  | nil => rfl
  | cons c front =>
    rw [← eq, h] at starts
    exact starts

theorem isTrimmed_trim (s : Text) : IsTrimmed (trim s) where
  head := by
    obtain ⟨blanks, _, eq⟩ := exists_trimEnd_append (trimStart s)
    intro c first
    apply isBlank_head?_trimStart s c
    rw [← eq, List.head?_append, show (trimEnd (trimStart s)).head? = some c from first]
    rfl
  last := isBlank_getLast?_trimEnd (trimStart s)

theorem IsWord.isTrimmed (isWord : IsWord s) : IsTrimmed s where
  head c first := by simpa using List.all_eq_true.mp isWord.2 c (List.mem_of_mem_head? first)
  last c final := by simpa using List.all_eq_true.mp isWord.2 c (List.mem_of_getLast? final)

namespace IsTrimmed

theorem append (hs : IsTrimmed s) (ht : IsTrimmed t) : IsTrimmed (s ++ t) where
  head := by
    cases s with
    | nil => exact ht.head
    | cons => exact hs.head
  last := by
    have later := ht.last
    rw [List.getLast?_append]
    generalize t.getLast? = final at later ⊢
    cases final with
    | none => exact hs.last
    | some => exact later

theorem trimEnd_eq (trimmed : IsTrimmed s) : trimEnd s = s := by
  have whole := trimEnd_append trimmed.last []
  rwa [trimEnd_nil, List.append_nil] at whole

theorem exists_nextWord? (trimmed : IsTrimmed s) (ne : s ≠ []) :
    ∃ label rest, nextWord? s = some (label, rest) ∧ label ++ rest = s ∧ trimEnd rest = rest := by
  obtain ⟨c, tail, rfl⟩ := List.exists_cons_of_ne_nil ne
  have first : startsBlank (c :: tail) = false := trimmed.head c rfl
  obtain ⟨label, rest, word, split⟩ := exists_nextWord?_of_startsBlank first
  refine ⟨label, rest, word, split, ?_⟩
  have whole := trimmed.trimEnd_eq
  rw [← split, trimEnd_append (nextWord?_isWord word).isTrimmed.last] at whole
  exact List.append_cancel_left whole

end IsTrimmed

theorem exists_lowerAfter_cons (seen : Text) (c : Char) (s : Text) :
    ∃ first, lowerAfter seen (c :: s) = first ++ lowerAfter (c :: seen) s ∧ first ≠ [] ∧
      ∀ d ∈ first, isBlank d = isBlank c := by
  refine ⟨_, rfl, ?_, ?_⟩
  · split
    · exact List.cons_ne_nil _ _
    · split <;> exact List.cons_ne_nil _ _
  · split
    case isTrue sigma => simp [sigma, isBlank_lowerSigma, show isBlank 'Σ' = false from rfl]
    case isFalse =>
      split
      case isTrue dotted =>
        rw [dotted]
        exact List.forall_mem_cons.mpr ⟨rfl, List.forall_mem_singleton.mpr rfl⟩
      case isFalse => simp [isBlank_simpleLower]

theorem isBlank_getLast?_lowerAfter (seen : Text) (last : ∀ c ∈ s.getLast?, isBlank c = false) :
    ∀ c ∈ (lowerAfter seen s).getLast?, isBlank c = false := by
  induction s generalizing seen with
  | nil => nofun
  | cons c s ih =>
    obtain ⟨first, eq, _, same⟩ := exists_lowerAfter_cons seen c s
    rw [eq, List.getLast?_append]
    cases s with
    | nil =>
      intro d final
      rw [same d (List.mem_of_getLast? final)]
      exact last c rfl
    | cons d s =>
      have later := ih (c :: seen) last
      have more : lowerAfter (c :: seen) (d :: s) ≠ [] := by simp [lowerAfter_eq_nil_iff]
      rw [List.getLast?_eq_some_getLast more] at later ⊢
      exact later

theorem IsTrimmed.lowerCase (trimmed : IsTrimmed s) : IsTrimmed (lowerCase s) where
  head := by
    cases s with
    | nil => nofun
    | cons c s =>
      obtain ⟨first, eq, ne, same⟩ := exists_lowerAfter_cons [] c s
      obtain ⟨d, more, rfl⟩ := List.exists_cons_of_ne_nil ne
      rw [Text.lowerCase, eq]
      rintro _ ⟨⟩
      exact (same d List.mem_cons_self).trans (trimmed.head c rfl)
  last := isBlank_getLast?_lowerAfter [] trimmed.last

end Console.Text
