import Console.Proofs.Text.Words

namespace Console.Text

variable {s word rest left : Text} {tokens : List Text}

inductive Takes : Text → List Text → Text → Prop
  | done (s : Text) : Takes s [] s
  | next {s word rest left : Text} {tokens : List Text} (first : nextWord? s = some (word, rest))
      (more : Takes rest tokens left) : Takes s (word :: tokens) left

theorem nextWord?_eq_some_iff :
    nextWord? s = some (word, rest) ↔
      ∃ blanks, isBlankText blanks ∧ blanks ++ word ++ rest = s ∧ IsWord word ∧
        startsBlank rest := by
  constructor
  · intro next
    obtain ⟨split, _, _, starts⟩ := nextWord?_eq_some next
    exact ⟨_, isBlankText_takeWhile s, split, nextWord?_isWord next, starts⟩
  · rintro ⟨blanks, blank, rfl, isWord, starts⟩
    exact nextWord?_blanks_append blank isWord starts

theorem length_lt_of_nextWord? (next : nextWord? s = some (word, rest)) :
    rest.length < s.length := by
  obtain ⟨split, ne, _⟩ := nextWord?_eq_some next
  have some : 0 < word.length := List.length_pos_iff.mpr ne
  rw [← split, List.length_append, List.length_append]
  omega

theorem wellFounded_nextWord? :
    WellFounded fun rest s : Text => ∃ word, nextWord? s = some (word, rest) :=
  Subrelation.wf (fun ⟨_, next⟩ => length_lt_of_nextWord? next) (measure List.length).wf

theorem IsBoundary.words_split (boundary : IsBoundary s rest) :
    words s = words (before s rest) ++ words rest := by
  obtain ⟨front, rfl, apart⟩ := boundary
  rw [before_append]
  cases apart with
  | inl empty =>
    subst empty
    rfl
  | inr starts => exact words_append starts front

namespace Takes

theorem words_eq (taken : Takes s tokens left) : words s = tokens ++ words left := by
  induction taken with
  | done => rfl
  | next first _ ih => rw [words_of_nextWord? first, ih, List.cons_append]

theorem isBoundary (taken : Takes s tokens left) : IsBoundary s left := by
  induction taken with
  | done s => exact isBoundary_self s
  | @next s word rest left _ first _ ih =>
    obtain ⟨split, _, _, starts⟩ := nextWord?_eq_some first
    obtain ⟨front, rfl, apart⟩ := ih
    have leftStarts : startsBlank left := by
      cases apart with
      | inl empty =>
        subst empty
        exact starts
      | inr here => exact here
    have suffix : left <:+ s := (List.suffix_append front left).trans ⟨_, split⟩
    exact (isBoundary_self s).of_suffix suffix leftStarts

theorem words_before (taken : Takes s tokens left) : words (before s left) = tokens :=
  List.append_cancel_right (taken.isBoundary.words_split.symm.trans taken.words_eq)

theorem eq_words (taken : Takes s tokens left) (last : nextWord? left = none) :
    tokens = words s := by
  rw [taken.words_eq, words_eq_nil_iff.mpr (nextWord?_eq_none_iff.mp last), List.append_nil]

end Takes

theorem exists_takes (s : Text) : ∃ left, Takes s (words s) left ∧ nextWord? left = none := by
  generalize all : words s = tokens
  induction tokens generalizing s with
  | nil => exact ⟨s, .done s, nextWord?_eq_none_iff.mpr (words_eq_nil_iff.mp all)⟩
  | cons word tokens ih =>
    obtain ⟨rest, first, others⟩ := exists_nextWord? all
    obtain ⟨left, more, last⟩ := ih rest others
    exact ⟨left, .next first more, last⟩

structure Tokenizes (s : Text) : Prop where
  none_iff : nextWord? s = none ↔ isBlankText s
  some_iff : ∀ word rest, nextWord? s = some (word, rest) ↔
    ∃ blanks, isBlankText blanks ∧ blanks ++ word ++ rest = s ∧ IsWord word ∧ startsBlank rest
  ends : WellFounded fun rest s : Text => ∃ word, nextWord? s = some (word, rest)
  whole : ∃ left, Takes s (words s) left ∧ nextWord? left = none
  unique : ∀ tokens left, Takes s tokens left → nextWord? left = none → tokens = words s
  split : ∀ tokens left, Takes s tokens left →
    before s left ++ left = s ∧ words (before s left) = tokens ∧ tokens ++ words left = words s
  counts : ∀ tokens left, Takes s tokens left →
    tokens.length = wordIndex s left ∧ tokens.length + wordCount left = wordCount s

/-- Taking word by word gives the words of a text, and the count of the words taken is the number of
words before the place where one stands. -/
theorem tokenizes (s : Text) : Tokenizes s where
  none_iff := nextWord?_eq_none_iff
  some_iff _ _ := nextWord?_eq_some_iff
  ends := wellFounded_nextWord?
  whole := exists_takes s
  unique _ _ taken last := taken.eq_words last
  split tokens left taken := by
    obtain ⟨front, split, _⟩ := taken.isBoundary
    exact ⟨before_append_suffix ⟨front, split⟩, taken.words_before, taken.words_eq.symm⟩
  counts tokens left taken := by
    have whole := congrArg List.length taken.words_eq
    rw [List.length_append] at whole
    exact ⟨by rw [wordIndex, wordCount, taken.words_before], whole.symm⟩

end Console.Text
