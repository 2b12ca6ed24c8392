import Console.Text.Words
import Console.Failure
import Mathlib.Data.List.TakeWhile

/-!
How the list of the words of a text meets the cutting off of its first word: `words_of_nextWord?` is
the step, `words_append_blank` says that a blank always divides, `words_joinWith` that words joined
by blanks are read back, and `nextWord?_append` that a first word stays so when text is added. Where
a text is cut, `wordIndex_lt_iff` says whether the words before the cut are fewer than all.
-/

namespace Console.Text

variable {s t word rest : Text} {c : Char}

def IsWord (word : Text) : Prop := word ≠ [] ∧ word.all (!isBlank ·)

instance (word : Text) : Decidable (IsWord word) := inferInstanceAs (Decidable (_ ∧ _))

theorem isBlankText_append : isBlankText (s ++ t) ↔ isBlankText s ∧ isBlankText t := by
  simp [isBlankText]

theorem isBlankText_takeWhile (s : Text) : isBlankText (s.takeWhile isBlank) := by
  simp [isBlankText]

@[simp] theorem trimStart_trimStart (s : Text) : trimStart (trimStart s) = trimStart s := by
  cases h : trimStart s with
  | nil => rfl
  | cons c rest => rw [trimStart_cons, isBlank_head_trimStart h]; rfl

theorem exists_trimEnd_append (s : Text) :
    ∃ blanks, isBlankText blanks ∧ trimEnd s ++ blanks = s := by
  refine ⟨(s.reverse.takeWhile isBlank).reverse, ?_, trimEnd_append_blanks s⟩
  rw [isBlankText, List.all_reverse]
  exact isBlankText_takeWhile s.reverse

theorem trimEnd_eq_self (h : s.all (!isBlank ·)) : trimEnd s = s := by
  have hs : s.reverse.dropWhile isBlank = s.reverse := by
    rw [← List.all_reverse] at h
    cases hr : s.reverse with
    | nil => rfl
    | cons c rest =>
      rw [hr, List.all_cons, Bool.and_eq_true, Bool.not_eq_true'] at h
      rw [List.dropWhile_cons, h.1]
      rfl
  rw [trimEnd, hs, List.reverse_reverse]

@[simp] theorem before_nil (s : Text) : before s [] = s := by
  simp [before]

theorem pieces_append_blank (h : isBlank c) (s t : Text) :
    pieces (s ++ c :: t) = pieces s ++ pieces t := by
  induction s with
  | nil => simp [pieces, h]
  | cons d s ih =>
    simp only [List.cons_append, pieces, ih]
    by_cases hd : isBlank d
    · simp [hd]
    · cases hp : pieces s with
      | nil => exact absurd hp (pieces_ne_nil s)
      | cons piece more => simp [hd]

theorem pieces_of_all (h : s.all (!isBlank ·)) : pieces s = [s] := by
  induction s with
  | nil => rfl
  | cons c s ih =>
    rw [List.all_cons, Bool.and_eq_true] at h
    have hc : isBlank c = false := by simpa using h.1
    simp [pieces, ih h.2, hc]

theorem words_append_blank (h : isBlank c) (s t : Text) :
    words (s ++ c :: t) = words s ++ words t := by
  rw [words, pieces_append_blank h, List.filter_append, words, words]

theorem words_append (h : startsBlank t) (s : Text) : words (s ++ t) = words s ++ words t := by
  cases t with
  | nil => simp
  | cons c t => rw [words_append_blank h, words_cons_of_isBlank h]

theorem words_blanks_append (h : isBlankText s) (t : Text) : words (s ++ t) = words t := by
  induction s with
  | nil => rfl
  | cons c s ih =>
    rw [isBlankText, List.all_cons, Bool.and_eq_true] at h
    rw [List.cons_append, words_cons_of_isBlank h.1, ih h.2]

theorem IsWord.words_eq (h : IsWord word) : words word = [word] := by
  rw [words, pieces_of_all h.2]
  simp [h.1]

theorem words_of_nextWord? (h : nextWord? s = some (word, rest)) :
    words s = word :: words rest := by
  obtain ⟨eq, ne, whole, starts⟩ := nextWord?_eq_some h
  calc
    words s = words (s.takeWhile isBlank ++ (word ++ rest)) := by rw [← List.append_assoc, eq]
    _ = words (word ++ rest) := words_blanks_append (isBlankText_takeWhile s) _
    _ = words word ++ words rest := words_append starts word
    _ = word :: words rest := by rw [IsWord.words_eq ⟨ne, whole⟩]; rfl

theorem words_eq_nil_iff : words s = [] ↔ isBlankText s := by
  rw [← nextWord?_eq_none_iff]
  cases h : nextWord? s with
  | none =>
    have blank := nextWord?_eq_none_iff.mp h
    simpa using words_blanks_append blank []
  | some found => simp [words_of_nextWord? h]

theorem wordCount_eq_zero_iff : wordCount s = 0 ↔ isBlankText s := by
  rw [wordCount, List.length_eq_zero_iff, words_eq_nil_iff]

theorem words_trimStart (s : Text) : words (trimStart s) = words s := by
  conv => rhs; rw [← takeWhile_append_trimStart s, words_blanks_append (isBlankText_takeWhile s)]

theorem startsBlank_of_isBlankText (h : isBlankText s) : startsBlank s := by
  cases s with
  | nil => rfl
  | cons c s => exact List.all_eq_true.mp h c List.mem_cons_self

theorem words_append_blanks (h : isBlankText t) (s : Text) : words (s ++ t) = words s := by
  rw [words_append (startsBlank_of_isBlankText h), words_eq_nil_iff.mpr h, List.append_nil]

theorem words_trimEnd (s : Text) : words (trimEnd s) = words s := by
  obtain ⟨blanks, blank, eq⟩ := exists_trimEnd_append s
  rw [← words_append_blanks blank, eq]

theorem words_trim (s : Text) : words (trim s) = words s := by
  rw [trim, words_trimEnd, words_trimStart]

theorem trimStart_of_nextWord? (h : nextWord? s = some (word, rest)) :
    trimStart s = word ++ rest := by
  have eq := (nextWord?_eq_some h).1
  rw [List.append_assoc] at eq
  exact List.append_cancel_left ((takeWhile_append_trimStart s).trans eq.symm)

theorem words_of_trimEnd_before {left : Text} (h : nextWord? s = some (word, rest))
    (suffix : left <:+ trimStart s) (whole : trimEnd (before (trimStart s) left) = word) :
    words left = words rest := by
  obtain ⟨blanks, blank, eq⟩ := exists_trimEnd_append (before (trimStart s) left)
  -- What was cut off is the word and some of the blanks behind it.
  have split : word ++ (blanks ++ left) = word ++ rest := by
    rw [← List.append_assoc, ← whole, eq, before_append_suffix suffix, whole]
    exact trimStart_of_nextWord? h
  rw [← List.append_cancel_left split, words_blanks_append blank]

theorem exists_nextWord? {more : List Text} (h : words s = word :: more) :
    ∃ rest, nextWord? s = some (word, rest) ∧ words rest = more := by
  cases hw : nextWord? s with
  | none =>
    rw [words_eq_nil_iff.mpr (nextWord?_eq_none_iff.mp hw)] at h
    cases h
  | some found =>
    rw [words_of_nextWord? hw] at h
    cases h
    exact ⟨found.2, rfl, rfl⟩

theorem nextWord?_isWord (h : nextWord? s = some (word, rest)) : IsWord word :=
  ⟨(nextWord?_eq_some h).2.1, (nextWord?_eq_some h).2.2.1⟩

theorem nextWord?_of_trimStart_ne_nil (h : trimStart s ≠ []) :
    ∃ word rest, nextWord? (trimStart s) = some (word, rest) := by
  cases hw : nextWord? (trimStart s) with
  | none =>
    rw [nextWord?_eq_none_iff, ← trimStart_eq_nil_iff, trimStart_trimStart] at hw
    exact absurd hw h
  | some found => exact ⟨found.1, found.2, rfl⟩

theorem startsBlank_append (hs : startsBlank s) (ht : startsBlank t) : startsBlank (s ++ t) := by
  cases s with
  | nil => exact ht
  | cons c s => exact hs

theorem trimStart_append (h : trimStart s ≠ []) (t : Text) :
    trimStart (s ++ t) = trimStart s ++ t := by
  have front : ¬ (s.dropWhile isBlank).isEmpty := mt List.isEmpty_iff.mp h
  rw [trimStart, List.dropWhile_append, if_neg front, trimStart]

theorem trimEnd_prefix_append (s t : Text) : trimEnd s <+: trimEnd (s ++ t) := by
  unfold trimEnd
  rw [List.reverse_append, List.dropWhile_append]
  split
  case isTrue => exact List.prefix_rfl
  case isFalse =>
    rw [List.reverse_append, List.reverse_reverse]
    have front : trimEnd s <+: s := ⟨_, trimEnd_append_blanks s⟩
    exact front.trans (List.prefix_append ..)

theorem dropWhile_append (starts : startsBlank t) (s : Text) :
    (s ++ t).dropWhile (!isBlank ·) = s.dropWhile (!isBlank ·) ++ t := by
  rw [List.dropWhile_append]
  split
  case isTrue none =>
    rw [List.isEmpty_iff.mp none, List.nil_append]
    cases t with
    | nil => rfl
    | cons c t => simp [show isBlank c from starts]
  case isFalse => rfl

theorem takeWhile_append (starts : startsBlank t) (s : Text) :
    (s ++ t).takeWhile (!isBlank ·) = s.takeWhile (!isBlank ·) := by
  have split := List.takeWhile_append_dropWhile (p := (!isBlank ·)) (l := s ++ t)
  rw [dropWhile_append starts, ← List.append_assoc] at split
  have cut := List.takeWhile_append_dropWhile (p := (!isBlank ·)) (l := s)
  exact List.append_cancel_right ((List.append_cancel_right split).trans cut.symm)

theorem nextWord?_eq (h : trimStart s ≠ []) :
    nextWord? s =
      some ((trimStart s).takeWhile (!isBlank ·), (trimStart s).dropWhile (!isBlank ·)) := by
  unfold nextWord?
  split
  case h_1 none => exact absurd none h
  case h_2 => rfl

theorem trimStart_ne_nil_of_nextWord? (h : nextWord? s = some (word, rest)) :
    trimStart s ≠ [] := by
  rw [trimStart_of_nextWord? h]
  exact List.append_ne_nil_of_left_ne_nil (nextWord?_isWord h).1 rest

theorem nextWord?_append (h : nextWord? s = some (word, rest)) (starts : startsBlank t) :
    nextWord? (s ++ t) = some (word, rest ++ t) := by
  have ne := trimStart_ne_nil_of_nextWord? h
  have more : trimStart (s ++ t) ≠ [] := by simp [trimStart_append ne, ne]
  rw [nextWord?_eq more, trimStart_append ne, takeWhile_append starts, dropWhile_append starts]
  rw [nextWord?_eq ne] at h
  cases h
  rfl

theorem trimStart_blanks_append (blank : isBlankText s) (t : Text) :
    trimStart (s ++ t) = trimStart t := by
  rw [trimStart, List.dropWhile_append, ← trimStart, trimStart_eq_nil_iff.mpr blank]
  rfl

theorem trimEnd_append_of_isBlankText (blank : isBlankText t) (s : Text) :
    trimEnd (s ++ t) = trimEnd s := by
  have reversed : isBlankText t.reverse := by rwa [isBlankText, List.all_reverse]
  rw [trimEnd, List.reverse_append]
  exact congrArg List.reverse (trimStart_blanks_append reversed s.reverse)

theorem IsWord.trimStart_append (h : IsWord word) (t : Text) :
    trimStart (word ++ t) = word ++ t := by
  obtain ⟨c, more, rfl⟩ := List.exists_cons_of_ne_nil h.1
  have whole := h.2
  rw [List.all_cons, Bool.and_eq_true, Bool.not_eq_true'] at whole
  rw [List.cons_append, trimStart_cons, whole.1]
  rfl

theorem nextWord?_blanks_append (blank : isBlankText s) (isWord : IsWord word)
    (starts : startsBlank rest) : nextWord? (s ++ word ++ rest) = some (word, rest) := by
  have front : trimStart (s ++ word ++ rest) = word ++ rest := by
    rw [List.append_assoc, trimStart_blanks_append blank, isWord.trimStart_append]
  have ne : trimStart (s ++ word ++ rest) ≠ [] := by
    rw [front]
    exact mt (fun none => (List.append_eq_nil_iff.mp none).1) isWord.1
  have whole : word.takeWhile (!isBlank ·) = word :=
    List.takeWhile_eq_self_iff.mpr (List.all_eq_true.mp isWord.2)
  have none : word.dropWhile (!isBlank ·) = [] :=
    List.dropWhile_eq_nil_iff.mpr (List.all_eq_true.mp isWord.2)
  rw [nextWord?_eq ne, front, takeWhile_append starts, dropWhile_append starts, whole, none]
  rfl

theorem before_append_append (s suffix t : Text) :
    before (s ++ t) (suffix ++ t) = before s suffix := by
  rw [before, before, List.length_append, List.length_append, Nat.add_sub_add_right,
    List.take_append_of_le_length (Nat.sub_le ..)]

theorem wordIndex_append (s suffix t : Text) :
    wordIndex (s ++ t) (suffix ++ t) = wordIndex s suffix := by
  rw [wordIndex, before_append_append, wordIndex]

/-- A suffix of a text that no word runs into from the text before it. -/
def IsBoundary (s rest : Text) : Prop :=
  ∃ front, front ++ rest = s ∧ (front = [] ∨ startsBlank rest)

theorem isBoundary_self (s : Text) : IsBoundary s s := ⟨[], rfl, .inl rfl⟩

theorem IsBoundary.of_suffix {left : Text} (boundary : IsBoundary s rest) (suffix : left <:+ rest)
    (starts : startsBlank left) : IsBoundary s left := by
  obtain ⟨front, rfl, _⟩ := boundary
  obtain ⟨middle, rfl⟩ := suffix
  exact ⟨front ++ middle, List.append_assoc .., .inr starts⟩

theorem before_trimStart (front rest : Text) :
    before (front ++ rest) (trimStart rest) = front ++ rest.takeWhile isBlank := by
  conv => lhs; arg 1; rw [← takeWhile_append_trimStart rest, ← List.append_assoc]
  exact before_append ..

theorem IsBoundary.words_eq (boundary : IsBoundary s rest) :
    words s = words (before s (trimStart rest)) ++ words rest := by
  obtain ⟨front, rfl, apart⟩ := boundary
  have blank := isBlankText_takeWhile rest
  rw [before_trimStart]
  cases apart with
  | inl empty =>
    subst empty
    rw [List.nil_append, List.nil_append, words_eq_nil_iff.mpr blank, List.nil_append]
  | inr starts =>
    rw [words_append starts, words_append_blanks blank]

theorem IsBoundary.wordIndex_add (boundary : IsBoundary s rest) :
    wordIndex s (trimStart rest) + wordCount rest = wordCount s := by
  rw [wordIndex, wordCount, wordCount, wordCount, ← List.length_append, ← boundary.words_eq]

theorem startsBlank_trimStart (more : trimStart s ≠ []) : startsBlank (trimStart s) = false := by
  obtain ⟨c, rest, eq⟩ := List.exists_cons_of_ne_nil more
  rw [eq]
  exact isBlank_head_trimStart eq

theorem trimStart_of_startsBlank (first : startsBlank s = false) : trimStart s = s := by
  cases s with
  | nil => cases first
  | cons c s => rw [trimStart_cons, show isBlank c = false from first, if_neg Bool.false_ne_true]

theorem exists_nextWord?_of_startsBlank (first : startsBlank s = false) :
    ∃ word rest, nextWord? s = some (word, rest) ∧ word ++ rest = s := by
  have whole := trimStart_of_startsBlank first
  have more : trimStart s ≠ [] := by
    intro none
    rw [← whole, none] at first
    cases first
  obtain ⟨word, rest, next⟩ := nextWord?_of_trimStart_ne_nil more
  rw [whole] at next
  exact ⟨word, rest, next, (trimStart_of_nextWord? next).symm.trans whole⟩

theorem words_ne_nil_of_append (first : startsBlank (s ++ t) = false) (starts : startsBlank t) :
    words s ≠ [] := by
  cases s with
  | nil => cases starts.symm.trans first
  | cons c s =>
    rw [ne_eq, words_eq_nil_iff, isBlankText, List.all_cons, show isBlank c = false from first]
    exact Bool.false_ne_true

def WordAt (s : Text) (index : Nat) (rest : Text) : Prop :=
  startsBlank rest = false ∧
    ∃ front, front ++ rest = s ∧ startsBlank front.reverse ∧ wordCount front = index

theorem words_append_of_reverse (ends : startsBlank s.reverse) (t : Text) :
    words (s ++ t) = words s ++ words t := by
  obtain rfl | ⟨front, c, rfl⟩ := s.eq_nil_or_concat
  · rfl
  · rw [List.concat_eq_append, List.reverse_append] at ends
    rw [List.concat_eq_append]
    have blank : isBlankText [c] := by simpa [isBlankText, startsBlank] using ends
    rw [List.append_assoc, List.singleton_append, words_append_blank ends,
      words_append_blanks blank]

theorem WordAt.getElem?_words {index : Nat} (h : WordAt s index rest) :
    ∃ word after, nextWord? rest = some (word, after) ∧ word ++ after = rest ∧
      (words s)[index]? = some word := by
  obtain ⟨first, front, rfl, ends, rfl⟩ := h
  obtain ⟨word, after, next, split⟩ := exists_nextWord?_of_startsBlank first
  refine ⟨word, after, next, split, ?_⟩
  rw [words_append_of_reverse ends, words_of_nextWord? next, wordCount,
    List.getElem?_append_right (Nat.le_refl _), Nat.sub_self]
  rfl

theorem IsBoundary.wordAt (boundary : IsBoundary s rest) (more : trimStart rest ≠ []) :
    WordAt s (wordIndex s (trimStart rest)) (trimStart rest) := by
  have first := startsBlank_trimStart more
  obtain ⟨front, rfl, apart⟩ := boundary
  refine ⟨first, front ++ rest.takeWhile isBlank, ?_, ?_, ?_⟩
  · rw [List.append_assoc, takeWhile_append_trimStart]
  · obtain none | ⟨blanks, c, split⟩ := (rest.takeWhile isBlank).eq_nil_or_concat
    · -- Without blanks the text is at its start, since else a blank comes first.
      have whole := takeWhile_append_trimStart rest
      rw [none, List.nil_append] at whole
      rw [whole] at first
      rw [none, apart.resolve_right (by simp [first])]
      rfl
    · have blank := isBlankText_takeWhile rest
      rw [split, List.concat_eq_append] at blank ⊢
      simpa [isBlankText, startsBlank] using (isBlankText_append.mp blank).2
  · rw [wordIndex, before_trimStart]

/-- A suffix that begins inside the last word of a text. -/
def InLastWord (s rest : Text) : Prop :=
  startsBlank (before s rest).reverse = false ∧ startsBlank rest = false ∧ wordCount rest = 1

instance (s rest : Text) : Decidable (InLastWord s rest) :=
  inferInstanceAs (Decidable (_ ∧ _ ∧ _))

theorem IsWord.append (hs : IsWord s) (ht : IsWord t) : IsWord (s ++ t) :=
  ⟨mt (fun none => (List.append_eq_nil_iff.mp none).1) hs.1, by
    rw [List.all_append, hs.2, ht.2]
    rfl⟩

theorem IsWord.reverse (h : IsWord word) : IsWord word.reverse :=
  ⟨mt List.reverse_eq_nil_iff.mp h.1, by rw [List.all_reverse, h.2]⟩

theorem wordCount_append_of_divided (ends : startsBlank s.reverse = false)
    (first : startsBlank t = false) : wordCount s + wordCount t = wordCount (s ++ t) + 1 := by
  obtain ⟨word, rest, next, split⟩ := exists_nextWord?_of_startsBlank first
  obtain ⟨reversed, behind, last, split'⟩ := exists_nextWord?_of_startsBlank ends
  have isWord := (nextWord?_isWord last).reverse
  have starts := (nextWord?_eq_some next).2.2.2
  have behind_ends : startsBlank behind.reverse.reverse := by
    rw [List.reverse_reverse]
    exact (nextWord?_eq_some last).2.2.2
  have front : s = behind.reverse ++ reversed.reverse := by
    rw [← List.reverse_append, split', List.reverse_reverse]
  have joined : s ++ t = behind.reverse ++ ((reversed.reverse ++ word) ++ rest) := by
    rw [front, ← split]
    simp
  rw [joined, front, wordCount, wordCount, wordCount, words_append_of_reverse behind_ends,
    words_append_of_reverse behind_ends, words_append starts,
    (isWord.append (nextWord?_isWord next)).words_eq, isWord.words_eq, words_of_nextWord? next]
  simp only [List.length_append, List.length_cons]
  omega

theorem wordIndex_lt_iff (suffix : rest <:+ s) (first : startsBlank rest = false) :
    wordIndex s rest < wordCount s ↔ ¬ InLastWord s rest := by
  have split := before_append_suffix suffix
  have some : 0 < wordCount rest := by
    obtain ⟨word, after, next, _⟩ := exists_nextWord?_of_startsBlank first
    rw [wordCount, words_of_nextWord? next]
    exact Nat.succ_pos _
  unfold InLastWord wordIndex
  cases ends : startsBlank (before s rest).reverse with
  | true =>
    have count := congrArg List.length (words_append_of_reverse ends rest)
    rw [split, List.length_append] at count
    change wordCount s = wordCount _ + wordCount rest at count
    simp only [Bool.true_eq_false, false_and, not_false_eq_true, iff_true]
    omega
  | false =>
    have count := wordCount_append_of_divided ends first
    rw [split] at count
    simp only [first, true_and]
    omega

def behind : List Text → Text → Text
  | [], s => trimStart s
  | text :: texts, s => behind texts ((trimStart s).drop text.length)

theorem behind_blanks_append (blank : isBlankText s) (texts : List Text) (t : Text) :
    behind texts (s ++ t) = behind texts t := by
  cases texts <;> rw [behind, behind, trimStart_blanks_append blank]

end Console.Text
