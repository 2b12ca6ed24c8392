import Console.Text.Blank

namespace Console.Text

def pieces : Text → List Text
  | [] => [[]]
  | c :: s =>
    if isBlank c then [] :: pieces s
    else match pieces s with
      | [] => [[c]]
      | piece :: more => (c :: piece) :: more

def words (s : Text) : List Text := (pieces s).filter (!·.isEmpty)

def wordCount (s : Text) : Nat := (words s).length

/-- The first word and the text after it, which is empty or starts with a blank. -/
def nextWord? (s : Text) : Option (Text × Text) :=
  match trimStart s with
  | [] => none
  | front => some (front.takeWhile (!isBlank ·), front.dropWhile (!isBlank ·))

def before (s suffix : Text) : Text := s.take (s.length - suffix.length)

/-- The number of words that start before a suffix of the text. -/
def wordIndex (s suffix : Text) : Nat := wordCount (before s suffix)

@[simp] theorem words_nil : words [] = [] := rfl

theorem pieces_ne_nil (s : Text) : pieces s ≠ [] := by
  cases s with
  | nil => simp [pieces]
  | cons c s =>
    unfold pieces
    split
    · simp
    · split <;> simp

theorem words_cons_of_isBlank {c : Char} (h : isBlank c) (s : Text) :
    words (c :: s) = words s := by
  simp [words, pieces, h]

@[simp] theorem before_append (s suffix : Text) : before (s ++ suffix) suffix = s := by
  simp [before]

theorem before_append_suffix {s suffix : Text} (h : suffix <:+ s) :
    before s suffix ++ suffix = s := by
  obtain ⟨front, rfl⟩ := h
  simp

theorem nextWord?_eq_none_iff {s : Text} : nextWord? s = none ↔ isBlankText s := by
  rw [← trimStart_eq_nil_iff, nextWord?]
  cases h : trimStart s <;> simp

theorem nextWord?_eq_some {s word rest : Text} (h : nextWord? s = some (word, rest)) :
    s.takeWhile isBlank ++ word ++ rest = s ∧ word ≠ [] ∧ word.all (!isBlank ·) ∧
      startsBlank rest := by
  unfold nextWord? at h
  split at h
  · cases h
  · rename_i hs
    simp only [Option.some.injEq, Prod.mk.injEq] at h
    obtain ⟨rfl, rfl⟩ := h
    refine ⟨?_, ?_, ?_, ?_⟩
    · rw [List.append_assoc, List.takeWhile_append_dropWhile, takeWhile_append_trimStart]
    · cases ht : trimStart s with
      | nil => exact absurd ht hs
      | cons c front => simp [isBlank_head_trimStart ht]
    · simp
    · cases hd : (trimStart s).dropWhile (!isBlank ·) with
      | nil => rfl
      | cons d more =>
        have := List.head?_dropWhile_not (!isBlank ·) (trimStart s)
        simp_all [startsBlank]

end Console.Text
