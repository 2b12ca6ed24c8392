namespace Console

/-- A text is a list of characters, so that its suffixes are the places a reader can stand. -/
abbrev Text := List Char

namespace Text

/-- The text that a string holds. Proofs leave it folded, so that what is known of a message does
not depend on its letters. -/
@[irreducible] def of (s : String) : Text := s.toList

def blankRanges : List (Nat × Nat) :=
  [(0x9, 0xD), (0x20, 0x20), (0x85, 0x85), (0xA0, 0xA0), (0x1680, 0x1680), (0x2000, 0x200A),
   (0x2028, 0x2029), (0x202F, 0x202F), (0x205F, 0x205F), (0x3000, 0x3000)]

def inRanges (ranges : List (Nat × Nat)) (c : Char) : Bool :=
  ranges.any fun range => range.1 ≤ c.toNat && c.toNat ≤ range.2

def isBlank (c : Char) : Bool := inRanges blankRanges c

def isBlankText (s : Text) : Bool := s.all isBlank

def startsBlank : Text → Bool
  | [] => true
  | c :: _ => isBlank c

def trimStart (s : Text) : Text := s.dropWhile isBlank

def trimEnd (s : Text) : Text := (s.reverse.dropWhile isBlank).reverse

def trim (s : Text) : Text := trimEnd (trimStart s)

theorem takeWhile_append_trimStart (s : Text) : s.takeWhile isBlank ++ trimStart s = s :=
  List.takeWhile_append_dropWhile

theorem trimEnd_append_blanks (s : Text) :
    trimEnd s ++ (s.reverse.takeWhile isBlank).reverse = s := by
  rw [trimEnd, ← List.reverse_append, List.takeWhile_append_dropWhile, List.reverse_reverse]

@[simp] theorem trimStart_nil : trimStart [] = [] := rfl

@[simp] theorem trimEnd_nil : trimEnd [] = [] := rfl

theorem trimStart_cons (c : Char) (s : Text) :
    trimStart (c :: s) = if isBlank c then trimStart s else c :: s := by
  simp only [trimStart, List.dropWhile_cons]

theorem trimStart_eq_nil_iff {s : Text} : trimStart s = [] ↔ isBlankText s := by
  induction s with
  | nil => simp [isBlankText]
  | cons c s ih =>
    rw [trimStart_cons, isBlankText, List.all_cons]
    by_cases h : isBlank c <;> simp [h, ih, isBlankText]

theorem isBlank_head_trimStart {s rest : Text} {c : Char} (h : trimStart s = c :: rest) :
    isBlank c = false := by
  induction s with
  | nil => simp at h
  | cons d s ih =>
    rw [trimStart_cons] at h
    by_cases hd : isBlank d <;> simp_all

end Text

end Console
