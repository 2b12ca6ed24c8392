import Console.Text.Bytes
import Console.Text.LowerCase

namespace Console.Text

variable {s t more : Text} {c : Char}

def CaseRun.avoids (run : CaseRun) (range : Nat × Nat) : Bool :=
  (run.last < range.1 || range.2 < run.first) &&
    (run.last + run.shift < range.1 || range.2 < run.first + run.shift)

theorem caseRuns_avoid_blanks :
    ∀ run ∈ caseRuns, ∀ range ∈ blankRanges, run.avoids range := by
  decide +kernel

theorem isBlank_eq_false_iff {c : Char} :
    isBlank c = false ↔ ∀ range ∈ blankRanges, ¬ (range.1 ≤ c.toNat ∧ c.toNat ≤ range.2) := by
  simp [isBlank, inRanges]

theorem toNat_ofNat_cases (n : Nat) : (Char.ofNat n).toNat = n ∨ (Char.ofNat n).toNat = 0 := by
  by_cases valid : n.isValidChar
  · left
    rw [Char.ofNat, dif_pos valid]
    rfl
  · right
    rw [Char.ofNat, dif_neg valid]
    rfl

theorem CaseRun.isBlank_eq_false {run : CaseRun} (mem : run ∈ caseRuns) {c : Char}
    (h : run.covers c.toNat) :
    isBlank c = false ∧ isBlank (Char.ofNat (c.toNat + run.shift).toNat) = false := by
  simp only [covers, Bool.and_eq_true, decide_eq_true_eq] at h
  obtain ⟨⟨least, greatest⟩, _⟩ := h
  constructor
  · rw [isBlank_eq_false_iff]
    intro range blank
    have apart := caseRuns_avoid_blanks run mem range blank
    simp only [avoids, Bool.and_eq_true, Bool.or_eq_true, decide_eq_true_eq] at apart
    omega
  · rw [isBlank_eq_false_iff]
    intro range blank
    have apart := caseRuns_avoid_blanks run mem range blank
    simp only [avoids, Bool.and_eq_true, Bool.or_eq_true, decide_eq_true_eq] at apart
    have positive : ∀ range ∈ blankRanges, 0 < range.1 := by decide
    have := positive range blank
    rcases toNat_ofNat_cases (c.toNat + run.shift).toNat with code | code <;> omega

theorem isBlank_simpleLower (c : Char) : isBlank (simpleLower c) = isBlank c := by
  unfold simpleLower
  split
  case h_1 run found =>
    have mem := List.mem_of_find?_eq_some found
    have covers : run.covers c.toNat := by
      simpa using List.find?_some found
    obtain ⟨upper, lower⟩ := CaseRun.isBlank_eq_false mem covers
    rw [upper, lower]
  case h_2 => rfl

theorem isBlank_lowerSigma (seen rest : Text) : isBlank (lowerSigma seen rest) = false := by
  unfold lowerSigma
  split <;> rfl

theorem any_isBlank_lowerAfter (seen s : Text) :
    (lowerAfter seen s).any isBlank = s.any isBlank := by
  induction s generalizing seen with
  | nil => rfl
  | cons c s ih =>
    rw [lowerAfter, List.any_append, ih, List.any_cons]
    congr 1
    split
    case isTrue sigma =>
      rw [sigma, List.any_cons, isBlank_lowerSigma]
      rfl
    case isFalse =>
      split
      case isTrue dotted =>
        rw [dotted]
        rfl
      case isFalse => simp [isBlank_simpleLower]

theorem lowerAfter_eq_nil_iff {seen : Text} : lowerAfter seen s = [] ↔ s = [] := by
  cases s with
  | nil => exact iff_of_true rfl rfl
  | cons c s =>
    rw [lowerAfter, List.append_eq_nil_iff]
    split
    · simp
    · split <;> simp

theorem any_isBlank_of_sameIgnoringCase (h : sameIgnoringCase s t) :
    s.any isBlank = t.any isBlank := by
  rw [sameIgnoringCase, beq_iff_eq] at h
  rw [← any_isBlank_lowerAfter [] s, ← any_isBlank_lowerAfter [] t]
  exact congrArg (List.any · isBlank) h

theorem eq_nil_iff_of_sameIgnoringCase (h : sameIgnoringCase s t) : s = [] ↔ t = [] := by
  rw [sameIgnoringCase, beq_iff_eq] at h
  calc
    s = [] ↔ lowerAfter [] s = [] := lowerAfter_eq_nil_iff.symm
    _ ↔ lowerAfter [] t = [] := by rw [show lowerAfter [] s = lowerAfter [] t from h]
    _ ↔ t = [] := lowerAfter_eq_nil_iff

def IsPlain (s : Text) : Prop := ∀ c ∈ s, c.toNat < 128

theorem IsPlain.byteSize_eq (plain : IsPlain s) : byteSize s = s.length := by
  induction s with
  | nil => rfl
  | cons c s ih =>
    obtain ⟨first, others⟩ := List.forall_mem_cons.mp plain
    have single : c.utf8Size = 1 :=
      Char.utf8Size_eq_one_iff.mpr (UInt32.le_iff_toNat_le.mpr (Nat.le_of_lt_succ first))
    rw [byteSize, ih others, single, List.length_cons, Nat.add_comm]

theorem IsPlain.length_lowerAfter (plain : IsPlain s) (seen : Text) :
    (lowerAfter seen s).length = s.length := by
  induction s generalizing seen with
  | nil => rfl
  | cons c s ih =>
    obtain ⟨first, others⟩ := List.forall_mem_cons.mp plain
    have notDotted : c ≠ 'İ' := by
      rintro rfl
      exact absurd first (by decide)
    rw [lowerAfter, if_neg notDotted, List.length_append, ih others]
    split <;> simp [Nat.add_comm]

theorem IsPlain.byteSize_eq_of_sameIgnoringCase (hs : IsPlain s) (ht : IsPlain t)
    (h : sameIgnoringCase s t) : byteSize s = byteSize t := by
  rw [sameIgnoringCase, beq_iff_eq] at h
  rw [hs.byteSize_eq, ht.byteSize_eq, ← hs.length_lowerAfter [], ← ht.length_lowerAfter []]
  exact congrArg List.length h

/-- A text has a capital sigma that is final, given the characters before the text, the nearest
first, and another text goes on with the word of the sigma. -/
def ResumesAfter (seen s more : Text) : Prop :=
  ∃ front back, s = front ++ 'Σ' :: back ∧ meetsCased (front.reverse ++ seen) ∧
    back.all isCaseIgnorable ∧ meetsCased more

/-- A text ends with a final capital sigma, characters that case ignores aside, and another text
goes on with its word. -/
def Resumes (s more : Text) : Prop := ResumesAfter [] s more

theorem not_resumes_of_notMem (none : 'Σ' ∉ s) (more : Text) : ¬ Resumes s more := by
  rintro ⟨front, back, rfl, _⟩
  exact none (List.mem_append_right _ List.mem_cons_self)

theorem not_resumesAfter_nil {seen : Text} : ¬ ResumesAfter seen [] more := by
  rintro ⟨front, back, split, _⟩
  exact List.append_ne_nil_of_right_ne_nil front (List.cons_ne_nil _ _) split.symm

theorem resumesAfter_cons_iff {seen : Text} :
    ResumesAfter seen (c :: s) more ↔
      (c = 'Σ' ∧ meetsCased seen ∧ s.all isCaseIgnorable ∧ meetsCased more) ∨
        ResumesAfter (c :: seen) s more := by
  constructor
  · rintro ⟨front, back, split, cased, others⟩
    cases front with
    | nil =>
      obtain ⟨rfl, rfl⟩ := List.cons_eq_cons.mp split
      exact .inl ⟨rfl, cased, others⟩
    | cons d front =>
      obtain ⟨rfl, rfl⟩ := List.cons_eq_cons.mp split
      rw [List.reverse_cons, List.append_assoc, List.singleton_append] at cased
      exact .inr ⟨front, back, rfl, cased, others⟩
  · rintro (⟨rfl, cased, others⟩ | ⟨front, back, rfl, cased, others⟩)
    · exact ⟨[], s, rfl, cased, others⟩
    · refine ⟨c :: front, back, rfl, ?_, others⟩
      rw [List.reverse_cons, List.append_assoc, List.singleton_append]
      exact cased

theorem meetsCased_cons (c : Char) (s : Text) :
    meetsCased (c :: s) = if isCaseIgnorable c then meetsCased s else isCased c := by
  unfold meetsCased
  rw [List.dropWhile_cons]
  cases isCaseIgnorable c <;> rfl

theorem meetsCased_append (s t : Text) :
    meetsCased (s ++ t) = if s.all isCaseIgnorable then meetsCased t else meetsCased s := by
  induction s with
  | nil => rfl
  | cons c s ih =>
    rw [List.cons_append, meetsCased_cons, meetsCased_cons, ih, List.all_cons]
    cases isCaseIgnorable c <;> rfl

theorem meetsCased_of_all (h : s.all isCaseIgnorable) : meetsCased s = false := by
  rw [← List.append_nil s, meetsCased_append, if_pos h]
  rfl

theorem lowerSigma_append_eq_iff {seen : Text} :
    lowerSigma seen s = lowerSigma seen (s ++ more) ↔
      ¬ (meetsCased seen ∧ s.all isCaseIgnorable ∧ meetsCased more) := by
  have apart : 'ς' ≠ 'σ' := by decide
  unfold lowerSigma
  rw [meetsCased_append]
  by_cases all : s.all isCaseIgnorable
  · rw [meetsCased_of_all all, if_pos all]
    cases meetsCased seen <;> cases meetsCased more <;> simp [all, apart]
  · rw [if_neg all]
    simp [all]

def lowerChar (seen : Text) (c : Char) (rest : Text) : Text :=
  if c = 'Σ' then [lowerSigma seen rest] else if c = 'İ' then ['i', '\u0307'] else [simpleLower c]

theorem lowerAfter_cons (seen : Text) (c : Char) (s : Text) :
    lowerAfter seen (c :: s) = lowerChar seen c s ++ lowerAfter (c :: seen) s := rfl

theorem length_lowerChar (seen : Text) (c : Char) (s t : Text) :
    (lowerChar seen c s).length = (lowerChar seen c t).length := by
  unfold lowerChar
  split
  · rfl
  · rfl

theorem lowerChar_append_eq_iff {seen : Text} :
    lowerChar seen c s = lowerChar seen c (s ++ more) ↔
      ¬ (c = 'Σ' ∧ meetsCased seen ∧ s.all isCaseIgnorable ∧ meetsCased more) := by
  unfold lowerChar
  by_cases sigma : c = 'Σ'
  · rw [if_pos sigma, if_pos sigma, List.singleton_inj, lowerSigma_append_eq_iff]
    simp [sigma]
  · simp [sigma]

theorem length_lowerAfter_le (seen s t : Text) :
    (lowerAfter seen s).length ≤ (lowerAfter seen (s ++ t)).length := by
  induction s generalizing seen with
  | nil => exact Nat.zero_le _
  | cons c s ih =>
    rw [List.cons_append, lowerAfter_cons, lowerAfter_cons, List.length_append, List.length_append,
      length_lowerChar seen c s (s ++ t)]
    exact Nat.add_le_add_left (ih (c :: seen)) _

theorem lowerAfter_prefix_append_iff {seen : Text} :
    lowerAfter seen s <+: lowerAfter seen (s ++ more) ↔ ¬ ResumesAfter seen s more := by
  induction s generalizing seen with
  | nil => exact iff_of_true List.nil_prefix not_resumesAfter_nil
  | cons c s ih =>
    rw [List.cons_append, lowerAfter_cons, lowerAfter_cons, resumesAfter_cons_iff, not_or, ← ih,
      ← lowerChar_append_eq_iff]
    have size := length_lowerChar seen c s (s ++ more)
    constructor
    · rintro ⟨back, eq⟩
      rw [List.append_assoc] at eq
      obtain ⟨first, others⟩ := List.append_inj eq size
      exact ⟨first, back, others⟩
    · rintro ⟨first, others⟩
      rw [← first]
      exact (List.prefix_append_right_inj _).mpr others

theorem lowerCase_prefix_append_iff : lowerCase s <+: lowerCase (s ++ more) ↔ ¬ Resumes s more :=
  lowerAfter_prefix_append_iff

end Console.Text
