import Console.Number.Decimal
import Mathlib.Data.List.Induction
import Mathlib.Data.Nat.Digits.Defs

namespace Console

namespace Decimal

variable {digits text : Text} {n : Int}

def magnitude (digits : Text) : Nat := Nat.ofDigits 10 (digits.reverse.map digitValue)

inductive Denotes : Text → Int → Prop
  | plain {digits : Text} (h : isDigits digits) : Denotes digits (magnitude digits)
  | plus {digits : Text} (h : isDigits digits) : Denotes ('+' :: digits) (magnitude digits)
  | minus {digits : Text} (h : isDigits digits) : Denotes ('-' :: digits) (-magnitude digits)

theorem valueIn_eq_ofDigits (base : Nat) (digits : Text) :
    valueIn base digits = Nat.ofDigits base (digits.reverse.map digitValue) := by
  induction digits using List.reverseRecOn with
  | nil => rfl
  | append_singleton digits c ih =>
    rw [valueIn, List.foldl_append, ← valueIn, ih, List.reverse_append, List.reverse_singleton,
      List.singleton_append, List.map_cons, Nat.ofDigits_cons, Nat.mul_comm, Nat.add_comm]
    rfl

theorem splitSign_of_isDigits (h : isDigits digits) : splitSign digits = (false, digits) := by
  cases digits with
  | nil => rfl
  | cons c digits =>
    have digit : c.isDigit := by
      rw [isDigits, Bool.and_eq_true, List.all_cons, Bool.and_eq_true] at h
      exact h.2.1
    have minus : c ≠ '-' := by rintro rfl; cases digit
    have plus : c ≠ '+' := by rintro rfl; cases digit
    rw [splitSign, if_neg minus, if_neg plus]

theorem splitSign_cases (text : Text) :
    (∃ digits, text = '-' :: digits ∧ splitSign text = (true, digits)) ∨
      (∃ digits, text = '+' :: digits ∧ splitSign text = (false, digits)) ∨
      splitSign text = (false, text) := by
  cases text with
  | nil => exact .inr (.inr rfl)
  | cons c digits =>
    by_cases minus : c = '-'
    · exact .inl ⟨digits, by rw [minus], by rw [splitSign, if_pos minus]⟩
    by_cases plus : c = '+'
    · exact .inr (.inl ⟨digits, by rw [plus], by rw [splitSign, if_neg minus, if_pos plus]⟩)
    · exact .inr (.inr (by rw [splitSign, if_neg minus, if_neg plus]))

theorem readInteger?_eq {negative : Bool} (split : splitSign text = (negative, digits)) :
    readInteger? text =
      if isDigits digits then some (signed negative (magnitude digits)) else none := by
  rw [readInteger?, split, magnitude, ← valueIn_eq_ofDigits]

theorem denotes_iff : Denotes text n ↔ readInteger? text = some n := by
  constructor
  · intro denotes
    cases denotes with
    | plain h =>
      rw [readInteger?_eq (splitSign_of_isDigits h), if_pos h]
      rfl
    | @plus digits h =>
      have split : splitSign ('+' :: digits) = (false, digits) := rfl
      rw [readInteger?_eq split, if_pos h]
      rfl
    | @minus digits h =>
      have split : splitSign ('-' :: digits) = (true, digits) := rfl
      rw [readInteger?_eq split, if_pos h]
      rfl
  · intro read
    rcases splitSign_cases text with ⟨digits, rfl, split⟩ | ⟨digits, rfl, split⟩ | split
    all_goals
      rw [readInteger?_eq split, Option.ite_none_right_eq_some, Option.some.injEq] at read
      obtain ⟨h, rfl⟩ := read
    · exact .minus h
    · exact .plus h
    · exact .plain h

theorem magnitude_writeNat (n : Nat) : magnitude (writeNat n) = n := by
  have digits (t : Text) (all : ∀ c ∈ t, c.isDigit) (m : Nat) :
      t.foldl (fun n c => n * 10 + digitValue c) m = Nat.ofDigitChars 10 t m := by
    induction t generalizing m with
    | nil => rfl
    | cons c t ih =>
      obtain ⟨digit, later⟩ := List.forall_mem_cons.mp all
      rw [List.foldl_cons, ih later, Nat.ofDigitChars_cons, digitValue, if_pos digit, Nat.mul_comm]
  have all : ∀ c ∈ writeNat n, c.isDigit :=
    fun c mem => Nat.isDigit_of_mem_toDigits (by decide) (by decide) mem
  rw [magnitude, ← valueIn_eq_ofDigits, valueIn, digits _ all, writeNat,
    Nat.ofDigitChars_toDigits (by decide) (by decide)]

theorem isDigits_writeNat (n : Nat) : isDigits (writeNat n) := by
  rw [isDigits, Bool.and_eq_true, List.all_eq_true]
  exact ⟨by simp [writeNat, Nat.toDigits_ne_nil],
    fun c mem => Nat.isDigit_of_mem_toDigits (by decide) (by decide) mem⟩

theorem readInteger?_writeInteger (n : Int) : readInteger? (writeInteger n) = some n := by
  rw [← denotes_iff, writeInteger]
  have same := magnitude_writeNat n.natAbs
  by_cases negative : n < 0
  · rw [if_pos negative]
    have minus := Denotes.minus (isDigits_writeNat n.natAbs)
    rwa [same, Int.ofNat_natAbs_of_nonpos negative.le, neg_neg] at minus
  · rw [if_neg negative]
    have plain := Denotes.plain (isDigits_writeNat n.natAbs)
    rwa [same, Int.natAbs_of_nonneg (not_lt.mp negative)] at plain

end Decimal

end Console
