import Console.Text.Blank
import Console.Text.CaseData

namespace Console.Text

def CaseRun.covers (run : CaseRun) (code : Nat) : Bool :=
  run.first ≤ code && code ≤ run.last && (code - run.first) % run.stride == 0

def simpleLower (c : Char) : Char :=
  match caseRuns.find? (·.covers c.toNat) with
  | some run => Char.ofNat (c.toNat + run.shift).toNat
  | none => c

def isCased (c : Char) : Bool := inRanges casedRanges c

def isCaseIgnorable (c : Char) : Bool := inRanges caseIgnorableRanges c

def meetsCased (s : Text) : Bool :=
  match s.dropWhile isCaseIgnorable with
  | [] => false
  | c :: _ => isCased c

/-- A sigma is final if cased characters stand before it and none after it. -/
def lowerSigma (seen rest : Text) : Char :=
  if meetsCased seen && !meetsCased rest then 'ς' else 'σ'

/-- Lower-cases the rest of a text, given the characters before it, the nearest first. -/
def lowerAfter (seen : Text) : Text → Text
  | [] => []
  | c :: rest =>
    let lowered :=
      if c = 'Σ' then [lowerSigma seen rest]
      else if c = 'İ' then ['i', '\u0307']
      else [simpleLower c]
    lowered ++ lowerAfter (c :: seen) rest

def lowerCase (s : Text) : Text := lowerAfter [] s

def sameIgnoringCase (s t : Text) : Bool := lowerCase s == lowerCase t

@[simp] theorem lowerCase_nil : lowerCase [] = [] := rfl

@[simp] theorem sameIgnoringCase_self (s : Text) : sameIgnoringCase s s := by
  simp [sameIgnoringCase]

end Console.Text
