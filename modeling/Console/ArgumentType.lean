import Console.Failure
import Console.Text.LowerCase
import Console.Text.Words
import Console.Value

namespace Console

/-- An argument type of the host. Its reader says how many characters an argument takes, so that
what is left is always a suffix. -/
structure HostType where
  name : Text
  isGreedy : Bool
  read : Text → Except ParseFailure (Value × Nat)
  suggest : Text → List Text

inductive ArgumentType
  | word
  | string
  | greedyString
  | integer (least greatest : Int)
  | float (least greatest : Binary32)
  | boolean
  | choice (choices : List Text)
  | host (type : HostType)

namespace ArgumentType

def leastInteger : Int := -0x80000000

def greatestInteger : Int := 0x7FFFFFFF

def anyInteger : ArgumentType := integer leastInteger greatestInteger

def anyFloat : ArgumentType := float Binary32.least Binary32.greatest

def name : ArgumentType → Text
  | word => Text.of "word"
  | string => Text.of "string"
  | greedyString => Text.of "greedy_string"
  | integer _ _ => Text.of "integer"
  | float _ _ => Text.of "float"
  | boolean => Text.of "boolean"
  | choice _ => Text.of "choice"
  | host type => type.name

def isGreedy : ArgumentType → Bool
  | greedyString => true
  | host type => type.isGreedy
  | _ => false

def suggest : ArgumentType → Text → List Text
  | boolean, _ => [Text.of "true", Text.of "false"]
  | choice choices, _ => choices
  | host type, partialWord => type.suggest partialWord
  | _, _ => []

def readWord (absent : Reason) (read : Text → Except Reason Value) (s : Text) :
    Except ParseFailure (Value × Text) :=
  match Text.nextWord? s with
  | none => .error ⟨absent, []⟩
  | some (token, rest) =>
    match read token with
    | .ok value => .ok (value, rest)
    | .error reason => .error ⟨reason, token⟩

def readInteger (least greatest : Int) (token : Text) : Except Reason Value :=
  match Decimal.readInteger? token with
  | none => .error .badInteger
  | some n =>
    if leastInteger ≤ n ∧ n ≤ greatestInteger then
      if least ≤ n ∧ n ≤ greatest then .ok (.integer n)
      else .error (.integerOutside least greatest)
    else .error .badInteger

def readFloat (least greatest : Binary32) (token : Text) : Except Reason Value :=
  match Binary32.read? token with
  | none => .error .badFloat
  | some x =>
    if least.le x && x.le greatest then .ok (.float x) else .error (.floatOutside least greatest)

def readBoolean (token : Text) : Except Reason Value :=
  let lowered := Text.lowerCase token
  if lowered = Text.of "true" then .ok (.boolean true)
  else if lowered = Text.of "false" then .ok (.boolean false)
  else .error .badBoolean

def readChoice (choices : List Text) (token : Text) : Except Reason Value :=
  if token ∈ choices then .ok (.string token) else .error (.notAmong choices)

def readQuoted (s : Text) : Except ParseFailure (Value × Text) :=
  let s := Text.trimStart s
  match Text.Quoted.decode s with
  | .ok (text, rest) => .ok (.string text, rest)
  | .error fault => .error ⟨.quoting fault, s⟩

def parse : ArgumentType → Text → Except ParseFailure (Value × Text)
  | word, s => readWord .noWord (fun token => .ok (.string token)) s
  | string, s =>
    if (Text.trimStart s).head? = some '"' then readQuoted s
    else readWord .noWord (fun token => .ok (.string token)) s
  | greedyString, s => .ok (.string (Text.trim s), [])
  | integer least greatest, s => readWord .noInteger (readInteger least greatest) s
  | float least greatest, s => readWord .noFloat (readFloat least greatest) s
  | boolean, s => readWord .noBoolean readBoolean s
  | choice choices, s => readWord .noChoice (readChoice choices) s
  | host type, s => (type.read s).map fun (value, taken) => (value, s.drop taken)

theorem suffix_of_readWord {absent : Reason} {read : Text → Except Reason Value} {s rest : Text}
    {value : Value} (h : readWord absent read s = .ok (value, rest)) : rest <:+ s := by
  unfold readWord at h
  split at h
  · cases h
  · rename_i hw
    split at h
    · cases h
      have := (Text.nextWord?_eq_some hw).1
      exact ⟨_, this⟩
    · cases h

theorem suffix_of_readQuoted {s rest : Text} {value : Value}
    (h : readQuoted s = .ok (value, rest)) : rest <:+ s := by
  unfold readQuoted at h
  simp only at h
  split at h
  · rename_i hd
    cases h
    have := (Text.Quoted.eq_encode_of_decode hd).1
    exact List.IsSuffix.trans ⟨_, this.symm⟩ (List.dropWhile_suffix _)
  · cases h

theorem suffix_of_parse {type : ArgumentType} {s rest : Text} {value : Value}
    (h : type.parse s = .ok (value, rest)) : rest <:+ s := by
  cases type with
  | word =>
    simp only [parse] at h
    exact suffix_of_readWord h
  | string =>
    simp only [parse] at h
    split at h
    · exact suffix_of_readQuoted h
    · exact suffix_of_readWord h
  | greedyString =>
    cases h
    exact List.nil_suffix
  | integer => exact suffix_of_readWord h
  | float => exact suffix_of_readWord h
  | boolean => exact suffix_of_readWord h
  | choice => exact suffix_of_readWord h
  | host type =>
    simp only [parse] at h
    cases hr : type.read s with
    | error e => simp [hr, Except.map] at h
    | ok read =>
      simp only [hr, Except.map, Except.ok.injEq, Prod.mk.injEq] at h
      rw [← h.2]
      exact List.drop_suffix _ _

end ArgumentType

end Console
