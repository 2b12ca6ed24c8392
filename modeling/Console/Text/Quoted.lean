import Console.Text.Blank

namespace Console.Text.Quoted

inductive Fault
  | noOpening
  | badEscape (c : Char)
  | noBlankAfter
  | unclosed
  deriving DecidableEq, Repr

def escape : Text → Text
  | [] => []
  | c :: s => if c = '"' ∨ c = '\\' then '\\' :: c :: escape s else c :: escape s

def encode (s : Text) : Text := '"' :: (escape s ++ ['"'])

/-- Reads up to the closing quote, which must end a word; `escaped` holds after a backslash. -/
def decodeBody (escaped : Bool) : Text → Except Fault (Text × Text)
  | [] => .error .unclosed
  | c :: s =>
    if escaped then
      if c = '"' ∨ c = '\\' then (decodeBody false s).map fun (value, rest) => (c :: value, rest)
      else .error (.badEscape c)
    else if c = '"' then
      if startsBlank s then .ok ([], s) else .error .noBlankAfter
    else if c = '\\' then decodeBody true s
    else (decodeBody false s).map fun (value, rest) => (c :: value, rest)

def decode : Text → Except Fault (Text × Text)
  | [] => .error .noOpening
  | c :: s => if c = '"' then decodeBody false s else .error .noOpening

theorem decodeBody_escape_append (read rest : Text) :
    decodeBody false (escape read ++ rest) =
      (decodeBody false rest).map fun (value, left) => (read ++ value, left) := by
  induction read with
  | nil => cases h : decodeBody false rest <;> simp [escape, h, Except.map]
  | cons c read ih =>
    by_cases special : c = '"' ∨ c = '\\'
    · cases h : decodeBody false rest <;>
        simp [escape, decodeBody, special, ih, h, Except.map]
    · obtain ⟨quote, backslash⟩ := not_or.mp special
      cases h : decodeBody false rest <;>
        simp [escape, decodeBody, quote, backslash, ih, h, Except.map]

theorem decodeBody_escape (s : Text) {rest : Text} (h : startsBlank rest) :
    decodeBody false (escape s ++ '"' :: rest) = .ok (s, rest) := by
  rw [decodeBody_escape_append]
  simp [decodeBody, h, Except.map]

theorem decode_encode (s : Text) {rest : Text} (h : startsBlank rest) :
    decode (encode s ++ rest) = .ok (s, rest) := by
  simpa [decode, encode] using decodeBody_escape s h

theorem eq_escape_of_decodeBody {s value rest : Text} {escaped : Bool}
    (h : decodeBody escaped s = .ok (value, rest)) :
    (if escaped then '\\' :: s else s) = escape value ++ '"' :: rest ∧ startsBlank rest := by
  induction s generalizing value escaped with
  | nil => simp [decodeBody] at h
  | cons c s ih =>
    unfold decodeBody at h
    split at h
    · rename_i he
      subst he
      split at h
      · rename_i hc
        cases hs : decodeBody false s with
        | error e => simp [hs, Except.map] at h
        | ok p =>
          simp only [hs, Except.map, Except.ok.injEq, Prod.mk.injEq] at h
          obtain ⟨rfl, rfl⟩ := h
          simpa [escape, hc] using ih hs
      · simp at h
    · rename_i he
      obtain rfl : escaped = false := by simpa using he
      split at h
      · rename_i hc
        split at h
        · rename_i hb
          simp only [Except.ok.injEq, Prod.mk.injEq] at h
          obtain ⟨rfl, rfl⟩ := h
          simp [escape, hc, hb]
        · simp at h
      · rename_i hq
        split at h
        · rename_i hb
          simpa [hb] using ih h
        · rename_i hb
          cases hs : decodeBody false s with
          | error e => simp [hs, Except.map] at h
          | ok p =>
            simp only [hs, Except.map, Except.ok.injEq, Prod.mk.injEq] at h
            obtain ⟨rfl, rfl⟩ := h
            simpa [escape, hq, hb] using ih hs

theorem eq_encode_of_decode {s value rest : Text} (h : decode s = .ok (value, rest)) :
    s = encode value ++ rest ∧ startsBlank rest := by
  cases s with
  | nil => simp [decode] at h
  | cons c s =>
    by_cases hc : c = '"'
    · rw [decode, if_pos hc] at h
      simpa [encode, hc] using eq_escape_of_decodeBody h
    · simp [decode, hc] at h

end Console.Text.Quoted
