import Console.Text.Blank

namespace Console.Text

def byteSize : Text → Nat
  | [] => 0
  | c :: s => c.utf8Size + byteSize s

/-- Cuts a text after so many bytes, if the text has them and no character is divided. -/
def cutAtByte? : Nat → Text → Option (Text × Text)
  | 0, s => some ([], s)
  | _ + 1, [] => none
  | n + 1, c :: s =>
    if c.utf8Size ≤ n + 1 then
      (cutAtByte? (n + 1 - c.utf8Size) s).map fun (front, rest) => (c :: front, rest)
    else none

def toBytes (s : Text) : ByteArray := (String.ofList s).toByteArray

def ofBytes? (bytes : ByteArray) : Option Text := bytes.utf8Decode?.map (·.toList)

@[simp] theorem ofBytes?_toBytes (s : Text) : ofBytes? (toBytes s) = some s := by
  simp [ofBytes?, toBytes]

theorem toBytes_of_ofBytes? {bytes : ByteArray} {s : Text} (h : ofBytes? bytes = some s) :
    toBytes s = bytes := by
  obtain ⟨chars, decoded, rfl⟩ := Option.map_eq_some_iff.mp h
  have whole := ByteArray.utf8Encode_get_utf8Decode? (b := bytes) (h := by rw [decoded]; rfl)
  simpa [toBytes, decoded] using whole

theorem cutAtByte?_eq_some {n : Nat} {s front rest : Text}
    (h : cutAtByte? n s = some (front, rest)) : front ++ rest = s ∧ byteSize front = n := by
  fun_induction cutAtByte? n s generalizing front with
  | case1 s => cases h; exact ⟨rfl, rfl⟩
  | case2 => cases h
  | case3 n c s hc ih =>
    obtain ⟨⟨front', rest'⟩, hcut, heq⟩ := Option.map_eq_some_iff.mp h
    cases heq
    obtain ⟨eq, size⟩ := ih hcut
    exact ⟨by simp [eq], by simp only [byteSize, size]; omega⟩
  | case4 => cases h

theorem cutAtByte?_append (front rest : Text) :
    cutAtByte? (byteSize front) (front ++ rest) = some (front, rest) := by
  induction front with
  | nil => simp [byteSize, cutAtByte?]
  | cons c front ih =>
    have positive : 0 < c.utf8Size := c.utf8Size_pos
    obtain ⟨n, size⟩ : ∃ n, byteSize (c :: front) = n + 1 := ⟨c.utf8Size + byteSize front - 1, by
      rw [byteSize]; omega⟩
    rw [size, List.cons_append, cutAtByte?, ← size, byteSize, if_pos (Nat.le_add_right ..),
      Nat.add_sub_cancel_left, ih]
    rfl

end Console.Text
