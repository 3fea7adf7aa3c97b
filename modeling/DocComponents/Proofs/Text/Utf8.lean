import DocComponents.Text.Utf8

/-!
# Texts as bytes

The bytes that are written for a text are read as this text. A character is told by its first byte,
which says how many bytes follow and between which bounds the next one lies, and a character always
lies within the bounds that its own first byte gives.
-/

set_option autoImplicit false

namespace DocComponents.Utf8

theorem toNat_ofNat_of_lt {number : Nat} (small : number < 256) :
    (UInt8.ofNat number).toNat = number := by
  rw [UInt8.toNat_ofNat']
  omega

/-- The code points that are characters. -/
theorem toNat_bounds (char : Char) :
    char.toNat < 0xD800 ∨ 0xDFFF < char.toNat ∧ char.toNat < 0x110000 :=
  char.valid

theorem continue?_cons {least greatest count done value number : Nat} (rest : Bytes)
    (small : number < 256) (inside : least ≤ number ∧ number ≤ greatest) :
    continue? least greatest (count + 1) done value (UInt8.ofNat number :: rest) =
      continue? 0x80 0xBF count (done + 1) (value * 0x40 + number % 0x40) rest := by
  rw [continue?, toNat_ofNat_of_lt small, if_pos (by simpa using inside)]

theorem decodeFirst_of_shape {first least greatest count value : Nat} {rest : Bytes}
    (small : first < 256) (notAscii : 0x80 ≤ first)
    (shape : shape? first = some (least, greatest, count))
    (continued : continue? least greatest count 1 (first % Nat.pow 2 (6 - count)) rest =
      .ok value) :
    decodeFirst (UInt8.ofNat first) rest = .ok (Char.ofNat value, count) := by
  rw [decodeFirst, toNat_ofNat_of_lt small, if_neg (Nat.not_lt.mpr notAscii), shape]
  simp only [continued]

theorem decodeFirst_two {point : Nat} (least : 0x80 ≤ point) (greatest : point < 0x800)
    (rest : Bytes) :
    decodeFirst (UInt8.ofNat (0xC0 + point / 0x40))
      (UInt8.ofNat (0x80 + point % 0x40) :: rest) = .ok (Char.ofNat point, 1) := by
  have shape : shape? (0xC0 + point / 0x40) = some (0x80, 0xBF, 1) := by
    rw [shape?, if_pos (by simp; omega)]
  apply decodeFirst_of_shape (by omega) (by omega) shape
  rw [continue?_cons rest (by omega) (by omega), continue?]
  congr 1
  simp only [Nat.reduceSub, Nat.reducePow, Nat.pow_eq]
  omega

theorem decodeFirst_three {point : Nat} (least : 0x800 ≤ point) (greatest : point < 0x10000)
    (char : point < 0xD800 ∨ 0xDFFF < point) (rest : Bytes) :
    decodeFirst (UInt8.ofNat (0xE0 + point / 0x1000))
      (UInt8.ofNat (0x80 + point / 0x40 % 0x40) :: UInt8.ofNat (0x80 + point % 0x40) :: rest) =
        .ok (Char.ofNat point, 2) := by
  obtain ⟨low, high, shape, inside⟩ : ∃ low high,
      shape? (0xE0 + point / 0x1000) = some (low, high, 2) ∧
        low ≤ 0x80 + point / 0x40 % 0x40 ∧ 0x80 + point / 0x40 % 0x40 ≤ high := by
    unfold shape?
    split
    · next two => simp at two; omega
    · split
      · exact ⟨0xA0, 0xBF, rfl, by omega⟩
      · split
        · exact ⟨0x80, 0x9F, rfl, by omega⟩
        · rw [if_pos (by simp; omega)]
          exact ⟨0x80, 0xBF, rfl, by omega⟩
  apply decodeFirst_of_shape (by omega) (by omega) shape
  rw [continue?_cons _ (by omega) inside, continue?_cons _ (by omega) (by omega), continue?]
  congr 1
  simp only [Nat.reduceSub, Nat.reducePow, Nat.pow_eq]
  omega

theorem decodeFirst_four {point : Nat} (least : 0x10000 ≤ point) (greatest : point < 0x110000)
    (rest : Bytes) :
    decodeFirst (UInt8.ofNat (0xF0 + point / 0x40000))
      (UInt8.ofNat (0x80 + point / 0x1000 % 0x40) :: UInt8.ofNat (0x80 + point / 0x40 % 0x40) ::
        UInt8.ofNat (0x80 + point % 0x40) :: rest) = .ok (Char.ofNat point, 3) := by
  obtain ⟨low, high, shape, inside⟩ : ∃ low high,
      shape? (0xF0 + point / 0x40000) = some (low, high, 3) ∧
        low ≤ 0x80 + point / 0x1000 % 0x40 ∧ 0x80 + point / 0x1000 % 0x40 ≤ high := by
    unfold shape?
    rw [if_neg (by simp; omega), if_neg (by omega), if_neg (by omega), if_neg (by simp; omega)]
    split
    · exact ⟨0x90, 0xBF, rfl, by omega⟩
    · split
      · exact ⟨0x80, 0x8F, rfl, by omega⟩
      · rw [if_pos (by simp; omega)]
        exact ⟨0x80, 0xBF, rfl, by omega⟩
  apply decodeFirst_of_shape (by omega) (by omega) shape
  rw [continue?_cons _ (by omega) inside, continue?_cons _ (by omega) (by omega),
    continue?_cons _ (by omega) (by omega), continue?]
  congr 1
  simp only [Nat.reduceSub, Nat.reducePow, Nat.pow_eq]
  omega

/-- The first byte of a character tells the character, whatever stands behind its bytes. -/
theorem exists_decodeFirst_encodeChar (char : Char) :
    ∃ first more, encodeChar char = first :: more ∧
      ∀ rest, decodeFirst first (more ++ rest) = .ok (char, more.length) := by
  have bounds := toNat_bounds char
  have same : Char.ofNat char.toNat = char := Char.ofNat_toNat char
  unfold encodeChar
  dsimp only
  split
  · next ascii =>
      refine ⟨_, _, rfl, fun rest => ?_⟩
      rw [decodeFirst, toNat_ofNat_of_lt (by omega), if_pos ascii, same]
      rfl
  · split
    · next least greatest =>
        refine ⟨_, _, rfl, fun rest => ?_⟩
        have decoded := decodeFirst_two (Nat.not_lt.mp least) greatest rest
        rwa [same] at decoded
    · split
      · next least greatest =>
          refine ⟨_, _, rfl, fun rest => ?_⟩
          have decoded := decodeFirst_three (Nat.not_lt.mp least) greatest (by omega) rest
          rwa [same] at decoded
      · next least =>
          refine ⟨_, _, rfl, fun rest => ?_⟩
          have decoded := decodeFirst_four (Nat.not_lt.mp least) (by omega) rest
          rwa [same] at decoded

theorem decodeFrom_append (position : Nat) (skipped rest : Bytes) :
    decodeFrom position skipped.length (skipped ++ rest) =
      decodeFrom (position + skipped.length) 0 rest := by
  induction skipped generalizing position with
  | nil => rfl
  | cons byte others ih =>
      have later := ih (position + 1)
      rw [List.length_cons, List.cons_append, decodeFrom, later]
      congr 1
      omega

theorem decodeFrom_encode (text : Text) (position : Nat) :
    decodeFrom position 0 (encode text) = .ok text := by
  induction text generalizing position with
  | nil => rfl
  | cons char rest ih =>
      obtain ⟨first, more, bytes, decoded⟩ := exists_decodeFirst_encodeChar char
      have shape : encode (char :: rest) = first :: (more ++ encode rest) := by
        rw [encode, List.flatMap_cons, bytes]
        rfl
      rw [shape, decodeFrom, decoded]
      simp only [decodeFrom_append, ih]

/-- What is written is read back. -/
theorem decode_encode (text : Text) : decode (encode text) = .ok text :=
  decodeFrom_encode text 0

end DocComponents.Utf8
