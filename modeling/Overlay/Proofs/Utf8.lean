import Overlay.Text.Utf8

/-! Reading back the octets that were written for a text. The reader takes characters one at a time,
so the argument is one character long: the octets written for a character, whatever follows them,
are read as that character, and the reader goes on right behind them. -/
namespace Overlay.Text.Utf8

/-- A character is below the surrogates or between them and the end of the code space. -/
theorem toNat_bounds (c : Char) :
    c.toNat < 0xD800 ∨ (0xDFFF < c.toNat ∧ c.toNat < 0x110000) :=
  c.valid

theorem toNat_tail (n : Nat) : (tail n).toNat = 0x80 + n % 0x40 := by
  rw [tail, UInt8.toNat_ofNat']
  omega

theorem isTail_tail (n : Nat) : isTail (tail n) = true := by
  simp only [isTail, Bool.and_eq_true, decide_eq_true_eq, UInt8.le_iff_toNat_le, toNat_tail,
    UInt8.reduceToNat]
  omega

/-- An octet written arithmetically has that value as long as it fits. -/
private theorem toNat_octet {n : Nat} (fits : n < 0x100) : (UInt8.ofNat n).toNat = n := by
  rw [UInt8.toNat_ofNat']
  omega

private theorem read_one {c : Char} (small : c.toNat < 0x80) (position : Nat) (done : List Char)
    (rest : Bytes) :
    decodeFrom position done (UInt8.ofNat c.toNat :: rest) =
      decodeFrom (position + 1) (c :: done) rest := by
  have value := toNat_octet (n := c.toNat) (by omega)
  have first : UInt8.ofNat c.toNat < 0x80 := by
    rw [UInt8.lt_iff_toNat_lt, value]
    exact small
  rw [decodeFrom.eq_def]
  simp only [first, ↓reduceIte, value, Char.ofNat_toNat]

private theorem read_two {c : Char} (large : 0x80 ≤ c.toNat) (small : c.toNat < 0x800)
    (position : Nat) (done : List Char) (rest : Bytes) :
    decodeFrom position done (UInt8.ofNat (0xC0 + c.toNat / 0x40) :: tail c.toNat :: rest) =
      decodeFrom (position + 2) (c :: done) rest := by
  have value := toNat_octet (n := 0xC0 + c.toNat / 0x40) (by omega)
  have notOne : ¬ UInt8.ofNat (0xC0 + c.toNat / 0x40) < 0x80 := by
    simp only [UInt8.lt_iff_toNat_lt, value, UInt8.reduceToNat]
    omega
  have two : (0xC2 ≤ UInt8.ofNat (0xC0 + c.toNat / 0x40) &&
      UInt8.ofNat (0xC0 + c.toNat / 0x40) ≤ 0xDF) = true := by
    simp only [Bool.and_eq_true, decide_eq_true_eq, UInt8.le_iff_toNat_le, value,
      UInt8.reduceToNat]
    omega
  have joined : join2 (UInt8.ofNat (0xC0 + c.toNat / 0x40)) (tail c.toNat) = c := by
    have same : (0xC0 + c.toNat / 0x40 - 0xC0) * 0x40 + (0x80 + c.toNat % 0x40 - 0x80) =
        c.toNat := by omega
    rw [join2, value, toNat_tail, same, Char.ofNat_toNat]
  rw [decodeFrom.eq_def]
  simp only [notOne, two, ↓reduceIte, isTail_tail, joined]

private theorem read_three {c : Char} (large : 0x800 ≤ c.toNat) (small : c.toNat < 0x10000)
    (position : Nat) (done : List Char) (rest : Bytes) :
    decodeFrom position done
        (UInt8.ofNat (0xE0 + c.toNat / 0x1000) :: tail (c.toNat / 0x40) :: tail c.toNat :: rest) =
      decodeFrom (position + 3) (c :: done) rest := by
  have valid := toNat_bounds c
  have value := toNat_octet (n := 0xE0 + c.toNat / 0x1000) (by omega)
  generalize head : UInt8.ofNat (0xE0 + c.toNat / 0x1000) = first at value
  have notOne : ¬ first < 0x80 := by
    simp only [UInt8.lt_iff_toNat_lt, value, UInt8.reduceToNat]
    omega
  have notTwo : ¬ (0xC2 ≤ first && first ≤ 0xDF) = true := by
    simp only [Bool.and_eq_true, decide_eq_true_eq, UInt8.le_iff_toNat_le, value,
      UInt8.reduceToNat]
    omega
  have three : (0xE0 ≤ first && first ≤ 0xEF) = true := by
    simp only [Bool.and_eq_true, decide_eq_true_eq, UInt8.le_iff_toNat_le, value,
      UInt8.reduceToNat]
    omega
  -- The two first octets with a narrower second one are those next to shorter forms and surrogates.
  have second : second3 first (tail (c.toNat / 0x40)) = true := by
    unfold second3
    split
    · rename_i lowest
      have lowest := congrArg UInt8.toNat (eq_of_beq lowest)
      simp only [value, UInt8.reduceToNat] at lowest
      simp only [Bool.and_eq_true, decide_eq_true_eq, UInt8.le_iff_toNat_le, toNat_tail,
        UInt8.reduceToNat]
      omega
    · split
      · rename_i surrogate
        have surrogate := congrArg UInt8.toNat (eq_of_beq surrogate)
        simp only [value, UInt8.reduceToNat] at surrogate
        simp only [Bool.and_eq_true, decide_eq_true_eq, UInt8.le_iff_toNat_le, toNat_tail,
          UInt8.reduceToNat]
        omega
      · exact isTail_tail _
  have joined : join3 first (tail (c.toNat / 0x40)) (tail c.toNat) = c := by
    have same : (0xE0 + c.toNat / 0x1000 - 0xE0) * 0x1000 +
        (0x80 + c.toNat / 0x40 % 0x40 - 0x80) * 0x40 + (0x80 + c.toNat % 0x40 - 0x80) =
          c.toNat := by omega
    rw [join3, value, toNat_tail, toNat_tail, same, Char.ofNat_toNat]
  rw [decodeFrom.eq_def]
  simp only [notOne, notTwo, three, second, ↓reduceIte, isTail_tail, joined, Bool.false_eq_true]

private theorem read_four {c : Char} (large : 0x10000 ≤ c.toNat) (position : Nat)
    (done : List Char) (rest : Bytes) :
    decodeFrom position done
        (UInt8.ofNat (0xF0 + c.toNat / 0x40000) :: tail (c.toNat / 0x1000) ::
          tail (c.toNat / 0x40) :: tail c.toNat :: rest) =
      decodeFrom (position + 4) (c :: done) rest := by
  have valid := toNat_bounds c
  have value := toNat_octet (n := 0xF0 + c.toNat / 0x40000) (by omega)
  generalize head : UInt8.ofNat (0xF0 + c.toNat / 0x40000) = first at value
  have notOne : ¬ first < 0x80 := by
    simp only [UInt8.lt_iff_toNat_lt, value, UInt8.reduceToNat]
    omega
  have notTwo : ¬ (0xC2 ≤ first && first ≤ 0xDF) = true := by
    simp only [Bool.and_eq_true, decide_eq_true_eq, UInt8.le_iff_toNat_le, value,
      UInt8.reduceToNat]
    omega
  have notThree : ¬ (0xE0 ≤ first && first ≤ 0xEF) = true := by
    simp only [Bool.and_eq_true, decide_eq_true_eq, UInt8.le_iff_toNat_le, value,
      UInt8.reduceToNat]
    omega
  have four : (0xF0 ≤ first && first ≤ 0xF4) = true := by
    simp only [Bool.and_eq_true, decide_eq_true_eq, UInt8.le_iff_toNat_le, value,
      UInt8.reduceToNat]
    omega
  have second : second4 first (tail (c.toNat / 0x1000)) = true := by
    unfold second4
    split
    · rename_i lowest
      have lowest := congrArg UInt8.toNat (eq_of_beq lowest)
      simp only [value, UInt8.reduceToNat] at lowest
      simp only [Bool.and_eq_true, decide_eq_true_eq, UInt8.le_iff_toNat_le, toNat_tail,
        UInt8.reduceToNat]
      omega
    · split
      · rename_i highest
        have highest := congrArg UInt8.toNat (eq_of_beq highest)
        simp only [value, UInt8.reduceToNat] at highest
        simp only [Bool.and_eq_true, decide_eq_true_eq, UInt8.le_iff_toNat_le, toNat_tail,
          UInt8.reduceToNat]
        omega
      · exact isTail_tail _
  have joined : join4 first (tail (c.toNat / 0x1000)) (tail (c.toNat / 0x40)) (tail c.toNat) =
      c := by
    have same : (0xF0 + c.toNat / 0x40000 - 0xF0) * 0x40000 +
        (0x80 + c.toNat / 0x1000 % 0x40 - 0x80) * 0x1000 +
        (0x80 + c.toNat / 0x40 % 0x40 - 0x80) * 0x40 + (0x80 + c.toNat % 0x40 - 0x80) =
          c.toNat := by omega
    rw [join4, value, toNat_tail, toNat_tail, toNat_tail, same, Char.ofNat_toNat]
  rw [decodeFrom.eq_def]
  simp only [notOne, notTwo, notThree, four, second, ↓reduceIte, isTail_tail, joined,
    Bool.false_eq_true]

/-- The octets of one character are read as that character, whatever follows them. -/
theorem decodeFrom_encodeChar (c : Char) (position : Nat) (done : List Char) (rest : Bytes) :
    ∃ next, decodeFrom position done (encodeChar c ++ rest) = decodeFrom next (c :: done) rest := by
  unfold encodeChar
  by_cases one : c.toNat < 0x80
  · simp only [one, ↓reduceIte]
    exact ⟨_, read_one one position done rest⟩
  by_cases two : c.toNat < 0x800
  · simp only [one, two, ↓reduceIte]
    exact ⟨_, read_two (by omega) two position done rest⟩
  by_cases three : c.toNat < 0x10000
  · simp only [one, two, three, ↓reduceIte]
    exact ⟨_, read_three (by omega) three position done rest⟩
  · simp only [one, two, three, ↓reduceIte]
    exact ⟨_, read_four (by omega) position done rest⟩

theorem encode_append (first second : List Char) :
    encode (first ++ second) = encode first ++ encode second :=
  List.flatMap_append

theorem encode_cons (c : Char) (cs : List Char) : encode (c :: cs) = encodeChar c ++ encode cs :=
  List.flatMap_cons

private theorem decodeFrom_encode (cs : List Char) (position : Nat) (done : List Char) :
    decodeFrom position done (encode cs) = .ok (done.reverse ++ cs) := by
  induction cs generalizing position done with
  | nil => simp [encode, decodeFrom]
  | cons c cs ih =>
    obtain ⟨next, reads⟩ := decodeFrom_encodeChar c position done (encode cs)
    rw [encode_cons, reads, ih]
    simp

/-- Whatever text is written, it is read back. -/
theorem decode_encode (cs : List Char) : decode (encode cs) = .ok cs :=
  decodeFrom_encode cs 0 []

theorem decode?_encode (cs : List Char) : decode? (encode cs) = some cs := by
  rw [decode?, decode_encode]
  rfl

end Overlay.Text.Utf8
