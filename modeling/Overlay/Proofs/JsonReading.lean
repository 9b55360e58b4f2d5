import Overlay.Json
import Overlay.Proofs.Numeral
import Overlay.Proofs.Utf8

/-! Reading what the writer of documents writes. The reader of tokens is a machine on octets, so the
argument follows the machine: what is written for a character, a string or a number takes it from
one place to another, whatever it has collected before and whatever comes after. Documents are then
read by putting such pieces one behind the other. -/
namespace Overlay.Json
open Text.Utf8

/-- Octets that take the reader from one place to another give these tokens on the way. -/
def Reads (before : Inside) (bytes : Bytes) (tokens : List Token) (after : Inside) : Prop :=
  ∀ done rest,
    tokensFrom before done (bytes ++ rest) = tokensFrom after (tokens.reverse ++ done) rest

theorem reads_nothing (inside : Inside) : Reads inside [] [] inside :=
  fun _ _ => rfl

theorem reads_step {before after : Inside} {b : UInt8} {tokens : List Token}
    (stepped : step? before b = some (tokens, after)) : Reads before [b] tokens after := by
  intro done rest
  rw [List.singleton_append, tokensFrom, stepped]

/-- Pieces of a document are read one behind the other. -/
theorem Reads.append {first middle last : Inside} {bytes more : Bytes} {tokens later : List Token}
    (head : Reads first bytes tokens middle) (tail : Reads middle more later last) :
    Reads first (bytes ++ more) (tokens ++ later) last := by
  intro done rest
  rw [List.append_assoc, head, tail, List.reverse_append, List.append_assoc]

theorem tokens?_of_reads {bytes : Bytes} {tokens : List Token}
    (reads : Reads .between bytes tokens .between) : tokens? bytes = some tokens := by
  have whole := reads [] []
  rw [List.append_nil, List.append_nil] at whole
  rw [tokens?, whole]
  simp [tokensFrom, finish?]

/-! ### Strings -/

/-- The pieces that a character is read as: its octets, or one unit where it was written as one. -/
def piecesOf (c : Char) : List Piece :=
  if c.toNat < 0x20 ∧ c ≠ '\x08' ∧ c ≠ '\x0c' ∧ c ≠ '\n' ∧ c ≠ '\r' ∧ c ≠ '\t' then
    [.unit c.toNat]
  else (encodeChar c).map .octet

/-- The pieces that a text is read as. -/
def written (text : String) : List Piece :=
  text.toList.flatMap piecesOf

/-- An octet that stands for itself inside a string. -/
def Plain (b : UInt8) : Prop :=
  b ≠ 0x22 ∧ b ≠ 0x5C ∧ 0x20 ≤ b

theorem reads_plain (pieces : List Piece) (bytes : Bytes) (plain : ∀ b ∈ bytes, Plain b) :
    Reads (.text pieces) bytes [] (.text ((bytes.map .octet).reverse ++ pieces)) := by
  induction bytes generalizing pieces with
  | nil => exact reads_nothing _
  | cons b bytes ih =>
    obtain ⟨notQuote, notBackslash, printable⟩ := plain b (by simp)
    have notControl : ¬ b < 0x20 := UInt8.not_lt.mpr printable
    have step : step? (.text pieces) b = some ([], .text (.octet b :: pieces)) := by
      simp [step?, notQuote, notBackslash, notControl]
    have rest := ih (.octet b :: pieces) (fun other member => plain other (by simp [member]))
    simpa using (reads_step step).append rest

/-- Every octet of a character other than a quote, a backslash and a control character is plain. -/
theorem plain_encodeChar {c : Char} (notQuote : c ≠ '"') (notBackslash : c ≠ '\\')
    (printable : 0x20 ≤ c.toNat) : ∀ b ∈ encodeChar c, Plain b := by
  have valid := toNat_bounds c
  have large : ∀ {b : UInt8}, 0x80 ≤ b.toNat → Plain b := by
    intro b high
    refine ⟨?_, ?_, ?_⟩
    · rintro rfl
      exact absurd high (by decide)
    · rintro rfl
      exact absurd high (by decide)
    · rw [UInt8.le_iff_toNat_le]
      exact Nat.le_trans (by decide) high
  have tails : ∀ n, Plain (tail n) := fun n => large (by rw [toNat_tail]; omega)
  have heads : ∀ {n}, 0x80 ≤ n → n < 0x100 → Plain (UInt8.ofNat n) := by
    intro n low high
    apply large
    rw [UInt8.toNat_ofNat']
    omega
  unfold encodeChar
  intro b member
  by_cases one : c.toNat < 0x80
  · simp only [one, ↓reduceIte, List.mem_singleton] at member
    subst b
    have value : (UInt8.ofNat c.toNat).toNat = c.toNat := by
      rw [UInt8.toNat_ofNat']
      omega
    refine ⟨?_, ?_, ?_⟩
    · intro same
      rw [same] at value
      exact notQuote (Char.toNat_inj.mp value.symm)
    · intro same
      rw [same] at value
      exact notBackslash (Char.toNat_inj.mp value.symm)
    · rw [UInt8.le_iff_toNat_le, value]
      exact printable
  by_cases two : c.toNat < 0x800
  · simp only [one, two, ↓reduceIte, List.mem_cons, List.not_mem_nil, or_false] at member
    rcases member with rfl | rfl
    · exact heads (by omega) (by omega)
    · exact tails _
  by_cases three : c.toNat < 0x10000
  · simp only [one, two, three, ↓reduceIte, List.mem_cons, List.not_mem_nil, or_false] at member
    rcases member with rfl | rfl | rfl
    · exact heads (by omega) (by omega)
    · exact tails _
    · exact tails _
  · simp only [one, two, three, ↓reduceIte, List.mem_cons, List.not_mem_nil, or_false] at member
    rcases member with rfl | rfl | rfl | rfl
    · exact heads (by omega) (by omega)
    · exact tails _
    · exact tails _
    · exact tails _

/-- A digit of base sixteen is one octet, and it is read back. -/
private theorem hexChar_read :
    ∀ d, d < 16 → encodeChar (Numeral.hexChar d) = [UInt8.ofNat (Numeral.hexChar d).toNat] ∧
      Numeral.hexDigit? (char (UInt8.ofNat (Numeral.hexChar d).toNat)) = some d := by
  decide

private theorem reads_unit (pieces : List Piece) {n : Nat} (control : n < 0x20) :
    Reads (.text pieces)
      (encode ['\\', 'u', '0', '0', Numeral.hexChar (n / 16), Numeral.hexChar (n % 16)]) []
      (.text (.unit n :: pieces)) := by
  obtain ⟨highOctet, high⟩ := hexChar_read (n / 16) (by omega)
  obtain ⟨lowOctet, low⟩ := hexChar_read (n % 16) (by omega)
  have line : encode
      ['\\', 'u', '0', '0', Numeral.hexChar (n / 16), Numeral.hexChar (n % 16)] =
      [0x5C] ++ ([0x75] ++ ([0x30] ++ ([0x30] ++ ([UInt8.ofNat (Numeral.hexChar (n / 16)).toNat] ++
        [UInt8.ofNat (Numeral.hexChar (n % 16)).toNat])))) := by
    rw [encode_cons, encode_cons, encode_cons, encode_cons, encode_cons, encode_cons, highOctet,
      lowOctet]
    rfl
  have opened : step? (.text pieces) 0x5C = some ([], .escape pieces) := rfl
  have marked : step? (.escape pieces) 0x75 = some ([], .unit pieces 4 0) := rfl
  have first : step? (.unit pieces 4 0) 0x30 = some ([], .unit pieces 3 0) := rfl
  have second : step? (.unit pieces 3 0) 0x30 = some ([], .unit pieces 2 0) := rfl
  have third : step? (.unit pieces 2 0) (UInt8.ofNat (Numeral.hexChar (n / 16)).toNat) =
      some ([], .unit pieces 1 (n / 16)) := by
    simp [step?, high]
  have fourth : step? (.unit pieces 1 (n / 16)) (UInt8.ofNat (Numeral.hexChar (n % 16)).toNat) =
      some ([], .text (.unit n :: pieces)) := by
    have whole : 16 * (n / 16) + n % 16 = n := by omega
    simp [step?, low, whole]
  rw [line]
  exact (reads_step opened).append ((reads_step marked).append ((reads_step first).append
    ((reads_step second).append ((reads_step third).append (reads_step fourth)))))

/-- What is written for a character inside a string is read as that character's pieces. -/
theorem reads_char (pieces : List Piece) (c : Char) :
    Reads (.text pieces) (encode (writeChar c)) [] (.text ((piecesOf c).reverse ++ pieces)) := by
  -- Escaped by a letter: the two octets are followed one by one.
  have letter : ∀ b octet : UInt8, escaped? b = some octet → b ≠ 0x75 →
      Reads (.text pieces) [0x5C, b] [] (.text (.octet octet :: pieces)) := by
    intro b octet known notUnit
    have opened : step? (.text pieces) 0x5C = some ([], .escape pieces) := rfl
    have named : step? (.escape pieces) b = some ([], .text (.octet octet :: pieces)) := by
      simp [step?, notUnit, known]
    exact (reads_step opened).append (reads_step named)
  unfold writeChar
  by_cases quote : c = '"'
  · subst c
    exact letter 0x22 0x22 rfl (by decide)
  by_cases backslash : c = '\\'
  · subst c
    exact letter 0x5C 0x5C rfl (by decide)
  by_cases backspace : c = '\x08'
  · subst c
    exact letter 0x62 0x08 rfl (by decide)
  by_cases feed : c = '\x0c'
  · subst c
    exact letter 0x66 0x0C rfl (by decide)
  by_cases newline : c = '\n'
  · subst c
    exact letter 0x6E 0x0A rfl (by decide)
  by_cases carriage : c = '\r'
  · subst c
    exact letter 0x72 0x0D rfl (by decide)
  by_cases tab : c = '\t'
  · subst c
    exact letter 0x74 0x09 rfl (by decide)
  by_cases control : c.toNat < 0x20
  · have unit : piecesOf c = [.unit c.toNat] :=
      if_pos ⟨control, backspace, feed, newline, carriage, tab⟩
    simp only [quote, backslash, backspace, feed, newline, carriage, tab, control, ↓reduceIte, unit]
    exact reads_unit pieces control
  · have octets : piecesOf c = (encodeChar c).map .octet := if_neg fun unit => control unit.1
    have single : encode [c] = encodeChar c := by simp [encode]
    simp only [quote, backslash, backspace, feed, newline, carriage, tab, control, ↓reduceIte,
      octets, single]
    exact reads_plain pieces _ (plain_encodeChar quote backslash (by omega))

private theorem reads_chars (pieces : List Piece) (cs : List Char) :
    Reads (.text pieces) (encode (cs.flatMap writeChar)) []
      (.text ((cs.flatMap piecesOf).reverse ++ pieces)) := by
  induction cs generalizing pieces with
  | nil => exact reads_nothing _
  | cons c cs ih =>
    have first := reads_char pieces c
    have rest := ih ((piecesOf c).reverse ++ pieces)
    rw [List.flatMap_cons, encode_append, List.flatMap_cons, List.reverse_append, List.append_assoc]
    exact first.append rest

/-- A string is one token with its characters' pieces. -/
theorem reads_text (text : String) :
    Reads .between (encode (writeText text)) [.text (written text)] .between := by
  have opened : step? .between 0x22 = some ([], .text []) := rfl
  have closed : ∀ pieces, step? (.text pieces) 0x22 = some ([.text pieces.reverse], .between) :=
    fun _ => rfl
  have inner := reads_chars [] text.toList
  rw [List.append_nil] at inner
  have whole := (reads_step opened).append (inner.append (reads_step (closed _)))
  rw [List.reverse_reverse] at whole
  have line : encode (writeText text) =
      [0x22] ++ (encode (text.toList.flatMap writeChar) ++ [0x22]) := by
    have quote : encodeChar '"' = [0x22] := rfl
    rw [writeText, List.cons_append, encode_cons, encode_append, quote]
    rfl
  rw [line]
  exact whole

private theorem octets?_octet (bytes : Bytes) (pieces : List Piece) :
    octets? (bytes.map .octet ++ pieces) = (octets? pieces).map (bytes ++ ·) := by
  induction bytes with
  | nil => simp
  | cons b bytes ih =>
    rw [List.map_cons, List.cons_append, octets?, ih, Option.map_map]
    rfl

private theorem octets?_char (c : Char) (pieces : List Piece) :
    octets? (piecesOf c ++ pieces) = (octets? pieces).map (encodeChar c ++ ·) := by
  unfold piecesOf
  split
  · rename_i control
    have noHigh : ¬ (0xDC00 ≤ c.toNat ∧ c.toNat ≤ 0xDFFF) := by omega
    have noLow : ¬ (0xD800 ≤ c.toNat ∧ c.toNat ≤ 0xDBFF) := by omega
    rw [List.singleton_append, octets?.eq_def]
    simp [noHigh, noLow, Char.ofNat_toNat]
  · exact octets?_octet (encodeChar c) pieces

private theorem octets?_pieces (cs : List Char) :
    octets? (cs.flatMap piecesOf) = some (encode cs) := by
  induction cs with
  | nil => rfl
  | cons c cs ih =>
    rw [List.flatMap_cons, octets?_char, ih, encode_cons]
    rfl

/-- The text of a string is the text it was written for. -/
theorem textOf?_written (text : String) : textOf? (written text) = some text := by
  rw [textOf?, written, octets?_pieces, Option.bind_some, decode?_encode, Option.map_some,
    String.ofList_toList]

/-! ### Numbers -/

private theorem digit_octet {c : Char} (digit : Numeral.isDigit c = true) :
    ∃ b, encodeChar c = [b] ∧ char b = c ∧ isNumberPart b = true := by
  have bounds : '0'.toNat ≤ c.toNat ∧ c.toNat ≤ '9'.toNat := by
    simpa [Numeral.isDigit, Char.le_def, UInt32.le_iff_toNat_le] using digit
  have small : c.toNat < 0x80 := Nat.lt_of_le_of_lt bounds.2 (by decide)
  have same : char (UInt8.ofNat c.toNat) = c := by
    have value : (UInt8.ofNat c.toNat).toNat = c.toNat := by
      rw [UInt8.toNat_ofNat']
      omega
    rw [char, value, Char.ofNat_toNat]
  exact ⟨UInt8.ofNat c.toNat, by simp [encodeChar, small], same,
    by simp [isNumberPart, same, digit]⟩

private theorem reads_digits (digits : List Char) (all : ∀ c ∈ digits, Numeral.isDigit c = true)
    (before : List Char) :
    Reads (.number before) (encode digits) [] (.number (digits.reverse ++ before)) := by
  induction digits generalizing before with
  | nil => exact reads_nothing _
  | cons c digits ih =>
    obtain ⟨b, octet, same, part⟩ := digit_octet (all c (by simp))
    have step : step? (.number before) b = some ([], .number (c :: before)) := by
      simp [step?, part, same]
    rw [encode_cons, octet, List.reverse_cons, List.append_assoc]
    exact (reads_step step).append (ih (fun other member => all other (by simp [member])) _)

private theorem numberForm_decimal (n : Nat) : numberForm (Numeral.decimal n) = true := by
  have digits := Numeral.isDigit_decimal n
  have ends : ∀ {cs : List Char}, (∀ c ∈ cs, Numeral.isDigit c = true) →
      fractionForm (cs.dropWhile Numeral.isDigit) = true := by
    intro cs all
    have nothing := @List.dropWhile_append_of_pos _ _ cs [] all
    rw [List.append_nil] at nothing
    rw [nothing]
    rfl
  by_cases zero : n = 0
  · subst n
    rfl
  · obtain ⟨first, rest, shape, notZero⟩ := Numeral.decimal_head (Nat.pos_of_ne_zero zero)
    rw [shape] at digits ⊢
    have digit := digits first (by simp)
    have notMinus : first ≠ '-' := by
      rintro rfl
      exact absurd digit (by decide)
    have tail := ends (fun c member => digits c (List.mem_cons_of_mem first member))
    simp [numberForm, unsignedForm, notMinus, digit, tail]

/-- A number ends where a mark stands that no number contains, and it is one token with its digits.
-/
theorem reads_number (n : Nat) {mark : UInt8} {tokens : List Token}
    (ends : isNumberPart mark = false) (begins : begin? mark = some (tokens, .between)) :
    Reads .between (encode (Numeral.decimal n) ++ [mark])
      (.number (Numeral.decimal n) :: tokens) .between := by
  have form := numberForm_decimal n
  have digits := Numeral.isDigit_decimal n
  have last : step? (.number (Numeral.decimal n).reverse) mark =
      some (.number (Numeral.decimal n) :: tokens, .between) := by
    simp [step?, ends, finish?, form, begins]
  have some_digit : Numeral.decimal n ≠ [] := Nat.toDigits_ne_nil
  generalize Numeral.decimal n = numeral at *
  cases numeral with
  | nil => exact absurd rfl some_digit
  | cons first rest =>
    obtain ⟨b, octet, same, part⟩ := digit_octet (digits first (by simp))
    have digit := digits first (by simp)
    have opens : step? .between b = some ([], .number [first]) := by
      have bounds : '0'.toNat ≤ first.toNat ∧ first.toNat ≤ '9'.toNat := by
        simpa [Numeral.isDigit, Char.le_def, UInt32.le_iff_toNat_le] using digit
      have other : ∀ mark : Char, mark.toNat < 48 ∨ 57 < mark.toNat → first ≠ mark := by
        rintro mark outside rfl
        have low : 48 ≤ first.toNat := bounds.1
        have high : first.toNat ≤ 57 := bounds.2
        omega
      have notSpace : isSpace b = false := by
        simp only [isSpace, Bool.or_eq_false_iff, beq_eq_false_iff_ne, ne_eq]
        refine ⟨⟨⟨?_, ?_⟩, ?_⟩, ?_⟩ <;>
          (rintro rfl; exact absurd same.symm (other _ (by decide)))
      have notE : first ≠ 'e' := other 'e' (by decide)
      have notBigE : first ≠ 'E' := other 'E' (by decide)
      rw [step?, begin?, same]
      split <;> first
        | exact absurd rfl (other _ (by decide))
        | simp [notSpace, part, notE, notBigE]
    have middle := reads_digits rest (fun c member => digits c (by simp [member])) [first]
    rw [List.reverse_cons] at last
    rw [encode_cons, octet, List.append_assoc]
    exact (reads_step opens).append (middle.append (reads_step last))

end Overlay.Json
