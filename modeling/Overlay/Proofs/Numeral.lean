import Overlay.Number.Numeral

/-! Numerals are read back as the numbers they were written for. A number has one numeral: it has no
leading zero, and its digits are the digits of the number without its last one, then the last. -/
namespace Overlay.Numeral

/-- A number of several digits is written as what stands before its last digit, then that digit. -/
theorem decimal_step {n : Nat} (several : 10 ≤ n) :
    decimal n = decimal (n / 10) ++ [(n % 10).digitChar] := by
  rw [decimal, Nat.toDigits_of_base_le (by decide) several]
  rfl

theorem decimal_digit {n : Nat} (single : n < 10) : decimal n = [n.digitChar] :=
  Nat.toDigits_of_lt_base single

private theorem digitChar_digit :
    ∀ d, d < 10 → hexDigit? d.digitChar = some d ∧ isDigit d.digitChar = true := by
  decide

/-- Numerals consist of digits. -/
theorem isDigit_decimal (n : Nat) : ∀ c ∈ decimal n, isDigit c = true := by
  induction n using Nat.strongRecOn with
  | ind n ih =>
    intro c member
    by_cases single : n < 10
    · rw [decimal_digit single, List.mem_singleton] at member
      rw [member]
      exact (digitChar_digit n single).2
    · rw [decimal_step (by omega), List.mem_append, List.mem_singleton] at member
      rcases member with before | last
      · exact ih (n / 10) (by omega) c before
      · rw [last]
        exact (digitChar_digit (n % 10) (by omega)).2

/-- A numeral starts with a zero only when it is one. -/
theorem decimal_head {n : Nat} (positive : 0 < n) :
    ∃ first rest, decimal n = first :: rest ∧ first ≠ '0' := by
  induction n using Nat.strongRecOn with
  | ind n ih =>
    by_cases single : n < 10
    · refine ⟨n.digitChar, [], decimal_digit single, ?_⟩
      have apart : ∀ d, d < 10 → 0 < d → d.digitChar ≠ '0' := by decide
      exact apart n single positive
    · obtain ⟨first, rest, shape, apart⟩ := ih (n / 10) (by omega) (by omega)
      refine ⟨first, rest ++ [(n % 10).digitChar], ?_, apart⟩
      rw [decimal_step (by omega), shape]
      rfl

private theorem value?_decimal (limit n : Nat) (within : n ≤ limit) :
    value? 10 limit (decimal n) = some n := by
  induction n using Nat.strongRecOn with
  | ind n ih =>
    by_cases single : n < 10
    · rw [decimal_digit single]
      simp [value?, append?, (digitChar_digit n single).1, single, within]
    · have before := ih (n / 10) (by omega) (by omega)
      have last := (digitChar_digit (n % 10) (by omega)).1
      have whole : 10 * (n / 10) + n % 10 = n := by omega
      rw [decimal_step (by omega)]
      unfold value? at before ⊢
      rw [List.foldl_append, before]
      have digit : n % 10 < 10 := by omega
      simp [append?, last, whole, within, digit]

/-- A number within the limit is read back from its numeral. -/
theorem bounded?_decimal {limit n : Nat} (within : n ≤ limit) :
    bounded? limit (decimal n) = some n := by
  have some_digit : (decimal n).isEmpty = false := by
    rw [List.isEmpty_eq_false_iff]
    exact Nat.toDigits_ne_nil
  rw [bounded?, some_digit, if_neg (by decide), value?_decimal limit n within]

/-! ### What a run of digits writes -/

private theorem digit_bounds {c : Char} : isDigit c = true ↔ 48 ≤ c.toNat ∧ c.toNat ≤ 57 := by
  simp [isDigit, Char.le_def, UInt32.le_iff_toNat_le]

private theorem hexDigit?_digit {c : Char} (digit : isDigit c = true) :
    hexDigit? c = some (digitValue c) ∧ digitValue c < 10 := by
  have bounds := digit_bounds.mp digit
  have decimal : '0' ≤ c ∧ c ≤ '9' := by simpa [isDigit] using digit
  refine ⟨by rw [hexDigit?, if_pos decimal]; rfl, ?_⟩
  have zero : '0'.toNat = 48 := rfl
  rw [digitValue, zero]
  omega

private theorem hexDigit?_letter {c : Char} {d : Nat} (letter : isDigit c ≠ true)
    (known : hexDigit? c = some d) : 10 ≤ d := by
  have other : ¬ ('0' ≤ c ∧ c ≤ '9') := by simpa [isDigit] using letter
  rw [hexDigit?, if_neg other] at known
  split at known
  · cases known
    omega
  · split at known
    · cases known
      omega
    · cases known

/-- One more digit, and the number stays within the limit. -/
theorem append?_eq_some_iff {limit m n : Nat} {c : Char} :
    append? 10 limit (some m) c = some n ↔
      isDigit c = true ∧ 10 * m + digitValue c = n ∧ n ≤ limit := by
  by_cases digit : isDigit c = true
  · obtain ⟨value, small⟩ := hexDigit?_digit digit
    simp only [append?, value, small, true_and, digit, Option.ite_none_right_eq_some,
      Option.some.injEq]
    constructor
    · rintro ⟨within, rfl⟩
      exact ⟨rfl, within⟩
    · rintro ⟨rfl, within⟩
      exact ⟨within, rfl⟩
  · refine iff_of_false (fun appended => ?_) (fun said => digit said.1)
    cases known : hexDigit? c with
    | none => simp [append?, known] at appended
    | some d =>
      have large := hexDigit?_letter digit known
      have tooLarge : ¬ d < 10 := by omega
      simp [append?, known, tooLarge] at appended

private theorem foldl_none (limit : Nat) (digits : List Char) :
    digits.foldl (append? 10 limit) none = none := by
  induction digits with
  | nil => rfl
  | cons c rest ih => exact ih

private theorem le_foldl (digits : List Char) (m : Nat) :
    m ≤ digits.foldl (fun n c => 10 * n + digitValue c) m := by
  induction digits generalizing m with
  | nil => exact Nat.le_refl m
  | cons c rest ih => exact Nat.le_trans (by omega) (ih (10 * m + digitValue c))

private theorem foldl_append?_eq_some_iff {limit m n : Nat} {digits : List Char} (start : m ≤ limit) :
    digits.foldl (append? 10 limit) (some m) = some n ↔
      (∀ c ∈ digits, isDigit c = true) ∧
        digits.foldl (fun n c => 10 * n + digitValue c) m = n ∧ n ≤ limit := by
  induction digits generalizing m with
  | nil =>
    simp only [List.foldl_nil, Option.some.injEq, List.not_mem_nil, false_implies, implies_true,
      true_and]
    exact ⟨fun same => ⟨same, same ▸ start⟩, fun said => said.1⟩
  | cons c rest ih =>
    rw [List.foldl_cons, List.foldl_cons, List.forall_mem_cons]
    by_cases appends : isDigit c = true ∧ 10 * m + digitValue c ≤ limit
    · have appended : append? 10 limit (some m) c = some (10 * m + digitValue c) :=
        append?_eq_some_iff.mpr ⟨appends.1, rfl, appends.2⟩
      rw [appended, ih appends.2]
      simp [appends.1]
    · have refused : append? 10 limit (some m) c = none := by
        cases appended : append? 10 limit (some m) c with
        | none => rfl
        | some next =>
          obtain ⟨digit, rfl, within⟩ := append?_eq_some_iff.mp appended
          exact absurd ⟨digit, within⟩ appends
      rw [refused, foldl_none]
      refine iff_of_false nofun ?_
      -- The digits that follow make the number no smaller.
      rintro ⟨⟨digit, -⟩, rfl, within⟩
      exact appends ⟨digit, Nat.le_trans (le_foldl rest _) within⟩

/-- A number is read from a run of digits that writes it, with as many leading zeros as there are,
if it is within the limit; nothing else is read. -/
theorem bounded?_eq_some_iff {limit n : Nat} {digits : List Char} :
    bounded? limit digits = some n ↔
      digits ≠ [] ∧ (∀ c ∈ digits, isDigit c = true) ∧ ofDigits digits = n ∧ n ≤ limit := by
  rw [bounded?]
  cases digits with
  | nil => simp
  | cons c rest =>
    rw [List.isEmpty_cons, if_neg Bool.false_ne_true, value?,
      foldl_append?_eq_some_iff (Nat.zero_le limit)]
    exact (and_iff_right (List.cons_ne_nil c rest)).symm

end Overlay.Numeral
