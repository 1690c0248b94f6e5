import Corsair.Floating
import Mathlib.Data.List.TakeWhile
import Mathlib.Tactic.Ring

namespace Corsair

-- str::parse of the unsigned types, where a minus is no sign.
def parseUnsigned (high : ℤ) (text : String) : Except ParseIntError ℤ :=
  match text.toList with
  | [] => .error .empty
  | ['-'] | ['+'] => .error .invalidDigit
  | '+' :: digits => parseDigits 0 high false 0 digits
  | digits => parseDigits 0 high false 0 digits

def isSign (c : Char) : Bool := c = '+' || c = '-'

section Digits

def valueFrom (value : ℤ) (digits : List Char) : ℤ := digits.foldl (fun n c => n * 10 + digitValue c) value

theorem natOfDigits_value (digits : List Char) : (natOfDigits digits : ℤ) = valueFrom 0 digits := by
  have from_any : ∀ (digits : List Char) (n : ℕ),
      ((digits.foldl (fun n c => n * 10 + digitValue c) n : ℕ) : ℤ) = valueFrom n digits := by
    intro digits
    induction digits with
    | nil => exact fun n => rfl
    | cons c rest next =>
      intro n
      have step := next (n * 10 + digitValue c)
      push_cast at step
      exact step
  exact from_any digits 0

theorem valueFrom_le {value : ℤ} (positive : 0 ≤ value) (digits : List Char) : value ≤ valueFrom value digits := by
  induction digits generalizing value with
  | nil => exact le_refl value
  | cons c rest next =>
    have step : value ≤ value * 10 + digitValue c := by omega
    exact step.trans (next (positive.trans step))

theorem parseDigits_ok {low high value result : ℤ} {digits : List Char}
    (parsed : parseDigits low high false value digits = .ok result) :
    (∀ c ∈ digits, c.isDigit = true) ∧ result = valueFrom value digits := by
  induction digits generalizing value with
  | nil =>
    cases parsed
    exact ⟨by simp, rfl⟩
  | cons c rest next =>
    unfold parseDigits at parsed
    simp only [Bool.false_eq_true, if_false] at parsed
    split at parsed
    · rename_i digit
      split at parsed
      · cases parsed
      · split at parsed
        · cases parsed
        · obtain ⟨others, value⟩ := next parsed
          refine ⟨?_, value⟩
          intro other member
          rcases List.mem_cons.mp member with rfl | later
          · exact digit
          · exact others other later
    · cases parsed

theorem parseDigits_all {low high value : ℤ} {digits : List Char} (all : ∀ c ∈ digits, c.isDigit = true)
    (positive : 0 ≤ value) (least : low ≤ 0) (most : valueFrom value digits ≤ high) :
    parseDigits low high false value digits = .ok (valueFrom value digits) := by
  induction digits generalizing value with
  | nil => rfl
  | cons c rest next =>
    have step : 0 ≤ value * 10 + digitValue c := by omega
    have bound : value * 10 + digitValue c ≤ high := (valueFrom_le step rest).trans most
    unfold parseDigits
    rw [if_pos (all c List.mem_cons_self)]
    simp only [Bool.false_eq_true, if_false]
    rw [if_neg (by omega), if_neg (by omega)]
    exact next (fun other member => all other (List.mem_cons_of_mem _ member)) step most

theorem digitValue_le {c : Char} (digit : c.isDigit = true) : digitValue c ≤ 9 := by
  unfold digitValue
  simp only [Char.isDigit, Bool.and_eq_true, decide_eq_true_eq] at digit
  have high : c.toNat ≤ 57 := digit.2
  change c.toNat - 48 ≤ 9
  omega

theorem valueFrom_lt {digits : List Char} (all : ∀ c ∈ digits, c.isDigit = true) {value : ℤ} :
    valueFrom value digits < (value + 1) * 10 ^ digits.length := by
  induction digits generalizing value with
  | nil =>
    change value < (value + 1) * 1
    omega
  | cons c rest next =>
    have later := @next (fun other member => all other (List.mem_cons_of_mem _ member)) (value * 10 + digitValue c)
    have digit := digitValue_le (all c List.mem_cons_self)
    have step : (value * 10 + digitValue c + 1) * 10 ^ rest.length ≤ (value + 1) * 10 * 10 ^ rest.length := by
      refine Int.mul_le_mul_of_nonneg_right ?_ (by positivity)
      omega
    calc valueFrom value (c :: rest) = valueFrom (value * 10 + digitValue c) rest := rfl
      _ < (value * 10 + digitValue c + 1) * 10 ^ rest.length := later
      _ ≤ (value + 1) * 10 * 10 ^ rest.length := step
      _ = (value + 1) * 10 ^ (c :: rest).length := by rw [List.length_cons, pow_succ]; ring

theorem digit_unsigned {c : Char} (digit : c.isDigit = true) : isSign c = false := by
  by_contra sign
  rw [Bool.not_eq_false, isSign, Bool.or_eq_true, decide_eq_true_eq, decide_eq_true_eq] at sign
  rcases sign with rfl | rfl
  · exact absurd digit (by decide)
  · exact absurd digit (by decide)

theorem parseSigned_unsigned (low high : ℤ) {c : Char} (plain : isSign c = false) (rest : List Char) :
    parseSigned low high (String.ofList (c :: rest)) = parseDigits low high false 0 (c :: rest) := by
  rw [isSign, Bool.or_eq_false_iff, decide_eq_false_iff_not, decide_eq_false_iff_not] at plain
  unfold parseSigned
  rw [String.toList_ofList]
  split
  · rename_i empty
    cases empty
  · rename_i minus
    cases minus
    exact absurd rfl plain.2
  · rename_i plus
    cases plus
    exact absurd rfl plain.1
  · rename_i minus
    cases minus
    exact absurd rfl plain.2
  · rename_i plus
    cases plus
    exact absurd rfl plain.1
  · rfl

theorem parseUnsigned_unsigned (high : ℤ) {c : Char} (plain : isSign c = false) (rest : List Char) :
    parseUnsigned high (String.ofList (c :: rest)) = parseDigits 0 high false 0 (c :: rest) := by
  rw [isSign, Bool.or_eq_false_iff, decide_eq_false_iff_not, decide_eq_false_iff_not] at plain
  unfold parseUnsigned
  rw [String.toList_ofList]
  split
  · rename_i empty
    cases empty
  · rename_i minus
    cases minus
    exact absurd rfl plain.2
  · rename_i plus
    cases plus
    exact absurd rfl plain.1
  · rename_i plus
    cases plus
    exact absurd rfl plain.1
  · rfl

theorem parseDigits_small {low high : ℤ} {digits : List Char} (all : ∀ c ∈ digits, c.isDigit = true) (least : low ≤ 0)
    (fits : (10 : ℤ) ^ digits.length ≤ high) : parseDigits low high false 0 digits = .ok (natOfDigits digits) := by
  have bound := @valueFrom_lt digits all 0
  rw [natOfDigits_value]
  refine parseDigits_all all (le_refl 0) least ?_
  omega

end Digits

section Whole

theorem natOfDigits_repr (n : ℕ) : natOfDigits n.repr.toList = n := by
  have read := Nat.ofDigitChars_ten_toDigits (n := n)
  rw [Nat.ofDigitChars_eq_foldl] at read
  rw [Nat.toList_repr, natOfDigits]
  simpa only [digitValue, Nat.mul_comm] using read

theorem repr_digits (n : ℕ) : ∀ c ∈ n.repr.toList, c.isDigit = true := by
  intro c member
  rw [Nat.toList_repr] at member
  exact Nat.isDigit_of_mem_toDigits (by decide) (by decide) member

theorem parseDecimal_digits {digits : List Char} (all : ∀ c ∈ digits, c.isDigit = true) (some_digit : digits ≠ []) :
    parseDecimal digits = some (natOfDigits digits) := by
  simp [parseDecimal, List.takeWhile_eq_self_iff.mpr all, List.dropWhile_eq_nil_iff.mpr all, some_digit]

theorem digit_lower {c : Char} (digit : c.isDigit = true) : c.toLower = c := by
  simp only [Char.isDigit, Bool.and_eq_true, decide_eq_true_eq] at digit
  unfold Char.toLower
  rw [dif_neg]
  intro upper
  exact absurd (UInt32.le_trans upper.1 digit.2) (by decide)

theorem parseUnsignedFloat_digits {digits : List Char} (all : ∀ c ∈ digits, c.isDigit = true)
    (some_digit : digits ≠ []) :
    parseUnsignedFloat digits = some (F64.ofRat (natOfDigits digits)) := by
  have lower : digits.map Char.toLower = digits :=
    (List.map_congr_left fun c member => digit_lower (all c member)).trans (List.map_id digits)
  have spelled : ∀ c rest, digits = c :: rest → c ≠ 'i' ∧ c ≠ 'n' := by
    rintro c rest rfl
    have digit := all c List.mem_cons_self
    constructor <;> rintro rfl <;> cases digit
  unfold parseUnsignedFloat
  rw [lower]
  split
  · exact absurd rfl (spelled _ _ rfl).1
  · exact absurd rfl (spelled _ _ rfl).1
  · exact absurd rfl (spelled _ _ rfl).2
  · rw [parseDecimal_digits all some_digit]
    rfl

-- The text of an integer is read back, rounded to a double.
theorem parseFloat_int (n : ℤ) : parseFloat (toString n) = some (F64.ofRat n) := by
  have filled (k : ℕ) : k.repr.toList ≠ [] := by
    rw [Nat.toList_repr]
    exact Nat.toDigits_ne_nil
  have read (k : ℕ) : parseUnsignedFloat k.repr.toList = some (F64.ofRat k) := by
    rw [parseUnsignedFloat_digits (repr_digits k) (filled k), natOfDigits_repr]
  rw [Int.toString_eq_repr, Int.repr_eq_if]
  split
  · rename_i positive
    obtain ⟨k, rfl⟩ := Int.eq_ofNat_of_zero_le positive
    have signs : ∀ c rest, k.repr.toList = c :: rest → c ≠ '-' ∧ c ≠ '+' := by
      intro c rest same
      have digit := repr_digits k c (same ▸ List.mem_cons_self)
      constructor <;> rintro rfl <;> cases digit
    rw [Int.toNat_natCast]
    unfold parseFloat
    split
    · rename_i rest same
      exact absurd rfl (signs _ _ same).1
    · rename_i rest same
      exact absurd rfl (signs _ _ same).2
    · simpa using read k
  · rename_i negative
    have text : ("-" ++ (-n).toNat.repr).toList = '-' :: (-n).toNat.repr.toList := by
      rw [String.toList_append]
      rfl
    have value : (((-n).toNat : ℕ) : ℚ) = -(n : ℚ) := by
      have whole : (((-n).toNat : ℕ) : ℤ) = -n := by omega
      exact_mod_cast whole
    unfold parseFloat
    rw [text]
    simp only [read, Option.map_some, value]
    have nonzero : -(n : ℚ) ≠ 0 := neg_ne_zero.mpr (Int.cast_ne_zero.mpr (by omega))
    rw [← F64.ofRat_neg nonzero, neg_neg]

end Whole

end Corsair
