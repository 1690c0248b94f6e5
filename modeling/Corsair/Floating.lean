import Mathlib.Algebra.Order.Floor.Ring
import Mathlib.Data.Int.Log
import Mathlib.Tactic.Linarith
import Corsair.Rounding

namespace Corsair

theorem halfEven_floor (x : ℚ) : ⌊x⌋ ≤ halfEven x ∧ halfEven x ≤ ⌊x⌋ + 1 := by
  unfold halfEven
  dsimp only
  split_ifs <;> omega

theorem halfEven_int (n : ℤ) : halfEven n = n := by
  norm_num [halfEven]

theorem halfEven_mono {x y : ℚ} (ordered : x ≤ y) : halfEven x ≤ halfEven y := by
  rcases (Int.floor_mono ordered).eq_or_lt with level | apart
  · unfold halfEven
    dsimp only
    rw [level]
    split_ifs <;> first | omega | (exfalso; linarith)
  · have below := (halfEven_floor x).2
    have above := (halfEven_floor y).1
    omega

theorem halfEven_neg (x : ℚ) : halfEven (-x) = -halfEven x := by
  have below := Int.floor_le x
  have above := Int.lt_floor_add_one x
  rcases below.eq_or_lt with whole | inside
  · rw [← whole, ← Int.cast_neg, halfEven_int, halfEven_int]
  · have low : ⌊-x⌋ = -⌊x⌋ - 1 := by
      rw [Int.floor_eq_iff]
      push_cast
      constructor <;> linarith
    unfold halfEven
    dsimp only
    rw [low]
    push_cast
    split_ifs <;> first | omega | (exfalso; linarith)

theorem halfEven_le {x : ℚ} {n : ℤ} (below : x ≤ n) : halfEven x ≤ n := by
  have rounded := halfEven_mono below
  rwa [halfEven_int] at rounded

theorem le_halfEven {x : ℚ} {n : ℤ} (above : n ≤ x) : n ≤ halfEven x := by
  have rounded := halfEven_mono above
  rwa [halfEven_int] at rounded

-- The exponent of the last place a double keeps of a number, and the double
-- nearest to it before the range is checked.
def lastPlace (x : ℚ) : ℤ := max (Int.log 2 |x|) (-1022) - 52

def nearest (x : ℚ) : ℚ := halfEven (x / 2 ^ lastPlace x) * 2 ^ lastPlace x

theorem nearest_zero : nearest 0 = 0 := by
  have zero := halfEven_int 0
  rw [Int.cast_zero] at zero
  rw [nearest, zero_div, zero, Int.cast_zero, zero_mul]

theorem ofRat_nearest (x : ℚ) :
    F64.ofRat x = if 2 ^ 1024 ≤ |nearest x| then .infinite (decide (x < 0)) else .finite (nearest x) := by
  unfold F64.ofRat
  split
  · rename_i zero
    rw [zero, nearest_zero, abs_zero, if_neg (by norm_num)]
  · rfl

theorem place_pos (x : ℚ) : (0 : ℚ) < 2 ^ lastPlace x := zpow_pos two_pos _

theorem nearest_neg (x : ℚ) : nearest (-x) = -nearest x := by
  have place : lastPlace (-x) = lastPlace x := by rw [lastPlace, abs_neg]; rfl
  rw [nearest, place, neg_div, halfEven_neg, Int.cast_neg, neg_mul]
  rfl

-- Rounding stays on its side of every multiple of the last place.
theorem nearest_le {x : ℚ} {n : ℤ} (below : x ≤ n * 2 ^ lastPlace x) : nearest x ≤ n * 2 ^ lastPlace x := by
  have inside : x / 2 ^ lastPlace x ≤ n := (div_le_iff₀ (place_pos x)).mpr below
  have rounded : (halfEven (x / 2 ^ lastPlace x) : ℚ) ≤ n := Int.cast_le.mpr (halfEven_le inside)
  exact mul_le_mul_of_nonneg_right rounded (place_pos x).le

theorem le_nearest {x : ℚ} {n : ℤ} (above : n * 2 ^ lastPlace x ≤ x) : n * 2 ^ lastPlace x ≤ nearest x := by
  have inside : n ≤ x / 2 ^ lastPlace x := (le_div_iff₀ (place_pos x)).mpr above
  have rounded : (n : ℚ) ≤ halfEven (x / 2 ^ lastPlace x) := Int.cast_le.mpr (le_halfEven inside)
  exact mul_le_mul_of_nonneg_right rounded (place_pos x).le

-- A power of two from the last place up is such a multiple.
theorem power_multiple {a b : ℤ} (higher : b ≤ a) : ∃ n : ℤ, (2 : ℚ) ^ a = n * 2 ^ b := by
  obtain ⟨k, rfl⟩ := Int.le.dest higher
  refine ⟨2 ^ k, ?_⟩
  rw [zpow_add₀ two_ne_zero, zpow_natCast, mul_comm]
  push_cast
  rfl

theorem nearest_le_power {x : ℚ} {a : ℤ} (place : lastPlace x ≤ a) (below : x ≤ 2 ^ a) : nearest x ≤ 2 ^ a := by
  obtain ⟨n, multiple⟩ := power_multiple place
  rw [multiple] at below ⊢
  exact nearest_le below

theorem power_le_nearest {x : ℚ} {a : ℤ} (place : lastPlace x ≤ a) (above : 2 ^ a ≤ x) : 2 ^ a ≤ nearest x := by
  obtain ⟨n, multiple⟩ := power_multiple place
  rw [multiple] at above ⊢
  exact le_nearest above

theorem nearest_nonneg {x : ℚ} (positive : 0 ≤ x) : 0 ≤ nearest x := by
  have above : ((0 : ℤ) : ℚ) * 2 ^ lastPlace x ≤ x := by simpa using positive
  simpa using le_nearest above

theorem below_power (x : ℚ) : x < 2 ^ (Int.log 2 x + 1) :=
  Int.lt_zpow_succ_log_self (by norm_num) x

theorem power_below {x : ℚ} (positive : 0 < x) : 2 ^ Int.log 2 x ≤ x :=
  Int.zpow_log_le_self (by norm_num) positive

theorem lastPlace_pos {x : ℚ} (positive : 0 < x) : lastPlace x = max (Int.log 2 x) (-1022) - 52 := by
  rw [lastPlace, abs_of_pos positive]

theorem lastPlace_mono {x y : ℚ} (positive : 0 < x) (ordered : x ≤ y) : lastPlace x ≤ lastPlace y := by
  have logs : Int.log 2 x ≤ Int.log 2 y := Int.log_mono_right positive ordered
  rw [lastPlace_pos positive, lastPlace_pos (positive.trans_le ordered)]
  omega

theorem nearest_mono_pos {x y : ℚ} (positive : 0 < x) (ordered : x ≤ y) : nearest x ≤ nearest y := by
  have above := positive.trans_le ordered
  have left := lastPlace_pos positive
  have right := lastPlace_pos above
  rcases (lastPlace_mono positive ordered).eq_or_lt with same | finer
  · rw [nearest, nearest, same]
    have scaled : x / 2 ^ lastPlace y ≤ y / 2 ^ lastPlace y :=
      div_le_div_of_nonneg_right ordered (place_pos y).le
    exact mul_le_mul_of_nonneg_right (Int.cast_le.mpr (halfEven_mono scaled)) (place_pos y).le
  · -- The greater number has the higher power of two, and it lies between the two.
    have shorter : x ≤ 2 ^ Int.log 2 y :=
      (below_power x).le.trans (zpow_le_zpow_right₀ one_le_two (by omega))
    calc nearest x ≤ 2 ^ Int.log 2 y := nearest_le_power (by omega) shorter
      _ ≤ nearest y := power_le_nearest (by omega) (power_below above)

theorem nearest_mono {x y : ℚ} (ordered : x ≤ y) : nearest x ≤ nearest y := by
  rcases lt_trichotomy 0 x with positive | zero | negative
  · exact nearest_mono_pos positive ordered
  · rw [← zero, nearest_zero]
    exact nearest_nonneg (by rwa [zero])
  · rcases le_or_gt 0 y with upper | lower
    · have sunk := nearest_nonneg (x := -x) (by linarith)
      have raised := nearest_nonneg upper
      rw [nearest_neg] at sunk
      linarith
    · have mirrored := nearest_mono_pos (x := -y) (y := -x) (by linarith) (by linarith)
      rw [nearest_neg, nearest_neg] at mirrored
      linarith

theorem nearest_fixed {x : ℚ} {n : ℤ} (multiple : x = n * 2 ^ lastPlace x) : nearest x = x := by
  have lower := nearest_le multiple.le
  have upper := le_nearest multiple.ge
  rw [← multiple] at lower upper
  exact le_antisymm lower upper

theorem nearest_idem_pos {x : ℚ} (positive : 0 < x) : nearest (nearest x) = nearest x := by
  have place := lastPlace_pos positive
  have top : nearest x ≤ 2 ^ (lastPlace x + 53) :=
    nearest_le_power (by omega) ((below_power x).le.trans (zpow_le_zpow_right₀ one_le_two (by omega)))
  rcases (nearest_nonneg positive.le).eq_or_lt with zero | above
  · rw [← zero, nearest_zero]
  · have log := lastPlace_pos above
    -- It is a multiple of its own last place: that of the number, unless rounding reached the next power.
    rcases top.eq_or_lt with power | below
    · have exponent : Int.log 2 (nearest x) = lastPlace x + 53 := by
        rw [power]
        exact Int.log_zpow (by norm_num) _
      obtain ⟨n, multiple⟩ := power_multiple (show lastPlace (nearest x) ≤ lastPlace x + 53 by omega)
      exact nearest_fixed (power.trans multiple)
    · have exponent : Int.log 2 (nearest x) < lastPlace x + 53 := (Int.lt_zpow_iff_log_lt (by norm_num) above).mp below
      obtain ⟨n, multiple⟩ := power_multiple (show lastPlace (nearest x) ≤ lastPlace x by omega)
      apply @nearest_fixed _ (halfEven (x / 2 ^ lastPlace x) * n)
      rw [Int.cast_mul, mul_assoc, ← multiple]
      rfl

-- A rounded number is not rounded again.
theorem nearest_idem (x : ℚ) : nearest (nearest x) = nearest x := by
  rcases lt_trichotomy 0 x with positive | zero | negative
  · exact nearest_idem_pos positive
  · rw [← zero, nearest_zero, nearest_zero]
  · have mirrored := nearest_idem_pos (neg_pos.mpr negative)
    rw [nearest_neg, nearest_neg] at mirrored
    exact neg_injective mirrored

-- Every double is a multiple of the least subnormal.
theorem nearest_subnormal (x : ℚ) : ∃ n : ℤ, nearest x = n * 2 ^ (-1074 : ℤ) := by
  obtain ⟨n, multiple⟩ := power_multiple (show (-1074 : ℤ) ≤ lastPlace x by rw [lastPlace]; omega)
  refine ⟨halfEven (x / 2 ^ lastPlace x) * n, ?_⟩
  rw [Int.cast_mul, mul_assoc, ← multiple]
  rfl

theorem nearest_abs (x : ℚ) : nearest |x| = |nearest x| := by
  rcases le_total 0 x with positive | negative
  · rw [abs_of_nonneg positive, abs_of_nonneg (nearest_nonneg positive)]
  · have mirrored := nearest_nonneg (neg_nonneg.mpr negative)
    rw [nearest_neg] at mirrored
    rw [abs_of_nonpos negative, nearest_neg, abs_of_nonpos (neg_nonneg.mp mirrored)]

-- A multiple of the last place, or of a greater power of two, is a double.
theorem nearest_multiple {x : ℚ} {n p : ℤ} (multiple : x = n * 2 ^ p) (place : lastPlace x ≤ p) : nearest x = x := by
  obtain ⟨k, power⟩ := power_multiple place
  apply @nearest_fixed _ (n * k)
  rw [Int.cast_mul, mul_assoc, ← power]
  exact multiple

theorem lastPlace_le {x : ℚ} {a : ℤ} (positive : 0 < |x|) (within : |x| < 2 ^ a) (normal : -1022 < a) :
    lastPlace x ≤ a - 53 := by
  have exponent : Int.log 2 |x| < a := (Int.lt_zpow_iff_log_lt (by norm_num) positive).mp within
  rw [lastPlace]
  omega

theorem nearest_int {n : ℤ} (small : |n| < 2 ^ 53) : nearest n = n := by
  rcases (abs_nonneg (n : ℚ)).eq_or_lt with zero | positive
  · rw [abs_eq_zero.mp zero.symm, nearest_zero]
  · have within : |(n : ℚ)| < 2 ^ (53 : ℤ) := by exact_mod_cast small
    have place : lastPlace n ≤ 0 := lastPlace_le positive within (by norm_num)
    exact nearest_multiple (by rw [zpow_zero, mul_one]) place

theorem halfEven_near (x : ℚ) : |halfEven x - x| ≤ 1/2 := by
  have below := Int.floor_le x
  have above := Int.lt_floor_add_one x
  unfold halfEven
  dsimp only
  rw [abs_le]
  split_ifs <;> push_cast <;> constructor <;> linarith

theorem nearest_near (x : ℚ) : |nearest x - x| ≤ 2 ^ lastPlace x / 2 := by
  have unit := place_pos x
  have scaled : nearest x - x = (halfEven (x / 2 ^ lastPlace x) - x / 2 ^ lastPlace x) * 2 ^ lastPlace x := by
    rw [sub_mul, div_mul_cancel₀ _ unit.ne']
    rfl
  rw [scaled, abs_mul, abs_of_pos unit]
  have near := mul_le_mul_of_nonneg_right (halfEven_near (x / 2 ^ lastPlace x)) unit.le
  linarith

-- A double that is no integer is less than 2^52.
theorem fraction_small {x : ℚ} (stored : nearest x = x) (fraction : ∀ n : ℤ, x ≠ n) : |x| < 2 ^ 52 := by
  by_contra large
  rw [not_lt] at large
  have above : (2 : ℚ) ^ (52 : ℤ) ≤ |x| := by exact_mod_cast large
  have exponent : (52 : ℤ) ≤ Int.log 2 |x| := (Int.zpow_le_iff_le_log (by norm_num) (by positivity)).mp above
  have place : 0 ≤ lastPlace x := by
    rw [lastPlace]
    omega
  obtain ⟨k, power⟩ := power_multiple place
  rw [zpow_zero, mul_one] at power
  refine fraction (halfEven (x / 2 ^ lastPlace x) * k) ?_
  rw [Int.cast_mul, ← power]
  exact stored.symm

-- Multiples of a double by one more differ after rounding, too.
theorem nearest_steps {u : ℚ} {m : ℤ} (stored : nearest u = u) (positive : 0 < u) (count : 0 ≤ m)
    (few : m + 1 < 2 ^ 52) :
    nearest (m * u) < nearest ((m + 1) * u) := by
  rcases count.eq_or_lt with zero | some
  · rw [← zero, Int.cast_zero, zero_mul, zero_add, one_mul, nearest_zero, stored]
    exact positive
  have counted : (0 : ℚ) < m := Int.cast_pos.mpr some
  have lower : 0 < m * u := mul_pos counted positive
  have greater : 0 < (m + 1) * u := by linarith
  have ordered : m * u < (m + 1) * u := by linarith
  have places := lastPlace_mono lower ordered.le
  have place := lastPlace_pos greater
  rcases le_or_gt (-1022) (Int.log 2 ((m + 1) * u)) with normal | subnormal
  · -- The last place is finer than the double itself.
    have power := power_below greater
    have exponent : Int.log 2 ((m + 1) * u) = lastPlace ((m + 1) * u) + 52 := by omega
    rw [exponent, zpow_add₀ two_ne_zero] at power
    have few' : (m : ℚ) + 1 < 2 ^ (52 : ℤ) := by exact_mod_cast few
    have finer : (2 : ℚ) ^ lastPlace ((m + 1) * u) < u := by
      have steps := mul_lt_mul_of_pos_right few' positive
      nlinarith [place_pos ((m + 1) * u)]
    have coarse : (2 : ℚ) ^ lastPlace (m * u) ≤ 2 ^ lastPlace ((m + 1) * u) := zpow_le_zpow_right₀ one_le_two places
    have one := abs_le.mp (nearest_near (m * u))
    have two := abs_le.mp (nearest_near ((m + 1) * u))
    linarith
  · -- Both are multiples of the least subnormal, and not rounded.
    obtain ⟨k, multiple⟩ := nearest_subnormal u
    rw [stored] at multiple
    have one : nearest (m * u) = m * u := by
      refine nearest_multiple (show m * u = (m * k : ℤ) * 2 ^ (-1074 : ℤ) from ?_) (by omega)
      rw [Int.cast_mul, mul_assoc, ← multiple]
    have two : nearest ((m + 1) * u) = (m + 1) * u := by
      refine nearest_multiple (show (m + 1) * u = ((m + 1) * k : ℤ) * 2 ^ (-1074 : ℤ) from ?_) (by omega)
      rw [Int.cast_mul, Int.cast_add, Int.cast_one, mul_assoc, ← multiple]
    rwa [one, two]

-- The arithmetic of f64: exact, then rounded; a zero has no sign here.
namespace F64

def add : F64 → F64 → F64
  | finite x, finite y => ofRat (x + y)
  | infinite left, infinite right => if left = right then infinite left else nan
  | infinite negative, finite _ | finite _, infinite negative => infinite negative
  | nan, _ | _, nan => nan

def mul : F64 → F64 → F64
  | finite x, finite y => ofRat (x * y)
  | infinite left, infinite right => infinite (left ^^ right)
  | finite x, infinite negative | infinite negative, finite x =>
    if x = 0 then nan else infinite (negative ^^ decide (x < 0))
  | nan, _ | _, nan => nan

def div : F64 → F64 → F64
  | finite x, finite y =>
    if y = 0 then (if x = 0 then nan else infinite (decide (x < 0))) else ofRat (x / y)
  | infinite negative, finite y => infinite (negative ^^ decide (y < 0))
  | finite _, infinite _ => finite 0
  | infinite _, infinite _ => nan
  | nan, _ | _, nan => nan

def round : F64 → F64
  | finite x => finite (roundHalfAway x)
  | x => x

def abs : F64 → F64
  | finite x => finite |x|
  | infinite _ => infinite false
  | nan => nan

def le : F64 → F64 → Bool
  | finite x, finite y => decide (x ≤ y)
  | infinite left, infinite right => left || !right
  | infinite negative, finite _ => negative
  | finite _, infinite negative => !negative
  | nan, _ | _, nan => false

instance : Zero F64 := ⟨finite 0⟩
instance : Add F64 := ⟨add⟩
instance : Mul F64 := ⟨mul⟩
instance : Div F64 := ⟨div⟩
instance : Sub F64 := ⟨fun x y => add x (negate y)⟩
instance : LE F64 := ⟨fun x y => le x y = true⟩
instance : LT F64 := ⟨fun x y => le x y = true ∧ le y x = false⟩
instance : DecidableLE F64 := fun x y => inferInstanceAs (Decidable (le x y = true))
instance : DecidableLT F64 := fun x y => inferInstanceAs (Decidable (le x y = true ∧ le y x = false))

@[simp] theorem finite_add_finite (p q : ℚ) : finite p + finite q = ofRat (p + q) := rfl

@[simp] theorem infinite_add_finite (negative : Bool) (q : ℚ) : infinite negative + finite q = infinite negative := rfl

@[simp] theorem finite_add_infinite (p : ℚ) (negative : Bool) : finite p + infinite negative = infinite negative := rfl

@[simp] theorem infinite_add_infinite (left right : Bool) :
    infinite left + infinite right = if left = right then infinite left else nan := rfl

@[simp] theorem nan_add (x : F64) : nan + x = nan := by cases x <;> rfl

@[simp] theorem add_nan (x : F64) : x + nan = nan := by cases x <;> rfl

variable {x y z : F64}

theorem finite_le {p q : ℚ} : finite p ≤ finite q ↔ p ≤ q := by
  change le (finite p) (finite q) = true ↔ _
  simp [le]

theorem le_number (ordered : x ≤ y) : x ≠ nan ∧ y ≠ nan := by
  change le x y = true at ordered
  cases x <;> cases y <;> simp_all [le]

theorem le_refl (number : x ≠ nan) : x ≤ x := by
  change le x x = true
  cases x <;> simp_all [le]

theorem le_top (number : x ≠ nan) : x ≤ infinite false := by
  change le x _ = true
  cases x <;> simp_all [le]

theorem bot_le (number : x ≠ nan) : infinite true ≤ x := by
  change le _ x = true
  cases x <;> simp_all [le]

theorem le_bot : x ≤ infinite true ↔ x = infinite true := by
  change le x _ = true ↔ _
  cases x <;> simp [le]

theorem top_le : infinite false ≤ x ↔ x = infinite false := by
  change le _ x = true ↔ _
  cases x <;> simp [le]

theorem le_trans (one : x ≤ y) (two : y ≤ z) : x ≤ z := by
  cases y with
  | nan => exact absurd rfl (le_number one).2
  | infinite negative =>
    cases negative with
    | true =>
      rw [le_bot.mp one]
      exact bot_le (le_number two).2
    | false =>
      rw [top_le.mp two]
      exact le_top (le_number one).1
  | finite q =>
    change le x (finite q) = true at one
    change le (finite q) z = true at two
    change le x z = true
    cases x <;> cases z <;> simp_all [le]
    linarith

-- Two numbers are ordered one way or the other; a NaN is not.
theorem le_total (left : x ≠ nan) (right : y ≠ nan) : x ≤ y ∨ y ≤ x := by
  cases x with
  | nan => exact absurd rfl left
  | infinite negative =>
    cases negative with
    | true => exact .inl (bot_le right)
    | false => exact .inr (le_top right)
  | finite p =>
    cases y with
    | nan => exact absurd rfl right
    | infinite negative =>
      cases negative with
      | true => exact .inr (bot_le left)
      | false => exact .inl (le_top left)
    | finite q => simpa only [finite_le] using Rat.le_total (a := p) (b := q)

theorem not_lt_of_le (ordered : x ≤ y) : ¬y < x := by
  intro above
  exact Bool.noConfusion (ordered.symm.trans above.2)

theorem le_of_not_lt (left : x ≠ nan) (right : y ≠ nan) (above : ¬y < x) : x ≤ y := by
  by_contra apart
  have reversed := (le_total left right).resolve_left apart
  exact above ⟨reversed, Bool.eq_false_iff.mpr apart⟩

theorem lt_of_not_le (left : x ≠ nan) (right : y ≠ nan) (apart : ¬y ≤ x) : x < y :=
  ⟨(le_total left right).resolve_right apart, Bool.eq_false_iff.mpr apart⟩

theorem ofRat_number (q : ℚ) : ofRat q ≠ nan := by
  rw [ofRat_nearest]
  split <;> simp

theorem nearest_negative {q : ℚ} (big : 2 ^ 1024 ≤ |nearest q|) (negative : q < 0) : nearest q < 0 := by
  have mirrored := nearest_nonneg (neg_pos.mpr negative).le
  rw [nearest_neg] at mirrored
  apply lt_of_le_of_ne (by linarith)
  intro zero
  rw [zero, abs_zero] at big
  exact absurd big (not_le.mpr (pow_pos two_pos 1024))

theorem ofRat_mono {p q : ℚ} (ordered : p ≤ q) : ofRat p ≤ ofRat q := by
  have rounded := nearest_mono ordered
  by_cases low : 2 ^ 1024 ≤ |nearest p| ∧ p < 0
  · rw [ofRat_nearest p, if_pos low.1, decide_eq_true low.2]
    exact bot_le (ofRat_number q)
  by_cases high : 2 ^ 1024 ≤ |nearest q| ∧ 0 ≤ q
  · rw [ofRat_nearest q, if_pos high.1, decide_eq_false (not_lt.mpr high.2)]
    exact le_top (ofRat_number p)
  have left : ¬ 2 ^ 1024 ≤ |nearest p| := by
    intro big
    have positive : 0 ≤ p := not_lt.mp fun negative => low ⟨big, negative⟩
    rw [abs_of_nonneg (nearest_nonneg positive)] at big
    refine high ⟨?_, positive.trans ordered⟩
    rw [abs_of_nonneg (nearest_nonneg (positive.trans ordered))]
    exact big.trans rounded
  have right : ¬ 2 ^ 1024 ≤ |nearest q| := by
    intro big
    have negative : q < 0 := not_le.mp fun positive => high ⟨big, positive⟩
    have below := nearest_negative big negative
    rw [abs_of_neg below] at big
    refine low ⟨?_, ordered.trans_lt negative⟩
    rw [abs_of_neg (rounded.trans_lt below)]
    exact big.trans (neg_le_neg rounded)
  rw [ofRat_nearest, ofRat_nearest, if_neg left, if_neg right]
  exact finite_le.mpr rounded

theorem ofRat_neg {q : ℚ} (nonzero : q ≠ 0) : ofRat (-q) = (ofRat q).negate := by
  rw [ofRat_nearest, ofRat_nearest, nearest_neg, abs_neg]
  split
  · rcases nonzero.lt_or_gt with negative | positive
    · simp [negate, negative, negative.le]
    · simp [negate, positive, positive.le]
  · rfl

-- What an operation yields is a number of the format.
def Stored (x : F64) : Prop := ∀ q, x = finite q → nearest q = q ∧ |q| < 2 ^ 1024

theorem stored_ofRat (q : ℚ) : Stored (ofRat q) := by
  intro p given
  rw [ofRat_nearest] at given
  split at given
  · cases given
  · rename_i small
    obtain rfl := F64.finite.inj given
    exact ⟨nearest_idem q, not_le.mp small⟩

theorem stored_exact {q : ℚ} (stored : Stored (finite q)) : ofRat q = finite q := by
  obtain ⟨whole, small⟩ := stored q rfl
  rw [ofRat_nearest, whole, if_neg (not_le.mpr small)]

theorem stored_add (x y : F64) : Stored (x + y) := by
  cases x with
  | nan => simp [Stored]
  | infinite left =>
    cases y with
    | nan => simp [Stored]
    | infinite right => by_cases same : left = right <;> simp [Stored, same]
    | finite q => simp [Stored]
  | finite p =>
    cases y with
    | nan => simp [Stored]
    | infinite right => simp [Stored]
    | finite q => exact stored_ofRat (p + q)

theorem stored_div (x y : F64) : Stored (x / y) := by
  change Stored (div x y)
  unfold div
  split
  · split_ifs
    · simp [Stored]
    · simp [Stored]
    · exact stored_ofRat _
  · simp [Stored]
  · intro q given
    obtain rfl := F64.finite.inj given
    exact ⟨nearest_zero, by simp⟩
  · simp [Stored]
  · simp [Stored]
  · simp [Stored]

theorem ofRat_int {n : ℤ} (small : |n| < 2 ^ 53) : ofRat n = finite n := by
  apply stored_exact
  intro q given
  obtain rfl := F64.finite.inj given
  refine ⟨nearest_int small, ?_⟩
  have within : |(n : ℚ)| < 2 ^ 53 := by exact_mod_cast small
  exact within.trans (pow_lt_pow_right₀ one_lt_two (by norm_num))

theorem ofRat_halfEven {q : ℚ} (stored : Stored (finite q)) : ofRat (halfEven q) = finite (halfEven q) := by
  by_cases whole : ∃ n : ℤ, q = n
  · obtain ⟨n, rfl⟩ := whole
    rw [halfEven_int]
    exact stored_exact stored
  · have small := abs_lt.mp (fraction_small (stored q rfl).1 (not_exists.mp whole))
    apply ofRat_int
    have upper : halfEven q ≤ 2 ^ 52 := halfEven_le (by exact_mod_cast small.2.le)
    have lower : -2 ^ 52 ≤ halfEven q := le_halfEven (by exact_mod_cast small.1.le)
    rw [abs_lt]
    omega

theorem add_number {q : ℚ} (number : x ≠ nan) : x + finite q ≠ nan := by
  cases x with
  | nan => exact absurd rfl number
  | infinite negative => exact number
  | finite p => exact ofRat_number (p + q)

-- Adding a finite number to two keeps their order.
theorem add_mono {q : ℚ} (ordered : x ≤ y) : x + finite q ≤ y + finite q := by
  have numbers := le_number ordered
  cases y with
  | nan => exact absurd rfl numbers.2
  | infinite negative =>
    cases negative with
    | true =>
      rw [le_bot.mp ordered]
      exact le_refl (add_number numbers.2)
    | false => exact le_top (add_number numbers.1)
  | finite r =>
    cases x with
    | nan => exact absurd rfl numbers.1
    | infinite negative =>
      obtain rfl : negative = true := ordered
      exact bot_le (add_number numbers.2)
    | finite p => exact ofRat_mono (add_le_add_left (finite_le.mp ordered) q)

theorem le_add {q : ℚ} (number : x ≠ nan) (stored : Stored x) (positive : 0 ≤ q) : x ≤ x + finite q := by
  cases x with
  | nan => exact absurd rfl number
  | infinite negative => exact le_refl number
  | finite p =>
    have raised : ofRat p ≤ ofRat (p + q) := ofRat_mono (by linarith)
    rwa [stored_exact stored] at raised

theorem add_le {q : ℚ} (number : x ≠ nan) (stored : Stored x) (negative : q ≤ 0) : x + finite q ≤ x := by
  cases x with
  | nan => exact absurd rfl number
  | infinite negative => exact le_refl number
  | finite p =>
    have sunk : ofRat (p + q) ≤ ofRat p := ofRat_mono (by linarith)
    rwa [stored_exact stored] at sunk

-- Two doubles that differ are at least the least subnormal apart.
theorem stored_apart {p q : ℚ} (one : Stored (finite p)) (two : Stored (finite q)) (below : p < q) :
    p + 2 ^ (-1074 : ℤ) ≤ q := by
  obtain ⟨m, left⟩ := nearest_subnormal p
  obtain ⟨n, right⟩ := nearest_subnormal q
  rw [(one p rfl).1] at left
  rw [(two q rfl).1] at right
  have unit : (0 : ℚ) < 2 ^ (-1074 : ℤ) := zpow_pos two_pos _
  rw [left, right] at below
  have ordered : (m : ℚ) + 1 ≤ n := by exact_mod_cast (mul_lt_mul_iff_of_pos_right unit).mp below
  calc p + 2 ^ (-1074 : ℤ) = (m + 1) * 2 ^ (-1074 : ℤ) := by rw [left]; ring
    _ ≤ q := by rw [right]; exact mul_le_mul_of_nonneg_right ordered unit.le

end F64

end Corsair
