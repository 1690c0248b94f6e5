import Mathlib.Tactic.Linarith
import Mathlib.Tactic.Ring
import Corsair.Floating
import Corsair.Lib.While

namespace Corsair.Daemon

-- The strike grid is written over a type of numbers: the doubles of the code, or exact ones.
class Arithmetic (α : Type) extends Zero α, Add α, Mul α, Div α, LE α where
  round : α → α
  of : ℚ → α
  decides : DecidableLE α

instance Arithmetic.decidableLE {α : Type} [Arithmetic α] : DecidableLE α := Arithmetic.decides

instance : Arithmetic F64 := ⟨F64.round, F64.ofRat, inferInstance⟩

local instance : Arithmetic ℚ := ⟨fun x => roundHalfAway x, id, inferInstance⟩

structure GatewaySection where
  host : String
  port : UInt16

structure IbkrSection where
  gateway : GatewaySection
  clientId : Int32
  account : String

structure BrokerSection where
  kind : String
  ibkr : Option IbkrSection

structure ConstraintsSection (α : Type) where
  capital : α

structure ProductConfig (α : Type) where
  name : String
  multiplier : α
  quoteRangeLow : ℤ
  quoteRangeHigh : ℤ
  strikeIncrement : α

structure BrokerDaemonConfig (α : Type) where
  broker : BrokerSection
  constraints : ConstraintsSection α
  products : List (ProductConfig α)

inductive ConfigError where
  | validation (text : String)
  deriving DecidableEq, Repr

section Code

variable {α : Type} [Arithmetic α]

def ProductConfig.validate (p : ProductConfig α) : Except ConfigError Unit :=
  if p.multiplier ≤ 0 then .error (.validation s!"product {p.name}: multiplier must be > 0") else .ok ()

def BrokerDaemonConfig.validate (config : BrokerDaemonConfig α) : Except ConfigError Unit :=
  if config.constraints.capital ≤ 0 then .error (.validation "constraints.capital must be > 0")
  else if config.products.isEmpty then .error (.validation "at least one product required")
  else if config.broker.kind ≠ "ibkr" ∧ config.broker.kind ≠ "ilink" then
    .error (.validation s!"broker.kind must be 'ibkr' or 'ilink', got {config.broker.kind}")
  else if config.broker.kind = "ibkr" ∧ config.broker.ibkr.isNone then
    .error (.validation "broker.kind=ibkr requires broker.ibkr section")
  else config.products.forM ProductConfig.validate

def roundToIncrement (value increment : α) : α :=
  if increment ≤ 0 then value else Arithmetic.round (value / increment) * increment

structure StrikeLoop (α : Type) where
  k : α
  out : List α

def StrikeLoop.goes (last : α) (s : StrikeLoop α) : Bool := decide (s.k ≤ last)

def StrikeLoop.turn (inc : α) (s : StrikeLoop α) : StrikeLoop α :=
  { k := s.k + inc, out := s.out ++ [roundToIncrement s.k inc] }

def firstStrike (atm : α) (product : ProductConfig α) : α :=
  atm + Arithmetic.of product.quoteRangeLow * product.strikeIncrement

def lastStrike (atm : α) (product : ProductConfig α) : α :=
  atm + Arithmetic.of product.quoteRangeHigh * product.strikeIncrement + Arithmetic.of (1 / 10 ^ 9)

-- `none` says that the loop still runs after so many turns.
def generateStrikes (fuel : ℕ) (atm : α) (product : ProductConfig α) : Option (List α) :=
  (While.run (StrikeLoop.goes (lastStrike atm product)) (StrikeLoop.turn product.strikeIncrement) fuel
    { k := firstStrike atm product, out := [] }).map StrikeLoop.out

end Code

section Exact

variable {inc : ℚ}

-- ATM + i × increment for each i of the quote range.
def strikeGrid (atm inc : ℚ) (low high : ℤ) : List ℚ :=
  (List.range (high - low + 1).toNat).map fun i : ℕ => atm + (low + i) * inc

theorem strikeGrid_step (atm : ℚ) {low high : ℤ} (within : low ≤ high) :
    strikeGrid atm inc low high = (atm + low * inc) :: strikeGrid atm inc (low + 1) high := by
  have count : (high - low + 1).toNat = (high - (low + 1) + 1).toNat + 1 := by omega
  rw [strikeGrid, count, List.range_succ_eq_map, List.map_cons, List.map_map, strikeGrid]
  congr 1
  · simp
  · apply List.map_congr_left
    intro i _
    simp only [Function.comp_apply, Nat.succ_eq_add_one]
    push_cast
    ring

theorem strikeGrid_over (atm : ℚ) {low high : ℤ} (exceeds : high < low) : strikeGrid atm inc low high = [] := by
  have count : (high - low + 1).toNat = 0 := by omega
  rw [strikeGrid, count]
  rfl

-- The loop at ATM + i × increment puts out the rest of the grid: the tolerance is less than
-- one increment, and rounding leaves what is on the increment grid.
theorem grid_ends (fine : 1 / 10 ^ 9 < inc) (n high : ℤ) (i : ℤ) (out : List ℚ) :
    ∃ final : StrikeLoop ℚ,
      While.Ends (StrikeLoop.goes (n * inc + high * inc + 1 / 10 ^ 9)) (StrikeLoop.turn inc)
        { k := n * inc + i * inc, out } final ∧
      final.out = out ++ strikeGrid (n * inc) inc i high := by
  have unit : 0 < inc := lt_trans (by norm_num) fine
  induction known : (high - i + 1).toNat generalizing i out with
  | zero =>
    have exceeds : high < i := by omega
    refine ⟨_, While.ends_stop ?_, by rw [strikeGrid_over _ exceeds, List.append_nil]⟩
    apply decide_eq_false
    have steps : (high : ℚ) + 1 ≤ i := by exact_mod_cast exceeds
    have scaled := mul_le_mul_of_nonneg_right steps unit.le
    rw [not_le]
    linarith
  | succ count next =>
    have within : i ≤ high := by omega
    have goes : StrikeLoop.goes (n * inc + high * inc + 1 / 10 ^ 9) { k := n * inc + i * inc, out } = true := by
      apply decide_eq_true
      have scaled := mul_le_mul_of_nonneg_right (Int.cast_le.mpr within : (i : ℚ) ≤ high) unit.le
      have tolerance : (0 : ℚ) < 1 / 10 ^ 9 := by norm_num
      linarith
    have rounded : roundToIncrement ((n : ℚ) * inc + i * inc) inc = n * inc + i * inc := by
      have onGrid : (n : ℚ) * inc + i * inc = (n + i : ℤ) * inc := by
        push_cast
        ring
      rw [roundToIncrement, if_neg (not_le.mpr unit), onGrid]
      exact snap_multiple unit.ne' (n + i)
    have turned : StrikeLoop.turn inc { k := (n : ℚ) * inc + i * inc, out } =
        { k := n * inc + (i + 1 : ℤ) * inc, out := out ++ [n * inc + i * inc] } := by
      rw [StrikeLoop.turn, rounded]
      congr 1
      push_cast
      ring
    obtain ⟨final, ended, last⟩ := next (i + 1) (out ++ [n * inc + i * inc]) (by omega)
    refine ⟨final, While.ends_step goes (turned ▸ ended), ?_⟩
    rw [last, strikeGrid_step _ within, List.append_assoc, List.singleton_append]

theorem generates_grid (product : ProductConfig ℚ) (fine : 1 / 10 ^ 9 < product.strikeIncrement) (n : ℤ) :
    ∃ fuel, generateStrikes fuel (n * product.strikeIncrement) product =
      some (strikeGrid (n * product.strikeIncrement) product.strikeIncrement product.quoteRangeLow
        product.quoteRangeHigh) := by
  obtain ⟨final, ⟨fuel, ended⟩, out⟩ := grid_ends fine n product.quoteRangeHigh product.quoteRangeLow []
  refine ⟨fuel, ?_⟩
  rw [List.nil_append] at out
  rw [← out]
  exact congrArg (Option.map StrikeLoop.out) ended

end Exact

section Doubles

open F64

variable {inc first last : F64}

-- Adding the increment moves every double from the first strike to the bound.
def Advances (first last inc : F64) : Prop :=
  first ≤ last → first + inc = nan ∨ (¬ inc ≤ 0 ∧ ∀ x, first ≤ x → x ≤ last → x + inc ≠ x)

abbrev StrikesEnd (first last inc : F64) : Prop :=
  ∃ final, While.Ends (StrikeLoop.goes last) (StrikeLoop.turn inc) { k := first, out := [] } final

theorem goes_iff (s : StrikeLoop F64) : s.goes last = true ↔ s.k ≤ last :=
  decide_eq_true_iff

theorem stops_of {k : F64} (exceeds : ¬ k ≤ last) (out : List F64) : StrikeLoop.goes last { k, out } = false :=
  decide_eq_false exceeds

theorem ends_after (exceeds : ¬ first + inc ≤ last) : StrikesEnd first last inc := by
  by_cases within : first ≤ last
  · exact ⟨_, While.ends_step (decide_eq_true within) (While.ends_stop (stops_of exceeds _))⟩
  · exact ⟨_, While.ends_stop (stops_of within _)⟩

-- A strike that never passes a value within the bound keeps the loop running.
theorem endless_below {x : F64} (Inv : F64 → Prop) (start : Inv first) (below : ∀ k, Inv k → k ≤ x)
    (kept : ∀ k, Inv k → Inv (k + inc)) (bound : x ≤ last) : ¬ StrikesEnd first last inc := by
  apply While.endless (fun s => Inv s.k)
  · intro s held
    exact (goes_iff s).mpr (le_trans (below s.k held) bound)
  · intro s held
    exact kept s.k held
  · exact start

theorem endless_down (stored : Stored first) (ordered : first ≤ last) (number : first + inc ≠ nan)
    (down : inc ≤ 0) : ¬ StrikesEnd first last inc := by
  have start := le_number ordered
  apply endless_below (fun k => k ≤ first) (le_refl start.1) (fun k held => held) ?_ ordered
  intro k held
  cases inc with
  | nan => exact absurd (add_nan first) number
  | finite q => exact le_trans (add_mono held) (add_le start.1 stored (finite_le.mp down))
  | infinite negative =>
    obtain rfl : negative = true := down
    cases k with
    | nan => exact absurd rfl (le_number held).1
    | finite p => exact bot_le start.1
    | infinite sign =>
      cases sign with
      | true => exact bot_le start.1
      | false =>
        rw [top_le.mp held] at number
        exact absurd rfl number

theorem endless_stuck {x : F64} (number : first + inc ≠ nan) (up : ¬ inc ≤ 0) (above : first ≤ x) (bound : x ≤ last)
    (stuck : x + inc = x) : ¬ StrikesEnd first last inc := by
  cases inc with
  | nan => exact absurd (add_nan first) number
  | finite q =>
    apply endless_below (fun k => k ≤ x) above (fun k held => held) ?_ bound
    intro k held
    have moved : k + finite q ≤ x + finite q := add_mono held
    rwa [stuck] at moved
  | infinite negative =>
    obtain rfl : negative = false := Bool.eq_false_of_not_eq_true up
    -- Only infinity absorbs it, and from any other start than the opposite one the loop gets there.
    have top : x = infinite false := by
      cases x with
      | nan => exact absurd rfl (le_number bound).1
      | finite p => cases stuck
      | infinite sign =>
        cases sign with
        | true => cases stuck
        | false => rfl
    have start : first ≠ infinite true := by
      rintro rfl
      exact number rfl
    apply endless_below (fun k => k ≤ x ∧ k ≠ infinite true) ⟨above, start⟩ (fun k held => held.1) ?_ bound
    intro k held
    rw [top]
    cases k with
    | nan => exact absurd rfl (le_number held.1).1
    | finite p => exact ⟨le_refl (by simp), by simp⟩
    | infinite sign =>
      cases sign with
      | true => exact absurd rfl held.2
      | false => exact ⟨le_refl (by simp), by simp⟩

-- How many doubles at most still fit below the bound.
def room : F64 → F64 → ℕ
  | finite bound, finite k => ⌊(bound - k) / 2 ^ (-1074 : ℤ)⌋.toNat
  | _, _ => 0

theorem room_falls {b p r : ℚ} (one : Stored (finite p)) (two : Stored (finite r)) (moved : p < r) (within : r ≤ b) :
    room (finite b) (finite r) < room (finite b) (finite p) := by
  have unit : (0 : ℚ) < 2 ^ (-1074 : ℤ) := zpow_pos two_pos _
  have apart := stored_apart one two moved
  have left : (0 : ℚ) ≤ (b - r) / 2 ^ (-1074 : ℤ) := div_nonneg (by linarith) unit.le
  have lower : ⌊(b - r) / 2 ^ (-1074 : ℤ)⌋ + 1 ≤ ⌊(b - p) / 2 ^ (-1074 : ℤ)⌋ := by
    rw [← Int.floor_add_one]
    apply Int.floor_mono
    rw [div_add_one unit.ne']
    exact div_le_div_of_nonneg_right (by linarith) unit.le
  have rest := Int.floor_nonneg.mpr left
  simp only [room]
  omega

theorem ends_up {q : ℚ} (positive : 0 < q) (stored : Stored first) (ordered : first ≤ last)
    (moves : ∀ x, first ≤ x → x ≤ last → x + finite q ≠ x) : StrikesEnd first last (finite q) := by
  have bound : ∃ b, last = finite b := by
    cases last with
    | nan => exact absurd rfl (le_number ordered).2
    | finite b => exact ⟨b, rfl⟩
    | infinite sign => exact absurd rfl (moves _ ordered (le_refl (by simp)))
  obtain ⟨b, rfl⟩ := bound
  apply While.ends_of_rank (fun s => Stored s.k ∧ first ≤ s.k) fun s => room (finite b) s.k
  · intro s _ held
    exact ⟨stored_add _ _, le_trans held.2 (le_add (le_number held.2).2 held.1 positive.le)⟩
  · intro s goes held after again
    obtain ⟨k, out⟩ := s
    have moved := moves k held.2 ((goes_iff _).mp goes)
    have next : k + finite q ≤ finite b := (goes_iff _).mp again
    have raised := le_add (le_number held.2).2 held.1 positive.le
    have result : Stored (k + finite q) := stored_add _ _
    change room (finite b) (k + finite q) < room (finite b) k
    cases k with
    | nan => exact absurd rfl (le_number held.2).2
    | infinite sign => exact absurd rfl moved
    | finite p =>
      generalize finite p + finite q = later at next moved raised result ⊢
      cases later with
      | nan => exact absurd rfl (le_number next).1
      | infinite sign =>
        cases sign with
        | true => cases raised
        | false => cases next
      | finite r =>
        have apart : p ≠ r := fun same => moved (congrArg finite same.symm)
        exact room_falls held.1 result (lt_of_le_of_ne (finite_le.mp raised) apart) (finite_le.mp next)
  · exact ⟨stored, le_refl (le_number ordered).1⟩

theorem ends_iff (stored : Stored first) : StrikesEnd first last inc ↔ Advances first last inc := by
  by_cases ordered : first ≤ last
  · by_cases number : first + inc = nan
    · have exceeds : ¬ first + inc ≤ last := fun within => (le_number within).1 number
      exact iff_of_true (ends_after exceeds) fun _ => .inl number
    constructor
    · intro ended _
      refine .inr ⟨fun down => endless_down stored ordered number down ended, ?_⟩
      intro x above bound stuck
      by_cases down : inc ≤ 0
      · exact endless_down stored ordered number down ended
      · exact endless_stuck number down above bound stuck ended
    · intro advances
      obtain ⟨up, moves⟩ := (advances ordered).resolve_left number
      cases inc with
      | nan => exact absurd (add_nan first) number
      | finite q => exact ends_up (not_le.mp fun down => up (finite_le.mpr down)) stored ordered moves
      | infinite sign =>
        obtain rfl : sign = false := Bool.eq_false_of_not_eq_true up
        apply ends_after
        intro within
        have top : first + infinite false = infinite false := by
          cases first with
          | nan => exact absurd rfl (le_number ordered).1
          | finite p => rfl
          | infinite sign =>
            cases sign with
            | true => exact absurd rfl number
            | false => rfl
        rw [top] at within
        obtain rfl := top_le.mp within
        exact absurd rfl (moves _ ordered within)
  · exact iff_of_true ⟨_, While.ends_stop (stops_of ordered [])⟩ fun within => absurd within ordered

end Doubles

section Validated

variable {α : Type} [Arithmetic α]

theorem generates_iff (atm : α) (product : ProductConfig α) :
    (∃ fuel strikes, generateStrikes fuel atm product = some strikes) ↔
      ∃ final, While.Ends (StrikeLoop.goes (lastStrike atm product)) (StrikeLoop.turn product.strikeIncrement)
        { k := firstStrike atm product, out := [] } final := by
  constructor
  · intro given
    obtain ⟨fuel, strikes, generated⟩ := given
    obtain ⟨final, ended, _⟩ := Option.map_eq_some_iff.mp generated
    exact ⟨final, fuel, ended⟩
  · intro given
    obtain ⟨final, fuel, ended⟩ := given
    exact ⟨fuel, final.out, congrArg (Option.map StrikeLoop.out) ended⟩

def ProductConfig.withIncrement (increment : α) (p : ProductConfig α) : ProductConfig α :=
  { p with strikeIncrement := increment }

-- The validation never looks at an increment.
theorem validate_increment (config : BrokerDaemonConfig α) (increment : α) :
    BrokerDaemonConfig.validate { config with products := config.products.map (·.withIncrement increment) } =
      config.validate := by
  have product (p : ProductConfig α) : (p.withIncrement increment).validate = p.validate := rfl
  have products : (config.products.map (·.withIncrement increment)).forM ProductConfig.validate =
      config.products.forM ProductConfig.validate := by
    induction config.products with
    | nil => rfl
    | cons p rest next => exact congrArg (fun left => p.validate.bind fun _ => left) next
  simp only [BrokerDaemonConfig.validate, products, List.isEmpty_map]

end Validated

-- Over the doubles the loop ends exactly where the increment moves them; over exact numbers it
-- generates the grid.
theorem strikes_generated (product : ProductConfig F64) (atm : F64) (exact : ProductConfig ℚ) (n : ℤ) :
    ((∃ fuel strikes, generateStrikes fuel atm product = some strikes) ↔
      Advances (firstStrike atm product) (lastStrike atm product) product.strikeIncrement) ∧
    (1 / 10 ^ 9 < exact.strikeIncrement →
      ∃ fuel, generateStrikes fuel (n * exact.strikeIncrement) exact =
        some (strikeGrid (n * exact.strikeIncrement) exact.strikeIncrement exact.quoteRangeLow
          exact.quoteRangeHigh)) := by
  constructor
  · rw [generates_iff]
    exact ends_iff (F64.stored_add _ _)
  · intro fine
    exact generates_grid exact fine n

theorem strikes_generated_nickel :
    ∃ fuel, generateStrikes fuel (((120 : ℤ) : ℚ) * (1/20)) ⟨"HG", 25000, -2, 1, 1/20⟩ =
      some [59/10, 119/20, 6, 121/20] := by
  obtain ⟨fuel, generated⟩ := (strikes_generated ⟨"HG", .finite 25000, -2, 1, .ofRat (1/20)⟩ (.finite 6)
    ⟨"HG", 25000, -2, 1, 1/20⟩ 120).2 (by norm_num)
  refine ⟨fuel, generated.trans ?_⟩
  decide +kernel

example :
    (generateStrikes 12 (F64.finite 6) ⟨"HG", .finite 25000, -5, 5, .ofRat (1/20)⟩).map List.length = some 11 := by
  decide +kernel

-- A configuration with a zero increment is accepted, and no number of turns is enough.
theorem zero_increment :
    ∃ (config : BrokerDaemonConfig F64) (product : ProductConfig F64) (atm : F64),
      config.validate = .ok () ∧ product ∈ config.products ∧
      ¬ ∃ fuel strikes, generateStrikes fuel atm product = some strikes := by
  let product : ProductConfig F64 := ⟨"HG", .finite 25000, -5, 5, .finite 0⟩
  refine ⟨⟨⟨"ilink", none⟩, ⟨.finite 500000⟩, [product]⟩, product, .finite 6, by decide +kernel,
    List.mem_singleton_self product, ?_⟩
  rw [generates_iff]
  exact endless_down (F64.stored_add _ _) (by decide +kernel) (by decide +kernel) (by decide +kernel)

end Corsair.Daemon
