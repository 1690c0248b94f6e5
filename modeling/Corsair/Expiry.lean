import Corsair.BrokerApi
import Mathlib.Algebra.Order.Field.Rat
import Mathlib.Tactic.Linarith
import Mathlib.Tactic.NormNum

namespace Corsair.Expiry

open BrokerApi

-- Days since 1970-01-01 in the proleptic Gregorian calendar.
def daysBefore (year : ℤ) (month : ℕ) : ℕ := ((List.range (month - 1)).map fun m => daysInMonth year (m + 1)).sum

def dayNumber (d : NaiveDate) : ℤ :=
  365 * (d.year - 1) + (d.year - 1) / 4 - (d.year - 1) / 100 + (d.year - 1) / 400 + daysBefore d.year d.month + d.day -
    719163

-- A date at a full hour, as nanoseconds since the epoch.
def atHour (d : NaiveDate) (hour : ℤ) : ℤ := (dayNumber d * 86400 + hour * 3600) * 10 ^ 9

-- chrono::TimeDelta::num_seconds, toward zero.
def numSeconds (nanos : ℤ) : ℤ := nanos.tdiv (10 ^ 9)

-- vol_surface.rs, the time of a point of the fit. An option at or past it is left out.
def snapshotTte (expiry : NaiveDate) (now : ℤ) : Option ℚ :=
  let secs := numSeconds (atHour expiry 20 - now)
  if secs ≤ 0 then none else some (secs / (365.25 * 24 * 3600))

-- tte_cache.rs, on a parsed expiry. What it prices with is the time if it is positive.
def traderTimeToExpiry (settlement now : ℤ) : ℚ := numSeconds (settlement - now) / (365 * 24 * 3600)

-- portfolio.rs
def portfolioTimeToExpiry (expiry : NaiveDate) (now : ℤ) : ℚ :=
  let secs := numSeconds (atHour expiry 20 - now)
  if secs ≤ 0 then 0 else secs / (365.25 * 24 * 3600)

-- tasks.rs, compute_raw_synthetic_margin. An expired position is left out.
def marginTte (expiry : NaiveDate) (now : ℤ) : Option ℚ :=
  let t : ℚ := numSeconds (atHour expiry 16 - now) / (365 * 86400)
  if t ≤ 0 then none else some t

-- What each of the four prices with, none for an option it takes for expired.
def live (t : ℚ) : Option ℚ := if t ≤ 0 then none else some t

def fitClock (expiry : NaiveDate) (now : ℤ) : Option ℚ := snapshotTte expiry now
def traderClock (expiry : NaiveDate) (now : ℤ) : Option ℚ := live (traderTimeToExpiry (atHour expiry 21) now)
def portfolioClock (expiry : NaiveDate) (now : ℤ) : Option ℚ := live (portfolioTimeToExpiry expiry now)
def marginClock (expiry : NaiveDate) (now : ℤ) : Option ℚ := marginTte expiry now

-- The four agree on the time and on what has expired, and an iv that gives a mid at the
-- time of the fit gives it at the time of the trader, whatever the price function.
structure OneClock (expiry : NaiveDate) (now : ℤ) : Prop where
  trader : traderClock expiry now = fitClock expiry now
  portfolio : portfolioClock expiry now = fitClock expiry now
  margin : marginClock expiry now = fitClock expiry now
  reprices : ∀ (price : ℚ → ℚ → ℚ) iv mid t, fitClock expiry now = some t → price t iv = mid →
    ∃ u, traderClock expiry now = some u ∧ price u iv = mid

section Seconds

theorem numSeconds_pos {nanos : ℤ} : 0 < numSeconds nanos ↔ 10 ^ 9 ≤ nanos := by
  unfold numSeconds
  rcases lt_or_ge nanos 0 with negative | positive
  · have back : nanos.tdiv (10 ^ 9) ≤ (0 : ℤ).tdiv (10 ^ 9) := Int.tdiv_le_tdiv (by norm_num) (Int.le_of_lt negative)
    rw [Int.zero_tdiv] at back
    omega
  · rw [Int.tdiv_eq_ediv_of_nonneg positive]
    omega

theorem numSeconds_mono {a b : ℤ} (le : a ≤ b) : numSeconds a ≤ numSeconds b := by
  unfold numSeconds
  exact Int.tdiv_le_tdiv (by norm_num) le

theorem hours_mono (expiry : NaiveDate) {early late : ℤ} (le : early ≤ late) :
    atHour expiry early ≤ atHour expiry late := by
  refine Int.mul_le_mul_of_nonneg_right ?_ (by norm_num)
  omega

end Seconds

section Clocks

variable (expiry : NaiveDate) (now : ℤ)

theorem live_quotient (n : ℤ) {year : ℚ} (positive : 0 < year) :
    live (n / year) = if n ≤ 0 then none else some (n / year) := by
  have sign : (n : ℚ) / year ≤ 0 ↔ n ≤ 0 := by
    rw [div_nonpos_iff]
    constructor
    · rintro (⟨-, wrong⟩ | ⟨low, -⟩)
      · exact absurd positive (not_lt.mpr wrong)
      · exact_mod_cast low
    · intro low
      exact .inr ⟨by exact_mod_cast low, le_of_lt positive⟩
  unfold live
  by_cases low : n ≤ 0
  · rw [if_pos low, if_pos (sign.mpr low)]
  · rw [if_neg low, if_neg (fun under => low (sign.mp under))]

theorem fitClock_quotient : fitClock expiry now =
    if numSeconds (atHour expiry 20 - now) ≤ 0 then none
    else some ((numSeconds (atHour expiry 20 - now) : ℚ) / (365.25 * 24 * 3600)) := rfl

theorem traderClock_quotient : traderClock expiry now =
    if numSeconds (atHour expiry 21 - now) ≤ 0 then none
    else some ((numSeconds (atHour expiry 21 - now) : ℚ) / (365 * 24 * 3600)) := live_quotient _ (by norm_num)

theorem portfolioClock_fit : portfolioClock expiry now = fitClock expiry now := by
  rw [fitClock_quotient, portfolioClock, portfolioTimeToExpiry]
  split
  · simp [live]
  · rename_i positive
    rw [live_quotient _ (by norm_num), if_neg positive]

theorem marginClock_quotient : marginClock expiry now =
    if numSeconds (atHour expiry 16 - now) ≤ 0 then none
    else some ((numSeconds (atHour expiry 16 - now) : ℚ) / (365 * 86400)) := live_quotient _ (by norm_num)

variable {expiry now}

-- The trader's year is shorter and its day ends later, so on a live option its time is the
-- longer one.
theorem trader_longer {t : ℚ} (fitted : fitClock expiry now = some t) :
    ∃ u, traderClock expiry now = some u ∧ t < u := by
  rw [fitClock_quotient] at fitted
  have hours := hours_mono expiry (show (20 : ℤ) ≤ 21 by norm_num)
  have order : numSeconds (atHour expiry 20 - now) ≤ numSeconds (atHour expiry 21 - now) :=
    numSeconds_mono (by omega)
  rw [traderClock_quotient]
  split at fitted
  · cases fitted
  · rename_i positive
    cases fitted
    rw [if_neg (by omega)]
    refine ⟨_, rfl, ?_⟩
    have early : (0 : ℚ) < numSeconds (atHour expiry 20 - now) := by exact_mod_cast not_le.mp positive
    have late : (numSeconds (atHour expiry 20 - now) : ℚ) ≤ numSeconds (atHour expiry 21 - now) := by
      exact_mod_cast order
    rw [div_lt_div_iff₀ (by norm_num) (by norm_num)]
    nlinarith

theorem traderClock_none : traderClock expiry now = none ↔ atHour expiry 21 - 10 ^ 9 < now := by
  have positive := @numSeconds_pos (atHour expiry 21 - now)
  rw [traderClock_quotient]
  split
  · simp only [true_iff]
    omega
  · simp only [reduceCtorEq, false_iff]
    omega

theorem ended {hour : ℤ} (before : hour ≤ 21) (late : atHour expiry 21 - 10 ^ 9 < now) :
    numSeconds (atHour expiry hour - now) ≤ 0 := by
  have hours := hours_mono expiry before
  have positive := @numSeconds_pos (atHour expiry hour - now)
  omega

end Clocks

-- At the start of the day of expiry the trader has 21 hours of a 365-day year left, and the
-- fit 20 of a 365.25-day one.
theorem two_clocks : ¬OneClock .epoch (atHour .epoch 0) := by
  intro one
  have same := one.trader
  obtain ⟨t, fitted⟩ : ∃ t, fitClock .epoch (atHour .epoch 0) = some t := ⟨_, rfl⟩
  obtain ⟨u, traded, longer⟩ := trader_longer fitted
  rw [fitted, traded] at same
  cases same
  exact lt_irrefl _ longer

theorem one_clock_iff (expiry : NaiveDate) (now : ℤ) :
    OneClock expiry now ↔ atHour expiry 21 - 10 ^ 9 < now := by
  constructor
  · intro one
    rw [← traderClock_none]
    cases fitted : fitClock expiry now with
    | none => rw [one.trader, fitted]
    | some t =>
      obtain ⟨u, traded, longer⟩ := trader_longer fitted
      have same := one.trader
      rw [fitted, traded] at same
      cases same
      exact absurd longer (lt_irrefl _)
  · intro late
    have fitted : fitClock expiry now = none := by
      rw [fitClock_quotient, if_pos (ended (by norm_num) late)]
    constructor
    case trader => rw [fitted, traderClock_none.mpr late]
    case portfolio => exact portfolioClock_fit expiry now
    case margin => rw [fitted, marginClock_quotient, if_pos (ended (by norm_num) late)]
    case reprices =>
      intro price iv mid t live
      rw [fitted] at live
      cases live

end Corsair.Expiry
