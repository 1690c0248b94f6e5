import Corsair.Constraint.Checker

namespace Corsair.Constraint

open BrokerApi

section Decision

variable (cfg : ConstraintConfig F64) (c : ConstraintCheck F64) (positions : List (Holding F64))

-- What a fill must meet. No NaN meets a limit, and no NaN is an improvement.
structure WithinHard : Prop where
  margin : c.postMargin ≤ cfg.marginKill
  delta : (postDelta cfg c positions).abs ≤ cfg.deltaKill
  theta : cfg.thetaKill < 0 → cfg.thetaKill ≤ postTheta cfg c positions

structure WithinSoft : Prop where
  margin : c.postMargin ≤ cfg.marginCeiling ∨ c.postMargin < c.curMargin
  delta : (postDelta cfg c positions).abs ≤ cfg.deltaCeiling ∨
    (postDelta cfg c positions).abs < (curDelta cfg c positions).abs
  theta : cfg.thetaFloor ≤ postTheta cfg c positions ∨ curTheta cfg positions < postTheta cfg c positions

def Solvent : Prop := c.postLongPremium ≤ cfg.capital ∨ c.postLongPremium ≤ c.curLongPremium

-- The fill improves on all three metrics and spends no more on long premium.
structure Improves : Prop where
  margin : c.postMargin < c.curMargin
  delta : (postDelta cfg c positions).abs < (curDelta cfg c positions).abs
  theta : curTheta cfg positions < postTheta cfg c positions
  premium : c.postLongPremium ≤ c.curLongPremium

structure Decides (outcome : GateOutcome) : Prop where
  hard : outcome.isAccepted → WithinHard cfg c positions
  solvent : outcome.isAccepted → Solvent cfg c
  soft : outcome.isAccepted →
    (Escapes cfg c ∧ ∃ detail, outcome = .acceptedMarginEscape detail) ∨ WithinSoft cfg c positions
  improving : WithinHard cfg c positions → Improves cfg c positions → outcome.isAccepted

-- A soft limit sees its figure: that is a number, and so is the bound, unless the
-- fill improves on the figure before, and that one, unless the bound is kept.
structure Sees (figure bound before : F64) (within improves : Prop) : Prop where
  figure : figure ≠ .nan
  bound : bound ≠ .nan ∨ improves
  before : before ≠ .nan ∨ within

structure Seen : Prop where
  margin : c.postMargin ≠ .nan ∧ cfg.marginKill ≠ .nan
  delta : postDelta cfg c positions ≠ .nan ∧ cfg.deltaKill ≠ .nan
  theta : cfg.thetaKill < 0 → postTheta cfg c positions ≠ .nan
  premium : Sees c.postLongPremium cfg.capital c.curLongPremium (c.postLongPremium ≤ cfg.capital)
    (c.postLongPremium ≤ c.curLongPremium)
  softMargin : Escapes cfg c ∨ Sees c.postMargin cfg.marginCeiling c.curMargin (c.postMargin ≤ cfg.marginCeiling)
    (c.postMargin < c.curMargin)
  softDelta : Escapes cfg c ∨ Sees (postDelta cfg c positions) cfg.deltaCeiling (curDelta cfg c positions)
    ((postDelta cfg c positions).abs ≤ cfg.deltaCeiling)
    ((postDelta cfg c positions).abs < (curDelta cfg c positions).abs)
  softTheta : Escapes cfg c ∨ Sees (postTheta cfg c positions) cfg.thetaFloor (curTheta cfg positions)
    (cfg.thetaFloor ≤ postTheta cfg c positions) (curTheta cfg positions < postTheta cfg c positions)

end Decision

section Limits

variable {figure bound before : F64}

theorem abs_number {x : F64} : x.abs ≠ .nan ↔ x ≠ .nan := by
  cases x <;> simp [F64.abs]

-- Where a limit does not refuse a figure, it is kept exactly when it sees it.
theorem sees_iff {within improves beyond worse : Prop} (bounded : figure ≠ .nan → bound ≠ .nan → within ∨ beyond)
    (compared : figure ≠ .nan → before ≠ .nan → improves ∨ worse) (kept : within → figure ≠ .nan ∧ bound ≠ .nan)
    (improved : improves → figure ≠ .nan ∧ before ≠ .nan) (clear : ¬(beyond ∧ worse)) :
    within ∨ improves ↔ Sees figure bound before within improves := by
  constructor
  · rintro (inside | better)
    · exact ⟨(kept inside).1, .inl (kept inside).2, .inr inside⟩
    · exact ⟨(improved better).1, .inr better, .inl (improved better).2⟩
  · intro sees
    rcases sees.bound with number | better
    · rcases bounded sees.figure number with inside | out
      · exact .inl inside
      · rcases sees.before with was | inside
        · refine .inr ((compared sees.figure was).resolve_right ?_)
          intro worse
          exact clear ⟨out, worse⟩
        · exact .inl inside
    · exact .inr better

theorem le_or_lt {x y : F64} (left : x ≠ .nan) (right : y ≠ .nan) : x ≤ y ∨ y < x := by
  by_cases above : y < x
  · exact .inr above
  · exact .inl (F64.le_of_not_lt left right above)

variable {cfg : ConstraintConfig F64} {c : ConstraintCheck F64} {positions : List (Holding F64)}

theorem solvent_iff (clear : ¬Refused cfg c positions) :
    Solvent cfg c ↔ Sees c.postLongPremium cfg.capital c.curLongPremium (c.postLongPremium ≤ cfg.capital)
      (c.postLongPremium ≤ c.curLongPremium) :=
  sees_iff le_or_lt le_or_lt F64.le_number F64.le_number fun past => clear (.longPremium past.1 past.2)

theorem softMargin_iff (clear : ¬Refused cfg c positions) (stays : ¬Escapes cfg c) :
    c.postMargin ≤ cfg.marginCeiling ∨ c.postMargin < c.curMargin ↔
      Sees c.postMargin cfg.marginCeiling c.curMargin (c.postMargin ≤ cfg.marginCeiling)
        (c.postMargin < c.curMargin) := by
  have compared : c.postMargin ≠ .nan → c.curMargin ≠ .nan → c.postMargin < c.curMargin ∨ c.curMargin ≤ c.postMargin :=
    fun post cur => (le_or_lt cur post).symm
  refine sees_iff le_or_lt compared F64.le_number (fun below => F64.le_number below.1) ?_
  rintro ⟨beyond, worse⟩
  -- The code tests a margin in the breach before the fill apart from one within the ceiling.
  rcases le_or_lt (F64.le_number worse).1 (F64.le_number beyond.1).1 with was | breached
  · exact clear (.margin stays beyond (.inr was))
  · exact clear (.margin stays beyond (.inl ⟨breached, worse⟩))

theorem softDelta_iff (clear : ¬Refused cfg c positions) (stays : ¬Escapes cfg c) :
    (postDelta cfg c positions).abs ≤ cfg.deltaCeiling ∨
        (postDelta cfg c positions).abs < (curDelta cfg c positions).abs ↔
      Sees (postDelta cfg c positions) cfg.deltaCeiling (curDelta cfg c positions)
        ((postDelta cfg c positions).abs ≤ cfg.deltaCeiling)
        ((postDelta cfg c positions).abs < (curDelta cfg c positions).abs) := by
  refine sees_iff ?_ ?_ ?_ ?_ fun past => clear (.delta stays past.1 past.2)
  · intro post ceiling
    exact le_or_lt (abs_number.mpr post) ceiling
  · intro post cur
    exact (le_or_lt (abs_number.mpr cur) (abs_number.mpr post)).symm
  · intro inside
    exact ⟨abs_number.mp (F64.le_number inside).1, (F64.le_number inside).2⟩
  · intro below
    exact ⟨abs_number.mp (F64.le_number below.1).1, abs_number.mp (F64.le_number below.1).2⟩

theorem softTheta_iff (clear : ¬Refused cfg c positions) (stays : ¬Escapes cfg c) :
    cfg.thetaFloor ≤ postTheta cfg c positions ∨ curTheta cfg positions < postTheta cfg c positions ↔
      Sees (postTheta cfg c positions) cfg.thetaFloor (curTheta cfg positions)
        (cfg.thetaFloor ≤ postTheta cfg c positions) (curTheta cfg positions < postTheta cfg c positions) := by
  refine sees_iff ?_ ?_ ?_ ?_ fun past => clear (.theta stays past.1 past.2)
  · intro post floor
    exact le_or_lt floor post
  · intro post cur
    exact (le_or_lt post cur).symm
  · intro inside
    exact (F64.le_number inside).symm
  · intro above
    exact (F64.le_number above.1).symm

theorem hard_iff (clear : ¬Refused cfg c positions) :
    WithinHard cfg c positions ↔ (c.postMargin ≠ .nan ∧ cfg.marginKill ≠ .nan) ∧
      (postDelta cfg c positions ≠ .nan ∧ cfg.deltaKill ≠ .nan) ∧
      (cfg.thetaKill < 0 → postTheta cfg c positions ≠ .nan) := by
  constructor
  · intro hard
    refine ⟨F64.le_number hard.margin, ⟨abs_number.mp (F64.le_number hard.delta).1, (F64.le_number hard.delta).2⟩, ?_⟩
    intro set
    exact (F64.le_number (hard.theta set)).2
  · rintro ⟨margin, delta, theta⟩
    refine ⟨?_, ?_, ?_⟩
    · exact F64.le_of_not_lt margin.1 margin.2 fun past => clear (.marginKill past)
    · exact F64.le_of_not_lt (abs_number.mpr delta.1) delta.2 fun past => clear (.deltaKill past)
    · intro set
      exact F64.le_of_not_lt (F64.le_number set.1).1 (theta set) fun past => clear (.thetaKill set past)

theorem soft_seen (clear : ¬Refused cfg c positions) (stays : ¬Escapes cfg c) (hard : WithinHard cfg c positions)
    (solvent : Solvent cfg c) : WithinSoft cfg c positions ↔ Seen cfg c positions := by
  obtain ⟨margin, delta, theta⟩ := (hard_iff clear).mp hard
  constructor
  · intro soft
    exact ⟨margin, delta, theta, (solvent_iff clear).mp solvent, .inr ((softMargin_iff clear stays).mp soft.margin),
      .inr ((softDelta_iff clear stays).mp soft.delta), .inr ((softTheta_iff clear stays).mp soft.theta)⟩
  · intro seen
    exact ⟨(softMargin_iff clear stays).mpr (seen.softMargin.resolve_left stays),
      (softDelta_iff clear stays).mpr (seen.softDelta.resolve_left stays),
      (softTheta_iff clear stays).mpr (seen.softTheta.resolve_left stays)⟩

-- What an accepted fill needs is exactly that its limits see their figures.
theorem clear_seen (clear : ¬Refused cfg c positions) :
    WithinHard cfg c positions ∧ Solvent cfg c ∧ (Escapes cfg c ∨ WithinSoft cfg c positions) ↔
      Seen cfg c positions := by
  constructor
  · rintro ⟨hard, solvent, soft⟩
    by_cases escapes : Escapes cfg c
    · obtain ⟨margin, delta, theta⟩ := (hard_iff clear).mp hard
      exact ⟨margin, delta, theta, (solvent_iff clear).mp solvent, .inl escapes, .inl escapes, .inl escapes⟩
    · exact (soft_seen clear escapes hard solvent).mp (soft.resolve_left escapes)
  · intro seen
    have hard := (hard_iff clear).mpr ⟨seen.margin, seen.delta, seen.theta⟩
    have solvent := (solvent_iff clear).mpr seen.premium
    refine ⟨hard, solvent, ?_⟩
    by_cases escapes : Escapes cfg c
    · exact .inl escapes
    · exact .inr ((soft_seen clear escapes hard solvent).mpr seen)

-- An improving fill within the hard limits meets no gate, whatever else is a NaN.
theorem improving_clear (hard : WithinHard cfg c positions) (improves : Improves cfg c positions) :
    ¬Refused cfg c positions := by
  intro refused
  cases refused with
  | marginKill past => exact F64.not_lt_of_le hard.margin past
  | deltaKill past => exact F64.not_lt_of_le hard.delta past
  | thetaKill set past => exact F64.not_lt_of_le (hard.theta set) past
  | longPremium beyond raised => exact F64.not_lt_of_le improves.premium raised
  | margin stays beyond worse =>
    rcases worse with ⟨breached, worse⟩ | was
    · exact F64.not_lt_of_le worse improves.margin
    · exact F64.not_lt_of_le (F64.le_trans improves.margin.1 was) beyond
  | delta stays beyond worse => exact F64.not_lt_of_le worse improves.delta
  | theta stays under worse => exact F64.not_lt_of_le worse improves.theta

end Limits

section Unmeasured

def hgLimits : ConstraintConfig F64 where
  product := "HG"
  capital := .finite 200000
  marginCeilingPct := .finite (1/2)
  deltaCeiling := .finite 3
  thetaFloor := .finite (-200)
  marginKillPct := .finite (3/4)
  deltaKill := .finite 5
  thetaKill := .finite (-500)
  effectiveDeltaGating := true
  marginEscapeEnabled := false

-- A hundred contracts sold, with no figure for the margin they take.
def unmeasured : ConstraintCheck F64 where
  optionStrike := .finite 6
  optionRight := .call
  optionExpiry := .epoch
  optionDeltaPerContract := .finite 0
  optionThetaPerContract := .finite 0
  fillQtySigned := -100
  multiplier := .finite 25000
  curMargin := .finite 0
  postMargin := .nan
  curLongPremium := .finite 0
  postLongPremium := .finite 0
  hedgeQty := 0

def noFigures : NumberFormat F64 := ⟨fun _ _ => "", fun _ _ => ""⟩

end Unmeasured

theorem unmeasured_accepted :
    check noFigures hgLimits unmeasured [] = .accepted ∧
      ¬Decides hgLimits unmeasured [] (check noFigures hgLimits unmeasured []) := by
  have accepted : check noFigures hgLimits unmeasured [] = .accepted := by decide +kernel
  refine ⟨accepted, ?_⟩
  intro decides
  rw [accepted] at decides
  exact (F64.le_number (decides.hard rfl).margin).1 rfl

-- A check does what is asked of it exactly when some gate refuses the fill or no
-- gate is blind to its figure.
theorem check_decides_iff (fmt : NumberFormat F64) (cfg : ConstraintConfig F64) (c : ConstraintCheck F64)
    (positions : List (Holding F64)) :
    Decides cfg c positions (check fmt cfg c positions) ↔ Refused cfg c positions ∨ Seen cfg c positions := by
  have verdict := check_verdict fmt cfg c positions
  generalize check fmt cfg c positions = outcome at verdict
  cases verdict with
  | refused reason detail past =>
    refine ⟨fun _ => .inl past, fun _ => ⟨nofun, nofun, nofun, ?_⟩⟩
    intro hard improves
    exact absurd past (improving_clear hard improves)
  | escaped detail clear escapes =>
    constructor
    · intro decides
      exact .inr ((clear_seen clear).mp ⟨decides.hard rfl, decides.solvent rfl, .inl escapes⟩)
    · intro holds
      obtain ⟨hard, solvent, -⟩ := (clear_seen clear).mpr (holds.resolve_left clear)
      exact ⟨fun _ => hard, fun _ => solvent, fun _ => .inl ⟨escapes, detail, rfl⟩, fun _ _ => rfl⟩
  | passed clear stays =>
    constructor
    · intro decides
      have soft := (decides.soft rfl).resolve_left fun escaped => stays escaped.1
      exact .inr ((clear_seen clear).mp ⟨decides.hard rfl, decides.solvent rfl, .inr soft⟩)
    · intro holds
      obtain ⟨hard, solvent, soft⟩ := (clear_seen clear).mpr (holds.resolve_left clear)
      exact ⟨fun _ => hard, fun _ => solvent, fun _ => .inr (soft.resolve_left stays), fun _ _ => rfl⟩

end Corsair.Constraint
