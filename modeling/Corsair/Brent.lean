import Corsair.Lib.Checked
import Corsair.Lib.Numeral
import Mathlib.Algebra.Order.Field.Basic
import Mathlib.Algebra.Order.Group.Unbundled.Abs
import Mathlib.Algebra.Order.Field.Rat
import Mathlib.Data.List.Chain
import Mathlib.Order.Interval.Set.UnorderedInterval
import Mathlib.Tactic.Linarith

namespace Corsair.Brent

variable {𝕜 : Type*} [Field 𝕜] [LinearOrder 𝕜]

inductive Fault where
  | divisionByZero

-- lib.rs, the variables of the loop.
structure Bracket (𝕜 : Type*) where
  a : 𝕜
  b : 𝕜
  c : 𝕜
  d : 𝕜
  fa : 𝕜
  fb : 𝕜
  fc : 𝕜
  mflag : Bool

namespace Bracket

def interpolate (st : Bracket 𝕜) : Except Fault 𝕜 :=
  let ⟨a, b, c, _, fa, fb, fc, _⟩ := st
  if fa ≠ fc ∧ fb ≠ fc then do
    let x ← Checked.div .divisionByZero (a * fb * fc) ((fa - fb) * (fa - fc))
    let y ← Checked.div .divisionByZero (b * fa * fc) ((fb - fa) * (fb - fc))
    let z ← Checked.div .divisionByZero (c * fa * fb) ((fc - fa) * (fc - fb))
    return x + y + z
  else do
    let x ← Checked.div .divisionByZero (fb * (b - a)) (fb - fa)
    return b - x

def between (st : Bracket 𝕜) (s : 𝕜) : Bool :=
  let lo := (3 * st.a + st.b) / 4
  let hi := st.b
  if lo ≤ hi then s ≥ lo ∧ s ≤ hi else s ≥ hi ∧ s ≤ lo

-- The five conditions under which the interpolated point gives way to the midpoint.
def fallsBack (st : Bracket 𝕜) (xtol s : 𝕜) : Bool :=
  !st.between s ||
    st.mflag && decide (|s - st.b| ≥ |st.b - st.c| / 2) ||
    !st.mflag && decide (|s - st.b| ≥ |st.c - st.d| / 2) ||
    st.mflag && decide (|st.b - st.c| < xtol) ||
    !st.mflag && decide (|st.c - st.d| < xtol)

def point (st : Bracket 𝕜) (xtol s : 𝕜) : 𝕜 := if st.fallsBack xtol s then (st.a + st.b) / 2 else s

def swapped (st : Bracket 𝕜) : Bracket 𝕜 :=
  if |st.fa| < |st.fb| then { st with a := st.b, b := st.a, fa := st.fb, fb := st.fa } else st

def shifted (st : Bracket 𝕜) (mflag : Bool) : Bracket 𝕜 :=
  { st with mflag := mflag, d := st.c, c := st.b, fc := st.fb }

def replaced (st : Bracket 𝕜) (s fs : 𝕜) : Bracket 𝕜 :=
  if st.fa * fs < 0 then { st with b := s, fb := fs } else { st with a := s, fa := fs }

end Bracket

inductive Step (𝕜 : Type*) where
  | found (x : 𝕜)
  | next (s : 𝕜) (st : Bracket 𝕜)

def iteration (f : 𝕜 → 𝕜) (xtol : 𝕜) (st : Bracket 𝕜) : Except Fault (Step 𝕜) :=
  if |st.b - st.a| < xtol then .ok (.found st.b)
  else if st.fb = 0 then .ok (.found st.b)
  else do
    let interpolated ← st.interpolate
    let s := st.point xtol interpolated
    let kept := st.shifted (st.fallsBack xtol interpolated)
    return .next s (kept.replaced s (f s)).swapped

-- What a search returns, with the points it has evaluated and the brackets its iterations started from.
structure Run (𝕜 : Type*) where
  result : Option 𝕜
  evaluated : List 𝕜
  starts : List (Bracket 𝕜)
  exhausted : Bool

def search (f : 𝕜 → 𝕜) (xtol : 𝕜) : ℕ → Bracket 𝕜 → Except Fault (Run 𝕜)
  | 0, st => .ok ⟨some st.b, [], [], true⟩
  | n + 1, st => do
    match ← iteration f xtol st with
    | .found x => return ⟨some x, [], [st], false⟩
    | .next s later =>
      let run ← search f xtol n later
      return { run with evaluated := s :: run.evaluated, starts := st :: run.starts }

def initial (f : 𝕜 → 𝕜) (a b : 𝕜) : Bracket 𝕜 :=
  let st := Bracket.swapped ⟨a, b, a, a, f a, f b, f a, true⟩
  { st with c := st.a, fc := st.fa, d := st.a }

def brent (f : 𝕜 → 𝕜) (a b xtol : 𝕜) (maxIter : ℕ) : Except Fault (Run 𝕜) :=
  if 0 ≤ f a * f b then .ok ⟨none, [a, b], [], false⟩
  else do
    let run ← search f xtol maxIter (initial f a b)
    return { run with evaluated := a :: b :: run.evaluated }

-- What a bracket says of the function: its values at both ends, and a strict change
-- of sign between them unless the best end is a root.
structure Brackets (f : 𝕜 → 𝕜) (st : Bracket 𝕜) : Prop where
  atA : st.fa = f st.a
  atB : st.fb = f st.b
  change : f st.a * f st.b < 0 ∨ f st.b = 0
  best : |st.fb| ≤ |st.fa|

def Bracket.interval (st : Bracket 𝕜) : Set 𝕜 := Set.uIcc st.a st.b

theorem swapped_interval (st : Bracket 𝕜) : st.swapped.interval = st.interval := by
  unfold Bracket.swapped Bracket.interval
  split
  · exact Set.uIcc_comm _ _
  · rfl

section Ordered

variable [IsStrictOrderedRing 𝕜] {f : 𝕜 → 𝕜} (xtol : 𝕜)

theorem swapped_brackets (st : Bracket 𝕜) (atA : st.fa = f st.a) (atB : st.fb = f st.b)
    (change : f st.a * f st.b < 0 ∨ f st.a = 0 ∧ f st.b ≠ 0) : Brackets f st.swapped := by
  unfold Bracket.swapped
  split
  · rename_i closer
    refine ⟨atB, atA, ?_, closer.le⟩
    rcases change with strict | root
    · left
      rw [mul_comm]
      exact strict
    · exact .inr root.1
  · rename_i farther
    refine ⟨atA, atB, ?_, not_lt.mp farther⟩
    rcases change with strict | root
    · exact .inl strict
    · -- A zero at the far end is closer than the other end.
      rw [atA, atB, root.1, abs_zero] at farther
      exact absurd (abs_pos.mpr root.2) farther

theorem interpolate_ok {st : Bracket 𝕜} (atA : st.fa = f st.a) (atB : st.fb = f st.b) (strict : f st.a * f st.b < 0) :
    ∃ s, st.interpolate = .ok s := by
  have apart : st.fa ≠ st.fb := by
    intro same
    rw [← atA, ← atB, same] at strict
    exact absurd (mul_self_nonneg st.fb) (not_le.mpr strict)
  have ab := sub_ne_zero.mpr apart
  have ba := sub_ne_zero.mpr apart.symm
  unfold Bracket.interpolate
  simp only
  split
  · rename_i distinct
    have ac := sub_ne_zero.mpr distinct.1
    have bc := sub_ne_zero.mpr distinct.2
    have ca := sub_ne_zero.mpr distinct.1.symm
    have cb := sub_ne_zero.mpr distinct.2.symm
    rw [Checked.div_ok (mul_ne_zero ab ac), Checked.div_ok (mul_ne_zero ba bc), Checked.div_ok (mul_ne_zero ca cb)]
    exact ⟨_, rfl⟩
  · rw [Checked.div_ok ba]
    exact ⟨_, rfl⟩

-- The point evaluated is between a quarter of the way and the best end, or it is the midpoint.
theorem point_held (st : Bracket 𝕜) (s : 𝕜) : st.point xtol s ∈ st.interval := by
  unfold Bracket.point Bracket.interval
  split
  · rcases le_total st.a st.b with up | down
    · exact Set.mem_uIcc.mpr (.inl ⟨by linarith, by linarith⟩)
    · exact Set.mem_uIcc.mpr (.inr ⟨by linarith, by linarith⟩)
  · rename_i kept
    have between : st.between s = true := by
      by_contra outside
      simp [Bracket.fallsBack, outside] at kept
    unfold Bracket.between at between
    simp only at between
    split at between
    · rename_i up
      obtain ⟨low, high⟩ := of_decide_eq_true between
      exact Set.mem_uIcc.mpr (.inl ⟨by linarith, high⟩)
    · rename_i down
      obtain ⟨low, high⟩ := of_decide_eq_true between
      exact Set.mem_uIcc.mpr (.inr ⟨low, by linarith⟩)

theorem iteration_congr {g : 𝕜 → 𝕜} {st : Bracket 𝕜} (agree : ∀ x ∈ st.interval, f x = g x) :
    iteration f xtol st = iteration g xtol st := by
  unfold iteration
  split
  · rfl
  · split
    · rfl
    · congr 1
      funext interpolated
      simp only [agree _ (point_held xtol st interpolated)]

theorem replaced_brackets (st : Bracket 𝕜) (atA : st.fa = f st.a) (atB : st.fb = f st.b) (strict : f st.a * f st.b < 0)
    (s : 𝕜) : Brackets f (st.replaced s (f s)).swapped := by
  unfold Bracket.replaced
  split
  · rename_i left
    rw [atA] at left
    exact swapped_brackets _ atA rfl (.inl left)
  · rename_i right
    rw [atA, not_lt] at right
    have nonzero : f st.b ≠ 0 := right_ne_zero_of_mul strict.ne
    apply swapped_brackets
    · rfl
    · exact atB
    · by_cases root : f s = 0
      · exact .inr ⟨root, nonzero⟩
      · left
        -- f s has the sign of f a, against that of f b.
        have same : 0 < f st.a * f s := lt_of_le_of_ne right (mul_ne_zero (left_ne_zero_of_mul strict.ne) root).symm
        rcases lt_or_gt_of_ne nonzero with below | above
        · have positive := (pos_iff_neg_of_mul_neg strict).mpr below
          exact mul_neg_of_pos_of_neg ((pos_iff_pos_of_mul_pos same).mp positive) below
        · have negative := (neg_iff_pos_of_mul_neg strict).mpr above
          exact mul_neg_of_neg_of_pos ((neg_iff_neg_of_mul_pos same).mp negative) above

omit [IsStrictOrderedRing 𝕜] in
theorem replaced_interval (st : Bracket 𝕜) {s : 𝕜} (held : s ∈ st.interval) (fs : 𝕜) :
    (st.replaced s fs).swapped.interval ⊆ st.interval := by
  rw [swapped_interval]
  unfold Bracket.replaced
  split
  · exact Set.uIcc_subset_uIcc Set.left_mem_uIcc held
  · exact Set.uIcc_subset_uIcc held Set.right_mem_uIcc

theorem next_interval {st later : Bracket 𝕜} {s : 𝕜} (stepped : iteration f xtol st = .ok (.next s later)) :
    later.interval ⊆ st.interval := by
  unfold iteration at stepped
  split at stepped
  · cases stepped
  · split at stepped
    · cases stepped
    · cases interpolated : st.interpolate with
      | error fault => simp [interpolated, bind, Except.bind] at stepped
      | ok x =>
        simp only [interpolated, bind, Except.bind, pure, Except.pure, Except.ok.injEq, Step.next.injEq] at stepped
        obtain ⟨-, same⟩ := stepped
        rw [← same]
        exact replaced_interval (st.shifted _) (point_held xtol st x) _

-- A search only sees the function on its bracket.
theorem search_congr {g : 𝕜 → 𝕜} (maxIter : ℕ) {st : Bracket 𝕜} (agree : ∀ x ∈ st.interval, f x = g x) :
    search f xtol maxIter st = search g xtol maxIter st := by
  induction maxIter generalizing st with
  | zero => rfl
  | succ n next =>
    unfold search
    rw [iteration_congr xtol agree]
    cases stepped : iteration g xtol st with
    | error fault => rfl
    | ok step =>
      cases step with
      | found x => rfl
      | next s later =>
        have rest := next fun x member => agree x (next_interval xtol stepped member)
        simp only [bind, Except.bind, rest]

-- One iteration returns the best end, or evaluates one point of the bracket and goes on
-- with a bracket inside it.
theorem iteration_cases {st : Bracket 𝕜} (given : Brackets f st) :
    iteration f xtol st = .ok (.found st.b) ∧ (|st.b - st.a| < xtol ∨ f st.b = 0) ∨
      ∃ s later, iteration f xtol st = .ok (.next s later) ∧ s ∈ st.interval ∧ Brackets f later ∧
        later.interval ⊆ st.interval := by
  unfold iteration
  by_cases narrow : |st.b - st.a| < xtol
  · exact .inl ⟨if_pos narrow, .inl narrow⟩
  · rw [if_neg narrow]
    by_cases root : st.fb = 0
    · exact .inl ⟨if_pos root, .inr (given.atB ▸ root)⟩
    · right
      rw [if_neg root]
      have strict : f st.a * f st.b < 0 := given.change.resolve_right (given.atB ▸ root)
      obtain ⟨interpolated, found⟩ := interpolate_ok given.atA given.atB strict
      rw [found]
      have held := point_held xtol st interpolated
      refine ⟨_, _, rfl, held, ?_, ?_⟩
      · exact replaced_brackets (st.shifted _) given.atA given.atB strict _
      · exact replaced_interval (st.shifted _) held _

-- What one iteration does to its bracket: it evaluates one point of it and goes on from there.
def Follows (f : 𝕜 → 𝕜) (xtol : 𝕜) (evaluated : List 𝕜) (st later : Bracket 𝕜) : Prop :=
  later.interval ⊆ st.interval ∧ ∃ s ∈ evaluated, iteration f xtol st = .ok (.next s later)

-- What holds of a search that starts from a bracket. It stops short of a root only after
-- all of its iterations.
structure SearchSound (f : 𝕜 → 𝕜) (xtol : 𝕜) (maxIter : ℕ) (start : Bracket 𝕜) (interval : Set 𝕜) (run : Run 𝕜) :
    Prop where
  evaluated : ∀ x ∈ run.evaluated, x ∈ interval
  starts : ∀ st ∈ run.starts, Brackets f st ∧ st.interval ⊆ interval
  first : ∀ st ∈ run.starts.head?, st = start
  nested : run.starts.IsChain (Follows f xtol run.evaluated)
  result : ∃ x ∈ interval, run.result = some x
  limit : run.starts.length ≤ maxIter
  spent : run.exhausted = true → run.starts.length = maxIter ∧ run.evaluated.length = maxIter
  early : run.exhausted = false → ∀ x, run.result = some x →
    f x = 0 ∨ ∃ y ∈ interval, |x - y| < xtol ∧ f x * f y < 0

omit [IsStrictOrderedRing 𝕜] in
theorem found_near {interval : Set 𝕜} {st : Bracket 𝕜} (given : Brackets f st) (inside : st.interval ⊆ interval)
    (near : |st.b - st.a| < xtol ∨ f st.b = 0) :
    f st.b = 0 ∨ ∃ y ∈ interval, |st.b - y| < xtol ∧ f st.b * f y < 0 := by
  rcases given.change with strict | root
  · rcases near with narrow | root
    · right
      refine ⟨st.a, inside Set.left_mem_uIcc, narrow, ?_⟩
      rw [mul_comm]
      exact strict
    · exact .inl root
  · exact .inl root

omit [IsStrictOrderedRing 𝕜] in
theorem found_sound {n : ℕ} {st : Bracket 𝕜} (given : Brackets f st) (near : |st.b - st.a| < xtol ∨ f st.b = 0) :
    SearchSound f xtol (n + 1) st st.interval ⟨some st.b, [], [st], false⟩ := by
  constructor
  · simp
  · intro start member
    cases List.mem_singleton.mp member
    exact ⟨given, subset_rfl⟩
  · simp
  · exact .singleton st
  · exact ⟨st.b, Set.right_mem_uIcc, rfl⟩
  · simp
  · simp
  · intro _ x same
    cases same
    exact found_near xtol given subset_rfl near

-- A search of a narrower bracket, with the iteration before it.
omit [IsStrictOrderedRing 𝕜] in
theorem next_sound {n : ℕ} {st later : Bracket 𝕜} {s : 𝕜} {run : Run 𝕜} (given : Brackets f st)
    (held : s ∈ st.interval) (stepped : iteration f xtol st = .ok (.next s later))
    (inside : later.interval ⊆ st.interval) (sound : SearchSound f xtol n later later.interval run) :
    SearchSound f xtol (n + 1) st st.interval
      { run with evaluated := s :: run.evaluated, starts := st :: run.starts } := by
  constructor
  · intro x member
    rcases List.mem_cons.mp member with own | earlier
    · exact own ▸ held
    · exact inside (sound.evaluated x earlier)
  · intro start member
    rcases List.mem_cons.mp member with own | earlier
    · subst own
      exact ⟨given, subset_rfl⟩
    · exact (sound.starts start earlier).imp_right fun within => within.trans inside
  · simp
  · apply List.IsChain.cons
    · refine sound.nested.imp ?_
      intro earlier follower given
      obtain ⟨narrower, point, member, made⟩ := given
      exact ⟨narrower, point, List.mem_cons_of_mem _ member, made⟩
    · intro first leads
      cases sound.first first leads
      exact ⟨inside, s, List.mem_cons_self, stepped⟩
  · obtain ⟨x, within, same⟩ := sound.result
    exact ⟨x, inside within, same⟩
  · exact Nat.succ_le_succ sound.limit
  · intro exhausted
    obtain ⟨starts, evaluated⟩ := sound.spent exhausted
    simp [starts, evaluated]
  · intro early x same
    refine (sound.early early x same).imp_right ?_
    intro near
    obtain ⟨y, within, rest⟩ := near
    exact ⟨y, inside within, rest⟩

theorem search_sound (maxIter : ℕ) {st : Bracket 𝕜} (given : Brackets f st) :
    ∃ run, search f xtol maxIter st = .ok run ∧ SearchSound f xtol maxIter st st.interval run := by
  induction maxIter generalizing st with
  | zero =>
    refine ⟨_, rfl, ?_⟩
    constructor
    · simp
    · simp
    · simp
    · exact .nil
    · exact ⟨st.b, Set.right_mem_uIcc, rfl⟩
    · simp
    · simp
    · simp
  | succ n next =>
    unfold search
    rcases iteration_cases xtol given with ⟨found, near⟩ | ⟨s, later, stepped, held, kept, inside⟩
    · rw [found]
      exact ⟨_, rfl, found_sound xtol given near⟩
    · obtain ⟨run, searched, sound⟩ := next kept
      rw [stepped]
      refine ⟨{ run with evaluated := s :: run.evaluated, starts := st :: run.starts }, ?_, ?_⟩
      · simp only [Bind.bind, Except.bind, searched]
        rfl
      · exact next_sound xtol given held stepped inside sound

theorem initial_brackets {a b : 𝕜} (strict : f a * f b < 0) : Brackets f (initial f a b) := by
  obtain ⟨atA, atB, change, best⟩ := swapped_brackets ⟨a, b, a, a, f a, f b, f a, true⟩ rfl rfl (.inl strict)
  exact ⟨atA, atB, change, best⟩

omit [IsStrictOrderedRing 𝕜] in
theorem initial_interval (a b : 𝕜) : (initial f a b).interval = Set.uIcc a b :=
  swapped_interval ⟨a, b, a, a, f a, f b, f a, true⟩

theorem brent_congr {g : 𝕜 → 𝕜} {a b : 𝕜} (agree : ∀ x ∈ Set.uIcc a b, f x = g x) (maxIter : ℕ) :
    brent f a b xtol maxIter = brent g a b xtol maxIter := by
  have same : initial f a b = initial g a b := by
    unfold initial
    rw [agree a Set.left_mem_uIcc, agree b Set.right_mem_uIcc]
  unfold brent
  rw [agree a Set.left_mem_uIcc, agree b Set.right_mem_uIcc, same, search_congr xtol maxIter]
  rw [initial_interval]
  exact agree

end Ordered

-- What a search of a function on a bracket may be relied on for.
structure BrentSound (f : 𝕜 → 𝕜) (a b xtol : 𝕜) (maxIter : ℕ) (run : Run 𝕜) : Prop where
  evaluated : ∀ x ∈ run.evaluated, x ∈ Set.uIcc a b
  starts : ∀ st ∈ run.starts, Brackets f st ∧ st.interval ⊆ Set.uIcc a b
  first : ∀ st ∈ run.starts.head?, st = initial f a b
  nested : run.starts.IsChain (Follows f xtol run.evaluated)
  limit : run.starts.length ≤ maxIter
  spent : run.exhausted = true → run.starts.length = maxIter ∧ run.evaluated.length = maxIter + 2
  rejected : run.result = none ↔ ¬f a * f b < 0
  held : ∀ x, run.result = some x → x ∈ Set.uIcc a b
  early : run.exhausted = false → ∀ x, run.result = some x →
    f x = 0 ∨ ∃ y ∈ Set.uIcc a b, |x - y| < xtol ∧ f x * f y < 0

theorem brent_rejected {f : 𝕜 → 𝕜} {a b : 𝕜} (unbracketed : 0 ≤ f a * f b) (xtol : 𝕜) (maxIter : ℕ) :
    brent f a b xtol maxIter = .ok ⟨none, [a, b], [], false⟩ := if_pos unbracketed

theorem rejected_sound [IsStrictOrderedRing 𝕜] {f : 𝕜 → 𝕜} {a b : 𝕜} (unbracketed : 0 ≤ f a * f b) (xtol : 𝕜)
    (maxIter : ℕ) : BrentSound f a b xtol maxIter ⟨none, [a, b], [], false⟩ := by
  constructor
  · simp
  · simp
  · simp
  · exact .nil
  · simp
  · simp
  · simpa using unbracketed
  · simp
  · simp

theorem brent_bracketed [IsStrictOrderedRing 𝕜] {f : 𝕜 → 𝕜} {a b : 𝕜} (strict : f a * f b < 0) (xtol : 𝕜)
    (maxIter : ℕ) :
    ∃ run x, brent f a b xtol maxIter = .ok run ∧ BrentSound f a b xtol maxIter run ∧ run.result = some x := by
  obtain ⟨run, searched, sound⟩ := search_sound xtol maxIter (initial_brackets strict)
  rw [initial_interval] at sound
  obtain ⟨x, within, found⟩ := sound.result
  unfold brent
  rw [if_neg (not_le.mpr strict), searched]
  refine ⟨{ run with evaluated := a :: b :: run.evaluated }, x, rfl, ?_, found⟩
  constructor
  · intro y member
    rcases List.mem_cons.mp member with own | rest
    · exact own ▸ Set.left_mem_uIcc
    · rcases List.mem_cons.mp rest with own | later
      · exact own ▸ Set.right_mem_uIcc
      · exact sound.evaluated y later
  · exact sound.starts
  · exact sound.first
  · refine sound.nested.imp ?_
    intro st later given
    obtain ⟨narrower, point, member, made⟩ := given
    exact ⟨narrower, point, List.mem_cons_of_mem _ (List.mem_cons_of_mem _ member), made⟩
  · exact sound.limit
  · intro exhausted
    obtain ⟨starts, evaluated⟩ := sound.spent exhausted
    simp [starts, evaluated]
  · simp [found, strict]
  · intro y same
    cases found.symm.trans same
    exact within
  · exact sound.early

theorem brent_sound [IsStrictOrderedRing 𝕜] (f : 𝕜 → 𝕜) (a b xtol : 𝕜) (maxIter : ℕ) :
    ∃ run, brent f a b xtol maxIter = .ok run ∧ BrentSound f a b xtol maxIter run := by
  by_cases unbracketed : 0 ≤ f a * f b
  · exact ⟨_, brent_rejected unbracketed xtol maxIter, rejected_sound unbracketed xtol maxIter⟩
  · obtain ⟨run, x, searched, sound, -⟩ := brent_bracketed (not_le.mp unbracketed) xtol maxIter
    exact ⟨run, searched, sound⟩

theorem brent_sound_parabola : ∃ run, brent (fun x : ℚ => x * x - 2) 0 2 (1/1000) 40 = .ok run ∧
    BrentSound (fun x : ℚ => x * x - 2) 0 2 (1/1000) 40 run :=
  brent_sound _ _ _ _ _

end Corsair.Brent
