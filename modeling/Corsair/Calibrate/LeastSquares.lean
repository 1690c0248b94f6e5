import Corsair.Calibrate.Linear

namespace Corsair.Calibrate

variable {𝕜 : Type*} [Field 𝕜] [LinearOrder 𝕜] {n m : ℕ}

-- calibrate.rs
def EPS_GRAD : 𝕜 := 1/10^8
def EPS_STEP : 𝕜 := 1/10^9
def EPS_COST : 𝕜 := 1/10^12
def FD_STEP : 𝕜 := 1/10^6
def LM_MU_INIT : 𝕜 := 1/10^3
def LM_MU_DOWN : 𝕜 := 4/10
def LM_MU_UP : 𝕜 := 5
def LM_MU_FLOOR : 𝕜 := 1/10^12
def LM_MU_CEIL : 𝕜 := 10^10

structure LMResult (n m : ℕ) (𝕜 : Type*) where
  x : Fin n → 𝕜
  residuals : Fin m → 𝕜
  cost : 𝕜
  nfev : ℕ
  success : Bool

-- J^T J + mu * diag(J^T J) and -J^T r
def buildNormalEqs (j : Fin m → Fin n → 𝕜) (r : Fin m → 𝕜) (mu : 𝕜) : System n 𝕜 :=
  let jtj (i i' : Fin n) : 𝕜 := ∑ k, j k i * j k i'
  { a := fun i i' => if i = i' then jtj i i + mu * max (jtj i i) (1/10^12) else jtj i i'
    b := fun i => -∑ k, j k i * r k }

def numericalJacobian (f : (Fin n → 𝕜) → Fin m → 𝕜) (x : Fin n → 𝕜) : Fin m → Fin n → 𝕜 := fun k i =>
  let h := FD_STEP * max |x i| 1
  let rPlus := f (Function.update x i (x i + h))
  let rMinus := f (Function.update x i (x i - h))
  (rPlus k - rMinus k) * (1/2 / h)

def cost (r : Fin m → 𝕜) : 𝕜 := 1/2 * ∑ k, r k * r k

def project (x lb ub : Fin n → 𝕜) : Fin n → 𝕜 := fun i =>
  if x i < lb i then lb i else if x i > ub i then ub i else x i

-- lm_solve, the variables of its loops.
structure State (n m : ℕ) (𝕜 : Type*) where
  x : Fin n → 𝕜
  r : Fin m → 𝕜
  nfev : ℕ
  c : 𝕜
  mu : 𝕜
  success : Bool

inductive Try (n m : ℕ) (𝕜 : Type*) where
  | accepted (st : State n m 𝕜)
  | again (st : State n m 𝕜)
  | stop (st : State n m 𝕜)

section Solve

variable (sqrt : 𝕜 → 𝕜) (f : (Fin n → 𝕜) → Fin m → 𝕜) (lb ub : Fin n → 𝕜) (maxNfev : ℕ)

def gradNorm (j : Fin m → Fin n → 𝕜) (r : Fin m → 𝕜) : 𝕜 :=
  sqrt (∑ i, (∑ k, j k i * r k) * ∑ k, j k i * r k)

def raised (mu : 𝕜) : 𝕜 := min (mu * LM_MU_UP) LM_MU_CEIL

-- A step along `b`, taken when it costs less.
def step (st : State n m 𝕜) (b : Fin n → 𝕜) : Try n m 𝕜 :=
  let xNew := project (fun i => st.x i + b i) lb ub
  let rNew := f xNew
  let nfev := st.nfev + 1
  let cNew := cost rNew
  if cNew < st.c then
    let stepNorm := sqrt (∑ i, b i * b i)
    let costRel := (st.c - cNew) / max st.c (1/10^30)
    .accepted {
      x := xNew, r := rNew, nfev := nfev, c := cNew, mu := max (st.mu * LM_MU_DOWN) LM_MU_FLOOR
      success := st.success || decide (stepNorm < EPS_STEP ∨ costRel < EPS_COST) }
  else
    let rejected := { st with nfev := nfev, mu := raised st.mu }
    if raised st.mu ≥ LM_MU_CEIL then .stop rejected
    else if nfev ≥ maxNfev then .stop rejected
    else .again rejected

def attempt (j : Fin m → Fin n → 𝕜) (st : State n m 𝕜) : Except Halt (Try n m 𝕜) :=
  let normal := buildNormalEqs j st.r st.mu
  match solveLinear normal.a normal.b with
  | .ok b => .ok (step sqrt f lb ub maxNfev st b)
  | .error .singular => .ok (.again { st with mu := raised st.mu })
  | .error .divisionByZero => .error .divisionByZero

def tries (j : Fin m → Fin n → 𝕜) : ℕ → State n m 𝕜 → Except Halt (Bool × State n m 𝕜)
  | 0, st => .ok (false, st)
  | left + 1, st => do
    match ← attempt sqrt f lb ub maxNfev j st with
    | .accepted later => return (true, later)
    | .stop later => return (false, later)
    | .again later => tries j left later

def iterate : ℕ → State n m 𝕜 → Except Halt (State n m 𝕜)
  | 0, st => .ok st
  | left + 1, st =>
    if st.nfev ≥ maxNfev then .ok st
    else
      let j := numericalJacobian f st.x
      let evaluated := { st with nfev := st.nfev + 2 * n }
      if gradNorm sqrt j st.r < EPS_GRAD then .ok { evaluated with success := true }
      else do
        let (accepted, later) ← tries sqrt f lb ub maxNfev j 30 evaluated
        if !accepted then return later
        else if later.success then return later
        else iterate left later

def initial (x0 : Fin n → 𝕜) : State n m 𝕜 :=
  let x := project x0 lb ub
  { x := x, r := f x, nfev := 1, c := cost (f x), mu := LM_MU_INIT, success := false }

def lmSolve (x0 : Fin n → 𝕜) : Except Halt (LMResult n m 𝕜) := do
  let st ← iterate sqrt f lb ub maxNfev 200 (initial f lb ub x0)
  return ⟨st.x, st.r, st.c, st.nfev, st.success⟩

end Solve

def Within (lb ub x : Fin n → 𝕜) : Prop := ∀ i, lb i ≤ x i ∧ x i ≤ ub i

omit [Field 𝕜] in
theorem project_within {lb ub : Fin n → 𝕜} (ordered : ∀ i, lb i ≤ ub i) (x : Fin n → 𝕜) :
    Within lb ub (project x lb ub) := by
  intro i
  unfold project
  split
  · exact ⟨le_rfl, ordered i⟩
  · rename_i above
    split
    · exact ⟨ordered i, le_rfl⟩
    · rename_i below
      exact ⟨not_lt.mp above, not_lt.mp below⟩

-- The variables that an accepted step updates together, against a cost not to be exceeded.
structure Consistent (f : (Fin n → 𝕜) → Fin m → 𝕜) (lb ub : Fin n → 𝕜) (limit : 𝕜) (st : State n m 𝕜) : Prop where
  within : Within lb ub st.x
  residuals : st.r = f st.x
  cost : st.c = cost st.r
  lowered : st.c ≤ limit

section Sound

variable (sqrt : 𝕜 → 𝕜) {f : (Fin n → 𝕜) → Fin m → 𝕜} {lb ub : Fin n → 𝕜} (maxNfev : ℕ) {limit : 𝕜}

def Try.state : Try n m 𝕜 → State n m 𝕜
  | .accepted st => st
  | .again st => st
  | .stop st => st

-- The damping, the count and the flag are free.
theorem counted_consistent {st : State n m 𝕜} (given : Consistent f lb ub limit st) (mu : 𝕜) (nfev : ℕ)
    (success : Bool) : Consistent f lb ub limit { st with mu := mu, nfev := nfev, success := success } :=
  ⟨given.within, given.residuals, given.cost, given.lowered⟩

theorem step_consistent (ordered : ∀ i, lb i ≤ ub i) {st : State n m 𝕜} (given : Consistent f lb ub limit st)
    (b : Fin n → 𝕜) : Consistent f lb ub limit (step sqrt f lb ub maxNfev st b).state := by
  unfold step
  simp only
  split
  · rename_i less
    exact ⟨project_within ordered _, rfl, rfl, less.le.trans given.lowered⟩
  · split
    · exact counted_consistent given _ _ _
    · split
      · exact counted_consistent given _ _ _
      · exact counted_consistent given _ _ _

theorem attempt_consistent [IsStrictOrderedRing 𝕜] (ordered : ∀ i, lb i ≤ ub i) {st : State n m 𝕜}
    (given : Consistent f lb ub limit st) (j : Fin m → Fin n → 𝕜) :
    ∃ tried, attempt sqrt f lb ub maxNfev j st = .ok tried ∧ Consistent f lb ub limit tried.state := by
  have returned := solveLinear_returns (buildNormalEqs j st.r st.mu).a (buildNormalEqs j st.r st.mu).b
  unfold attempt
  cases solved : solveLinear (buildNormalEqs j st.r st.mu).a (buildNormalEqs j st.r st.mu).b with
  | ok b =>
    refine ⟨step sqrt f lb ub maxNfev st b, ?_, step_consistent sqrt maxNfev ordered given b⟩
    simp only [solved]
  | error halt =>
    rw [solved] at returned
    cases returned
    refine ⟨.again { st with mu := raised st.mu }, ?_, counted_consistent given _ _ _⟩
    simp only [solved]

theorem tries_consistent [IsStrictOrderedRing 𝕜] (ordered : ∀ i, lb i ≤ ub i) (j : Fin m → Fin n → 𝕜) (left : ℕ)
    {st : State n m 𝕜} (given : Consistent f lb ub limit st) :
    ∃ accepted later, tries sqrt f lb ub maxNfev j left st = .ok (accepted, later) ∧
      Consistent f lb ub limit later := by
  induction left generalizing st with
  | zero => exact ⟨false, st, rfl, given⟩
  | succ left next =>
    obtain ⟨tried, attempted, kept⟩ := attempt_consistent sqrt maxNfev ordered given j
    unfold tries
    rw [attempted]
    cases tried with
    | accepted later => exact ⟨true, later, rfl, kept⟩
    | stop later => exact ⟨false, later, rfl, kept⟩
    | again later => exact next kept

theorem iterate_consistent [IsStrictOrderedRing 𝕜] (ordered : ∀ i, lb i ≤ ub i) (left : ℕ) {st : State n m 𝕜}
    (given : Consistent f lb ub limit st) :
    ∃ later, iterate sqrt f lb ub maxNfev left st = .ok later ∧ Consistent f lb ub limit later := by
  induction left generalizing st with
  | zero => exact ⟨st, rfl, given⟩
  | succ left next =>
    unfold iterate
    by_cases spent : st.nfev ≥ maxNfev
    · exact ⟨st, if_pos spent, given⟩
    · rw [if_neg spent]
      simp only
      have evaluated : Consistent f lb ub limit { st with nfev := st.nfev + 2 * n } := counted_consistent given _ _ _
      by_cases flat : gradNorm sqrt (numericalJacobian f st.x) st.r < EPS_GRAD
      · rw [if_pos flat]
        exact ⟨_, rfl, counted_consistent given _ _ _⟩
      · rw [if_neg flat]
        obtain ⟨accepted, later, tried, kept⟩ :=
          tries_consistent sqrt maxNfev ordered (numericalJacobian f st.x) 30 evaluated
        rw [tried]
        cases accepted with
        | false => exact ⟨later, rfl, kept⟩
        | true =>
          cases finished : later.success with
          | true => exact ⟨later, by simp [Bind.bind, Except.bind, finished, pure, Except.pure], kept⟩
          | false =>
            obtain ⟨last, found, sound⟩ := next kept
            exact ⟨last, by simpa [Bind.bind, Except.bind, finished] using found, sound⟩

end Sound

-- What lm_solve promises of a start: a point within the bounds, with its own residuals
-- and cost, no worse than the start brought within the bounds.
structure Solution (f : (Fin n → 𝕜) → Fin m → 𝕜) (x0 lb ub : Fin n → 𝕜) (res : LMResult n m 𝕜) : Prop where
  within : Within lb ub res.x
  residuals : res.residuals = f res.x
  cost : res.cost = cost res.residuals
  lowered : res.cost ≤ Calibrate.cost (f (project x0 lb ub))

theorem lmSolve_solution [IsStrictOrderedRing 𝕜] (sqrt : 𝕜 → 𝕜) (f : (Fin n → 𝕜) → Fin m → 𝕜)
    {lb ub : Fin n → 𝕜} (ordered : ∀ i, lb i ≤ ub i) (maxNfev : ℕ) (x0 : Fin n → 𝕜) :
    ∃ res, lmSolve sqrt f lb ub maxNfev x0 = .ok res ∧ Solution f x0 lb ub res := by
  have start : Consistent f lb ub (cost (f (project x0 lb ub))) (initial f lb ub x0) :=
    ⟨project_within ordered x0, rfl, rfl, le_rfl⟩
  obtain ⟨st, reached, kept⟩ := iterate_consistent sqrt maxNfev ordered 200 start
  unfold lmSolve
  rw [reached]
  exact ⟨_, rfl, kept.within, kept.residuals, kept.cost, kept.lowered⟩

end Corsair.Calibrate
