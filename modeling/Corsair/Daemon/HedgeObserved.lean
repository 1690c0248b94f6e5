import Corsair.Daemon.HedgeDecided

namespace Corsair.Hedge

def HedgeAction.logged : HedgeAction → Bool
  | .logOnly .. => true
  | .idle | .place .. => false

-- The trade of a log entry, at the forward it names.
def HedgeAction.book (multiplier : ℚ) (s : HedgeState) : HedgeAction → HedgeState
  | .logOnly isBuy qty _ forward => s.applyFill isBuy qty forward multiplier
  | .idle | .place .. => s

def bookLog (multiplier : ℚ) (s : HedgeState) (actions : List HedgeAction) : HedgeState :=
  actions.foldl (HedgeAction.book multiplier) s

theorem bookLog_append (multiplier : ℚ) (s : HedgeState) (earlier later : List HedgeAction) :
    bookLog multiplier s (earlier ++ later) = bookLog multiplier (bookLog multiplier s earlier) later :=
  List.foldl_append

end Corsair.Hedge

namespace Corsair.Daemon

open BrokerApi Book Hedge Machine

inductive ObservedCall where
  | decision (portfolio : PortfolioState) (d : Decision)
  | flattenOnHalt (forward : ℚ)
  | brokerFill (fill : Fill)

def callStep (m : HedgeManager) : ObservedCall → HedgeManager × List HedgeAction
  | .decision portfolio d => ((take portfolio m d).1, [(take portfolio m d).2])
  | .flattenOnHalt forward => (m, [m.flattenOnHalt forward])
  | .brokerFill fill => ((m.applyBrokerFill fill).1, [])

structure TracksLog (m : HedgeManager) (calls : List ObservedCall) : Prop where
  books : ∀ past, past <+: calls →
    (after callStep m past).state = bookLog m.cfg.multiplier m.state (emitted callStep m past)
  flattens : ∀ past forward rest, calls = past ++ .flattenOnHalt forward :: rest →
    ((after callStep m past).flattenOnHalt forward).logged →
      (after callStep m (past ++ [.flattenOnHalt forward])).hedgeQty = 0 ∧
        ∀ again, (after callStep m (past ++ [.flattenOnHalt forward])).flattenOnHalt again = .idle

-- The call flattens nothing: the flatten is disabled, or there is nothing to flatten.
def NothingToFlatten (m : HedgeManager) : ObservedCall → Prop
  | .flattenOnHalt _ => m.cfg.flattenOnHaltEnabled = false ∨ m.hedgeQty = 0
  | .decision .. | .brokerFill _ => True

section Calls

variable {portfolio : PortfolioState} {m : HedgeManager}

theorem rebalance_books (observing : m.cfg.mode = .observe) (override : Option ℚ) (reason : String) (forward : ℚ) :
    (m.rebalance portfolio override reason forward).1.cfg = m.cfg ∧
      (m.rebalance portfolio override reason forward).1.state =
        (m.rebalance portfolio override reason forward).2.book m.cfg.multiplier m.state := by
  unfold HedgeManager.rebalance
  simp only [observing]
  split
  · exact ⟨rfl, rfl⟩
  · split
    · exact ⟨rfl, rfl⟩
    · exact ⟨rfl, rfl⟩

theorem maybeRebalance_books (observing : m.cfg.mode = .observe) (reason : String) (forward : ℚ) :
    (m.maybeRebalance portfolio reason forward).1.cfg = m.cfg ∧
      (m.maybeRebalance portfolio reason forward).1.state =
        (m.maybeRebalance portfolio reason forward).2.book m.cfg.multiplier m.state := by
  unfold HedgeManager.maybeRebalance
  dsimp only
  split
  · exact ⟨rfl, rfl⟩
  · exact rebalance_books observing none reason forward

theorem take_books (observing : m.cfg.mode = .observe) (d : Decision) :
    (take portfolio m d).1.cfg = m.cfg ∧
      (take portfolio m d).1.state = (take portfolio m d).2.book m.cfg.multiplier m.state := by
  cases d with
  | onFill =>
    unfold take HedgeManager.rebalanceOnFill
    dsimp only
    split
    · exact maybeRebalance_books observing "fill" 6
    · exact ⟨rfl, rfl⟩
  | periodic forward nowNs =>
    unfold take HedgeManager.rebalancePeriodic
    dsimp only
    split
    · exact @maybeRebalance_books portfolio { m with lastPeriodicNs := nowNs } observing _ forward
    · split
      · exact @maybeRebalance_books portfolio { m with priorityDrainUntilNs := 0, lastPeriodicNs := nowNs }
          observing _ forward
      · split
        · exact ⟨rfl, rfl⟩
        · exact @maybeRebalance_books portfolio { m with lastPeriodicNs := nowNs } observing _ forward
  | forceFlat forward => exact rebalance_books observing (some 0) _ forward

theorem brokerFill_ignored (observing : m.cfg.mode = .observe) (fill : Fill) : m.applyBrokerFill fill = (m, false) := by
  apply HedgeManager.applyBrokerFill_refused
  simp [HedgeManager.accepts, HedgeManager.hedges, observing]

theorem flatten_logs {forward : ℚ} (observing : m.cfg.mode = .observe) :
    (m.flattenOnHalt forward).logged ↔ ¬NothingToFlatten m (.flattenOnHalt forward) := by
  unfold HedgeManager.flattenOnHalt NothingToFlatten
  by_cases enabled : m.cfg.flattenOnHaltEnabled
  · by_cases flat : m.hedgeQty = 0
    · simp [enabled, flat, HedgeAction.logged]
    · simp [enabled, flat, observing, HedgeAction.logged]
  · simp [enabled, HedgeAction.logged]

theorem flatten_idle {forward : ℚ} (nothing : NothingToFlatten m (.flattenOnHalt forward)) :
    m.flattenOnHalt forward = .idle := by
  unfold HedgeManager.flattenOnHalt
  rcases nothing with disabled | flat
  · simp [disabled]
  · simp [flat]

theorem callStep_cfg (observing : m.cfg.mode = .observe) (call : ObservedCall) : (callStep m call).1.cfg = m.cfg := by
  cases call with
  | decision portfolio d => exact (take_books observing d).1
  | flattenOnHalt forward => rfl
  | brokerFill fill => exact (HedgeManager.applyBrokerFill_kept m fill).1

theorem callStep_books (observing : m.cfg.mode = .observe) {call : ObservedCall} (nothing : NothingToFlatten m call) :
    (callStep m call).1.state = bookLog m.cfg.multiplier m.state (callStep m call).2 := by
  cases call with
  | decision portfolio d => exact (take_books observing d).2
  | flattenOnHalt forward =>
    rw [callStep, flatten_idle nothing]
    rfl
  | brokerFill fill =>
    rw [callStep, brokerFill_ignored observing]
    rfl

theorem run_cfg (observing : m.cfg.mode = .observe) (calls : List ObservedCall) : (after callStep m calls).cfg = m.cfg := by
  apply reached (fun s : HedgeManager => s.cfg = m.cfg)
  · intro s call _ same
    rw [callStep_cfg (by rw [same]; exact observing), same]
  · rfl
  · exact along_true m calls

theorem run_books (observing : m.cfg.mode = .observe) {calls : List ObservedCall}
    (nothing : Along callStep NothingToFlatten m calls) :
    (after callStep m calls).state = bookLog m.cfg.multiplier m.state (emitted callStep m calls) := by
  induction calls generalizing m with
  | nil => rfl
  | cons call rest next =>
    have same := callStep_cfg observing call
    have later := next (by rw [same]; exact observing) nothing.2
    rw [after, emitted, later, same, callStep_books observing nothing.1, bookLog_append]

end Calls

theorem observe_tracks_iff (m : HedgeManager) (calls : List ObservedCall) (observing : m.cfg.mode = .observe) :
    TracksLog m calls ↔ Along callStep NothingToFlatten m calls := by
  constructor
  · intro tracks
    apply along_splits.mpr
    intro past call rest split
    cases call with
    | decision portfolio d => trivial
    | brokerFill fill => trivial
    | flattenOnHalt forward =>
      by_contra flattens
      have observes : (after callStep m past).cfg.mode = .observe := by rw [run_cfg observing]; exact observing
      have flat := (tracks.flattens past forward rest split ((flatten_logs observes).mpr flattens)).1
      rw [after_append] at flat
      exact flattens (.inr flat)
  · intro nothing
    refine ⟨?_, ?_⟩
    · intro past within
      obtain ⟨rest, rfl⟩ := within
      exact run_books observing ((along_append m past rest).mp nothing).1
    · intro past forward rest split logged
      have observes : (after callStep m past).cfg.mode = .observe := by rw [run_cfg observing]; exact observing
      exact absurd (along_splits.mp nothing past _ rest split) ((flatten_logs observes).mp logged)

def observing : HedgeManager := .new { HedgeConfig.hg with mode := .observe }

-- The log closes the five contracts sold on the fill, the state keeps them.
theorem halt_leaves_hedge :
    observing.hedgeQty = 0 ∧ ¬TracksLog observing [.decision longCalls .onFill, .flattenOnHalt 6] := by
  refine ⟨rfl, ?_⟩
  intro tracks
  have kept := tracks.flattens [.decision longCalls .onFill] 6 [] rfl (by decide +kernel)
  exact absurd kept.1 (by decide +kernel)

-- Halted while flat, before the hedge is put on and after it has come off again.
theorem observing_tracks :
    TracksLog observing [.flattenOnHalt 6, .decision longCalls .onFill, .decision (.new ∅) .onFill, .flattenOnHalt 6] :=
  (observe_tracks_iff observing _ rfl).mpr ⟨.inr rfl, trivial, trivial, .inr (by decide +kernel), trivial⟩

example : (emitted callStep observing
    [.flattenOnHalt 6, .decision longCalls .onFill, .decision (.new ∅) .onFill]).map (·.logged) = [false, true, true] := by
  decide +kernel

end Corsair.Daemon
