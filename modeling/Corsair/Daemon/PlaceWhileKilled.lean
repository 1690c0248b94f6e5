import Corsair.Daemon.Machine
import Corsair.Risk.Sticky

namespace Corsair.Daemon

open BrokerApi Book Hedge MarketData Risk

def Call.places : Call → Bool
  | .trader (.placeOrder _) => true
  | _ => false

def DaemonState.killed (d : DaemonState) : Prop := d.runtime.risk.isKilled

def NoPlaceWhileKilled (d : DaemonState) (events : List DaemonEvent) : Prop :=
  ∀ past e later, events = past ++ e :: later → (Machine.after daemonStep d past).killed →
    ∀ call ∈ (daemonStep (Machine.after daemonStep d past) e).2, ¬call.places

def takes (d : DaemonState) : DaemonEvent → Option PlaceOrderReq
  | .placeTaken cmd clock => resolvePlace d.runtime clock cmd
  | _ => none

-- No kill fires while a request waits for the broker, and none is held when a
-- request is resolved.
structure Unraced (d : DaemonState) (e : DaemonEvent) : Prop where
  fires : d.inFlight.isSome → kills d e = none
  resolves : d.inFlight = none → d.killed → takes d e = none

def Settled (d : DaemonState) : Prop := d.killed → d.inFlight = none

theorem places_sent {d : DaemonState} {e : DaemonEvent} {call : Call} (member : call ∈ (daemonStep d e).2)
    (places : call.places) : e = .placeSent ∧ d.inFlight.isSome := by
  cases step_made d e call member with
  | placed sent waiting => exact ⟨sent, by rw [waiting]; rfl⟩
  | _ => cases places

theorem step_inFlight (d : DaemonState) {e : DaemonEvent} (unsent : e ≠ .placeSent) :
    (daemonStep d e).1.inFlight = d.inFlight.or (takes d e) := by
  cases e with
  | placeTaken cmd clock =>
    simp only [daemonStep, takes]
    cases waiting : d.inFlight <;> simp [waiting]
  | placeSent => exact absurd rfl unsent
  | cancel cmd =>
    simp only [daemonStep, takes]
    split <;> simp_all
  | _ => simp [daemonStep, takes]

theorem kills_not_sent {d : DaemonState} {e : DaemonEvent} {event : KillEvent} (fires : kills d e = some event) :
    e ≠ .placeSent ∧ takes d e = none := by
  cases e with
  | riskCheck dir now book => exact ⟨by simp, rfl⟩
  | fill fill now book => exact ⟨by simp, rfl⟩
  | _ => cases fires

theorem step_killed (d : DaemonState) (e : DaemonEvent) (killed : (daemonStep d e).1.killed) :
    d.killed ∨ (kills d e).isSome := by
  cases checks : checkedOn d e with
  | none => exact .inl (unchecked_risk checks killed)
  | some r =>
    obtain ⟨after, same⟩ := checked_risk checks
    cases active : d.runtime.risk.killed with
    | some event => exact .inl (by simp [DaemonState.killed, RiskMonitor.isKilled, active])
    | none =>
      unfold DaemonState.killed at killed
      rw [after, (RiskMonitor.fireFirst_unkilled (same ▸ active) _).1] at killed
      refine .inr ?_
      simpa [kills, checks, RiskMonitor.isKilled] using killed

theorem kills_killed {d : DaemonState} {e : DaemonEvent} (fires : (kills d e).isSome) :
    (daemonStep d e).1.killed := by
  cases checks : checkedOn d e with
  | none => simp [kills, checks] at fires
  | some r =>
    obtain ⟨after, same⟩ := checked_risk checks
    unfold DaemonState.killed
    rw [after]
    cases active : r.risk.killed with
    | some event =>
      rw [RiskMonitor.fireFirst_killed active]
      simp [RiskMonitor.isKilled, active]
    | none =>
      rw [(RiskMonitor.fireFirst_unkilled active _).1]
      simpa [kills, checks, RiskMonitor.isKilled] using fires

-- Exactly the unraced events keep a killed daemon from having a request to send.
theorem settled_step {d : DaemonState} (settled : Settled d) (e : DaemonEvent) :
    Settled (daemonStep d e).1 ↔ Unraced d e := by
  unfold Settled
  constructor
  · intro after
    constructor
    · intro waiting
      cases fires : kills d e with
      | none => rfl
      | some event =>
        obtain ⟨notSent, noTake⟩ := kills_not_sent fires
        have empty := after (kills_killed (by rw [fires]; rfl))
        rw [step_inFlight d notSent, noTake, Option.or_none] at empty
        rw [empty] at waiting
        cases waiting
    · intro waiting killed
      cases e with
      | placeTaken cmd clock =>
        have same : (daemonStep d (.placeTaken cmd clock)).1.runtime = d.runtime := by
          simp only [daemonStep, waiting]
        have empty := after (by rw [DaemonState.killed, same]; exact killed)
        rwa [step_inFlight d (by simp), waiting, Option.none_or] at empty
      | _ => rfl
  · intro unraced killed
    by_cases sent : e = .placeSent
    · rw [sent]
      rfl
    · rw [step_inFlight d sent]
      rcases step_killed d e killed with before | fires
      · rw [settled before, unraced.resolves (settled before) before]
        rfl
      · obtain ⟨event, fired⟩ := Option.isSome_iff_exists.mp fires
        have empty : d.inFlight = none := by
          cases waiting : d.inFlight with
          | none => rfl
          | some req =>
            have quiet := unraced.fires (by rw [waiting]; rfl)
            rw [fired] at quiet
            cases quiet
        rw [empty, (kills_not_sent fired).2]
        rfl

theorem settled_no_place {d : DaemonState} (settled : Settled d) (e : DaemonEvent) (killed : d.killed) :
    ∀ call ∈ (daemonStep d e).2, ¬call.places := by
  intro call member places
  obtain ⟨-, waiting⟩ := places_sent member places
  rw [settled killed] at waiting
  cases waiting

theorem runs_settled {d : DaemonState} (settled : Settled d) {events : List DaemonEvent}
    (along : Machine.Along daemonStep Unraced d events) : Settled (Machine.after daemonStep d events) :=
  Machine.reached Settled (fun _ e unraced kept => (settled_step kept e).mpr unraced) settled along

theorem sent_after {d : DaemonState} (settled : Settled d) (e : DaemonEvent) :
    NoPlaceWhileKilled d [e, .placeSent] ↔ Settled (daemonStep d e).1 := by
  constructor
  · intro none killed
    cases waiting : (daemonStep d e).1.inFlight with
    | none => rfl
    | some req =>
      have sends : Call.trader (.placeOrder req) ∈ (daemonStep (daemonStep d e).1 .placeSent).2 := by
        change _ ∈ (daemonStep d e).1.inFlight.toList.map fun req => Call.trader (.placeOrder req)
        rw [waiting]
        exact List.mem_cons_self
      exact absurd rfl (none [e] .placeSent [] rfl killed _ sends)
  · intro after past f later split killed
    rcases past with - | ⟨first, past⟩
    · cases split
      exact settled_no_place settled e killed
    · rcases past with - | ⟨second, past⟩
      · cases split
        exact settled_no_place after .placeSent killed
      · simp at split

section Halted

def quietBook : BrokerBook := ⟨[], none⟩

def june : NaiveDate := (NaiveDate.fromYmdOpt 2026 6 26).getD .epoch

-- A live daemon with one registered call option, instrument 100, and nothing to kill for.
def calm : Runtime where
  mode := .live
  config := ⟨true, some "DU1"⟩
  portfolio := .new (ProductRegistry.register ∅ ⟨"HG", 25000, 3/10⟩)
  risk := .new hgLimits
  hedge := ⟨[]⟩
  marketData := MarketDataState.new.registerOption "HG" 6 june .call 100
  account := ⟨0, 0, 0, 0, 0, 0⟩

def buyCommand : PlaceOrderCmd := ⟨100, "BUY", 1, .finite (1/40), "limit", "GTD", none, none⟩

def clock : PlaceClock := ⟨"2606", fun _ => "2026-06-26", fun _ => "6.000", 0⟩

def juneBought : Fill := ⟨"o1", 9, 100, .buy, 1, .finite (3/10), 0, none⟩

-- A call bought at 0.30 trades at 0.10: 5 000 down against a threshold of 2 500.
def losing : List DaemonEvent := [.fill juneBought 1 quietBook, .tick ⟨100, .last, some (.finite (1/10)), none, 2⟩]

def checkAt (now : ℕ) : DaemonEvent := .riskCheck (fun _ => .absent) now quietBook

def afterHalt : List DaemonEvent := losing ++ [checkAt 3, .placeTaken (some buyCommand) clock]

end Halted

-- The halt fires, then a command already in the ring is taken and sent.
theorem placed_while_killed : ¬NoPlaceWhileKilled (.start calm) (afterHalt ++ [.placeSent]) := by
  intro none
  have silent := none afterHalt .placeSent [] rfl (by unfold DaemonState.killed; decide +kernel)
  revert silent
  decide +kernel

theorem unraced_no_place_while_killed (runtime : Runtime) :
    (∀ events, Machine.Along daemonStep Unraced (.start runtime) events →
      NoPlaceWhileKilled (.start runtime) events) ∧
    ∀ d e, Settled d → (NoPlaceWhileKilled d [e, .placeSent] ↔ Unraced d e) := by
  constructor
  · intro events along past e later split killed
    rw [split, Machine.along_append] at along
    exact settled_no_place (runs_settled (d := .start runtime) (fun _ => rfl) along.1) e killed
  · intro d e settled
    rw [sent_after settled, settled_step settled]

end Corsair.Daemon
