import Corsair.Daemon.PlaceWhileKilled
import Corsair.Risk.Sticky

namespace Corsair.Daemon

open BrokerApi Book Risk

def isLoss : DaemonEvent → Bool
  | .connection ev => ev.state = .lostConnection
  | _ => false

def isReconnect : DaemonEvent → Bool
  | .connection ev => ev.state = .connected
  | _ => false

-- A loss has been handled, and no Connected since.
def downStep (isDown : Bool) (e : DaemonEvent) : Bool :=
  if isLoss e then true else if isReconnect e then false else isDown

def down (events : List DaemonEvent) : Bool := events.foldl downStep false

section Property

variable (d : DaemonState)

def killedAfter (events : List DaemonEvent) : Bool := (Machine.after daemonStep d events).runtime.risk.isKilled

-- The active kill was fired where a loss was handled, with no kill there before it.
def LossAlone (events : List DaemonEvent) : Prop :=
  ∃ before e later, events = before ++ e :: later ∧ isLoss e ∧ killedAfter d before = false ∧
    ∀ part, part <+: later → killedAfter d (before ++ e :: part) = true

structure KilledWhileDown (events : List DaemonEvent) : Prop where
  held : ∀ past, past <+: events → down past → killedAfter d past
  cleared : ∀ past e, past ++ [e] <+: events → isReconnect e → down past →
    (killedAfter d past = true ∧ killedAfter d (past ++ [e]) = false ↔ LossAlone d past)

end Property

-- The session rollover goes through: it is past five, and not done yet today.
def Rolls (s : DaemonState) : DaemonEvent → Prop
  | .rollover hour today => 17 ≤ hour ∧ s.lastFiredDay ≠ some today
  | _ => False

def DailyKilled (s : DaemonState) : Prop := ∃ event, s.runtime.risk.killed = some event ∧ event.source.isDailyClearable

-- What keeps a kill in the slot over a step: one is there when a loss is handled, and
-- the rollover does not take a daily one out while the connection is down.
structure Covered (isDown : Bool) (s : DaemonState) (e : DaemonEvent) : Prop where
  killed : isLoss e → s.runtime.risk.isKilled
  sticky : isDown → Rolls s e → ¬DailyKilled s

section Sources

theorem sentinel_source {dir : SentinelDir} {now : ℕ} {sentinels : List InducedSentinel} {event : KillEvent}
    (fired : checkInducedSentinels dir now sentinels = some event) : ∃ inner, event.source = .induced inner := by
  induction sentinels with
  | nil => cases fired
  | cons first rest next =>
    unfold checkInducedSentinels at fired
    split at fired
    · exact next fired
    · cases fired
    · cases fired
      exact ⟨_, rfl⟩

theorem dailyKill_source {cfg : RiskConfig} {reason : ℚ → ℚ → ℚ → KillReason} {portfolio : PortfolioState}
    {market : MarketView} {now : ℕ} {event : KillEvent} (fired : dailyKill cfg reason portfolio market now = some event) :
    event.source = .dailyHalt := by
  unfold dailyKill at fired
  split at fired
  · cases fired
  · split at fired
    · cases fired
      rfl
    · cases fired

-- No check fires for a lost connection.
theorem found_source {r : Runtime} {e : DaemonEvent} {event : KillEvent} (fired : found r e = some event) :
    event.source.isDisconnect = false := by
  cases e with
  | riskCheck dir now book =>
    unfold found RiskMonitor.checkKill at fired
    rcases Option.or_eq_some_iff.mp fired with early | ⟨-, daily⟩
    · rcases Option.or_eq_some_iff.mp early with induced | ⟨-, limit⟩
      · obtain ⟨inner, source⟩ := sentinel_source induced
        rw [source]
        rfl
      · rw [limitKill_source limit]
        rfl
    · rw [dailyKill_source daily]
      rfl
  | fill fill now book =>
    rw [dailyKill_source fired]
    rfl
  | _ => cases fired

end Sources

section Steps

variable {s : DaemonState} {e : DaemonEvent}

-- All that an event can do to the monitor.
theorem step_risk (s : DaemonState) (e : DaemonEvent) :
    (¬Rolls s e ∧ ∃ r, (daemonStep s e).1.runtime.risk = (s.runtime.risk.fireFirst (found r e)).1) ∨
      (¬Rolls s e ∧ (daemonStep s e).1.runtime.risk = s.runtime.risk.clearDisconnectKill.1) ∨
      (Rolls s e ∧ (daemonStep s e).1.runtime.risk = s.runtime.risk.clearDailyHalt.1) ∨
      (¬Rolls s e ∧ (daemonStep s e).1.runtime.risk = s.runtime.risk) := by
  cases checks : checkedOn s e with
  | some r =>
    obtain ⟨fires, same⟩ := checked_risk checks
    rw [same] at fires
    refine .inl ⟨?_, r, fires⟩
    intro rolls
    cases e with
    | rollover hour today => cases checks
    | _ => exact rolls
  | none =>
    right
    cases e with
    | riskCheck dir now book => cases checks
    | fill fill now book => exact .inr (.inr ⟨not_false, (handleFill_unbooked checks now book.openOrders).1⟩)
    | connection ev =>
      by_cases connected : ev.state = .connected
      · refine .inl ⟨not_false, ?_⟩
        simp only [daemonStep, pumpConnection, connected, if_true]
      · refine .inr (.inr ⟨not_false, ?_⟩)
        simp only [daemonStep, pumpConnection, connected, if_false]
    | rollover hour today =>
      right
      by_cases rolls : 17 ≤ hour ∧ s.lastFiredDay ≠ some today
      · refine .inl ⟨rolls, ?_⟩
        simp only [daemonStep, dailyHaltRollover, if_pos rolls]
      · refine .inr ⟨rolls, ?_⟩
        simp only [daemonStep, dailyHaltRollover, if_neg rolls]
    | placeTaken cmd clock =>
      refine .inr (.inr ⟨not_false, ?_⟩)
      simp only [daemonStep]
      split <;> rfl
    | cancel cmd =>
      refine .inr (.inr ⟨not_false, ?_⟩)
      simp only [daemonStep]
      split <;> rfl
    | tick tick => exact .inr (.inr ⟨not_false, pumpTick_risk s.runtime tick⟩)
    | accountPoll answer =>
      refine .inr (.inr ⟨not_false, ?_⟩)
      cases answer <;> rfl
    | _ => exact .inr (.inr ⟨not_false, rfl⟩)

def NoDisconnect (s : DaemonState) : Prop :=
  ∀ event, s.runtime.risk.killed = some event → event.source.isDisconnect = false

theorem clearIf_left {m : RiskMonitor} {clearable : KillSource → Bool} {event : KillEvent}
    (left : (m.clearIf clearable).1.killed = some event) : m.killed = some event := by
  unfold RiskMonitor.clearIf at left
  split at left
  · split at left
    · cases left
    · exact left
  · exact left

theorem step_noDisconnect (none_fired : NoDisconnect s) (e : DaemonEvent) : NoDisconnect (daemonStep s e).1 := by
  intro event active
  rcases step_risk s e with ⟨-, r, fires⟩ | ⟨-, cleared⟩ | ⟨-, cleared⟩ | ⟨-, same⟩
  · rw [fires] at active
    cases held : s.runtime.risk.killed with
    | some old =>
      rw [RiskMonitor.fireFirst_killed held] at active
      exact none_fired event active
    | none =>
      rw [(RiskMonitor.fireFirst_unkilled held _).1] at active
      exact found_source active
  · rw [cleared] at active
    exact none_fired event (clearIf_left active)
  · rw [cleared] at active
    exact none_fired event (clearIf_left active)
  · rw [same] at active
    exact none_fired event active

-- A kill leaves the slot by the rollover only, and then a daily one.
theorem step_killed_iff (none_fired : NoDisconnect s) (killed : s.runtime.risk.isKilled) (e : DaemonEvent) :
    (daemonStep s e).1.runtime.risk.isKilled ↔ ¬(Rolls s e ∧ DailyKilled s) := by
  obtain ⟨event, active⟩ := Option.isSome_iff_exists.mp killed
  have held : ∀ m : RiskMonitor, m = s.runtime.risk → ¬Rolls s e →
      (m.isKilled ↔ ¬(Rolls s e ∧ DailyKilled s)) := by
    rintro m rfl other
    exact ⟨fun _ both => other both.1, fun _ => killed⟩
  rcases step_risk s e with ⟨other, r, fires⟩ | ⟨other, cleared⟩ | ⟨rolls, cleared⟩ | ⟨other, same⟩
  · rw [fires, RiskMonitor.fireFirst_killed active]
    exact held _ rfl other
  · rw [cleared]
    exact held _ (RiskMonitor.clearIf_killed active _ (none_fired event active)) other
  · rw [cleared]
    unfold RiskMonitor.clearDailyHalt RiskMonitor.clearIf DailyKilled RiskMonitor.isKilled
    cases daily : event.source.isDailyClearable <;> simp [active, daily, rolls]
  · rw [same]
    exact held _ rfl other

theorem step_loss (loss : isLoss e) : (daemonStep s e).1.runtime.risk = s.runtime.risk ∧ ¬Rolls s e := by
  cases e with
  | connection ev =>
    have lost : ev.state = .lostConnection := by simpa [isLoss] using loss
    refine ⟨?_, nofun⟩
    simp [daemonStep, pumpConnection, lost]
  | _ => cases loss

theorem reconnect_stays (reconnects : isReconnect e) : ¬Rolls s e := by
  cases e with
  | connection ev => exact nofun
  | _ => cases reconnects

end Steps

section Runs

variable {d : DaemonState}

theorem down_snoc (past : List DaemonEvent) (e : DaemonEvent) : down (past ++ [e]) = downStep (down past) e := by
  simp [down]

theorem after_snoc (past : List DaemonEvent) (e : DaemonEvent) :
    Machine.after daemonStep d (past ++ [e]) = (daemonStep (Machine.after daemonStep d past) e).1 := by
  rw [Machine.after_append]
  rfl

theorem run_noDisconnect (fresh : d.runtime.risk.killed = none) (events : List DaemonEvent) :
    NoDisconnect (Machine.after daemonStep d events) := by
  refine Machine.reached NoDisconnect (fun _ e _ none_fired => step_noDisconnect none_fired e) ?_
    (Machine.along_true d events)
  intro event active
  cases fresh.symm.trans active

theorem loss_alone_never (events : List DaemonEvent) : ¬LossAlone d events := by
  intro given
  obtain ⟨before, e, later, -, loss, free, since⟩ := given
  have fired := since [] List.nil_prefix
  unfold killedAfter at free fired
  rw [after_snoc, (step_loss loss).1, free] at fired
  cases fired

-- One step of a run that has a kill in the slot if the connection is down.
theorem covered_step {past : List DaemonEvent} {e : DaemonEvent} (fresh : d.runtime.risk.killed = none)
    (held : down past → killedAfter d past = true) :
    (down (past ++ [e]) → killedAfter d (past ++ [e]) = true) ↔
      Covered (down past) (Machine.after daemonStep d past) e := by
  have none_fired := run_noDisconnect fresh past
  unfold killedAfter at held ⊢
  rw [after_snoc, down_snoc]
  generalize Machine.after daemonStep d past = s at *
  by_cases loss : isLoss e = true
  · have same := @step_loss s e loss
    simp only [downStep, loss, if_true, same.1, forall_const]
    exact ⟨fun killed => ⟨fun _ => killed, fun _ rolls => absurd rolls same.2⟩, fun covered => covered.killed loss⟩
  by_cases reconnects : isReconnect e = true
  · have stays := @reconnect_stays s e reconnects
    simp only [downStep, loss, reconnects, if_true, if_false, Bool.false_eq_true, false_implies, true_iff]
    exact ⟨fun lost => absurd lost loss, fun _ rolls => absurd rolls stays⟩
  simp only [downStep, loss, reconnects, if_false, Bool.false_eq_true]
  constructor
  · intro kept
    refine ⟨fun lost => absurd lost loss, ?_⟩
    intro isDown rolls daily
    exact (step_killed_iff none_fired (held isDown) e).mp (kept isDown) ⟨rolls, daily⟩
  · intro covered isDown
    refine (step_killed_iff none_fired (held isDown) e).mpr ?_
    intro both
    exact covered.sticky isDown both.1 both.2

end Runs

section Losses

def lossHandled : DaemonEvent := .connection ⟨.lostConnection, some "recv channel closed", 2⟩
def reconnectHandled : DaemonEvent := .connection ⟨.connected, none, 4⟩

def haltedEarlier : List DaemonEvent := losing ++ [checkAt 3, lossHandled, checkAt 5, reconnectHandled]

end Losses

theorem lost_unkilled : ¬KilledWhileDown (.start calm) [lossHandled, checkAt 3, reconnectHandled] := by
  intro kills
  have handled := kills.held [lossHandled] ⟨[checkAt 3, reconnectHandled], rfl⟩ rfl
  revert handled
  decide +kernel

theorem killed_while_down_iff {d : DaemonState} (fresh : d.runtime.risk.killed = none) (events : List DaemonEvent) :
    KilledWhileDown d events ↔
      ∀ past e, past ++ [e] <+: events → Covered (down past) (Machine.after daemonStep d past) e := by
  constructor
  · intro kills past e within
    have before := kills.held past ((List.prefix_append past [e]).trans within)
    exact (covered_step fresh before).mp (kills.held _ within)
  · intro covered
    refine ⟨?_, ?_⟩
    · intro past within
      induction past using List.reverseRecOn with
      | nil => exact nofun
      | append_singleton past e held =>
        exact (covered_step fresh (held ((List.prefix_append past [e]).trans within))).mpr (covered past e within)
    · intro past e _ reconnects _
      constructor
      · intro cleared
        unfold killedAfter at cleared
        rw [after_snoc] at cleared
        have stays := (step_killed_iff (run_noDisconnect fresh past) cleared.1 e).mpr fun both =>
          reconnect_stays reconnects both.1
        rw [cleared.2] at stays
        cases stays
      · exact fun alone => absurd alone (loss_alone_never past)

-- The daily halt was there before the loss, and the day does not roll over.
theorem killed_while_down_halted : KilledWhileDown (.start calm) haltedEarlier := by
  refine (killed_while_down_iff rfl _).mpr ?_
  intro past e within
  have quiet : e ∈ haltedEarlier := within.subset (by simp)
  refine ⟨?_, ?_⟩
  · intro loss
    obtain ⟨rest, split⟩ := within
    match past, split with
    | [], split => cases split; cases loss
    | [_], split => cases split; cases loss
    | [_, _], split => cases split; cases loss
    | [_, _, _], split => cases split; decide +kernel
    | [_, _, _, _], split => cases split; cases loss
    | [_, _, _, _, _], split => cases split; cases loss
    | _ :: _ :: _ :: _ :: _ :: _ :: _, split => simp [haltedEarlier, losing] at split
  · intro _ rolls
    simp only [haltedEarlier, losing, List.cons_append, List.nil_append, List.mem_cons, List.not_mem_nil, or_false] at quiet
    rcases quiet with rfl | rfl | rfl | rfl | rfl | rfl
    all_goals exact rolls.elim

end Corsair.Daemon
