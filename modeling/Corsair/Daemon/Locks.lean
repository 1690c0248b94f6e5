import Corsair.Lib.Locks

namespace Corsair.Daemon.Locking

open Locks

-- runtime.rs. The std mutexes of the Runtime; the tokio mutex on the broker is awaited
-- only where none of them is held.
inductive SharedLock where
  | portfolio | risk | constraint | hedge | oms | marketData | snapshot | account
  deriving DecidableEq

inductive DaemonTask where
  | commandDispatch | fills | status | ticks | connection
  | greekRefresh | riskCheck | hedge | snapshot | accountPoll | dailyRollover
  | riskState | tickPublisher | volSurface | subscriptions
  deriving DecidableEq

abbrev LockLine := List (Op SharedLock)

-- A guard that lives to the end of its block.
def locked (l : SharedLock) (block : LockLine) : LockLine := .acquire l :: block ++ [.release l]

def repeated (n : ℕ) (block : LockLine) : LockLine := (List.replicate n block).flatten

section Lines

-- ipc.rs. The guard on the portfolio is a temporary of the second statement.
def handlePlace : LockLine := locked .marketData (locked .portfolio [])

-- tasks.rs
inductive HedgePlacement where
  | unplaced
  | unresolved
  | priced

def placeHedgeOrder : HedgePlacement → LockLine
  | .unplaced => []
  | .unresolved => locked .hedge []
  | .priced => locked .hedge [] ++ locked .marketData []

def handleHedgeFill : LockLine := locked .hedge []

def handleUnmatchedFill : LockLine := handleHedgeFill ++ (locked .portfolio [] ++ locked .marketData [])

def handleFill (order : HedgePlacement) : LockLine :=
  handleUnmatchedFill ++ (locked .portfolio [] ++
    (locked .portfolio (locked .marketData (locked .risk [])) ++
      (locked .portfolio (locked .hedge []) ++ placeHedgeOrder order)))

def greekRefresh : LockLine := locked .portfolio (locked .marketData [])

-- worst_per_product looks into the hedge once for each product it gates.
def riskCheck (gated : ℕ) : LockLine :=
  locked .portfolio (locked .marketData (locked .risk (repeated gated (locked .hedge []) ++ locked .account [])))

def periodicHedge (reconciles : Bool) (orders : List HedgePlacement) : LockLine :=
  (if reconciles then locked .hedge [] else []) ++ (locked .portfolio (locked .marketData []) ++
    (locked .portfolio (locked .hedge []) ++ orders.flatMap placeHedgeOrder))

def periodicSnapshot : LockLine :=
  locked .account (locked .constraint []) ++
    locked .portfolio (locked .risk (locked .hedge (locked .marketData (locked .snapshot []))))

inductive AccountRound where
  | failed
  | unmargined
  | unscaled
  | scaled

def accountPoll : AccountRound → LockLine
  | .failed => []
  | .unmargined => locked .account []
  | .unscaled => locked .account [] ++ locked .portfolio (locked .marketData [])
  | .scaled => locked .account [] ++ (locked .portfolio (locked .marketData []) ++ locked .constraint [])

-- ipc.rs
def periodicRiskState : LockLine := locked .portfolio [] ++ locked .hedge []

-- vol_surface.rs
def fitAndPublish (products : ℕ) : LockLine := locked .portfolio [] ++ repeated products (locked .marketData [])

-- subscriptions.rs, one product: the options are subscribed once the underlying has a price.
def subscribeProduct (polls : ℕ) (options : Option ℕ) : LockLine :=
  repeated (polls + 1) (locked .marketData []) ++ match options with
    | none => []
    | some options => locked .portfolio [] ++ repeated options (locked .marketData [])

end Lines

inductive Round : DaemonTask → Type where
  | place : Round .commandDispatch
  | unlockedCommand : Round .commandDispatch
  | hedgeFill : Round .fills
  | unmatchedFill : Round .fills
  | optionFill (order : HedgePlacement) : Round .fills
  | status : Round .status
  | tick : Round .ticks
  | connected : Round .connection
  | otherConnection : Round .connection
  | greekRefresh : Round .greekRefresh
  | riskCheck (gated : ℕ) : Round .riskCheck
  | hedge (reconciles : Bool) (orders : List HedgePlacement) : Round .hedge
  | snapshot : Round .snapshot
  | account (round : AccountRound) : Round .accountPoll
  | rollover (due : Bool) : Round .dailyRollover
  | riskState : Round .riskState
  | published (consumed : Bool) : Round .tickPublisher
  | surface (products : ℕ) : Round .volSurface
  | subscribed (polls : ℕ) (options : Option ℕ) : Round .subscriptions

def lockLine (t : DaemonTask) : Round t → LockLine
  | .place => handlePlace
  | .unlockedCommand => []
  | .hedgeFill => handleHedgeFill
  | .unmatchedFill => handleUnmatchedFill
  | .optionFill order => handleFill order
  | .status => locked .oms []
  | .tick => locked .marketData []
  | .connected => locked .risk []
  | .otherConnection => []
  | .greekRefresh => greekRefresh
  | .riskCheck gated => riskCheck gated
  | .hedge reconciles orders => periodicHedge reconciles orders
  | .snapshot => periodicSnapshot
  | .account round => accountPoll round
  | .rollover due => if due then locked .risk [] else []
  | .riskState => periodicRiskState
  | .published consumed => if consumed then locked .marketData [] else []
  | .surface products => fitAndPublish products
  | .subscribed polls options => subscribeProduct polls options

abbrev LockState := State DaemonTask SharedLock
abbrev LockEvent := Event Round

def locksAfter (events : List LockEvent) : LockState := Machine.after (step lockLine) .idle events

def NeverDeadlocked (events : List LockEvent) : Prop := ∀ past, past <+: events → ¬(locksAfter past).Deadlocked

-- Market data is still to be taken before the portfolio is given back.
def marketDataAhead : LockLine → Bool
  | .acquire .marketData :: _ => true
  | .release .portfolio :: _ => false
  | _ :: rest => marketDataAhead rest
  | [] => false

-- Command dispatch and a task that goes from the portfolio to market data keep out of
-- each other's way: neither takes its first lock between the other's two.
def KeepsApart (s : LockState) : LockEvent → Prop
  | .begins .. => True
  | .runs t => match s.rest t with
    | .acquire .marketData :: _ => t = .commandDispatch → s.owner .marketData = none →
        ∀ u ∈ s.owner .portfolio, marketDataAhead (s.rest u) = false
    | .acquire .portfolio :: rest => t ≠ .commandDispatch → s.owner .portfolio = none →
        s.Waits .commandDispatch .portfolio → marketDataAhead rest = false
    | _ => True

section Order

def lockRank : SharedLock → ℕ
  | .portfolio => 0
  | .constraint => 2
  | _ => 1

abbrev InLine (held : List SharedLock) (line : LockLine) : Prop := Disciplined lockRank .portfolio held line

theorem alone_inLine (l : SharedLock) {rest : LockLine} (after : InLine [] rest) : InLine [] (locked l [] ++ rest) := by
  refine disciplined_append lockRank _ ?_ after
  cases l <;> decide

theorem repeated_inLine (n : ℕ) (l : SharedLock) {rest : LockLine} (after : InLine [] rest) :
    InLine [] (repeated n (locked l []) ++ rest) :=
  disciplined_repeat lockRank _ (fun _ line => alone_inLine l line) after n

theorem placeHedgeOrder_inLine (order : HedgePlacement) : InLine [] (placeHedgeOrder order) := by
  cases order <;> decide

theorem hedgeOrders_inLine (orders : List HedgePlacement) : InLine [] (orders.flatMap placeHedgeOrder) := by
  induction orders with
  | nil => rfl
  | cons order rest next =>
    rw [List.flatMap_cons]
    exact disciplined_append lockRank _ (placeHedgeOrder_inLine order) next

theorem handleFill_inLine (order : HedgePlacement) : InLine [] (handleFill order) := by
  cases order <;> decide

theorem riskCheck_inLine (gated : ℕ) : InLine [] (riskCheck gated) := by
  have inner : InLine [.risk, .marketData, .portfolio] (repeated gated (locked .hedge []) ++
      (locked .account [] ++ [.release .risk, .release .marketData, .release .portfolio])) := by
    refine disciplined_repeat lockRank _ ?_ (by decide) gated
    intro line given
    exact ⟨by decide, by decide, given⟩
  have outer : InLine [.marketData, .portfolio] (.acquire .risk :: (repeated gated (locked .hedge []) ++
      (locked .account [] ++ [.release .risk, .release .marketData, .release .portfolio]))) := ⟨by decide, inner⟩
  have shape : riskCheck gated = .acquire .portfolio :: .acquire .marketData :: .acquire .risk ::
      (repeated gated (locked .hedge []) ++
        (locked .account [] ++ [.release .risk, .release .marketData, .release .portfolio])) := by
    simp [riskCheck, locked]
  rw [shape]
  exact ⟨by decide, by decide, outer⟩

theorem periodicHedge_inLine (reconciles : Bool) (orders : List HedgePlacement) :
    InLine [] (periodicHedge reconciles orders) := by
  have two : InLine [] (locked .portfolio (locked .marketData [])) := by decide
  have three : InLine [] (locked .portfolio (locked .hedge [])) := by decide
  have rest := disciplined_append lockRank _ two (disciplined_append lockRank _ three (hedgeOrders_inLine orders))
  cases reconciles with
  | true => exact alone_inLine .hedge rest
  | false => exact rest

theorem subscribeProduct_inLine (polls : ℕ) (options : Option ℕ) : InLine [] (subscribeProduct polls options) := by
  refine repeated_inLine (polls + 1) .marketData ?_
  cases options with
  | none => rfl
  | some options =>
    have subscribed := @repeated_inLine options .marketData [] rfl
    rw [List.append_nil] at subscribed
    exact alone_inLine .portfolio subscribed

-- Every task but command dispatch takes its locks in order.
theorem lockLine_inLine {t : DaemonTask} (other : t ≠ .commandDispatch) (round : Round t) :
    InLine [] (lockLine t round) := by
  cases round with
  | place => exact absurd rfl other
  | unlockedCommand => exact absurd rfl other
  | optionFill order => exact handleFill_inLine order
  | riskCheck gated => exact riskCheck_inLine gated
  | hedge reconciles orders => exact periodicHedge_inLine reconciles orders
  | account round => cases round <;> decide
  | rollover due => cases due <;> decide
  | published consumed => cases consumed <;> decide
  | surface products =>
    have published := @repeated_inLine products .marketData [] rfl
    rw [List.append_nil] at published
    exact alone_inLine .portfolio published
  | subscribed polls options => exact subscribeProduct_inLine polls options
  | _ => decide

end Order

section Crossing

-- Where command dispatch is in the lock section of handle_place.
inductive Placing : List SharedLock → LockLine → Prop where
  | away : Placing [] []
  | begun : Placing [] handlePlace
  | crossing : Placing [.marketData] [.acquire .portfolio, .release .portfolio, .release .marketData]
  | inside : Placing [.portfolio, .marketData] [.release .portfolio, .release .marketData]
  | leaving : Placing [.marketData] [.release .marketData]

theorem placing_invariant : LineInvariant Placing where
  acquire held l rest given := by
    cases given with
    | begun => exact .crossing
    | crossing => exact .inside
  release held l rest given := by
    cases given with
    | inside => exact ⟨by decide, .leaving⟩
    | leaving => exact ⟨by decide, .away⟩
  done held given := by
    cases given
    rfl

theorem placing_round (round : Round .commandDispatch) : Placing [] (lockLine .commandDispatch round) := by
  cases round with
  | place => exact .begun
  | unlockedCommand => exact .away

structure Uncrossed (s : LockState) : Prop where
  others : ∀ t, t ≠ .commandDispatch → Keeps lockRank .portfolio s t
  dispatch : Holds Placing s .commandDispatch
  clear : s.Waits .commandDispatch .portfolio → ∀ u ∈ s.owner .portfolio, marketDataAhead (s.rest u) = false

theorem idle_uncrossed : Uncrossed .idle where
  others t _ := idle_holds rfl t
  dispatch := idle_holds .away _
  clear waits := by
    obtain ⟨rest, none_left⟩ := waits
    cases none_left

variable {s : LockState}

-- Only at the crossing does command dispatch wait with a lock in hand.
theorem placing_waits (holds : Holds Placing s .commandDispatch) {l : SharedLock} (waits : s.Waits .commandDispatch l) :
    (∀ held, s.owner held ≠ some .commandDispatch) ∨
      l = .portfolio ∧ ∀ held, s.owner held = some .commandDispatch ↔ held = .marketData := by
  obtain ⟨held, owned, line⟩ := holds
  obtain ⟨rest, next⟩ := waits
  rw [next] at line
  cases line with
  | begun => exact .inl fun lock own => absurd ((owned lock).mpr own) List.not_mem_nil
  | crossing => exact .inr ⟨rfl, fun lock => (owned lock).symm.trans List.mem_singleton⟩

theorem uncrossed_no_deadlock (uncrossed : Uncrossed s) : ¬s.Deadlocked := by
  intro given
  obtain ⟨t, cycle⟩ := given
  have kept : ∀ a b, a ≠ .commandDispatch ∧ s.Blocks a b → KeptBlocks lockRank .portfolio s a b :=
    fun a _ edge => ⟨uncrossed.others a edge.1, edge.2⟩
  rcases cycle_through .commandDispatch cycle with clear | ⟨back, u, out, on⟩
  · exact no_kept_cycle t (Relation.TransGen.mono kept _ _ clear)
  · obtain ⟨lock, owns, waits⟩ := out
    have around := on.trans back
    rcases Relation.reflTransGen_iff_eq_or_transGen.mp around with same | path
    · -- It would wait for what it holds itself.
      subst same
      rcases placing_waits uncrossed.dispatch waits with idle | ⟨rfl, owned⟩
      · exact idle lock owns
      · cases (owned _).mp owns
    · obtain ⟨v, reach, other, last, holds, awaits⟩ := Relation.TransGen.tail'_iff.mp path
      rcases placing_waits uncrossed.dispatch awaits with idle | ⟨rfl, owned⟩
      · exact idle lock owns
      · obtain rfl := (owned lock).mp owns
        have ahead := uncrossed.clear awaits v holds
        rcases Relation.reflTransGen_iff_eq_or_transGen.mp reach with same | descent
        · subst same
          obtain ⟨rest, next⟩ := waits
          rw [next] at ahead
          cases ahead
        · obtain ⟨awaited, waiting, lower⟩ := path_descends waits (Relation.TransGen.mono kept _ _ descent)
          have lowest : lockRank awaited = 0 := by
            unfold height at lower
            rw [if_pos holds] at lower
            have level : lockRank .marketData = 1 := rfl
            split at lower <;> omega
          have gate : awaited = .portfolio := by
            cases awaited <;> first | rfl | cases lowest
          rw [gate] at waiting
          exact keeps_apart (uncrossed.others v other) waiting holds

theorem ahead_acquire {l : SharedLock} {rest : LockLine} (quiet : marketDataAhead (.acquire l :: rest) = false) :
    marketDataAhead rest = false := by
  cases l <;> first | exact quiet | cases quiet

theorem ahead_release {l : SharedLock} {rest : LockLine} (other : l ≠ .portfolio)
    (quiet : marketDataAhead (.release l :: rest) = false) : marketDataAhead rest = false := by
  cases l <;> first | exact quiet | exact absurd rfl other

-- Whoever has nothing ahead still has nothing ahead when `t` has done its next operation.
theorem ahead_moved {t u : DaemonTask} {op : Op SharedLock} {rest : LockLine} (next : s.rest t = op :: rest)
    (tail : marketDataAhead (op :: rest) = false → marketDataAhead rest = false)
    (quiet : marketDataAhead (s.rest u) = false) : marketDataAhead (Function.update s.rest t rest u) = false := by
  by_cases own : u = t
  · subst own
    rw [next] at quiet
    rw [Function.update_self]
    exact tail quiet
  · rw [Function.update_of_ne own]
    exact quiet

-- Command dispatch comes to the crossing only by taking market data.
theorem placing_crosses {held : List SharedLock} {l : SharedLock} {rest : LockLine}
    (line : Placing held (.acquire l :: rest)) {more : LockLine} (next : rest = .acquire .portfolio :: more) :
    l = .marketData ∧ held = [] := by
  cases line with
  | begun => exact ⟨rfl, rfl⟩
  | crossing => cases next

theorem clear_step {e : LockEvent} (apart : KeepsApart s e) (uncrossed : Uncrossed s) :
    (step lockLine s e).1.Waits .commandDispatch .portfolio →
      ∀ u ∈ (step lockLine s e).1.owner .portfolio, marketDataAhead ((step lockLine s e).1.rest u) = false := by
  obtain ⟨others, dispatch, clear⟩ := uncrossed
  have moves := step_moves lockLine s e
  generalize (step lockLine s e).1 = after at moves
  cases moves with
  | stays => exact clear
  | began t round done =>
    intro waits u holds
    dsimp only at holds ⊢
    by_cases dispatching : t = .commandDispatch
    · subst dispatching
      obtain ⟨more, line⟩ := waits
      dsimp only at line
      rw [Function.update_self] at line
      cases round <;> cases line
    · have waiting : s.Waits .commandDispatch .portfolio := by
        obtain ⟨more, line⟩ := waits
        dsimp only at line
        rw [Function.update_of_ne (Ne.symm dispatching)] at line
        exact ⟨more, line⟩
      by_cases own : u = t
      · subst own
        obtain ⟨held, owned, line⟩ := others u dispatching
        rw [done] at line
        obtain rfl : held = [] := line
        exact absurd ((owned .portfolio).mpr holds) List.not_mem_nil
      · rw [Function.update_of_ne own]
        exact clear waiting u holds
  | took t l rest next free =>
    intro waits u holds
    obtain ⟨more, line⟩ := waits
    dsimp only at holds line ⊢
    unfold KeepsApart at apart
    dsimp only at apart
    rw [next] at apart
    by_cases dispatching : t = .commandDispatch
    · subst dispatching
      rw [Function.update_self] at line
      obtain ⟨held, owned, placing⟩ := dispatch
      rw [next] at placing
      obtain ⟨rfl, rfl⟩ := placing_crosses placing line
      rw [Function.update_of_ne (by decide)] at holds
      have other : u ≠ .commandDispatch := by
        intro own
        rw [own] at holds
        exact absurd ((owned .portfolio).mpr holds) List.not_mem_nil
      rw [Function.update_of_ne other]
      exact apart rfl free u holds
    · rw [Function.update_of_ne (Ne.symm dispatching)] at line
      have waiting : s.Waits .commandDispatch .portfolio := ⟨more, line⟩
      by_cases gate : l = .portfolio
      · subst gate
        rw [Function.update_self] at holds
        obtain rfl := Option.some.inj holds
        rw [Function.update_self]
        exact apart dispatching free waiting
      · rw [Function.update_of_ne (Ne.symm gate)] at holds
        exact ahead_moved next ahead_acquire (clear waiting u holds)
  | gave t l rest next =>
    intro waits u holds
    obtain ⟨more, line⟩ := waits
    dsimp only at holds line ⊢
    by_cases dispatching : t = .commandDispatch
    · subst dispatching
      rw [Function.update_self] at line
      obtain ⟨held, owned, placing⟩ := dispatch
      rw [next, line] at placing
      cases placing
    · rw [Function.update_of_ne (Ne.symm dispatching)] at line
      have waiting : s.Waits .commandDispatch .portfolio := ⟨more, line⟩
      obtain ⟨held, owned, disciplined⟩ := others t dispatching
      rw [next] at disciplined
      have owns := (owned l).mp disciplined.1
      rw [if_pos owns] at holds
      by_cases gate : l = .portfolio
      · subst gate
        rw [Function.update_self] at holds
        cases holds
      · rw [Function.update_of_ne (Ne.symm gate)] at holds
        exact ahead_moved next (ahead_release gate) (clear waiting u holds)

theorem uncrossed_step {e : LockEvent} (apart : KeepsApart s e) (uncrossed : Uncrossed s) :
    Uncrossed (step lockLine s e).1 where
  others t other := holds_step (disciplined_invariant _ _) (lockLine_inLine other) e (uncrossed.others t other)
  dispatch := holds_step placing_invariant placing_round e uncrossed.dispatch
  clear := clear_step apart uncrossed

theorem apart_uncrossed {events : List LockEvent} (apart : Machine.Along (step lockLine) KeepsApart .idle events) :
    Uncrossed (locksAfter events) :=
  Machine.reached Uncrossed (fun _ _ apart uncrossed => uncrossed_step apart uncrossed) idle_uncrossed apart

end Crossing

theorem kept_apart_never_deadlocked (events : List LockEvent)
    (apart : Machine.Along (step lockLine) KeepsApart .idle events) : NeverDeadlocked events := by
  intro past within
  obtain ⟨rest, rfl⟩ := within
  exact uncrossed_no_deadlock (apart_uncrossed ((Machine.along_append _ past rest).mp apart).1)

section Stuck

-- Command dispatch has market data and `u`, which will want it, has the portfolio.
structure Stuck (s : LockState) (u : DaemonTask) : Prop where
  dispatch : s.owner .marketData = some .commandDispatch
  waits : s.Waits .commandDispatch .portfolio
  other : u ≠ .commandDispatch
  portfolio : s.owner .portfolio = some u
  ahead : marketDataAhead (s.rest u) = true

variable {s : LockState} {u : DaemonTask}

theorem stuck_same {next : LockState} (stuck : Stuck s u) (marketData : next.owner .marketData = s.owner .marketData)
    (portfolio : next.owner .portfolio = s.owner .portfolio)
    (dispatch : next.rest .commandDispatch = s.rest .commandDispatch)
    (ahead : marketDataAhead (next.rest u) = marketDataAhead (s.rest u)) : Stuck next u := by
  refine ⟨marketData.trans stuck.dispatch, ?_, stuck.other, portfolio.trans stuck.portfolio, ahead.trans stuck.ahead⟩
  obtain ⟨rest, line⟩ := stuck.waits
  exact ⟨rest, dispatch.trans line⟩

-- Neither gets what it needs, whatever the other tasks do.
theorem stuck_step (e : LockEvent) (stuck : Stuck s u) : Stuck (step lockLine s e).1 u := by
  obtain ⟨more, line⟩ := stuck.waits
  have moves := step_moves lockLine s e
  generalize (step lockLine s e).1 = after at moves
  cases moves with
  | stays => exact stuck
  | began t round done =>
    have waiting : t ≠ .commandDispatch := by
      intro same
      rw [same, line] at done
      cases done
    have busy : t ≠ u := by
      intro same
      have ahead := stuck.ahead
      rw [← same, done] at ahead
      cases ahead
    exact stuck_same stuck rfl rfl (Function.update_of_ne waiting.symm _ _)
      (congrArg marketDataAhead (Function.update_of_ne busy.symm _ _))
  | took t l rest next free =>
    have marketData : l ≠ .marketData := by
      rintro rfl
      rw [stuck.dispatch] at free
      cases free
    have portfolio : l ≠ .portfolio := by
      rintro rfl
      rw [stuck.portfolio] at free
      cases free
    have waiting : t ≠ .commandDispatch := by
      intro same
      rw [same, line] at next
      cases next
      exact portfolio rfl
    refine stuck_same stuck (Function.update_of_ne marketData.symm _ _) (Function.update_of_ne portfolio.symm _ _)
      (Function.update_of_ne waiting.symm _ _) ?_
    dsimp only
    by_cases own : u = t
    · subst own
      rw [Function.update_self, next]
      cases l <;> first | rfl | exact absurd rfl marketData
    · rw [Function.update_of_ne own]
  | gave t l rest next =>
    have waiting : t ≠ .commandDispatch := by
      intro same
      rw [same, line] at next
      cases next
    have portfolio : l = .portfolio → t ≠ u := by
      rintro rfl rfl
      have ahead := stuck.ahead
      rw [next] at ahead
      cases ahead
    have kept : ∀ lock, (lock = .marketData ∨ lock = .portfolio) →
        (if s.owner l = some t then Function.update s.owner l none else s.owner) lock = s.owner lock := by
      intro lock named
      split
      · rename_i owns
        refine Function.update_of_ne ?_ _ _
        rintro rfl
        rcases named with rfl | rfl
        · rw [stuck.dispatch] at owns
          exact waiting (Option.some.inj owns).symm
        · rw [stuck.portfolio] at owns
          exact portfolio rfl (Option.some.inj owns).symm
      · rfl
    refine stuck_same stuck (kept _ (.inl rfl)) (kept _ (.inr rfl)) (Function.update_of_ne waiting.symm _ _) ?_
    dsimp only
    by_cases own : u = t
    · subst own
      rw [Function.update_self, next]
      cases l <;> first | rfl | exact absurd rfl (portfolio rfl)
    · rw [Function.update_of_ne own]

theorem stuck_run (events : List LockEvent) (stuck : Stuck s u) :
    Stuck (Machine.after (step lockLine) s events) u :=
  Machine.reached (Stuck · u) (fun _ e _ stuck => stuck_step e stuck) stuck (Machine.along_true s events)

theorem broken_stuck {e : LockEvent} (uncrossed : Uncrossed s) (broken : ¬KeepsApart s e) :
    ∃ u, Stuck (step lockLine s e).1 u := by
  obtain ⟨held, owned, placing⟩ := uncrossed.dispatch
  cases e with
  | begins t round => exact absurd trivial broken
  | runs t =>
    unfold KeepsApart at broken
    dsimp only at broken
    split at broken
    · rename_i rest next
      simp only [Classical.not_imp, not_forall] at broken
      obtain ⟨rfl, free, u, holds, ahead⟩ := broken
      rw [next] at placing
      cases placing
      have other : u ≠ .commandDispatch := by
        rintro rfl
        exact absurd ((owned .portfolio).mpr holds) List.not_mem_nil
      refine ⟨u, ?_⟩
      unfold step
      dsimp only
      rw [next]
      dsimp only
      rw [if_pos free]
      refine ⟨?_, ?_, other, ?_, ?_⟩
      · dsimp only
        rw [Function.update_self]
      · refine ⟨[.release .portfolio, .release .marketData], ?_⟩
        dsimp only
        rw [Function.update_self]
        rfl
      · dsimp only
        rw [Function.update_of_ne (by decide)]
        exact holds
      · dsimp only
        rw [Function.update_of_ne other]
        simpa using ahead
    · rename_i rest next
      simp only [Classical.not_imp] at broken
      obtain ⟨other, free, waits, ahead⟩ := broken
      refine ⟨t, ?_⟩
      have crossing : s.owner .marketData = some .commandDispatch := by
        obtain ⟨more, line⟩ := waits
        rw [line] at placing
        cases placing
        exact (owned .marketData).mp (List.mem_singleton_self _)
      obtain ⟨more, line⟩ := waits
      unfold step
      dsimp only
      rw [next]
      dsimp only
      rw [if_pos free]
      refine ⟨?_, ⟨more, ?_⟩, other, ?_, ?_⟩
      · dsimp only
        rw [Function.update_of_ne (by decide)]
        exact crossing
      · dsimp only
        rw [Function.update_of_ne (Ne.symm other)]
        exact line
      · dsimp only
        rw [Function.update_self]
      · dsimp only
        rw [Function.update_self]
        simpa using ahead
    · exact absurd trivial broken

-- The first step that does not keep apart is the last that either of the two tasks gets through.
theorem crossed_for_good {past : List LockEvent} (apart : Machine.Along (step lockLine) KeepsApart .idle past)
    {e : LockEvent} (broken : ¬KeepsApart (locksAfter past) e) (future : List LockEvent) :
    ∃ u, Stuck (locksAfter (past ++ e :: future)) u := by
  obtain ⟨u, stuck⟩ := broken_stuck (apart_uncrossed apart) broken
  refine ⟨u, ?_⟩
  unfold locksAfter
  rw [Machine.after_append]
  exact stuck_run future stuck

end Stuck

section Unplaced

-- Command dispatch stays out of handle_place, and so away from every lock.
structure Unlocked (s : LockState) : Prop where
  line : s.rest .commandDispatch = []
  locks : ∀ l, s.owner l ≠ some .commandDispatch

theorem unlocked_other {s : LockState} (unlocked : Unlocked s) {t : DaemonTask} {op : Op SharedLock} {rest : LockLine}
    (next : s.rest t = op :: rest) : t ≠ .commandDispatch := by
  intro same
  rw [same, unlocked.line] at next
  cases next

theorem unlocked_step {s : LockState} {e : LockEvent} (unplaced : e ≠ .begins .commandDispatch .place)
    (unlocked : Unlocked s) : Unlocked (step lockLine s e).1 := by
  have moves := step_moves lockLine s e
  generalize (step lockLine s e).1 = after at moves
  cases moves with
  | stays => exact unlocked
  | began t round done =>
    refine ⟨?_, unlocked.locks⟩
    dsimp only
    by_cases dispatching : t = .commandDispatch
    · subst dispatching
      cases round with
      | place => exact absurd rfl unplaced
      | unlockedCommand => exact Function.update_self ..
    · rw [Function.update_of_ne (Ne.symm dispatching)]
      exact unlocked.line
  | took t l rest next free =>
    have other := unlocked_other unlocked next
    refine ⟨(Function.update_of_ne other.symm _ _).trans unlocked.line, ?_⟩
    intro lock
    dsimp only
    by_cases taken : lock = l
    · subst taken
      rw [Function.update_self]
      exact fun same => other (Option.some.inj same)
    · rw [Function.update_of_ne taken]
      exact unlocked.locks lock
  | gave t l rest next =>
    have other := unlocked_other unlocked next
    refine ⟨(Function.update_of_ne other.symm _ _).trans unlocked.line, ?_⟩
    intro lock
    dsimp only
    split
    · by_cases given : lock = l
      · subst given
        rw [Function.update_self]
        exact (Option.some_ne_none _).symm
      · rw [Function.update_of_ne given]
        exact unlocked.locks lock
    · exact unlocked.locks lock

theorem unlocked_apart {s : LockState} (e : LockEvent) (unlocked : Unlocked s) : KeepsApart s e := by
  cases e with
  | begins t round => trivial
  | runs t =>
    unfold KeepsApart
    dsimp only
    split
    · rename_i next
      exact fun dispatching => absurd dispatching (unlocked_other unlocked next)
    · intro _ _ waits
      obtain ⟨rest, next⟩ := waits
      rw [unlocked.line] at next
      cases next
    · trivial

-- Without handle_place the daemon's locks are free of deadlock.
theorem unplaced_never_deadlocked {events : List LockEvent}
    (unplaced : ∀ e ∈ events, e ≠ .begins .commandDispatch .place) : NeverDeadlocked events := by
  intro past within
  obtain ⟨rest, rfl⟩ := within
  have start : Unlocked .idle := ⟨rfl, fun _ owned => absurd owned (Option.some_ne_none _).symm⟩
  have along : Machine.Along (step lockLine) (fun _ e => e ≠ .begins .commandDispatch .place) .idle (past ++ rest) := by
    refine Machine.along_of (fun _ => True) (fun _ _ _ _ => trivial) (fun _ e member _ _ => unplaced e member) trivial
      (Machine.along_true _ _)
  have apart := Machine.along_of Unlocked (fun _ _ unplaced unlocked => unlocked_step unplaced unlocked)
    (fun _ e _ _ unlocked => unlocked_apart e unlocked) start along
  exact uncrossed_no_deadlock (apart_uncrossed ((Machine.along_append _ past rest).mp apart).1)

end Unplaced

section Interleavings

def placeLine : List LockEvent := List.replicate 4 (.runs .commandDispatch)
def refreshLine : List LockEvent := List.replicate 4 (.runs .greekRefresh)

def bothBegin : List LockEvent := [.begins .commandDispatch .place, .begins .greekRefresh .greekRefresh]

def crossed : List LockEvent := bothBegin ++ [.runs .greekRefresh, .runs .commandDispatch]

end Interleavings

theorem one_after_other : NeverDeadlocked (bothBegin ++ placeLine ++ refreshLine) := by
  refine kept_apart_never_deadlocked _ ⟨trivial, trivial, ?_, ?_, trivial, trivial, ?_, ?_, trivial, trivial, trivial⟩
  · intro _ _ u held
    cases held
  · exact fun other => absurd rfl other
  · intro _ _ waits
    obtain ⟨rest, next⟩ := waits
    cases next
  · intro dispatching
    cases dispatching

-- The refresh has the portfolio and command dispatch has market data.
theorem place_crosses_refresh :
    (locksAfter crossed).Blocks .greekRefresh .commandDispatch ∧
      (locksAfter crossed).Blocks .commandDispatch .greekRefresh ∧ ¬NeverDeadlocked crossed := by
  have refresh : (locksAfter crossed).Blocks .greekRefresh .commandDispatch := ⟨.portfolio, rfl, _, rfl⟩
  have place : (locksAfter crossed).Blocks .commandDispatch .greekRefresh := ⟨.marketData, rfl, _, rfl⟩
  refine ⟨refresh, place, fun never => ?_⟩
  apply never crossed (List.prefix_refl _)
  exact ⟨.commandDispatch, .tail (.single place) refresh⟩

end Corsair.Daemon.Locking
