import Mathlib.Algebra.BigOperators.Group.List.Basic
import Corsair.Daemon.Machine
import Corsair.Lib.Firsts
import Corsair.Native.Adapter

namespace Corsair.Daemon

open BrokerApi Book Hedge MarketData Native Risk

def broadcastFills (emissions : List Emission) : List Fill :=
  emissions.filterMap fun
    | .fill fill => some fill
    | _ => none

def fillId : DaemonEvent → Option String
  | .fill fill _ _ => some fill.execId
  | _ => none

-- pump_fills takes the next fill, or another task has its turn.
inductive Turn where
  | pump (now : ℕ) (book : BrokerBook)
  | other (event : DaemonEvent) (quiet : fillId event = none)

def pumpedEvents : List Turn → List Fill → List DaemonEvent
  | [], _ => []
  | .other event _ :: rest, fills => event :: pumpedEvents rest fills
  | .pump now book :: rest, fill :: fills => .fill fill now book :: pumpedEvents rest fills
  | .pump _ _ :: rest, [] => pumpedEvents rest []

-- What the daemon goes through for an adapter run and a schedule of its tasks.
def daemonEvents (chrono : Chrono) (publisher : Bool) (s : BrokerState) (inputs : List AdapterEvent)
    (turns : List Turn) : List DaemonEvent :=
  pumpedEvents turns (broadcastFills (Machine.emitted (adapterStep chrono publisher) s inputs))

def books (d : DaemonState) : PortfolioState × List (String × ℤ) :=
  (d.runtime.portfolio, d.runtime.hedge.managers.map fun m => (m.cfg.product, m.hedgeQty))

def CountsOnce (d : DaemonState) (events : List DaemonEvent) : Prop :=
  books (Machine.after daemonStep d events) = books (Machine.after daemonStep d (Firsts.firsts fillId events))

def DaemonState.withRisk (d : DaemonState) (risk : RiskMonitor) : DaemonState :=
  { d with runtime := { d.runtime with risk } }

-- A fill that no hedge would book, because each one it is for remembers its id,
-- and that is of no registered option.
def Inert (d : DaemonState) : DaemonEvent → Prop
  | .fill fill _ _ =>
    (∀ product m, d.runtime.hedge.forProduct product = some m → m.hedges fill.instrumentId →
      fill.execId = "" ∨ fill.execId ∈ m.processedExecIds) ∧
    matchedOption d.runtime fill.instrumentId = none
  | _ => False

section Offer

variable {h : HedgeFanout} {fill : Fill}

theorem offer_refused {names : List String}
    (refused : ∀ product m, h.forProduct product = some m → ¬m.accepts fill) :
    offerFill h fill names = (h, false) := by
  induction names with
  | nil => rfl
  | cons product rest next =>
    unfold offerFill
    cases found : h.forProduct product with
    | none => exact next
    | some m =>
      simp only [HedgeManager.applyBrokerFill_refused (refused product m found)]
      exact next

theorem offer_accepted {names : List String} {product : String} {m : HedgeManager} (named : product ∈ names)
    (found : h.forProduct product = some m) (accepts : m.accepts fill) :
    ∃ product m, h.forProduct product = some m ∧ m.accepts fill ∧
      offerFill h fill names = (h.forProductMut product fun _ => (m.applyBrokerFill fill).1, true) := by
  induction names with
  | nil => cases named
  | cons first rest next =>
    have later : first ≠ product → product ∈ rest := by
      intro other
      rcases List.mem_cons.mp named with same | later
      · exact absurd same.symm other
      · exact later
    unfold offerFill
    cases tried : h.forProduct first with
    | none =>
      refine next (later ?_)
      rintro rfl
      rw [tried] at found
      cases found
    | some n =>
      by_cases takes : n.accepts fill
      · have taken := (HedgeManager.applyBrokerFill_accepted takes).1
        refine ⟨first, n, tried, takes, ?_⟩
        simp only [taken, if_true]
      · simp only [HedgeManager.applyBrokerFill_refused takes]
        refine next (later ?_)
        rintro rfl
        rw [tried] at found
        cases found
        exact takes accepts

theorem forProduct_managed {product : String} {m : HedgeManager} (found : h.forProduct product = some m) :
    product ∈ managedProducts h := by
  unfold HedgeFanout.forProduct at found
  have named := List.find?_some found
  exact List.mem_map.mpr ⟨m, List.mem_of_find?_eq_some found, by simpa using named⟩

theorem update_total (product : String) (next : HedgeManager) {m : HedgeManager} {managers : List HedgeManager}
    (found : managers.find? (·.cfg.product = product) = some m) :
    ((HedgeFanout.update product (fun _ => next) managers).map (·.hedgeQty)).sum =
      (managers.map (·.hedgeQty)).sum + (next.hedgeQty - m.hedgeQty) := by
  induction managers with
  | nil => cases found
  | cons first rest later =>
    unfold HedgeFanout.update
    by_cases own : first.cfg.product = product
    · rw [List.find?_cons_of_pos (by simpa using own)] at found
      cases found
      simp only [own, if_true, List.map_cons, List.sum_cons]
      omega
    · rw [List.find?_cons_of_neg (by simpa using own)] at found
      simp only [own, if_false, List.map_cons, List.sum_cons, later found]
      omega

end Offer

theorem signedQty_eq (fill : Fill) : HedgeManager.signedQty fill = qtySigned fill := by
  unfold HedgeManager.signedQty qtySigned HedgeState.effect
  cases fill.side with
  | buy => simp only [decide_true, if_true]
  | sell => simp only [reduceCtorEq, decide_false, Bool.false_eq_true, if_false]

theorem remembered_iff (m : HedgeManager) (fill : Fill) :
    ¬m.accepts fill ↔ (m.hedges fill.instrumentId → fill.execId = "" ∨ fill.execId ∈ m.processedExecIds) := by
  unfold HedgeManager.accepts
  simp only [decide_eq_true_eq]
  tauto

theorem hedgeOnFill_portfolio (r : Runtime) (product : String) :
    (hedgeOnFill r product).1.portfolio = r.portfolio := by
  unfold hedgeOnFill
  split <;> rfl

section Step

variable {d : DaemonState}

theorem inert_unmoved {fill : Fill} {now : ℕ} {book : BrokerBook} (inert : Inert d (.fill fill now book)) :
    (daemonStep d (.fill fill now book)).1 = d := by
  obtain ⟨remembered, unmatched⟩ := inert
  have refused : offerFill d.runtime.hedge fill (managedProducts d.runtime.hedge) = (d.runtime.hedge, false) := by
    apply offer_refused
    intro product m found
    exact (remembered_iff m fill).mpr (remembered product m found)
  simp only [daemonStep, handleFill, refused, unmatched]
  rfl

-- A fill of a lot or more that is not inert moves the hedge that takes it, or the
-- day's count of the portfolio.
theorem moved_books {fill : Fill} {now : ℕ} {book : BrokerBook} (lots : qtySigned fill ≠ 0)
    (same : books (daemonStep d (.fill fill now book)).1 = books d) : Inert d (.fill fill now book) := by
  have refused : ∀ product m, d.runtime.hedge.forProduct product = some m → ¬m.accepts fill := by
    intro product m found accepts
    obtain ⟨taker, n, held, takes, offered⟩ := offer_accepted (forProduct_managed found) found accepts
    have hedges := congrArg (fun b => (b.2.map Prod.snd).sum) same
    simp only [books, daemonStep, handleFill, offered, if_true, List.map_map, HedgeFanout.forProductMut] at hedges
    have moved := update_total taker (n.applyBrokerFill fill).1 held
    rw [(HedgeManager.applyBrokerFill_accepted takes).2, signedQty_eq] at moved
    have unmoved : ((HedgeFanout.update taker (fun _ => (n.applyBrokerFill fill).1) d.runtime.hedge.managers).map
        (·.hedgeQty)).sum = (d.runtime.hedge.managers.map (·.hedgeQty)).sum := hedges
    omega
  refine ⟨fun product m found => (remembered_iff m fill).mp (refused product m found), ?_⟩
  by_contra matched
  obtain ⟨option, matched⟩ := Option.ne_none_iff_exists'.mp matched
  have booked : bookedOn d.runtime fill =
      some { d.runtime with portfolio := bookFill d.runtime.portfolio option.1 option.2 fill } := by
    unfold bookedOn
    rw [offer_refused refused, matched]
    rfl
  obtain ⟨product, result⟩ := handleFill_booked booked now book.openOrders
  have day := congrArg (fun b => b.1.fillsToday) same
  simp only [books, daemonStep, result, hedgeOnFill_portfolio] at day
  have counted : (bookFill d.runtime.portfolio option.1 option.2 fill).fillsToday =
      d.runtime.portfolio.fillsToday + (qtySigned fill).natAbs := PortfolioState.addFill_fillsToday ..
  rw [counted] at day
  omega

end Step

theorem handleFill_unmonitored (r : Runtime) (before after : RiskMonitor) (fill : Fill) (now : ℕ)
    (opens : Except BrokerError (List OpenOrder)) :
    { (handleFill { r with risk := before } fill now opens).1 with risk := after } =
      { (handleFill r fill now opens).1 with risk := after } := by
  have match_same : matchedOption { r with risk := before } fill.instrumentId = matchedOption r fill.instrumentId := rfl
  unfold handleFill
  simp only [match_same]
  cases offerFill r.hedge fill (managedProducts r.hedge) with
  | mk hedge accepted =>
    cases accepted with
    | true => rfl
    | false =>
      cases matchedOption r fill.instrumentId with
      | none => rfl
      | some option =>
        simp only [Bool.false_eq_true, if_false, hedgeOnFill]
        cases r.hedge.forProduct option.1 with
        | none => rfl
        | some m => rfl

theorem step_unmonitored (d : DaemonState) (before after : RiskMonitor) (e : DaemonEvent) :
    (daemonStep (d.withRisk before) e).1.withRisk after = (daemonStep d e).1.withRisk after := by
  cases e with
  | riskCheck dir now book => rfl
  | fill fill now book =>
    have same := handleFill_unmonitored d.runtime before after fill now book.openOrders
    simp only [daemonStep, DaemonState.withRisk, same]
  | connection ev =>
    by_cases connected : ev.state = .connected
    · simp [daemonStep, DaemonState.withRisk, pumpConnection, connected]
    · simp [daemonStep, DaemonState.withRisk, pumpConnection, connected]
  | rollover hour today =>
    by_cases fires : 17 ≤ hour ∧ d.lastFiredDay ≠ some today
    · simp [daemonStep, DaemonState.withRisk, dailyHaltRollover, fires]
    · simp [daemonStep, DaemonState.withRisk, dailyHaltRollover, fires]
  | placeTaken cmd clock =>
    cases waiting : d.inFlight with
    | none => simp only [daemonStep, DaemonState.withRisk, waiting]; rfl
    | some req => simp only [daemonStep, DaemonState.withRisk, waiting]
  | placeSent => rfl
  | cancel cmd =>
    cases waiting : d.inFlight with
    | none => simp only [daemonStep, DaemonState.withRisk, waiting]
    | some req => simp only [daemonStep, DaemonState.withRisk, waiting]
  | tick tick =>
    simp only [daemonStep, DaemonState.withRisk, pumpTick]
    cases tick.price with
    | none => rfl
    | some price => cases tick.kind <;> rfl
  | hedgeTick positions nowNs => rfl
  | greekRefresh pricing => rfl
  | accountPoll answer =>
    cases answer with
    | ok snap => rfl
    | error e => rfl

theorem withRisk_self (d : DaemonState) : d.withRisk d.runtime.risk = d := rfl

theorem step_respects (s t : DaemonState) (e : DaemonEvent) (same : s.withRisk = t.withRisk) :
    (daemonStep s e).1.withRisk = (daemonStep t e).1.withRisk := by
  have equal : t = s.withRisk t.runtime.risk := by rw [same, withRisk_self]
  funext risk
  rw [equal, step_unmonitored]

theorem books_coarser (s t : DaemonState) (same : s.withRisk = t.withRisk) : books s = books t := by
  have equal : s = t.withRisk s.runtime.risk := by rw [← same, withRisk_self]
  rw [equal]
  rfl

theorem repeat_idle (s : DaemonState) (e : DaemonEvent) (inert : Inert s e) :
    (daemonStep s e).1.withRisk = s.withRisk := by
  cases e with
  | fill fill now book => rw [inert_unmoved inert]
  | _ => cases inert

theorem pumped_fills {turns : List Turn} {fills : List Fill} {fill : Fill} {now : ℕ} {book : BrokerBook}
    (member : .fill fill now book ∈ pumpedEvents turns fills) : fill ∈ fills := by
  induction turns generalizing fills with
  | nil => cases member
  | cons turn rest next =>
    cases turn with
    | other event quiet =>
      rcases List.mem_cons.mp member with rfl | later
      · cases quiet
      · exact next later
    | pump at_now at_book =>
      cases fills with
      | nil => exact next member
      | cons first fills =>
        rcases List.mem_cons.mp member with same | later
        · cases same
          exact List.mem_cons_self
        · exact List.mem_cons_of_mem _ (next later)

section Reply

def june26 : NaiveDate := (NaiveDate.fromYmdOpt 2026 6 26).getD .epoch

def noBook : BrokerBook := ⟨[], none⟩

def oneOption : DaemonState := .start {
  mode := .live
  config := ⟨true, some "DU1"⟩
  portfolio := .new (ProductRegistry.register ∅ ⟨"HG", 25000, 3/10⟩)
  risk := .new hgLimits
  hedge := ⟨[]⟩
  marketData := MarketDataState.new.registerOption "HG" 6 june26 .call 900
  account := ⟨0, 0, 0, 0, 0, 0⟩ }

def executionFrame (reqId : String) : Frame :=
  ["11", "-1", reqId, "7", "900", "HXE", "FOP", "20260626", "6", "C", "25000", "COMEX", "USD", "HXEM6 C6", "HXE",
    "e1", "20260620 10:00:00", "DU1", "COMEX", "BOT", "1", "0.05", "1", "0", "0", "1", "0.05", "r1"]

-- A live report, then a recent_fills request that times out before its reply.
def lateReply : List AdapterEvent :=
  [.frame 1 (executionFrame "-1"), .fillsRequested 1000, .fillsTimedOut 1000, .frame 2 (executionFrame "1000")]

def noDates : Chrono := ⟨fun _ _ => none⟩

end Reply

theorem late_reply_counts_twice :
    ¬CountsOnce oneOption
      (daemonEvents noDates false .default lateReply [.pump 1 noBook, .pump 2 noBook]) := by
  unfold CountsOnce
  decide +kernel

theorem fills_count_once_iff (chrono : Chrono) (publisher : Bool) (s : BrokerState) (inputs : List AdapterEvent)
    (d : DaemonState) (turns : List Turn) :
    let events := daemonEvents chrono publisher s inputs turns
    (Firsts.RepeatsMeet fillId daemonStep Inert d events → ∀ past, past <+: events → CountsOnce d past) ∧
      ((∀ fill ∈ broadcastFills (Machine.emitted (adapterStep chrono publisher) s inputs), qtySigned fill ≠ 0) →
        (∀ past, past <+: events → CountsOnce d past) → Firsts.RepeatsMeet fillId daemonStep Inert d events) := by
  intro events
  constructor
  · intro meet past taken
    refine books_coarser _ _ (Firsts.same_view _ step_respects (fun s e _ => repeat_idle s e) d past ?_)
    intro earlier e within again
    exact meet earlier e (within.trans taken) again
  · intro lots once
    refine Firsts.repeats_meet _ books step_respects (fun s e _ => repeat_idle s e) books_coarser ?_ once
    intro s e member keyed same
    cases e with
    | fill fill now book => exact moved_books (lots fill (pumped_fills member)) same
    | _ => cases keyed

end Corsair.Daemon
