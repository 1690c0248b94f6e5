import Corsair.Daemon.Tasks
import Corsair.Native.OrderCache

namespace Corsair.Daemon

open BrokerApi Native

def adapterAfter (chrono : Chrono) (publisher : Bool) (events : List AdapterEvent) : BrokerState :=
  Machine.after (adapterStep chrono publisher) .default events

def CancelsWorking (chrono : Chrono) (publisher : Bool) (events : List AdapterEvent) : Prop :=
  ∀ id entry, (adapterAfter chrono publisher events).openOrders.get id = some entry →
    (lastReport id events).working entry.qty →
    .cancelResting entry.orderId ∈ cancelAllResting (.ok (adapterAfter chrono publisher events).openOrderList)

theorem cancels_none (chrono : Chrono) (publisher : Bool) (events : List AdapterEvent) :
    cancelAllResting (.ok (adapterAfter chrono publisher events).openOrderList) = [] := by
  have none_left : (adapterAfter chrono publisher events).openOrderList.filter (0 < ·.remainingQty) = [] := by
    refine List.filter_eq_nil_iff.mpr fun entry cached => ?_
    rw [cached_unfillable chrono publisher events entry cached]
    simp
  simp only [cancelAllResting, actionable, none_left, List.map_nil]

theorem cached_qty (chrono : Chrono) (publisher : Bool) (events : List AdapterEvent) (id : ℤ) :
    ((adapterAfter chrono publisher events).openOrders.get id).map (·.qty) =
      (lastEcho chrono id events).map (·.qty) := by
  rw [← cached_follows chrono publisher events id, Option.map_map]
  rfl

section Resting

def juneOnly : Chrono where
  parseDate text format :=
    if text = "20260626" ∧ format = "%Y%m%d" then NaiveDate.fromYmdOpt 2026 6 26 else none

def restingBuy : List AdapterEvent := [
  .frame 1 ["5", "7", "100", "HXE", "FOP", "20260626", "6.05", "C", "25000", "COMEX", "USD", "HXEM6 C605", "HXE",
    "BUY", "5", "LMT", "0.025"],
  .frame 2 ["3", "7", "Submitted", "0", "5", "0", "1", "0", "0", "0", "", "0"]]

end Resting

-- One order for five lots, echoed and then reported Submitted with nothing filled.
theorem resting_buy_left : ¬CancelsWorking juneOnly false restingBuy := by
  intro cancels
  have five : ((adapterAfter juneOnly false restingBuy).openOrders.get 7).map (·.qty) = some 5 := by
    decide +kernel
  obtain ⟨entry, cached, qty⟩ := Option.map_eq_some_iff.mp five
  have sent := cancels 7 entry cached (qty ▸ by decide +kernel)
  have none_sent : cancelAllResting (.ok (adapterAfter juneOnly false restingBuy).openOrderList) = [] := by
    decide +kernel
  rw [none_sent] at sent
  cases sent

theorem cancels_working_iff (chrono : Chrono) (publisher : Bool) (events : List AdapterEvent) :
    CancelsWorking chrono publisher events ↔
      ∀ id order, lastEcho chrono id events = some order → ¬(lastReport id events).working order.qty := by
  constructor
  · intro cancels id order echo working
    have qty := cached_qty chrono publisher events id
    rw [echo] at qty
    obtain ⟨entry, cached, same⟩ := Option.map_eq_some_iff.mp qty
    have sent := cancels id entry cached (same ▸ working)
    rw [cancels_none] at sent
    cases sent
  · intro done id entry cached working
    have qty := cached_qty chrono publisher events id
    rw [cached] at qty
    obtain ⟨order, echo, same⟩ := Option.map_eq_some_iff.mp qty.symm
    exact absurd (same ▸ working) (done id order echo)

end Corsair.Daemon
