import Corsair.Lib.Machine
import Corsair.Native.Decoder

namespace Corsair.Native

-- client.rs. The order-id counter is an i32 behind one mutex, so every access to
-- it is one step of the client, whichever task makes it.
structure NativeClient where
  nextOrderId : ℤ
  managedAccounts : List String

def NativeClient.new : NativeClient := ⟨0, []⟩

def i32Max : ℤ := 2^31 - 1

-- Addition on i32 wraps.
def addI32 (a b : ℤ) : ℤ := (a + b + 2^31) % 2^32 - 2^31

namespace NativeClient

def allocOrderId (c : NativeClient) : NativeClient × ℤ :=
  (if 0 < c.nextOrderId then { c with nextOrderId := addI32 c.nextOrderId 1 } else c, c.nextOrderId)

-- What the receive loop does with a frame before it forwards it.
def recvFrame (c : NativeClient) (fields : Frame) : NativeClient :=
  match fields.head?.map parseInt with
  | some (.ok id) =>
    if id = 9 ∧ 3 ≤ fields.length then
      match parseInt (fieldOr "" fields 2) with
      | .ok oid => if c.nextOrderId < oid then { c with nextOrderId := oid } else c
      | .error _ => c
    else if id = 15 ∧ 3 ≤ fields.length then
      { c with managedAccounts := splitCommas [] (fieldOr "" fields 2).toList }
    else c
  | _ => c

end NativeClient

inductive ClientEvent where
  | received (fields : Frame)
  | alloc

def clientStep (c : NativeClient) : ClientEvent → NativeClient × List ℤ
  | .received fields => (c.recvFrame fields, [])
  | .alloc => (c.allocOrderId.1, [c.allocOrderId.2])

-- The value of a nextValidId frame, as far as it has one.
def nextValidIdOf (fields : Frame) : Option ℤ :=
  match fields with
  | head :: _ :: text :: _ => if parseInt head = .ok 9 then (parseInt text).toOption else none
  | _ => none

def announced (events : List ClientEvent) : List ℤ :=
  events.filterMap fun
    | .received fields => nextValidIdOf fields
    | .alloc => none

def clientAfter (events : List ClientEvent) : NativeClient := Machine.after clientStep .new events
def allocated (events : List ClientEvent) : List ℤ := Machine.emitted clientStep .new events

-- The id that an allocation right after these events returns.
def idAfter (events : List ClientEvent) : ℤ := (clientAfter events).allocOrderId.2

structure OrderIdsFresh (events : List ClientEvent) : Prop where
  increasing : ((allocated events).filter (0 < ·)).Pairwise (· < ·)
  positive : ∀ past rest, events = past ++ .alloc :: rest → 0 ≤ idAfter past
  covers : ∀ past rest, events = past ++ .alloc :: rest → ∀ v ∈ announced past, v ≤ idAfter past
  seeded : ∀ past rest, events = past ++ .alloc :: rest → idAfter past = 0 → ∀ v ∈ announced past, ¬0 < v

theorem recvFrame_counter (c : NativeClient) (fields : Frame) :
    (c.recvFrame fields).nextOrderId = match nextValidIdOf fields with
      | some oid => max c.nextOrderId oid
      | none => c.nextOrderId := by
  match fields with
  | [] => rfl
  | [head] =>
    simp only [NativeClient.recvFrame, nextValidIdOf, List.head?_cons, Option.map_some]
    cases parseInt head <;> simp
  | [head, version] =>
    simp only [NativeClient.recvFrame, nextValidIdOf, List.head?_cons, Option.map_some]
    cases parseInt head <;> simp
  | head :: version :: text :: rest =>
    simp only [NativeClient.recvFrame, nextValidIdOf, List.head?_cons, Option.map_some]
    cases parsed : parseInt head with
    | error e => simp
    | ok id =>
      by_cases next : id = 9
      · subst next
        simp only [List.length_cons, fieldOr]
        cases value : parseInt text with
        | error e => simp [value, Except.toOption]
        | ok oid =>
          by_cases above : c.nextOrderId < oid
          · simp [value, above, Except.toOption, max_eq_right above.le]
          · simp [value, above, Except.toOption, max_eq_left (not_lt.mp above)]
      · simp only [next, false_and, if_false, Except.ok.injEq]
        split <;> rfl

theorem alloc_counter {c : NativeClient} (low : 0 ≤ c.nextOrderId) (below : c.nextOrderId < i32Max) :
    c.allocOrderId.1.nextOrderId = if 0 < c.nextOrderId then c.nextOrderId + 1 else c.nextOrderId := by
  unfold NativeClient.allocOrderId
  split
  · unfold i32Max at below
    simp only [addI32]
    omega
  · rfl

-- The counter is above every positive id handed out and not below any announced one.
structure Counts (past : List ClientEvent) (ids : List ℤ) (c : NativeClient) : Prop where
  low : 0 ≤ c.nextOrderId
  covers : ∀ v ∈ announced past, v ≤ c.nextOrderId
  above : ∀ id ∈ ids, 0 < id → id < c.nextOrderId
  increasing : (ids.filter (0 < ·)).Pairwise (· < ·)

theorem received_counts {past : List ClientEvent} {ids : List ℤ} {c : NativeClient} (counts : Counts past ids c)
    (fields : Frame) : Counts (past ++ [.received fields]) ids (c.recvFrame fields) := by
  have grows : c.nextOrderId ≤ (c.recvFrame fields).nextOrderId := by
    rw [recvFrame_counter]
    split
    · exact le_max_left _ _
    · exact le_refl _
  refine ⟨counts.low.trans grows, ?_, ?_, counts.increasing⟩
  · intro v member
    rw [announced, List.filterMap_append] at member
    rcases List.mem_append.mp member with old | new
    · exact (counts.covers v old).trans grows
    · obtain ⟨event, only, value⟩ := List.mem_filterMap.mp new
      rw [List.mem_singleton.mp only] at value
      change nextValidIdOf fields = some v at value
      rw [recvFrame_counter, value]
      exact le_max_right _ _
  · intro id member positive
    exact (counts.above id member positive).trans_le grows

theorem alloc_counts {past : List ClientEvent} {ids : List ℤ} {c : NativeClient} (counts : Counts past ids c)
    (below : c.nextOrderId < i32Max) :
    Counts (past ++ [.alloc]) (ids ++ [c.allocOrderId.2]) c.allocOrderId.1 := by
  have next := alloc_counter counts.low below
  have low := counts.low
  have taken : c.allocOrderId.2 = c.nextOrderId := rfl
  have quiet : announced (past ++ [.alloc]) = announced past := by
    simp [announced]
  refine ⟨?_, ?_, ?_, ?_⟩
  · rw [next]
    split <;> omega
  · intro v member
    have covered := counts.covers v (quiet ▸ member)
    rw [next]
    split <;> omega
  · intro id member positive
    rw [next]
    rcases List.mem_append.mp member with old | new
    · have before := counts.above id old positive
      split <;> omega
    · rw [List.mem_singleton.mp new, taken] at positive ⊢
      rw [if_pos positive]
      omega
  · rw [List.filter_append, List.pairwise_append]
    refine ⟨counts.increasing, ?_, ?_⟩
    · exact (List.pairwise_singleton _ _).filter _
    · intro id old later new
      obtain ⟨member, positive⟩ := List.mem_filter.mp old
      have own : later = c.nextOrderId := List.mem_singleton.mp (List.mem_filter.mp new).1
      rw [own]
      exact counts.above id member (by simpa using positive)

theorem run_counts (events : List ClientEvent) (below : ∀ id ∈ allocated events, id < i32Max) :
    Counts events (allocated events) (clientAfter events) := by
  have traced := @Machine.traces _ _ _ clientStep
    (fun past ids c => (∀ id ∈ ids, id < i32Max) → Counts past ids c) ?_ .new ?_ events
  · exact traced below
  · intro past ids c event held bounded
    have counts := held fun id member => bounded id (List.mem_append_left _ member)
    cases event with
    | received fields => simpa [clientStep] using received_counts counts fields
    | alloc => exact alloc_counts counts (bounded c.nextOrderId (by simp [clientStep, NativeClient.allocOrderId]))
  · intro _
    exact ⟨le_refl _, by simp [announced], by simp, by simp⟩

theorem order_ids_fresh {events : List ClientEvent} (below : ∀ id ∈ allocated events, id < i32Max) :
    OrderIdsFresh events := by
  have earlier : ∀ past rest, events = past ++ .alloc :: rest → Counts past (allocated past) (clientAfter past) := by
    intro past rest split
    refine run_counts past fun id member => below id ?_
    rw [split, allocated, Machine.emitted_append]
    exact List.mem_append_left _ member
  refine ⟨(run_counts events below).increasing, ?_, ?_, ?_⟩
  · intro past rest split
    exact (earlier past rest split).low
  · intro past rest split
    exact (earlier past rest split).covers
  · intro past rest split zero v member
    have covered := (earlier past rest split).covers v member
    change (clientAfter past).nextOrderId = 0 at zero
    omega

-- An announcement, two ids, a stale announcement after a reconnect, and a third id.
theorem order_ids_fresh_reconnected :
    allocated [.received ["9", "1", "7"], .alloc, .alloc, .received ["9", "1", "3"], .alloc] = [7, 8, 9] ∧
      OrderIdsFresh [.received ["9", "1", "7"], .alloc, .alloc, .received ["9", "1", "3"], .alloc] :=
  ⟨by decide +kernel, order_ids_fresh (by decide +kernel)⟩

end Corsair.Native
