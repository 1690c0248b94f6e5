import Corsair.Oms.Book

namespace Corsair.Oms

open BrokerApi

-- The record of the key is neither replaced nor removed by the step.
def Survives (key : OurKey) (b : OrderBook) (e : BookEvent) : Prop :=
  (∀ price qty lastSendNs now, e ≠ .upserted key price qty lastSendNs now) ∧ (bookStep b e).1.byKey.get key ≠ none

-- A cancel was sent for the record of the key, which is still there.
def Cancelling (key : OurKey) (events : List BookEvent) : Prop :=
  ∃ past since, events = past ++ .cancelSent key :: since ∧ (bookAfter past).byKey.get key ≠ none ∧
    Machine.Along bookStep (Survives key) (bookAfter (past ++ [.cancelSent key])) since

def Reports (b : OrderBook) (key : OurKey) : Prop := ∃ rec ∈ b.liveOrders, rec.key = key

def StaysCancelled (events : List BookEvent) : Prop :=
  ∀ past, past <+: events → ∀ key, Cancelling key past → ¬Reports (bookAfter past) key

-- No status that leaves an order working finds a record whose cancel was sent.
def RespectsCancel (b : OrderBook) : BookEvent → Prop
  | .status oid status => stateOf status = .terminal ∨
      ∀ key rec, b.byOrderId.get oid = some key → b.byKey.get key = some rec → rec.state ≠ .pendingCancel
  | _ => True

section Records

variable {b : OrderBook} {key : OurKey} {rec : OrderRecord}

-- Each record is filed under its own key.
def Filed (b : OrderBook) : Prop := ∀ key rec, b.byKey.get key = some rec → rec.key = key

theorem filed_set {records : HashMap OurKey OrderRecord} (filed : ∀ key rec, records.get key = some rec → rec.key = key)
    (own : rec.key = key) : ∀ other held, (records.set key rec).get other = some held → held.key = other := by
  intro other held found
  rw [HashMap.get_set] at found
  split at found
  · rename_i same
    obtain rfl := Option.some.inj found
    exact own.trans same.symm
  · exact filed other held found

theorem step_filed (e : BookEvent) (filed : Filed b) : Filed (bookStep b e).1 := by
  cases e with
  | upserted key price qty lastSendNs now => exact filed_set filed rfl
  | linked key oid =>
    simp only [bookStep, OrderBook.linkOrderId]
    cases held : b.byKey.get key with
    | none => exact filed
    | some rec => exact filed_set filed (filed key rec held)
  | status oid status =>
    have applied := applyStatus_applied b oid status
    simp only [bookStep]
    generalize b.applyStatus oid status = result at applied
    cases applied with
    | unknown missing => exact filed
    | dangling key found missing => exact filed
    | removed key rec found held ends =>
      intro other kept there
      dsimp only at there
      rw [HashMap.get_remove] at there
      split at there
      · cases there
      · exact filed other kept there
    | moved key rec found held goes => exact filed_set filed (filed key rec held)
  | cancelSent key =>
    simp only [bookStep, OrderBook.markPendingCancel, HashMap.modify]
    cases held : b.byKey.get key with
    | none => exact filed
    | some rec => exact filed_set filed (filed key rec held)
  | cleared =>
    intro other kept there
    cases there

theorem reports_iff (filed : Filed b) : Reports b key ↔ ∃ rec, b.byKey.get key = some rec ∧ rec.isLive := by
  unfold Reports OrderBook.liveOrders
  constructor
  · intro given
    obtain ⟨rec, member, rfl⟩ := given
    obtain ⟨held, live⟩ := List.mem_filter.mp member
    obtain ⟨own, found⟩ := HashMap.mem_values.mp held
    rw [filed own rec found]
    exact ⟨rec, found, live⟩
  · intro given
    obtain ⟨rec, found, live⟩ := given
    exact ⟨rec, List.mem_filter.mpr ⟨HashMap.mem_values.mpr ⟨key, found⟩, live⟩, filed key rec found⟩

-- What a step makes of the record of a key, from the record it was.
inductive Becomes (b : OrderBook) (key : OurKey) : BookEvent → Option OrderRecord → Prop where
  | kept (e : BookEvent) : Becomes b key e (b.byKey.get key)
  | fresh (price : F64) (qty lastSendNs : ℕ) (now : UtcTime) :
      Becomes b key (.upserted key price qty lastSendNs now) (some ⟨key, none, price, qty, .pending, now, lastSendNs⟩)
  | relinked (oid : OrderId) (rec : OrderRecord) (held : b.byKey.get key = some rec) :
      Becomes b key (.linked key oid) (some { rec with orderId := some oid })
  | moved (oid : OrderId) (status : OrderStatus) (rec : OrderRecord) (found : b.byOrderId.get oid = some key)
      (held : b.byKey.get key = some rec) (goes : stateOf status ≠ .terminal) :
      Becomes b key (.status oid status) (some { rec with state := stateOf status })
  | marked (rec : OrderRecord) (held : b.byKey.get key = some rec) :
      Becomes b key (.cancelSent key) (some { rec with state := .pendingCancel })
  | gone (e : BookEvent) : Becomes b key e none

theorem step_becomes (b : OrderBook) (key : OurKey) (e : BookEvent) : Becomes b key e ((bookStep b e).1.byKey.get key) := by
  cases e with
  | upserted own price qty lastSendNs now =>
    simp only [bookStep, OrderBook.upsertPending, HashMap.get_set]
    split
    · rename_i same
      subst same
      exact .fresh price qty lastSendNs now
    · exact .kept _
  | linked own oid =>
    simp only [bookStep, OrderBook.linkOrderId]
    cases held : b.byKey.get own with
    | none => exact .kept _
    | some rec =>
      simp only [HashMap.get_set]
      split
      · rename_i same
        subst same
        exact .relinked oid rec held
      · exact .kept _
  | status oid status =>
    have applied := applyStatus_applied b oid status
    simp only [bookStep]
    generalize b.applyStatus oid status = result at applied
    cases applied with
    | unknown missing => exact .kept _
    | dangling own found missing => exact .kept _
    | removed own rec found held ends =>
      simp only [HashMap.get_remove]
      split
      · exact .gone _
      · exact .kept _
    | moved own rec found held goes =>
      simp only [HashMap.get_set]
      split
      · rename_i same
        subst same
        exact .moved oid status rec found held goes
      · exact .kept _
  | cancelSent own =>
    simp only [bookStep, OrderBook.markPendingCancel, HashMap.get_modify]
    split
    · rename_i same
      subst same
      cases held : b.byKey.get key with
      | none => exact .gone _
      | some rec => exact .marked rec held
    · exact .kept _
  | cleared => exact .gone _

end Records

section Runs

variable {key : OurKey} {events : List BookEvent}

theorem bookAfter_snoc (events : List BookEvent) (e : BookEvent) :
    bookAfter (events ++ [e]) = (bookStep (bookAfter events) e).1 := Machine.after_append _ events [e]

theorem filed_after (events : List BookEvent) : Filed (bookAfter events) :=
  Machine.reached Filed (fun _ e _ filed => step_filed e filed) (fun _ _ found => by cases found)
    (Machine.along_true _ events)

theorem cancelling_snoc (cancelling : Cancelling key events) {e : BookEvent} (survives : Survives key (bookAfter events) e) :
    Cancelling key (events ++ [e]) := by
  obtain ⟨past, since, rfl, held, kept⟩ := cancelling
  refine ⟨past, since ++ [e], by simp, held, ?_⟩
  rw [Machine.along_append]
  refine ⟨kept, ?_, trivial⟩
  rw [List.append_cons, bookAfter, Machine.after_append] at survives
  exact survives

-- Only a sent cancel takes a record to the cancelling state.
theorem pendingCancel_cancelling (events : List BookEvent) {rec : OrderRecord}
    (held : (bookAfter events).byKey.get key = some rec) (cancelling : rec.state = .pendingCancel) :
    Cancelling key events := by
  induction events using List.reverseRecOn generalizing rec with
  | nil => cases held
  | append_singleton past e before =>
    rw [bookAfter_snoc] at held
    have survives : Survives key (bookAfter past) e := by
      refine ⟨?_, by simp [held]⟩
      rintro price qty lastSendNs now rfl
      simp only [bookStep, OrderBook.upsertPending, HashMap.get_set, if_true] at held
      obtain rfl := Option.some.inj held
      cases cancelling
    have becomes := step_becomes (bookAfter past) key e
    generalize (bookStep (bookAfter past) e).1.byKey.get key = result at held becomes
    subst held
    generalize shown : some rec = result at becomes
    cases becomes with
    | kept e => exact cancelling_snoc (before shown.symm cancelling) survives
    | fresh price qty lastSendNs now =>
      obtain rfl := Option.some.inj shown
      cases cancelling
    | relinked oid other there =>
      obtain rfl := Option.some.inj shown
      exact cancelling_snoc (before there cancelling) survives
    | moved oid status other found there goes =>
      obtain rfl := Option.some.inj shown
      cases status <;> cases cancelling
    | marked other there => exact ⟨past, [], rfl, by simp [there], trivial⟩
    | gone e => cases shown

theorem pendingCancel_step {b : OrderBook} {e : BookEvent} (respects : RespectsCancel b e) (survives : Survives key b e)
    (given : ∃ rec, b.byKey.get key = some rec ∧ rec.state = .pendingCancel) :
    ∃ rec, (bookStep b e).1.byKey.get key = some rec ∧ rec.state = .pendingCancel := by
  obtain ⟨rec, held, cancelling⟩ := given
  obtain ⟨unreplaced, there⟩ := survives
  have becomes := step_becomes b key e
  generalize (bookStep b e).1.byKey.get key = result at there becomes ⊢
  cases becomes with
  | kept e => exact ⟨rec, held, cancelling⟩
  | fresh price qty lastSendNs now => exact absurd rfl (unreplaced price qty lastSendNs now)
  | relinked oid other same =>
    obtain rfl := Option.some.inj (held.symm.trans same)
    exact ⟨_, rfl, cancelling⟩
  | moved oid status other found same goes =>
    rcases respects with ends | spares
    · exact absurd ends goes
    · exact absurd cancelling (spares key rec found held)
  | marked other same => exact ⟨_, rfl, rfl⟩
  | gone e => exact absurd rfl there

theorem cancelling_pendingCancel (respects : Machine.Along bookStep RespectsCancel .new events)
    (given : Cancelling key events) : ∃ rec, (bookAfter events).byKey.get key = some rec ∧ rec.state = .pendingCancel := by
  obtain ⟨past, since, rfl, held, kept⟩ := given
  have marked : ∃ rec, (bookAfter (past ++ [.cancelSent key])).byKey.get key = some rec ∧ rec.state = .pendingCancel := by
    obtain ⟨rec, there⟩ := Option.ne_none_iff_exists'.mp held
    rw [bookAfter_snoc]
    simp only [bookStep, OrderBook.markPendingCancel, HashMap.get_modify, there, if_true, Option.map_some]
    exact ⟨_, rfl, rfl⟩
  rw [List.append_cons] at respects ⊢
  have later := ((Machine.along_append _ _ _).mp respects).2
  rw [bookAfter, Machine.after_append]
  exact Machine.reached (fun b => ∃ rec, b.byKey.get key = some rec ∧ rec.state = .pendingCancel)
    (fun _ _ both given => pendingCancel_step both.1 both.2 given) marked (Machine.along_and later kept)

end Runs

theorem stays_cancelled_iff (events : List BookEvent) :
    StaysCancelled events ↔ Machine.Along bookStep RespectsCancel .new events := by
  constructor
  · intro stays
    rw [Machine.along_splits]
    intro past e rest split
    cases e with
    | status oid status =>
      by_contra revives
      simp only [RespectsCancel, not_or, not_forall, not_not] at revives
      obtain ⟨goes, key, rec, found, held, cancelling⟩ := revives
      have moved : (bookAfter (past ++ [.status oid status])).byKey.get key = some { rec with state := stateOf status } := by
        rw [bookAfter_snoc]
        exact applyStatus_moved found held goes
      have survives : Survives key (bookAfter past) (.status oid status) := by
        constructor
        · intro price qty lastSendNs now wrong
          cases wrong
        · rw [← bookAfter_snoc, moved]
          exact Option.some_ne_none _
      have within : past ++ [.status oid status] <+: events := by
        rw [split]
        exact ⟨rest, (List.append_cons past _ rest).symm⟩
      refine stays _ within key (cancelling_snoc (pendingCancel_cancelling past held cancelling) survives) ?_
      refine (reports_iff (filed_after _)).mpr ⟨_, moved, ?_⟩
      cases status <;> first | rfl | exact absurd rfl goes
    | _ => trivial
  · intro respects past within key cancelling
    obtain ⟨rest, rfl⟩ := within
    obtain ⟨rec, held, state⟩ := cancelling_pendingCancel ((Machine.along_append _ _ _).mp respects).1 cancelling
    rw [reports_iff (filed_after past)]
    intro given
    obtain ⟨other, same, live⟩ := given
    obtain rfl := Option.some.inj (held.symm.trans same)
    simp [OrderRecord.isLive, state] at live

section Revived

def quotedCall : OurKey := ⟨60500, .epoch, .call, .buy⟩

def quoted : List BookEvent :=
  [.upserted quotedCall (.finite (1/40)) 1 0 0, .linked quotedCall 42, .status 42 .submitted]

def cancelSent : List BookEvent := quoted ++ [.cancelSent quotedCall]

end Revived

-- The gateway's own acknowledgement of the cancel brings the order back.
theorem cancelling_order_revives :
    ((bookAfter cancelSent).liveOrders = [] ∧
      (bookAfter (cancelSent ++ [.status 42 .pendingCancel])).liveOrders.map OrderRecord.key = [quotedCall]) ∧
    ¬StaysCancelled (cancelSent ++ [.status 42 .pendingCancel]) := by
  have live : (bookAfter (cancelSent ++ [.status 42 .pendingCancel])).liveOrders.map OrderRecord.key = [quotedCall] := by
    decide +kernel
  refine ⟨⟨by decide +kernel, live⟩, fun stays => ?_⟩
  have cancelling : Cancelling quotedCall (cancelSent ++ [.status 42 .pendingCancel]) := by
    exact ⟨quoted, [.status 42 .pendingCancel], rfl, by decide +kernel, ⟨nofun, by decide +kernel⟩, trivial⟩
  refine stays _ (List.prefix_refl _) quotedCall cancelling ?_
  have reported : quotedCall ∈ (bookAfter (cancelSent ++ [.status 42 .pendingCancel])).liveOrders.map OrderRecord.key := by
    rw [live]
    exact List.mem_singleton_self _
  obtain ⟨rec, member, own⟩ := List.mem_map.mp reported
  exact ⟨rec, member, own⟩

end Corsair.Oms
