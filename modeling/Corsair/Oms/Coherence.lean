import Corsair.Lib.Inverse
import Corsair.Oms.Book

namespace Corsair.Oms

open BrokerApi

namespace OrderBook

def Coherent (b : OrderBook) : Prop := ∀ oid key, b.byOrderId.get oid = some key ↔ b.idOf key = some oid

-- A status finds the record that owns its id, and touches no other.
structure StatusOwned (b : OrderBook) (oid : OrderId) (status : OrderStatus) : Prop where
  returns : (b.applyStatus oid status).2 = true ↔ ∃ key, b.idOf key = some oid
  applies : ∀ key rec, b.byKey.get key = some rec → rec.orderId = some oid →
    (b.applyStatus oid status).1.byKey.get key =
      if stateOf status = .terminal then none else some { rec with state := stateOf status }
  others : ∀ key, b.idOf key ≠ some oid → (b.applyStatus oid status).1.byKey.get key = b.byKey.get key

end OrderBook

structure IndexCoherent (events : List BookEvent) : Prop where
  coherent : ∀ past, past <+: events → (bookAfter past).Coherent
  owned : ∀ past, past <+: events → ∀ oid status, (bookAfter past).StatusOwned oid status

-- A link takes no id from another record, and gives no second id to its own.
def LinksFresh (b : OrderBook) : BookEvent → Prop
  | .linked key oid => b.byKey.get key ≠ none →
      (∀ other, b.idOf key = some other → other = oid) ∧ ∀ other, b.idOf other = some oid → other = key
  | _ => True

section Index

variable {b : OrderBook}

theorem coherent_inverse : b.Coherent ↔ PartialInverse b.idOf b.byOrderId.get :=
  ⟨fun coherent key oid => coherent oid key, fun inverse oid key => inverse key oid⟩

theorem idOf_of_get {key : OurKey} {rec : OrderRecord} (held : b.byKey.get key = some rec) :
    b.idOf key = rec.orderId := by
  rw [OrderBook.idOf, held, Option.bind_some]

theorem idOf_update {records : HashMap OurKey OrderRecord} {key : OurKey} {kept : Option OrderRecord}
    (updated : records.get = Function.update b.byKey.get key kept) (ids : HashMap OrderId OurKey)
    (counters : OrderBookCounters) :
    (⟨records, ids, counters⟩ : OrderBook).idOf = Function.update b.idOf key (kept.bind (·.orderId)) := by
  have through : (⟨records, ids, counters⟩ : OrderBook).idOf = (·.bind (·.orderId)) ∘ records.get := rfl
  rw [through, updated, Function.comp_update]
  rfl

theorem idOf_set (key : OurKey) (rec : OrderRecord) (ids : HashMap OrderId OurKey) (counters : OrderBookCounters) :
    (⟨b.byKey.set key rec, ids, counters⟩ : OrderBook).idOf = Function.update b.idOf key rec.orderId :=
  idOf_update (HashMap.get_set_update b.byKey key rec) ids counters

theorem idOf_remove (key : OurKey) (ids : HashMap OrderId OurKey) (counters : OrderBookCounters) :
    (⟨b.byKey.remove key, ids, counters⟩ : OrderBook).idOf = Function.update b.idOf key none :=
  idOf_update (HashMap.get_remove_update b.byKey key) ids counters

theorem upsert_coherent (coherent : b.Coherent) (key : OurKey) (price : F64) (qty lastSendNs : ℕ) (now : UtcTime) :
    (b.upsertPending key price qty lastSendNs now).Coherent := by
  rw [coherent_inverse] at coherent ⊢
  unfold OrderBook.upsertPending
  dsimp only
  rw [idOf_set]
  cases carried : b.idOf key with
  | none =>
    dsimp only
    rw [← carried, Function.update_eq_self]
    exact coherent
  | some oid =>
    dsimp only
    rw [HashMap.get_remove_update]
    exact coherent.unlink carried

theorem link_coherent (coherent : b.Coherent) (key : OurKey) (oid : OrderId) :
    (b.linkOrderId key oid).Coherent ↔ LinksFresh b (.linked key oid) := by
  unfold OrderBook.linkOrderId LinksFresh
  cases held : b.byKey.get key with
  | none =>
    refine ⟨fun _ present => absurd held present, fun _ => ?_⟩
    exact coherent
  | some rec =>
    rw [coherent_inverse] at coherent ⊢
    dsimp only
    rw [idOf_set, HashMap.get_set_update, coherent.link_iff]
    have present : b.byKey.get key ≠ none := by simp [held]
    exact ⟨fun fresh _ => fresh, fun fresh => fresh present⟩

theorem status_coherent (coherent : b.Coherent) (oid : OrderId) (status : OrderStatus) :
    (b.applyStatus oid status).1.Coherent := by
  have applied := applyStatus_applied b oid status
  generalize b.applyStatus oid status = result at applied
  cases applied with
  | unknown missing => exact coherent
  | dangling key found missing => exact coherent
  | removed key rec found held ends =>
    have owns := (coherent oid key).mp found
    rw [coherent_inverse] at coherent ⊢
    rw [idOf_remove, HashMap.get_remove_update]
    exact coherent.unlink owns
  | moved key rec found held goes =>
    rw [coherent_inverse] at coherent ⊢
    dsimp only
    rw [idOf_set]
    dsimp only
    rw [← idOf_of_get held, Function.update_eq_self]
    exact coherent

theorem mark_idOf (key : OurKey) : (b.markPendingCancel key).idOf = b.idOf := by
  funext other
  unfold OrderBook.idOf OrderBook.markPendingCancel
  dsimp only
  rw [HashMap.get_modify]
  split
  · rename_i own
    rw [own]
    cases b.byKey.get key <;> rfl
  · rfl

theorem step_coherent (e : BookEvent) (coherent : b.Coherent) : (bookStep b e).1.Coherent ↔ LinksFresh b e := by
  cases e with
  | upserted key price qty lastSendNs now =>
    exact ⟨fun _ => trivial, fun _ => upsert_coherent coherent key price qty lastSendNs now⟩
  | linked key oid => exact link_coherent coherent key oid
  | status oid status => exact ⟨fun _ => trivial, fun _ => status_coherent coherent oid status⟩
  | cancelSent key =>
    refine ⟨fun _ => trivial, fun _ => ?_⟩
    rw [coherent_inverse] at coherent ⊢
    change PartialInverse (b.markPendingCancel key).idOf b.byOrderId.get
    rw [mark_idOf]
    exact coherent
  | cleared => exact ⟨fun _ => trivial, fun _ => coherent_inverse.mpr PartialInverse.empty⟩

theorem coherent_owned (coherent : b.Coherent) (oid : OrderId) (status : OrderStatus) : b.StatusOwned oid status := by
  have applied := applyStatus_applied b oid status
  constructor
  · generalize b.applyStatus oid status = result at applied
    cases applied with
    | unknown missing =>
      refine ⟨fun given => absurd given Bool.false_ne_true, fun given => ?_⟩
      obtain ⟨key, owns⟩ := given
      rw [← coherent, missing] at owns
      cases owns
    | dangling key found missing => exact ⟨fun _ => ⟨key, (coherent oid key).mp found⟩, fun _ => rfl⟩
    | removed key rec found held ends => exact ⟨fun _ => ⟨key, (coherent oid key).mp found⟩, fun _ => rfl⟩
    | moved key rec found held goes => exact ⟨fun _ => ⟨key, (coherent oid key).mp found⟩, fun _ => rfl⟩
  · intro own rec held owns
    have mine := (coherent oid own).mpr ((idOf_of_get held).trans owns)
    generalize b.applyStatus oid status = result at applied
    cases applied with
    | unknown missing => exact absurd (missing.symm.trans mine) (Option.some_ne_none _).symm
    | dangling key found missing =>
      obtain rfl := Option.some.inj (found.symm.trans mine)
      exact absurd (missing.symm.trans held) (Option.some_ne_none _).symm
    | removed key other found there ends =>
      obtain rfl := Option.some.inj (found.symm.trans mine)
      rw [if_pos ends, HashMap.get_remove, if_pos rfl]
    | moved key other found there goes =>
      obtain rfl := Option.some.inj (found.symm.trans mine)
      obtain rfl := Option.some.inj (there.symm.trans held)
      rw [if_neg goes, HashMap.get_set, if_pos rfl]
  · intro other foreign
    generalize b.applyStatus oid status = result at applied
    cases applied with
    | unknown missing => rfl
    | dangling key found missing => rfl
    | removed key rec found held ends =>
      have apart : other ≠ key := by
        rintro rfl
        exact foreign ((coherent oid other).mp found)
      rw [HashMap.get_remove, if_neg apart]
    | moved key rec found held goes =>
      have apart : other ≠ key := by
        rintro rfl
        exact foreign ((coherent oid other).mp found)
      rw [HashMap.get_set, if_neg apart]

end Index

theorem index_coherent_iff (events : List BookEvent) :
    IndexCoherent events ↔ Machine.Along bookStep LinksFresh .new events := by
  have start : OrderBook.new.Coherent := coherent_inverse.mpr PartialInverse.empty
  rw [Machine.along_iff OrderBook.Coherent (fun _ e coherent => step_coherent e coherent) start]
  refine ⟨IndexCoherent.coherent, fun throughout => ⟨throughout, ?_⟩⟩
  intro past within oid status
  exact coherent_owned (throughout past within) oid status

section Relinked

def atmCall : OurKey := ⟨60500, .epoch, .call, .buy⟩

def relinked : List BookEvent := [.upserted atmCall (.finite (1/40)) 1 0 0, .linked atmCall 42, .linked atmCall 43]

end Relinked

-- The record is relinked; the old id still finds it, and ends the order of the new one.
theorem old_id_ends_new_order :
    (bookAfter relinked).idOf atmCall = some 43 ∧
      ((bookAfter relinked).applyStatus 42 .cancelled).2 = true ∧
      ((bookAfter relinked).applyStatus 42 .cancelled).1.byKey.get atmCall = none ∧ ¬IndexCoherent relinked := by
  have stale : (bookAfter relinked).byOrderId.get 42 = some atmCall := by decide +kernel
  have owner : (bookAfter relinked).idOf atmCall = some 43 := by decide +kernel
  refine ⟨owner, by decide +kernel, by decide +kernel, fun indexed => ?_⟩
  have same := (indexed.coherent relinked (List.prefix_refl _) 42 atmCall).mp stale
  rw [owner] at same
  cases same

end Corsair.Oms
