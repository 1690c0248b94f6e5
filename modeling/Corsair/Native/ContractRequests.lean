import Corsair.Native.OrderCache

namespace Corsair.Native

open BrokerApi

def typeId (frame : Frame) : Option ℤ := frame.head?.bind fun head => (parseInt head).toOption

-- contractData is type 10. contractDataEnd is type 52 on the wire, [52, version,
-- reqId], and has no constant in messages.rs.
def endOf (frame : Frame) : Option ℤ :=
  match frame with
  | head :: _ :: id :: _ => if parseInt head = .ok 52 then (parseInt id).toOption else none
  | _ => none

def detailsOf (frame : Frame) : Option ContractDetailsMsg :=
  match parseInbound frame with
  | .ok (.contractDetails cd) => some cd
  | _ => none

-- A frame as the dispatcher takes it, with the time it reads.
structure Arrival where
  now : ℕ
  frame : Frame

def OnContracts (a : Arrival) : Prop := typeId a.frame = some 10 ∨ typeId a.frame = some 52

instance (a : Arrival) : Decidable (OnContracts a) := inferInstanceAs (Decidable (_ ∨ _))

-- The requests whose callers wait, none of which has been answered yet.
def Waiting (s : BrokerState) (requests : List ℤ) : Prop :=
  ∀ r, s.pendingContractDetails.get r = if r ∈ requests then some [] else none

def ownDetails (r : ℤ) (frames : List Frame) : List ContractDetailsMsg :=
  (frames.filterMap detailsOf).filter (·.reqId = r)

section Requests

variable (chrono : Chrono) (publisher : Bool)

def arrive (s : BrokerState) (a : Arrival) : BrokerState × List Emission := dispatch chrono a.now publisher s a.frame

-- What a frame is to resolve: at the first end frame of a waiting request, that
-- request, with the parseable contracts among its own frames in their order.
def resolution (requests : List ℤ) (before : List Frame) (frame : Frame) : List Emission :=
  match endOf frame with
  | some r =>
    if r ∈ requests ∧ some r ∉ before.map endOf then
      [.contracts r (.ok ((ownDetails r before).filterMap (nativeToContract chrono)))]
    else []
  | none => []

def ResolveOnEnd (s : BrokerState) (requests : List ℤ) (arrivals : List Arrival) : Prop :=
  ∀ before a after, arrivals = before ++ a :: after →
    (arrive chrono publisher (Machine.after (arrive chrono publisher) s before) a).2 =
      resolution chrono requests (before.map (·.frame)) a.frame

end Requests

section Decoded

theorem parse_head {head : String} {rest : Frame} {ty : ℤ} (typed : typeId (head :: rest) = some ty) :
    parseInt head = .ok ty := by
  unfold typeId at typed
  simp only [List.head?_cons, Option.bind_some] at typed
  cases parsed : parseInt head with
  | error e => simp [parsed, Except.toOption] at typed
  | ok value => simpa [parsed, Except.toOption] using typed

-- There is no arm for type 52: the end frame becomes a message nothing routes.
theorem end_unparsed {frame : Frame} (typed : typeId frame = some 52) : parseInbound frame = .ok (.unparsed 52 frame) := by
  cases frame with
  | nil => cases typed
  | cons head rest =>
    unfold parseInbound
    simp only [parse_head typed]
    rfl

theorem data_details {frame : Frame} (typed : typeId frame = some 10) :
    Builds (fun msg => ∃ cd, msg = .contractDetails cd) (parseInbound frame) := by
  cases frame with
  | nil => cases typed
  | cons head rest =>
    have parsed : parseInbound (head :: rest) = parseContractDetails (head :: rest) := by
      unfold parseInbound
      simp only [parse_head typed]
      rfl
    rw [parsed]
    unfold parseContractDetails
    repeat (refine builds_bind fun _ => ?_)
    exact builds_pure ⟨_, rfl⟩

end Decoded

section Requests

variable {chrono : Chrono} {publisher : Bool}

theorem arrive_cases (s : BrokerState) {a : Arrival} (on : OnContracts a) :
    (arrive chrono publisher s a).2 = [] ∧
      (arrive chrono publisher s a).1.pendingContractDetails = match detailsOf a.frame with
        | some cd => s.pendingContractDetails.modify cd.reqId (· ++ [cd])
        | none => s.pendingContractDetails := by
  unfold arrive dispatch detailsOf
  rcases on with data | ended
  · have built := data_details data
    cases parsed : parseInbound a.frame with
    | error e => exact ⟨rfl, rfl⟩
    | ok msg =>
      obtain ⟨cd, rfl⟩ := built msg parsed
      exact ⟨rfl, rfl⟩
  · rw [end_unparsed ended]
    exact ⟨rfl, rfl⟩

-- What the accumulators hold: for every waiting request its own frames, in order.
def Accumulated (requests : List ℤ) (frames : List Frame) (s : BrokerState) : Prop :=
  ∀ r, s.pendingContractDetails.get r = if r ∈ requests then some (ownDetails r frames) else none

theorem arrive_accumulated {requests : List ℤ} {frames : List Frame} {s : BrokerState}
    (held : Accumulated requests frames s) {a : Arrival} (on : OnContracts a) :
    Accumulated requests (frames ++ [a.frame]) (arrive chrono publisher s a).1 := by
  intro r
  rw [(arrive_cases s on).2]
  have grown : ownDetails r (frames ++ [a.frame]) = ownDetails r frames ++
      ((detailsOf a.frame).toList.filter (·.reqId = r)) := by
    unfold ownDetails
    rw [List.filterMap_append, List.filter_append]
    cases found : detailsOf a.frame <;> simp [found]
  rw [grown]
  cases detailsOf a.frame with
  | none => simpa using held r
  | some cd =>
    rw [HashMap.get_modify]
    by_cases own : r = cd.reqId
    · subst own
      rw [if_pos rfl, held]
      split
      · simp
      · rfl
    · rw [if_neg own, held]
      simp [Ne.symm own]

theorem run_accumulated {requests : List ℤ} {s : BrokerState} (waiting : Waiting s requests) {arrivals : List Arrival}
    (on : ∀ a ∈ arrivals, OnContracts a) :
    Accumulated requests (arrivals.map (·.frame)) (Machine.after (arrive chrono publisher) s arrivals) := by
  induction arrivals using List.reverseRecOn with
  | nil => exact waiting
  | append_singleton arrivals a next =>
    rw [Machine.after_append, List.map_append]
    have held := next fun other member => on other (List.mem_append_left _ member)
    exact arrive_accumulated held (on a (by simp))

-- The demultiplexer does its part: the message an end frame should become resolves
-- its request alone, and with that request's own contracts.
theorem end_message_resolves {requests : List ℤ} {frames : List Frame} {s : BrokerState}
    (held : Accumulated requests frames s) {r : ℤ} (waits : r ∈ requests) (now : ℕ) :
    (route chrono now publisher s (.contractDetailsEnd r)).2 =
      [.contracts r (.ok ((ownDetails r frames).filterMap (nativeToContract chrono)))] := by
  have accumulated := held r
  rw [if_pos waits] at accumulated
  simp only [route, routeContractDetailsEnd, accumulated]

theorem resolution_none {requests : List ℤ} {frame : Frame} (open_request : ∀ r ∈ requests, endOf frame ≠ some r)
    (before : List Frame) : resolution chrono requests before frame = [] := by
  unfold resolution
  split
  · rename_i r ends
    rw [if_neg]
    intro waits
    exact open_request r waits.1 ends
  · rfl

end Requests

section Unresolved

def noDates : Chrono := ⟨fun _ _ => none⟩

def oneWaiting : BrokerState := { BrokerState.default with pendingContractDetails := (∅ : HashMap ℤ _).set 1000 [] }

def hgDetails : Frame :=
  ["10", "1000", "HG", "FUT", "20260626", "0", "", "COMEX", "USD", "HGM6", "HG", "HG", "77", "0.0005", "", "25000"]

def answered : List Arrival := [⟨0, hgDetails⟩, ⟨1, ["52", "1", "1000"]⟩]

end Unresolved

theorem end_frame_ignored :
    Waiting oneWaiting [1000] ∧ (∀ a ∈ answered, OnContracts a) ∧
      ¬ResolveOnEnd noDates false oneWaiting [1000] answered := by
  refine ⟨?_, ?_, ?_⟩
  · intro r
    simp [oneWaiting, BrokerState.default, HashMap.get_set]
  · decide +kernel
  · intro resolves
    have last := congrArg List.length (resolves [⟨0, hgDetails⟩] ⟨1, ["52", "1", "1000"]⟩ [] rfl)
    revert last
    decide +kernel

theorem contract_requests_resolve_iff {chrono : Chrono} {publisher : Bool} {s : BrokerState} {requests : List ℤ}
    {arrivals : List Arrival} (on : ∀ a ∈ arrivals, OnContracts a) :
    ResolveOnEnd chrono publisher s requests arrivals ↔
      ∀ a ∈ arrivals, ∀ r ∈ requests, endOf a.frame ≠ some r := by
  constructor
  · intro resolves a member r waits ends
    have ended : some r ∈ arrivals.map (endOf ·.frame) := List.mem_map.mpr ⟨a, member, ends⟩
    obtain ⟨early, late, split, first⟩ := List.eq_append_cons_of_mem ended
    obtain ⟨before, rest, rfl, rfl, mapped⟩ := List.map_eq_append_iff.mp split
    obtain ⟨closing, after, rfl, closes, rfl⟩ := List.map_eq_cons_iff.mp mapped
    have resolved := resolves before closing after rfl
    have quiet := (@arrive_cases chrono publisher (Machine.after (arrive chrono publisher) s before) closing
      (on closing (by simp))).1
    rw [quiet, resolution, closes] at resolved
    have unanswered : some r ∉ (before.map (·.frame)).map endOf := by
      rwa [List.map_map]
    simp only [waits, unanswered, not_false_eq_true, and_self, if_true] at resolved
    cases resolved
  · intro open_requests before a after split
    have member : a ∈ arrivals := by simp [split]
    rw [(arrive_cases _ (on a member)).1, resolution_none (open_requests a member)]

theorem contract_requests_unanswered :
    ResolveOnEnd noDates false oneWaiting [1000] [⟨0, hgDetails⟩] :=
  (contract_requests_resolve_iff (by decide +kernel)).mpr (by decide +kernel)

end Corsair.Native
