import Corsair.Ipc.Ring

namespace Corsair.Ipc

open Framing Circular

section Runs

variable {shape : Shape} {acc dec seen rest : List Bytes} {s : Ring}

-- What a run has done, as long as no offset has reached 2^64.
structure Along (shape : Shape) (past : List RingEvent) (outs : List RingOut) (s : Ring) : Prop where
  queued : ∃ seen rest, Queued shape (accepted outs) (decoded outs) s seen rest
  whole : ∀ bytes, .returned bytes ∈ outs → ∃ bodies, bytes = stream bodies ∧ unpackAllFrames bytes = ([], .ok bodies)

theorem stream_mono {before after : List Bytes} : (stream before).length ≤ (stream (before ++ after)).length := by
  rw [stream_append, List.length_append]
  exact Nat.le_add_right _ _

theorem produce_outs (s : Ring) :
    (s.produce shape).2 = [] ∨ ∃ body w, s.producer = .copied body w ∧ (s.produce shape).2 = [.accepted body] := by
  unfold Ring.produce
  split
  · exact .inl rfl
  · dsimp only
    split <;> exact .inl rfl
  · exact .inl rfl
  · rename_i body w copied
    exact .inr ⟨body, w, copied, rfl⟩

theorem write_step (s : Ring) (body : Bytes) :
    (s.producer = .idle ∧ ringStep shape s (.write body) = s.writeFrame shape body) ∨
      ringStep shape s (.write body) = (s, []) := by
  cases stage : s.producer with
  | idle => exact .inl ⟨rfl, by simp only [ringStep, stage]⟩
  | _ => exact .inr (by simp only [ringStep, stage])

theorem write_outs (s : Ring) (body : Bytes) :
    accepted (s.writeFrame shape body).2 = [] ∧ returned (s.writeFrame shape body).2 = [] ∧
      (s.writeFrame shape body).1.consumer = s.consumer := by
  unfold Ring.writeFrame
  dsimp only
  split
  · exact ⟨rfl, rfl, rfl⟩
  · split <;> exact ⟨rfl, rfl, rfl⟩

theorem produce_consumer (s : Ring) : (s.produce shape).1.consumer = s.consumer := by
  unfold Ring.produce
  split
  · rfl
  · dsimp only
    split <;> rfl
  · rfl
  · rfl

-- What is not a step of the consumer leaves a read in progress where it is.
theorem reading_kept {event : RingEvent} (other : event.isConsume = false) :
    returned (ringStep shape s event).2 = [] ∧ (ringStep shape s event).1.consumer = s.consumer := by
  cases event with
  | write body =>
    rcases @write_step shape s body with ⟨_, step⟩ | busy
    · rw [step]
      exact (@write_outs shape s body).2
    · rw [busy]
      exact ⟨rfl, rfl⟩
  | produce =>
    refine ⟨?_, produce_consumer s⟩
    rcases @produce_outs shape s with silent | ⟨body, w, _, published⟩
    · exact congrArg returned silent
    · exact congrArg returned published
  | consume => cases other

theorem produce_queued (queued : Queued shape acc dec s seen rest)
    (small : (stream (acc ++ accepted (s.produce shape).2)).length < 2^64) :
    ∃ later, Queued shape (acc ++ accepted (s.produce shape).2) dec (s.produce shape).1 seen later := by
  cases stage : s.producer with
  | idle =>
    simp only [Ring.produce, stage, accepted, List.filterMap_nil, List.append_nil]
    exact ⟨rest, queued⟩
  | ready body w =>
    have out : (s.produce shape).2 = [] := by
      simp only [Ring.produce, stage]
      split <;> rfl
    rw [out, accepted, List.filterMap_nil, List.append_nil]
    exact ⟨rest, ready_queued queued stage⟩
  | wrapped body w =>
    have out : (s.produce shape).2 = [] := by
      simp only [Ring.produce, stage]
    rw [out, accepted, List.filterMap_nil, List.append_nil]
    exact ⟨rest, wrapped_queued queued stage⟩
  | copied body w =>
    have out : accepted (s.produce shape).2 = [body] := by
      simp only [Ring.produce, stage]
      rfl
    rw [out] at small ⊢
    exact ⟨rest ++ [body], copied_queued queued stage small⟩

theorem step_queued (queued : Queued shape acc dec s seen rest) {event : RingEvent} (other : event.isConsume = false)
    (fits : ∀ body, event = .write body → body.length ≤ maxFrameBytes)
    (small : (stream (acc ++ accepted (ringStep shape s event).2)).length < 2^64) :
    ∃ later, Queued shape (acc ++ accepted (ringStep shape s event).2) dec (ringStep shape s event).1 seen later := by
  cases event with
  | write body =>
    have offset : s.write < 2^64 := by
      rw [queued.head]
      exact Nat.lt_of_le_of_lt stream_mono small
    rcases @write_step shape s body with ⟨idle, step⟩ | busy
    · rw [step, (@write_outs shape s body).1, List.append_nil]
      exact ⟨rest, write_queued queued idle offset (fits body rfl)⟩
    · rw [busy, accepted, List.filterMap_nil, List.append_nil]
      exact ⟨rest, queued⟩
  | produce => exact produce_queued queued small
  | consume => cases other

theorem along_append {past : List RingEvent} {outs new : List RingOut} {s next : Ring} {event : RingEvent}
    (along : Along shape past outs s)
    (queued : ∃ seen rest, Queued shape (accepted outs ++ accepted new) (decoded outs ++ decoded new) next seen rest)
    (whole : ∀ bytes, .returned bytes ∈ new → ∃ bodies, bytes = stream bodies ∧ unpackAllFrames bytes = ([], .ok bodies)) :
    Along shape (past ++ [event]) (outs ++ new) next := by
  refine ⟨?_, ?_⟩
  · rw [accepted_append, decoded_append]
    exact queued
  · intro bytes member
    rcases List.mem_append.mp member with old | fresh
    · exact along.whole bytes old
    · exact whole bytes fresh

theorem silent_along {past : List RingEvent} {outs : List RingOut} {s next : Ring} {event : RingEvent}
    (along : Along shape past outs s) (kept : Queued shape (accepted outs) (decoded outs) next seen rest) :
    Along shape (past ++ [event]) (outs ++ []) next := by
  apply along_append along
  · have nothing : accepted [] = [] ∧ decoded [] = [] := ⟨rfl, rfl⟩
    rw [nothing.1, nothing.2, List.append_nil, List.append_nil]
    exact ⟨seen, rest, kept⟩
  · exact fun _ => (absurd · List.not_mem_nil)

theorem other_along {past : List RingEvent} {outs : List RingOut} {event : RingEvent}
    (along : Along shape past outs s) (other : event.isConsume = false)
    (fits : ∀ body, event = .write body → body.length ≤ maxFrameBytes)
    (small : (stream (accepted (outs ++ (ringStep shape s event).2))).length < 2^64) :
    Along shape (past ++ [event]) (outs ++ (ringStep shape s event).2) (ringStep shape s event).1 := by
  obtain ⟨seen, rest, queued⟩ := along.queued
  rw [accepted_append] at small
  obtain ⟨later, kept⟩ := step_queued queued other fits small
  have silent := (@reading_kept shape s event other).1
  apply along_append along
  · rw [decoded_returned (ringStep shape s event).2, silent, List.flatMap_nil, List.append_nil]
    exact ⟨seen, later, kept⟩
  · intro bytes member
    rw [← mem_returned, silent] at member
    cases member

theorem returned_along {past : List RingEvent} {outs : List RingOut} {s next : Ring} {event : RingEvent}
    (along : Along shape past outs s) {bodies seen rest : List Bytes}
    (fit : ∀ body ∈ bodies, body.length ≤ maxFrameBytes)
    (queued : Queued shape (accepted outs) (decoded outs ++ bodies) next seen rest) :
    Along shape (past ++ [event]) (outs ++ [.returned (stream bodies)]) next := by
  apply along_append along
  · exact ⟨seen, rest, by simpa [accepted, decoded, unpacked_stream fit] using queued⟩
  · intro bytes member
    cases List.mem_singleton.mp member
    exact ⟨bodies, rfl, unpack_stream fit⟩

theorem consume_along {past : List RingEvent} {outs : List RingOut} (along : Along shape past outs s)
    (small : s.write < 2^64) :
    Along shape (past ++ [.consume]) (outs ++ (s.consume shape).2) (s.consume shape).1 := by
  obtain ⟨seen, rest, queued⟩ := along.queued
  cases stage : s.consumer with
  | idle =>
    have looked := look_queued queued stage
    by_cases empty : s.write - s.read = 0
    · have out : s.consume shape = (s, [.returned []]) := by
        simp only [Ring.consume, stage, empty, if_true]
      rw [out] at looked ⊢
      refine @returned_along shape _ _ s s _ along [] (seen ++ rest) [] (List.forall_mem_nil _) ?_
      rw [List.append_nil]
      exact looked
    · have out : (s.consume shape).2 = [] := by
        simp only [Ring.consume, stage, empty, if_false]
      rw [out]
      exact silent_along along looked
  | ready r avail =>
    have out : (s.consume shape).2 = [] := by
      simp only [Ring.consume, stage]
      split <;> rfl
    rw [out]
    exact silent_along along (fetch_queued queued stage)
  | wrapped r avail front =>
    have out : (s.consume shape).2 = [] := by
      simp only [Ring.consume, stage]
    rw [out]
    exact silent_along along (rest_queued queued stage)
  | copied r avail bytes =>
    have out : (s.consume shape).2 = [.returned bytes] := by
      simp only [Ring.consume, stage]
    obtain ⟨rfl, fit, bumped⟩ := bump_queued queued small stage
    rw [out]
    exact returned_along along fit bumped

theorem created_along : Along shape [] [] (.create shape) := by
  refine ⟨⟨[], [], ?_⟩, by simp⟩
  refine ⟨List.length_replicate, rfl, rfl, rfl, by simp [accepted], Nat.le_add_left _ _, ?_, trivial, trivial⟩
  intro k _ below
  exact absurd below (Nat.not_lt_zero k)

theorem run_along (events : List RingEvent) (fits : ∀ body, .write body ∈ events → body.length ≤ maxFrameBytes)
    (small : (stream (accepted (ringOuts shape events))).length < 2^64) :
    Along shape events (ringOuts shape events) (ringAfter shape events) := by
  have traced := @Machine.traces _ _ _ (ringStep shape) (fun past outs s =>
    (∀ body, .write body ∈ past → body.length ≤ maxFrameBytes) → (stream (accepted outs)).length < 2^64 →
      Along shape past outs s) ?_ (.create shape) (fun _ _ => created_along) events
  · exact traced fits small
  · intro past outs s event held fits small
    have before : (stream (accepted outs)).length < 2^64 := by
      rw [accepted_append] at small
      exact Nat.lt_of_le_of_lt stream_mono small
    have along := held (fun body member => fits body (List.mem_append_left _ member)) before
    have offset : s.write < 2^64 := by
      obtain ⟨seen, rest, queued⟩ := along.queued
      rw [queued.head]
      exact before
    cases event with
    | consume => exact consume_along along offset
    | _ => exact other_along along rfl (fun body same => fits body (by simp [same])) small

theorem write_rejects {body other : Bytes} (rejected : .rejected other ∈ (s.writeFrame shape body).2) :
    (s.writeFrame shape body).1 = { s with framesDropped := s.framesDropped + 1 } := by
  unfold Ring.writeFrame at rejected ⊢
  dsimp only at rejected ⊢
  split
  · rfl
  · rename_i short
    rw [if_neg short] at rejected
    split
    · rfl
    · rename_i fitting
      rw [if_neg fitting] at rejected
      cases rejected

theorem consume_rejects {body : Bytes} : .rejected body ∉ (s.consume shape).2 := by
  intro rejected
  unfold Ring.consume at rejected
  split at rejected
  · split at rejected
    · cases List.mem_singleton.mp rejected
    · cases rejected
  · dsimp only at rejected
    split at rejected <;> cases rejected
  · cases rejected
  · cases List.mem_singleton.mp rejected

theorem rejected_counts {event : RingEvent} {body : Bytes}
    (rejected : .rejected body ∈ (ringStep shape s event).2) :
    (ringStep shape s event).1 = { s with framesDropped := s.framesDropped + 1 } := by
  cases event with
  | write other =>
    rcases @write_step shape s other with ⟨_, step⟩ | busy
    · rw [step] at rejected ⊢
      exact write_rejects rejected
    · rw [busy] at rejected
      cases rejected
  | produce =>
    rcases @produce_outs shape s with silent | published
    · change _ ∈ (s.produce shape).2 at rejected
      rw [silent] at rejected
      cases rejected
    · obtain ⟨_, _, _, out⟩ := published
      change _ ∈ (s.produce shape).2 at rejected
      rw [out] at rejected
      cases List.mem_singleton.mp rejected
  | consume => exact absurd rejected consume_rejects

-- A frame under way is the next to be accepted, whatever the consumer does.
theorem frame_moves {body : Bytes} (carries : s.producer.Carries body) :
    (accepted (s.produce shape).2).head? = some body ∨
      accepted (s.produce shape).2 = [] ∧ (s.produce shape).1.producer.Carries body ∧
        (s.produce shape).1.producer.left + 1 ≤ s.producer.left := by
  cases stage : s.producer with
  | idle =>
    rw [stage] at carries
    exact carries.elim
  | ready own w =>
    rw [stage] at carries
    right
    simp only [Ring.produce, stage]
    split
    · exact ⟨rfl, carries, Nat.le_succ 2⟩
    · exact ⟨rfl, carries, Nat.le_refl 3⟩
  | wrapped own w =>
    rw [stage] at carries
    right
    simp only [Ring.produce, stage]
    exact ⟨rfl, carries, Nat.le_refl 2⟩
  | copied own w =>
    rw [stage] at carries
    left
    simp only [Ring.produce, stage]
    exact congrArg some carries

theorem consume_producer (s : Ring) :
    accepted (s.consume shape).2 = [] ∧ (s.consume shape).1.producer = s.producer := by
  unfold Ring.consume
  split
  · split <;> exact ⟨rfl, rfl⟩
  · dsimp only
    split <;> exact ⟨rfl, rfl⟩
  · exact ⟨rfl, rfl⟩
  · exact ⟨rfl, rfl⟩

theorem frame_completes {body : Bytes} {w : ℕ} (ready : s.producer = .ready body w) {later : List RingEvent}
    (turns : 3 ≤ later.countP RingEvent.isProduce) :
    (accepted (Machine.emitted (ringStep shape) s later)).head? = some body := by
  apply Machine.completes _ RingEvent.isProduce (·.producer.left) (fun s _ => s.producer.Carries body) body
  · intro s event _ carries
    cases event with
    | write other =>
      have busy : ringStep shape s (.write other) = (s, []) := by
        cases stage : s.producer with
        | idle =>
          rw [stage] at carries
          exact carries.elim
        | _ => simp only [ringStep, stage]
      rw [busy]
      exact .inr ⟨rfl, carries, Nat.le_refl _⟩
    | produce => exact frame_moves carries
    | consume =>
      obtain ⟨silent, same⟩ := @consume_producer shape s
      refine .inr ⟨silent, ?_, ?_⟩
      · change (s.consume shape).1.producer.Carries body
        rwa [same]
      · change (s.consume shape).1.producer.left ≤ s.producer.left
        rw [same]
  · intro s _ carries
    cases stage : s.producer with
    | idle =>
      rw [stage] at carries
      exact carries.elim
    | _ => exact Nat.succ_pos _
  · rw [ready]
    rfl
  · rw [ready]
    exact turns

-- A read in progress, with the events to come.
structure Reading (shape : Shape) (seen : List Bytes) (s : Ring) (later : List RingEvent) : Prop where
  queued : ∃ acc dec rest, Queued shape acc dec s seen rest ∧
    (stream (acc ++ accepted (Machine.emitted (ringStep shape) s later))).length < 2^64
  busy : 0 < s.consumer.left
  fits : ∀ body, .write body ∈ later → body.length ≤ maxFrameBytes

theorem Reading.small {acc : List Bytes} {event : RingEvent} {later : List RingEvent}
    (small : (stream (acc ++ accepted (Machine.emitted (ringStep shape) s (event :: later)))).length < 2^64) :
    (stream (acc ++ accepted (ringStep shape s event).2 ++
      accepted (Machine.emitted (ringStep shape) (ringStep shape s event).1 later))).length < 2^64 := by
  rwa [Machine.emitted, accepted_append, ← List.append_assoc] at small

theorem read_moves {seen : List Bytes} {later : List RingEvent}
    (reading : Reading shape seen s (.consume :: later)) :
    (returned (s.consume shape).2).head? = some (stream seen) ∨
      returned (s.consume shape).2 = [] ∧ Reading shape seen (s.consume shape).1 later ∧
        (s.consume shape).1.consumer.left + 1 ≤ s.consumer.left := by
  obtain ⟨⟨acc, dec, rest, queued, small⟩, busy, fits⟩ := reading
  have whole := Reading.small small
  have silent : accepted (ringStep shape s .consume).2 = [] := (@consume_producer shape s).1
  rw [silent, List.append_nil] at whole
  have next (kept : Queued shape acc dec (s.consume shape).1 seen rest) (on : 0 < (s.consume shape).1.consumer.left) :
      Reading shape seen (s.consume shape).1 later :=
    ⟨⟨acc, dec, rest, kept, whole⟩, on, fun body member => fits body (List.mem_cons_of_mem _ member)⟩
  cases stage : s.consumer with
  | idle =>
    rw [stage] at busy
    exact absurd busy (Nat.lt_irrefl 0)
  | ready r avail =>
    have kept := next (fetch_queued queued stage)
    simp only [Ring.consume, stage] at kept ⊢
    right
    split
    · rename_i straight
      rw [if_pos straight] at kept
      exact ⟨rfl, kept Nat.one_pos, Nat.le_succ 2⟩
    · rename_i wraps
      rw [if_neg wraps] at kept
      exact ⟨rfl, kept Nat.two_pos, Nat.le_refl 3⟩
  | wrapped r avail front =>
    have kept := next (rest_queued queued stage)
    simp only [Ring.consume, stage] at kept ⊢
    exact .inr ⟨rfl, kept Nat.one_pos, Nat.le_refl 2⟩
  | copied r avail bytes =>
    have sees := queued.sees
    rw [stage] at sees
    obtain ⟨_, _, rfl⟩ := sees
    simp only [Ring.consume, stage]
    exact .inl rfl

theorem read_completes {seen : List Bytes} {later : List RingEvent} (reading : Reading shape seen s later)
    (turns : s.consumer.left ≤ later.countP RingEvent.isConsume) :
    (returned (Machine.emitted (ringStep shape) s later)).head? = some (stream seen) := by
  refine Machine.completes _ RingEvent.isConsume (·.consumer.left) (Reading shape seen) (stream seen) ?_
    (fun _ _ reading => reading.busy) reading turns
  intro s event later reading
  by_cases own : event.isConsume = true
  · cases event with
    | consume => exact read_moves reading
    | _ => cases own
  · have other := Bool.eq_false_iff.mpr own
    obtain ⟨silent, same⟩ := @reading_kept shape s event other
    obtain ⟨⟨acc, dec, rest, queued, small⟩, busy, fits⟩ := reading
    have whole := Reading.small small
    have offered (body : Bytes) (write : event = .write body) : body.length ≤ maxFrameBytes :=
      fits body (by simp [write])
    obtain ⟨more, kept⟩ := step_queued queued other offered (Nat.lt_of_le_of_lt stream_mono whole)
    refine .inr ⟨silent, ⟨⟨_, dec, more, kept, whole⟩, ?_, ?_⟩, ?_⟩
    · rwa [same]
    · exact fun body member => fits body (List.mem_cons_of_mem _ member)
    · rw [same, other]
      exact Nat.le_refl _

theorem prefix_along {past rest : List RingEvent}
    (fits : ∀ body, .write body ∈ past ++ rest → body.length ≤ maxFrameBytes)
    (small : (stream (accepted (ringOuts shape (past ++ rest)))).length < 2^64) :
    Along shape past (ringOuts shape past) (ringAfter shape past) := by
  apply run_along past (fun body member => fits body (List.mem_append_left _ member))
  rw [ringOuts, Machine.emitted_append, accepted_append] at small
  exact Nat.lt_of_le_of_lt stream_mono small

-- A frame of at most half the ring that fits in its free space is taken.
theorem offer_taken (queued : Queued shape acc dec s seen rest) (small : s.write < 2^64) {body : Bytes}
    (half : (packFrame body).length ≤ shape.capacity / 2)
    (free : s.write + (packFrame body).length ≤ s.read + shape.capacity) :
    s.writeFrame shape body = ({ s with producer := .ready body s.write }, []) := by
  have total := queued_unread queued
  unfold Ring.writeFrame
  rw [free_space queued small]
  dsimp only
  rw [if_neg (Nat.not_lt.mpr half), if_neg (by omega)]

theorem offer_completes {past later : List RingEvent} {body : Bytes}
    (fits : ∀ other, .write other ∈ past ++ .write body :: later → other.length ≤ maxFrameBytes)
    (small : (stream (accepted (ringOuts shape (past ++ .write body :: later)))).length < 2^64)
    (idle : (ringAfter shape past).producer = .idle) (half : (packFrame body).length ≤ shape.capacity / 2)
    (free : (ringAfter shape past).write + (packFrame body).length ≤ (ringAfter shape past).read + shape.capacity)
    (turns : 3 ≤ later.countP RingEvent.isProduce) :
    (accepted (Machine.emitted (ringStep shape) (ringAfter shape past) (.write body :: later))).head? = some body := by
  obtain ⟨seen, rest, queued⟩ := (prefix_along fits small).queued
  have offset : (ringAfter shape past).write < 2^64 := by
    rw [queued.head]
    rw [ringOuts, Machine.emitted_append, accepted_append] at small
    exact Nat.lt_of_le_of_lt stream_mono small
  have step : ringStep shape (ringAfter shape past) (.write body) =
      ({ ringAfter shape past with producer := .ready body (ringAfter shape past).write }, []) := by
    simp only [ringStep, idle]
    exact offer_taken queued offset half free
  rw [Machine.emitted, step, List.nil_append]
  exact frame_completes rfl turns

theorem look_starts (idle : s.consumer = .idle) (unread : s.write - s.read ≠ 0) :
    s.consume shape = ({ s with consumer := .ready s.read (s.write - s.read) }, []) := by
  simp only [Ring.consume, idle, if_neg unread]

theorem read_returns (queued : Queued shape acc dec s seen rest) (idle : s.consumer = .idle) {later : List RingEvent}
    (fits : ∀ body, .write body ∈ later → body.length ≤ maxFrameBytes)
    (small : (stream (acc ++ accepted (Machine.emitted (ringStep shape) s (.consume :: later)))).length < 2^64)
    (turns : 3 ≤ later.countP RingEvent.isConsume) :
    (returned (Machine.emitted (ringStep shape) s (.consume :: later))).head? = some (s.unread shape) := by
  rw [unread_stream queued]
  by_cases empty : s.write - s.read = 0
  · have nothing : stream (seen ++ rest) = [] := by
      have total := queued_unread queued
      exact List.eq_nil_of_length_eq_zero (by omega)
    have step : ringStep shape s .consume = (s, [.returned []]) := by
      simp only [ringStep, Ring.consume, idle, empty, if_true]
    rw [Machine.emitted, step, nothing]
    rfl
  · have looked := look_queued queued idle
    have step : ringStep shape s .consume = _ := look_starts idle empty
    have whole := Reading.small small
    rw [look_starts idle empty] at looked
    rw [Machine.emitted, step, List.nil_append]
    rw [step, accepted, List.filterMap_nil, List.append_nil] at whole
    exact read_completes ⟨⟨acc, dec, [], looked, whole⟩, Nat.succ_pos 2, fits⟩ turns

end Runs

theorem ring_reliable {shape : Shape} {events : List RingEvent}
    (fits : ∀ body, .write body ∈ events → body.length ≤ maxFrameBytes)
    (small : (stream (accepted (ringOuts shape events))).length < 2^64) : ReliableFifo shape events := by
  have along := run_along events fits small
  obtain ⟨seen, rest, queued⟩ := along.queued
  have total := queued_unread queued
  have room := queued.room
  constructor
  · exact ⟨seen ++ rest, queued.order, unread_stream queued⟩
  · exact ⟨by omega, by omega⟩
  · exact along.whole
  · intro past event rest body _ rejected
    exact rejected_counts rejected
  · intro past body later split idle half free turns
    subst split
    exact offer_completes fits small idle half free turns
  · intro past later split idle turns
    subst split
    obtain ⟨seen, rest, queued⟩ := (prefix_along fits small).queued
    refine read_returns queued idle (fun body member => fits body (by simp [member])) ?_ turns
    rwa [ringOuts, Machine.emitted_append, accepted_append] at small

-- Sixteen bytes, a frame of seven at a time: the third one wraps around the end, and
-- the fourth is offered while it is still there.
def smallRing : Shape := ⟨16, by decide, by decide⟩

def wrappingEvents : List RingEvent :=
  let passed : List RingEvent := [.produce, .produce, .consume, .consume, .consume]
  let crossing : List RingEvent :=
    [.write [7, 8, 9], .produce, .consume, .produce, .write [10], .produce, .write [0, 0, 0, 0, 0], .write [11, 12, 13],
      .produce, .consume, .consume, .consume]
  [RingEvent.write [1, 2, 3]] ++ passed ++ [RingEvent.write [4, 5, 6]] ++ passed ++ crossing

theorem ring_reliable_wrapping : ReliableFifo smallRing wrappingEvents := by
  refine ring_reliable ?_ ?_
  · have sizes : ∀ event ∈ wrappingEvents, ∀ body, event = .write body → body.length ≤ maxFrameBytes := by
      simp [wrappingEvents, maxFrameBytes]
    intro body member
    exact sizes _ member body rfl
  · decide +kernel

example : accepted (ringOuts smallRing wrappingEvents) = [[1, 2, 3], [4, 5, 6], [7, 8, 9]] ∧
    (ringAfter smallRing wrappingEvents).framesDropped = 1 := by decide +kernel

end Corsair.Ipc
