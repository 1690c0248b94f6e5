import Corsair.Ipc.Protocol
import Corsair.Lib.Circular

namespace Corsair.Ipc

open Framing Circular

structure Shape where
  capacity : ℕ
  positive : 0 < capacity
  usize : capacity < 2^64

-- u64 arithmetic wraps.
def addU64 (a b : ℕ) : ℕ := (a + b) % 2^64
def subU64 (a b : ℕ) : ℕ := (a + (2^64 - b)) % 2^64

-- Where write_frame stands: which of its two copies are done. The offset is the one it
-- read at the start.
inductive Producer where
  | idle
  | ready (body : Bytes) (w : ℕ)
  | wrapped (body : Bytes) (w : ℕ)
  | copied (body : Bytes) (w : ℕ)

-- Where read_available stands, with what it read and what it has copied so far.
inductive Consumer where
  | idle
  | ready (r avail : ℕ)
  | wrapped (r avail : ℕ) (front : Bytes)
  | copied (r avail : ℕ) (bytes : Bytes)

-- The mapped file, its two header fields and its bytes, and the two processes at it.
structure Ring where
  data : Bytes
  write : ℕ
  read : ℕ
  framesDropped : ℕ
  producer : Producer
  consumer : Consumer

def Ring.create (shape : Shape) : Ring := ⟨List.replicate shape.capacity 0, 0, 0, 0, .idle, .idle⟩

inductive RingEvent where
  | write (body : Bytes)
  | produce
  | consume

def RingEvent.isProduce : RingEvent → Bool
  | .produce => true
  | _ => false

def RingEvent.isConsume : RingEvent → Bool
  | .consume => true
  | _ => false

inductive RingOut where
  | accepted (body : Bytes)
  | rejected (body : Bytes)
  | returned (bytes : Bytes)

namespace Ring

variable (shape : Shape)

-- write_frame(pack_frame(body)) up to the first copy.
def writeFrame (s : Ring) (body : Bytes) : Ring × List RingOut :=
  let n := (packFrame body).length
  let free := subU64 shape.capacity (subU64 s.write s.read)
  if shape.capacity / 2 < n then ({ s with framesDropped := s.framesDropped + 1 }, [.rejected body])
  else if free < n then ({ s with framesDropped := s.framesDropped + 1 }, [.rejected body])
  else ({ s with producer := .ready body s.write }, [])

def produce (s : Ring) : Ring × List RingOut :=
  match s.producer with
  | .idle => (s, [])
  | .ready body w =>
    let pos := w % shape.capacity
    if pos + (packFrame body).length ≤ shape.capacity then
      ({ s with data := splice s.data pos (packFrame body), producer := .copied body w }, [])
    else
      ({ s with
        data := splice s.data pos ((packFrame body).take (shape.capacity - pos))
        producer := .wrapped body w }, [])
  | .wrapped body w =>
    ({ s with
      data := splice s.data 0 ((packFrame body).drop (shape.capacity - w % shape.capacity))
      producer := .copied body w }, [])
  | .copied body w => ({ s with write := addU64 w (packFrame body).length, producer := .idle }, [.accepted body])

def consume (s : Ring) : Ring × List RingOut :=
  match s.consumer with
  | .idle =>
    -- `saturating_sub`
    if s.write - s.read = 0 then (s, [.returned []])
    else ({ s with consumer := .ready s.read (s.write - s.read) }, [])
  | .ready r avail =>
    let pos := r % shape.capacity
    if pos + avail ≤ shape.capacity then ({ s with consumer := .copied r avail (slice s.data pos avail) }, [])
    else ({ s with consumer := .wrapped r avail (slice s.data pos (shape.capacity - pos)) }, [])
  | .wrapped r avail front =>
    let rest := slice s.data 0 (avail - (shape.capacity - r % shape.capacity))
    ({ s with consumer := .copied r avail (front ++ rest) }, [])
  | .copied r avail bytes => ({ s with read := addU64 r avail, consumer := .idle }, [.returned bytes])

end Ring

-- A producer in the middle of a frame takes no other.
def ringStep (shape : Shape) (s : Ring) : RingEvent → Ring × List RingOut
  | .write body => match s.producer with
    | .idle => s.writeFrame shape body
    | _ => (s, [])
  | .produce => s.produce shape
  | .consume => s.consume shape

-- What the consumer makes of the bytes a read gave it: an undecodable batch is dropped.
def unpacked (bytes : Bytes) : List Bytes :=
  match unpackAllFrames bytes with
  | (_, .ok bodies) => bodies
  | (_, .error _) => []

def accepted (outs : List RingOut) : List Bytes :=
  outs.filterMap fun
    | .accepted body => some body
    | _ => none

def returned (outs : List RingOut) : List Bytes :=
  outs.filterMap fun
    | .returned bytes => some bytes
    | _ => none

def decoded (outs : List RingOut) : List Bytes :=
  outs.flatMap fun
    | .returned bytes => unpacked bytes
    | _ => []

-- The bytes between the two offsets, in the order they were written.
def Ring.unread (shape : Shape) (s : Ring) : Bytes :=
  (List.range (s.write - s.read)).map fun i => s.data.getD ((s.read + i) % shape.capacity) 0

section Runs

variable (shape : Shape)

def ringAfter (events : List RingEvent) : Ring := Machine.after (ringStep shape) (.create shape) events
def ringOuts (events : List RingEvent) : List RingOut := Machine.emitted (ringStep shape) (.create shape) events

structure ReliableFifo (events : List RingEvent) : Prop where
  fifo : ∃ pending, accepted (ringOuts shape events) = decoded (ringOuts shape events) ++ pending ∧
    (ringAfter shape events).unread shape = stream pending
  bounded : (ringAfter shape events).read ≤ (ringAfter shape events).write ∧
    (ringAfter shape events).write - (ringAfter shape events).read ≤ shape.capacity
  whole : ∀ bytes, .returned bytes ∈ ringOuts shape events →
    ∃ bodies, bytes = stream bodies ∧ unpackAllFrames bytes = ([], .ok bodies)
  rejected : ∀ past event rest body, events = past ++ event :: rest →
    .rejected body ∈ (ringStep shape (ringAfter shape past) event).2 →
    (ringStep shape (ringAfter shape past) event).1 =
      { ringAfter shape past with framesDropped := (ringAfter shape past).framesDropped + 1 }
  accepts : ∀ past body later, events = past ++ .write body :: later → (ringAfter shape past).producer = .idle →
    (packFrame body).length ≤ shape.capacity / 2 →
    (ringAfter shape past).write + (packFrame body).length ≤ (ringAfter shape past).read + shape.capacity →
    3 ≤ later.countP RingEvent.isProduce →
    (accepted (Machine.emitted (ringStep shape) (ringAfter shape past) (.write body :: later))).head? = some body
  reads : ∀ past later, events = past ++ .consume :: later → (ringAfter shape past).consumer = .idle →
    3 ≤ later.countP RingEvent.isConsume →
    (returned (Machine.emitted (ringStep shape) (ringAfter shape past) (.consume :: later))).head? =
      some ((ringAfter shape past).unread shape)

end Runs

section Invariant

def Producer.frame : Producer → Bytes
  | .idle => []
  | .ready body _ | .wrapped body _ | .copied body _ => packFrame body

-- How much of its frame the producer has copied.
def Producer.done (shape : Shape) : Producer → ℕ
  | .idle | .ready .. => 0
  | .wrapped _ w => shape.capacity - w % shape.capacity
  | .copied body _ => (packFrame body).length

def Producer.Stands (shape : Shape) (write : ℕ) : Producer → Prop
  | .idle => True
  | .ready body w | .copied body w => w = write ∧ body.length ≤ maxFrameBytes
  | .wrapped body w => w = write ∧ body.length ≤ maxFrameBytes ∧
    shape.capacity < w % shape.capacity + (packFrame body).length

def Producer.Carries (body : Bytes) : Producer → Prop
  | .idle => False
  | .ready own _ | .wrapped own _ | .copied own _ => own = body

-- How many more steps a frame under way may take, and a read.
def Producer.left : Producer → ℕ
  | .idle => 0
  | .copied .. => 1
  | .wrapped .. => 2
  | .ready .. => 3

def Consumer.left : Consumer → ℕ
  | .idle => 0
  | .copied .. => 1
  | .wrapped .. => 2
  | .ready .. => 3

-- What a read in progress is to return: the bodies that were unread when it looked.
def Consumer.Sees (shape : Shape) (read : ℕ) (seen : List Bytes) : Consumer → Prop
  | .idle => True
  | .ready r avail => r = read ∧ avail = (stream seen).length
  | .wrapped r avail front => r = read ∧ avail = (stream seen).length ∧
    shape.capacity < r % shape.capacity + avail ∧ front = (stream seen).take (shape.capacity - r % shape.capacity)
  | .copied r avail bytes => r = read ∧ avail = (stream seen).length ∧ bytes = stream seen

-- The ring as a queue: the bodies it holds are those accepted and not decoded yet, and
-- the cells from the read offset on hold their frames, then what the producer has copied.
structure Queued (shape : Shape) (acc dec : List Bytes) (s : Ring) (seen rest : List Bytes) : Prop where
  cells : s.data.length = shape.capacity
  order : acc = dec ++ (seen ++ rest)
  tail : s.read = (stream dec).length
  head : s.write = (stream acc).length
  fit : ∀ body ∈ acc, body.length ≤ maxFrameBytes
  room : s.write + s.producer.frame.length ≤ s.read + shape.capacity
  holds : Holds s.data (stream acc ++ s.producer.frame) s.read (s.write + s.producer.done shape)
  stands : s.producer.Stands shape s.write
  sees : s.consumer.Sees shape s.read seen

theorem accepted_append (before after : List RingOut) : accepted (before ++ after) = accepted before ++ accepted after :=
  List.filterMap_append

theorem decoded_append (before after : List RingOut) : decoded (before ++ after) = decoded before ++ decoded after :=
  List.flatMap_append

theorem decoded_returned (outs : List RingOut) : decoded outs = (returned outs).flatMap unpacked := by
  induction outs with
  | nil => rfl
  | cons out rest next =>
    cases out with
    | returned bytes => exact congrArg (unpacked bytes ++ ·) next
    | _ => exact next

theorem mem_returned {outs : List RingOut} {bytes : Bytes} : bytes ∈ returned outs ↔ .returned bytes ∈ outs := by
  unfold returned
  rw [List.mem_filterMap]
  constructor
  · rintro ⟨out, member, same⟩
    cases out with
    | returned own =>
      cases same
      exact member
    | _ => cases same
  · intro member
    exact ⟨_, member, rfl⟩

theorem unpacked_stream {bodies : List Bytes} (fit : ∀ body ∈ bodies, body.length ≤ maxFrameBytes) :
    unpacked (stream bodies) = bodies := by
  rw [unpacked, unpack_stream fit]

variable {shape : Shape} {acc dec seen rest : List Bytes} {s : Ring}

theorem queued_unread (queued : Queued shape acc dec s seen rest) :
    s.write = s.read + (stream (seen ++ rest)).length := by
  rw [queued.head, queued.tail, queued.order, stream_append, List.length_append]

-- The log from the read offset on.
theorem log_drop (queued : Queued shape acc dec s seen rest) :
    (stream acc ++ s.producer.frame).drop s.read = stream (seen ++ rest) ++ s.producer.frame := by
  rw [queued.order, stream_append, List.append_assoc, queued.tail, List.drop_left]

-- The frame under way, in the log from the write offset on.
theorem log_next (queued : Queued shape acc dec s seen rest) (i : ℕ) :
    (stream acc ++ s.producer.frame)[s.write + i]? = s.producer.frame[i]? := by
  rw [queued.head, List.getElem?_append_right (by omega), Nat.add_sub_cancel_left]

theorem unread_stream (queued : Queued shape acc dec s seen rest) : s.unread shape = stream (seen ++ rest) := by
  have total := queued_unread queued
  have length : (s.unread shape).length = (stream (seen ++ rest)).length := by
    rw [Ring.unread, List.length_map, List.length_range]
    omega
  refine List.ext_getElem length fun i inside later => ?_
  have held := queued.holds (s.read + i) (by omega) (by omega)
  have logged : (stream acc ++ s.producer.frame)[s.read + i]? = some (stream (seen ++ rest))[i] := by
    rw [← List.getElem?_drop, log_drop queued, List.getElem?_append_left later, List.getElem?_eq_getElem later]
  rw [logged, queued.cells] at held
  simp only [Ring.unread, List.getElem_map, List.getElem_range, List.getD_eq_getElem?_getD, held, Option.getD_some]

-- The free space write_frame computes, while no u64 wraps.
theorem free_space (queued : Queued shape acc dec s seen rest) (small : s.write < 2^64) :
    subU64 shape.capacity (subU64 s.write s.read) = shape.capacity - (s.write - s.read) := by
  have total := queued_unread queued
  have room := queued.room
  have usize := shape.usize
  unfold subU64
  omega

theorem write_queued (queued : Queued shape acc dec s seen rest) (idle : s.producer = .idle)
    (small : s.write < 2^64) {body : Bytes} (fits : body.length ≤ maxFrameBytes) :
    Queued shape acc dec (s.writeFrame shape body).1 seen rest := by
  unfold Ring.writeFrame
  rw [free_space queued small]
  have dropped : Queued shape acc dec { s with framesDropped := s.framesDropped + 1 } seen rest :=
    ⟨queued.cells, queued.order, queued.tail, queued.head, queued.fit, queued.room, queued.holds, queued.stands,
      queued.sees⟩
  dsimp only
  split
  · exact dropped
  · split
    · exact dropped
    · rename_i free
      have total := queued_unread queued
      have room := queued.room
      have held := queued.holds
      rw [idle] at room held
      refine ⟨queued.cells, queued.order, queued.tail, queued.head, queued.fit, ?_, ?_, ⟨rfl, fits⟩, queued.sees⟩
      · simp only [Producer.frame, List.length_nil] at room ⊢
        omega
      · simp only [Producer.frame, Producer.done, List.append_nil, Nat.add_zero] at held ⊢
        exact holds_extend held (Nat.le_of_eq queued.head) _

theorem ready_queued (queued : Queued shape acc dec s seen rest) {body : Bytes} {w : ℕ}
    (ready : s.producer = .ready body w) : Queued shape acc dec (s.produce shape).1 seen rest := by
  have stands := queued.stands
  have room := queued.room
  have held := queued.holds
  have next := log_next queued
  rw [ready] at stands room held next
  obtain ⟨rfl, fits⟩ := stands
  simp only [Producer.frame, Producer.done, Nat.add_zero] at room held next
  simp only [Ring.produce, ready]
  split
  · rename_i straight
    refine ⟨?_, queued.order, queued.tail, queued.head, queued.fit, room, ?_, ⟨rfl, fits⟩, queued.sees⟩
    · rw [splice_length (by rw [queued.cells]; exact straight), queued.cells]
    · have copied := holds_splice held (by rw [queued.cells]; exact straight) (by rw [queued.cells]; exact room)
        fun i _ => next i
      rwa [queued.cells] at copied
  · rename_i wraps
    have below := Nat.mod_lt s.write shape.positive
    have part : ((packFrame body).take (shape.capacity - s.write % shape.capacity)).length =
        shape.capacity - s.write % shape.capacity := by
      rw [List.length_take]
      omega
    have fills : s.write % s.data.length +
        ((packFrame body).take (shape.capacity - s.write % shape.capacity)).length ≤ s.data.length := by
      rw [part, queued.cells]
      omega
    refine ⟨?_, queued.order, queued.tail, queued.head, queued.fit, room, ?_, ⟨rfl, fits, by omega⟩, queued.sees⟩
    · rw [splice_length (by rwa [queued.cells] at fills ⊢), queued.cells]
    · have copied := holds_splice held fills (by rw [part, queued.cells]; omega) ?_
      · rwa [queued.cells, part] at copied
      · intro i inside
        rw [next i, List.getElem?_take_of_lt (by omega)]

theorem round_start {c n : ℕ} (positive : 0 < c) : (n + (c - n % c)) % c = 0 := by
  have below := Nat.mod_lt n positive
  have round := Nat.mod_add_div n c
  have whole : n + (c - n % c) = c * (n / c + 1) := by
    rw [Nat.mul_add, Nat.mul_one]
    omega
  rw [whole, Nat.mul_mod_right]

theorem wrapped_queued (queued : Queued shape acc dec s seen rest) {body : Bytes} {w : ℕ}
    (wrapped : s.producer = .wrapped body w) : Queued shape acc dec (s.produce shape).1 seen rest := by
  have stands := queued.stands
  have room := queued.room
  have held := queued.holds
  have next := log_next queued
  rw [wrapped] at stands room held next
  obtain ⟨rfl, fits, wraps⟩ := stands
  simp only [Producer.frame, Producer.done] at room held next
  simp only [Ring.produce, wrapped]
  have below := Nat.mod_lt s.write shape.positive
  have start : (s.write + (shape.capacity - s.write % shape.capacity)) % s.data.length = 0 := by
    rw [queued.cells]
    exact round_start shape.positive
  have part : ((packFrame body).drop (shape.capacity - s.write % shape.capacity)).length =
      (packFrame body).length - (shape.capacity - s.write % shape.capacity) := List.length_drop
  have total := queued_unread queued
  have fills : 0 + ((packFrame body).drop (shape.capacity - s.write % shape.capacity)).length ≤ s.data.length := by
    rw [part, queued.cells]
    omega
  refine ⟨?_, queued.order, queued.tail, queued.head, queued.fit, room, ?_, ⟨rfl, fits⟩, queued.sees⟩
  · rw [splice_length fills, queued.cells]
  · have copied := holds_splice held (by rw [start]; exact fills) (by rw [part, queued.cells]; omega) ?_
    · rw [start, part] at copied
      refine holds_narrow copied (Nat.le_refl _) ?_
      simp only [Producer.done]
      omega
    · intro i inside
      rw [Nat.add_assoc, next, List.getElem?_drop]

theorem copied_queued (queued : Queued shape acc dec s seen rest) {body : Bytes} {w : ℕ}
    (copied : s.producer = .copied body w) (small : (stream (acc ++ [body])).length < 2^64) :
    Queued shape (acc ++ [body]) dec (s.produce shape).1 seen (rest ++ [body]) := by
  have stands := queued.stands
  have room := queued.room
  have held := queued.holds
  rw [copied] at stands room held
  obtain ⟨rfl, fits⟩ := stands
  simp only [Producer.frame, Producer.done] at room held
  have whole : stream (acc ++ [body]) = stream acc ++ packFrame body := by
    rw [stream_append, stream_cons]
    exact congrArg (stream acc ++ ·) (List.append_nil _)
  have published : addU64 s.write (packFrame body).length = s.write + (packFrame body).length := by
    rw [whole, List.length_append, ← queued.head] at small
    exact Nat.mod_eq_of_lt small
  simp only [Ring.produce, copied]
  refine ⟨queued.cells, ?_, queued.tail, ?_, ?_, ?_, ?_, trivial, queued.sees⟩
  · rw [queued.order, List.append_assoc, List.append_assoc]
  · rw [published, whole, List.length_append, queued.head]
  · intro other member
    rcases List.mem_append.mp member with old | new
    · exact queued.fit other old
    · exact (List.mem_singleton.mp new) ▸ fits
  · simp only [Producer.frame, List.length_nil, published]
    exact room
  · simp only [Producer.frame, Producer.done, List.append_nil, Nat.add_zero, published, whole]
    exact held

-- A read that starts sees everything unread.
theorem look_queued (queued : Queued shape acc dec s seen rest) (idle : s.consumer = .idle) :
    Queued shape acc dec (s.consume shape).1 (seen ++ rest) [] := by
  have total := queued_unread queued
  have order : acc = dec ++ ((seen ++ rest) ++ []) := by
    rw [List.append_nil, queued.order]
  simp only [Ring.consume, idle]
  split
  · refine ⟨queued.cells, order, queued.tail, queued.head, queued.fit, queued.room, queued.holds, queued.stands, ?_⟩
    rw [idle]
    trivial
  · refine ⟨queued.cells, order, queued.tail, queued.head, queued.fit, queued.room, queued.holds, queued.stands, rfl, ?_⟩
    omega

theorem stream_take (queued : Queued shape acc dec s seen rest) {n : ℕ} (part : n ≤ (stream seen).length) :
    ((stream acc ++ s.producer.frame).drop s.read).take n = (stream seen).take n := by
  rw [log_drop queued, stream_append, List.append_assoc, List.take_append_of_le_length part]

theorem seen_within (queued : Queued shape acc dec s seen rest) : s.read + (stream seen).length ≤ s.write := by
  have total := queued_unread queued
  rw [stream_append, List.length_append] at total
  omega

theorem fetch_queued (queued : Queued shape acc dec s seen rest) {r avail : ℕ} (ready : s.consumer = .ready r avail) :
    Queued shape acc dec (s.consume shape).1 seen rest := by
  have sees := queued.sees
  rw [ready] at sees
  obtain ⟨rfl, rfl⟩ := sees
  have within := seen_within queued
  simp only [Ring.consume, ready]
  split
  · rename_i straight
    refine ⟨queued.cells, queued.order, queued.tail, queued.head, queued.fit, queued.room, queued.holds, queued.stands,
      rfl, rfl, ?_⟩
    have copied := slice_holds queued.holds (by rw [queued.cells]; exact straight)
      (Nat.le_trans within (Nat.le_add_right _ _))
    rw [queued.cells, stream_take queued (Nat.le_refl _), List.take_length] at copied
    exact copied
  · rename_i wraps
    refine ⟨queued.cells, queued.order, queued.tail, queued.head, queued.fit, queued.room, queued.holds, queued.stands,
      rfl, rfl, by omega, ?_⟩
    have below := Nat.mod_lt s.read shape.positive
    have copied := @slice_holds _ s.data _ s.read _ (shape.capacity - s.read % shape.capacity) queued.holds
      (by rw [queued.cells]; omega) (by omega)
    rw [queued.cells, stream_take queued (by omega)] at copied
    exact copied

theorem rest_queued (queued : Queued shape acc dec s seen rest) {r avail : ℕ} {front : Bytes}
    (wrapped : s.consumer = .wrapped r avail front) : Queued shape acc dec (s.consume shape).1 seen rest := by
  have sees := queued.sees
  rw [wrapped] at sees
  obtain ⟨rfl, rfl, wraps, rfl⟩ := sees
  have within := seen_within queued
  have room := queued.room
  have start : (s.read + (shape.capacity - s.read % shape.capacity)) % s.data.length = 0 := by
    rw [queued.cells]
    exact round_start shape.positive
  have below := Nat.mod_lt s.read shape.positive
  simp only [Ring.consume, wrapped]
  refine ⟨queued.cells, queued.order, queued.tail, queued.head, queued.fit, queued.room, queued.holds, queued.stands,
    rfl, rfl, ?_⟩
  have copied := @slice_holds _ s.data _ (s.read + (shape.capacity - s.read % shape.capacity)) _
    ((stream seen).length - (shape.capacity - s.read % shape.capacity))
    (holds_narrow queued.holds (Nat.le_add_right _ _) (Nat.le_refl _)) (by rw [start, queued.cells]; omega) (by omega)
  rw [start, ← List.drop_drop, log_drop queued, stream_append, List.append_assoc,
    List.drop_append_of_le_length (by omega), List.take_left' List.length_drop] at copied
  rw [copied, List.take_append_drop]

theorem bump_queued (queued : Queued shape acc dec s seen rest) (small : s.write < 2^64) {r avail : ℕ} {bytes : Bytes}
    (copied : s.consumer = .copied r avail bytes) :
    bytes = stream seen ∧ (∀ body ∈ seen, body.length ≤ maxFrameBytes) ∧
      Queued shape acc (dec ++ seen) (s.consume shape).1 [] rest := by
  have sees := queued.sees
  rw [copied] at sees
  obtain ⟨rfl, rfl, rfl⟩ := sees
  have within := seen_within queued
  have fit : ∀ body ∈ seen, body.length ≤ maxFrameBytes := by
    intro body member
    refine queued.fit body ?_
    rw [queued.order]
    simp [member]
  have bumped : addU64 s.read (stream seen).length = s.read + (stream seen).length :=
    Nat.mod_eq_of_lt (by omega)
  have room := queued.room
  refine ⟨rfl, fit, ?_⟩
  simp only [Ring.consume, copied, bumped]
  refine ⟨queued.cells, ?_, ?_, queued.head, queued.fit, ?_, ?_, queued.stands, trivial⟩
  · rw [queued.order, List.nil_append, List.append_assoc]
  · rw [stream_append, List.length_append, queued.tail]
  · change s.write + s.producer.frame.length ≤ s.read + (stream seen).length + shape.capacity
    omega
  · exact holds_narrow queued.holds (Nat.le_add_right _ _) (Nat.le_refl _)

end Invariant

end Corsair.Ipc
