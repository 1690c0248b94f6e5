import Mathlib.Algebra.Order.Ring.Nat
import Mathlib.Data.List.Induction
import Corsair.Lib.Machine

-- Frames that carry their own length: a 4-byte big-endian count, then that many bytes.
namespace Framing

abbrev Bytes := List UInt8

-- u32::to_be_bytes of a length cast to u32, which keeps its low 32 bits.
def be32 (n : ℕ) : Bytes := [UInt8.ofNat (n / 2^24), UInt8.ofNat (n / 2^16), UInt8.ofNat (n / 2^8), UInt8.ofNat n]

def ofBe32 (bytes : Bytes) : ℕ := bytes.foldl (fun n byte => n * 256 + byte.toNat) 0

def prefixed (payload : Bytes) : Bytes := be32 payload.length ++ payload

-- What stands at the front of a receive buffer.
inductive Fetch where
  | short
  | oversize (size : ℕ)
  | whole (payload rest : Bytes)

def fetch (cap : ℕ) (buf : Bytes) : Fetch :=
  if buf.length < 4 then .short
  else if cap < ofBe32 (buf.take 4) then .oversize (ofBe32 (buf.take 4))
  else if buf.length < 4 + ofBe32 (buf.take 4) then .short
  else .whole ((buf.drop 4).take (ofBe32 (buf.take 4))) (buf.drop (4 + ofBe32 (buf.take 4)))

-- A decoder takes at most one item off the front of its buffer. What it takes makes
-- the buffer shorter, and would have been taken with more bytes behind it as well.
structure Decoder (α ε : Type*) where
  next : Bytes → Bytes × Except ε (Option α)
  shrinks : ∀ {buf rest : Bytes} {item : α}, next buf = (rest, .ok (some item)) → rest.length < buf.length
  stable : ∀ {buf rest : Bytes} {item : α}, next buf = (rest, .ok (some item)) →
    ∀ more, next (buf ++ more) = (rest ++ more, .ok (some item))
  waits : ∀ {buf rest : Bytes}, next buf = (rest, .ok none) → rest = buf

namespace Decoder

variable {α ε : Type*}

-- `while let Some(item) = next(buf)? { out.push(item) }`
def all (d : Decoder α ε) (buf : Bytes) : Bytes × Except ε (List α) :=
  match _taken : d.next buf with
  | (rest, .error fault) => (rest, .error fault)
  | (rest, .ok none) => (rest, .ok [])
  | (rest, .ok (some item)) => ((d.all rest).1, (d.all rest).2.map (item :: ·))
termination_by buf.length
decreasing_by all_goals exact d.shrinks _taken

theorem all_stop {d : Decoder α ε} {buf rest : Bytes} (stops : d.next buf = (rest, .ok none)) :
    d.all buf = (rest, .ok []) := by
  rw [all]
  split <;> simp_all

theorem all_item {d : Decoder α ε} {buf rest : Bytes} {item : α} (taken : d.next buf = (rest, .ok (some item))) :
    d.all buf = ((d.all rest).1, (d.all rest).2.map (item :: ·)) := by
  rw [all]
  split <;> simp_all

theorem all_error {d : Decoder α ε} {buf rest : Bytes} {fault : ε} (fails : d.next buf = (rest, .error fault)) :
    d.all buf = (rest, .error fault) := by
  rw [all]
  split <;> simp_all

-- What holds of every walk that takes all items without a fault, from its last item back.
theorem all_induction {d : Decoder α ε} {holds : Bytes → Bytes → List α → Prop}
    (stops : ∀ {buf rest}, d.next buf = (rest, .ok none) → holds buf rest [])
    (takes : ∀ {buf rest tail item items}, d.next buf = (rest, .ok (some item)) → holds rest tail items →
      holds buf tail (item :: items))
    {buf tail : Bytes} {items : List α} (taken : d.all buf = (tail, .ok items)) : holds buf tail items := by
  induction size : buf.length using Nat.strongRecOn generalizing buf items with
  | ind n next =>
    rcases front : d.next buf with ⟨rest, fault | _ | item⟩
    · rw [all_error front] at taken
      cases taken
    · rw [all_stop front] at taken
      cases taken
      exact stops front
    · rw [all_item front] at taken
      rcases others : d.all rest with ⟨left, fault | later⟩
      · rw [others] at taken
        cases taken
      · rw [others] at taken
        cases taken
        have shorter : rest.length < n := size ▸ d.shrinks front
        exact takes front (next rest.length shorter others rfl)

-- Bytes that come later do not change what the earlier ones gave.
theorem all_append {d : Decoder α ε} {buf tail : Bytes} {items : List α} (taken : d.all buf = (tail, .ok items))
    (more : Bytes) :
    d.all (buf ++ more) = ((d.all (tail ++ more)).1, (d.all (tail ++ more)).2.map (items ++ ·)) := by
  apply all_induction _ _ taken
  · intro buf rest front
    rw [d.waits front]
    cases (d.all (buf ++ more)) with
    | mk left result => cases result <;> rfl
  · intro buf rest tail item items front later
    rw [all_item (d.stable front more), later]
    cases (d.all (tail ++ more)).2 <;> rfl

-- The receive loop's use of it: append what was read, then take all there is.
def feed (d : Decoder α ε) (buf chunk : Bytes) : Bytes × List (Except ε α) :=
  ((d.all (buf ++ chunk)).1, match (d.all (buf ++ chunk)).2 with
    | .ok items => items.map .ok
    | .error fault => [.error fault])

-- Any loop that appends what it reads and takes all there is, while nothing is wrong.
theorem fed_by {σ : Type*} {d : Decoder α ε} {step : σ → Bytes → σ × List (Except ε α)} {hold : Bytes → σ}
    (agrees : ∀ {buf chunk tail : Bytes} {items : List α}, d.all (buf ++ chunk) = (tail, .ok items) →
      step (hold buf) chunk = (hold tail, items.map .ok)) {chunks : List Bytes}
    (good : ∀ part, part <+: chunks.flatten → ∃ tail items, d.all part = (tail, .ok items))
    {tail : Bytes} {items : List α} (taken : d.all chunks.flatten = (tail, .ok items))
    (empty : d.all [] = ([], .ok [])) :
    Machine.emitted step (hold []) chunks = items.map .ok ∧ Machine.after step (hold []) chunks = hold tail := by
  induction chunks using List.reverseRecOn generalizing tail items with
  | nil =>
    rw [List.flatten_nil, empty] at taken
    cases taken
    exact ⟨rfl, rfl⟩
  | append_singleton chunks chunk next =>
    rw [List.flatten_append, List.flatten_singleton] at good taken
    obtain ⟨before, earlier, first⟩ := good chunks.flatten (List.prefix_append _ _)
    obtain ⟨sent, buffered⟩ := next (fun part within => good part (within.trans (List.prefix_append _ _))) first
    rw [all_append first] at taken
    rw [Machine.emitted_append, Machine.after_append, sent, buffered]
    rcases later : d.all (before ++ chunk) with ⟨left, fault | new⟩
    · rw [later] at taken
      cases taken
    · rw [later] at taken
      cases taken
      simp [Machine.emitted, Machine.after, agrees later]

theorem feed_agrees {d : Decoder α ε} {buf chunk tail : Bytes} {items : List α}
    (taken : d.all (buf ++ chunk) = (tail, .ok items)) : d.feed buf chunk = (tail, items.map .ok) := by
  simp only [feed, taken]

-- Chunk by chunk or all at once: the same items, and the same bytes left.
theorem fed {d : Decoder α ε} {chunks : List Bytes}
    (good : ∀ part, part <+: chunks.flatten → ∃ tail items, d.all part = (tail, .ok items))
    {tail : Bytes} {items : List α} (taken : d.all chunks.flatten = (tail, .ok items))
    (empty : d.all [] = ([], .ok [])) :
    Machine.emitted d.feed [] chunks = items.map .ok ∧ Machine.after d.feed [] chunks = tail := by
  apply @fed_by α ε _ d d.feed id ?_ chunks good tail items taken empty
  intro buf chunk tail items taken
  exact feed_agrees taken

end Decoder

section Header

theorem be32_length (n : ℕ) : (be32 n).length = 4 := rfl

theorem ofBe32_be32 {n : ℕ} (small : n < 2^32) : ofBe32 (be32 n) = n := by
  simp only [ofBe32, be32, List.foldl_cons, List.foldl_nil, UInt8.toNat_ofNat']
  omega

theorem header_prefixed {payload : Bytes} (small : payload.length < 2^32) (rest : Bytes) :
    ofBe32 ((prefixed payload ++ rest).take 4) = payload.length := by
  have header : (prefixed payload ++ rest).take 4 = be32 payload.length := by
    rw [prefixed, List.append_assoc]
    exact List.take_left' (be32_length _)
  rw [header, ofBe32_be32 small]

theorem prefixed_length (payload : Bytes) : (prefixed payload).length = 4 + payload.length := by
  rw [prefixed, List.length_append, be32_length]

end Header

section Fetch

variable {cap : ℕ}

theorem fetch_prefixed (small : cap < 2^32) {payload : Bytes} (fits : payload.length ≤ cap) (rest : Bytes) :
    fetch cap (prefixed payload ++ rest) = .whole payload rest := by
  have header := header_prefixed (Nat.lt_of_le_of_lt fits small) rest
  have total : (prefixed payload ++ rest).length = 4 + payload.length + rest.length := by
    rw [List.length_append, prefixed_length]
  unfold fetch
  rw [header, if_neg (by omega), if_neg (by omega), if_neg (by omega)]
  congr 1
  · rw [prefixed, List.append_assoc, List.drop_left' (be32_length _), List.take_left' rfl]
  · rw [List.drop_left' (prefixed_length payload)]

-- A buffer that holds only part of a frame is one to wait on.
theorem fetch_part (small : cap < 2^32) {payload buf rest : Bytes} (fits : payload.length ≤ cap)
    (part : buf ++ rest = prefixed payload) (missing : rest ≠ []) : fetch cap buf = .short := by
  have missed : 0 < rest.length := List.length_pos_of_ne_nil missing
  have total : buf.length + rest.length = 4 + payload.length := by
    rw [← prefixed_length, ← part, List.length_append]
  unfold fetch
  by_cases header : buf.length < 4
  · rw [if_pos header]
  · have size : ofBe32 (buf.take 4) = payload.length := by
      have same := header_prefixed (Nat.lt_of_le_of_lt fits small) []
      rwa [List.append_nil, ← part, List.take_append_of_le_length (by omega)] at same
    rw [if_neg header, size, if_neg (by omega), if_pos (by omega)]

theorem fetch_stable {buf payload rest : Bytes} (whole : fetch cap buf = .whole payload rest) (more : Bytes) :
    fetch cap (buf ++ more) = .whole payload (rest ++ more) := by
  unfold fetch at whole
  split at whole
  · cases whole
  · rename_i header
    have front : (buf ++ more).take 4 = buf.take 4 := List.take_append_of_le_length (by omega)
    split at whole
    · cases whole
    · split at whole
      · cases whole
      · cases whole
        unfold fetch
        rw [front, List.length_append, if_neg (by omega), if_neg (by omega), if_neg (by omega)]
        congr 1
        · rw [List.drop_append_of_le_length (by omega), List.take_append_of_le_length]
          rw [List.length_drop]
          omega
        · rw [List.drop_append_of_le_length (by omega)]

theorem fetch_shrinks {buf payload rest : Bytes} (whole : fetch cap buf = .whole payload rest) :
    rest.length < buf.length := by
  unfold fetch at whole
  split at whole
  · cases whole
  · split at whole
    · cases whole
    · split at whole
      · cases whole
      · cases whole
        rw [List.length_drop]
        omega

end Fetch

-- A codec of such frames: the fault of an oversized one and the reading of a payload.
structure Codec (α ε : Type*) where
  cap : ℕ
  small : cap < 2^32
  oversize : ℕ → ε
  read : Bytes → α

namespace Codec

variable {α ε : Type*}

def next (c : Codec α ε) (buf : Bytes) : Bytes × Except ε (Option α) :=
  match fetch c.cap buf with
  | .short => (buf, .ok none)
  | .oversize size => (buf, .error (c.oversize size))
  | .whole payload rest => (rest, .ok (some (c.read payload)))

def decoder (c : Codec α ε) : Decoder α ε where
  next := c.next
  shrinks := by
    intro buf rest item taken
    unfold next at taken
    split at taken
    · cases taken
    · cases taken
    · cases taken
      exact fetch_shrinks ‹_›
  stable := by
    intro buf rest item taken more
    unfold next at taken ⊢
    split at taken
    · cases taken
    · cases taken
    · cases taken
      rw [fetch_stable ‹_› more]
  waits := by
    intro buf rest taken
    unfold next at taken
    split at taken <;> cases taken
    rfl

theorem next_prefixed (c : Codec α ε) {payload : Bytes} (fits : payload.length ≤ c.cap) (rest : Bytes) :
    c.next (prefixed payload ++ rest) = (rest, .ok (some (c.read payload))) := by
  unfold next
  rw [fetch_prefixed c.small fits]

theorem next_part (c : Codec α ε) {payload buf rest : Bytes} (fits : payload.length ≤ c.cap)
    (part : buf ++ rest = prefixed payload) (missing : rest ≠ []) : c.next buf = (buf, .ok none) := by
  unfold next
  rw [fetch_part c.small fits part missing]

theorem next_nil (c : Codec α ε) : c.next [] = ([], .ok none) := rfl

end Codec

def stream (payloads : List Bytes) : Bytes := (payloads.map prefixed).flatten

-- The payloads whose frames lie wholly within the first n bytes of their stream.
def complete : List Bytes → ℕ → List Bytes
  | [], _ => []
  | payload :: rest, n =>
    if (prefixed payload).length ≤ n then payload :: complete rest (n - (prefixed payload).length) else []

section Stream

variable {α ε : Type*} {c : Codec α ε}

@[simp] theorem stream_cons (payload : Bytes) (rest : List Bytes) :
    stream (payload :: rest) = prefixed payload ++ stream rest := rfl

theorem stream_append (before after : List Bytes) : stream (before ++ after) = stream before ++ stream after := by
  rw [stream, List.map_append, List.flatten_append]
  rfl

-- A stream taken apart all at once: its payloads, and a tail that is not a frame yet.
theorem all_stream {payloads : List Bytes} (fit : ∀ payload ∈ payloads, payload.length ≤ c.cap) {tail : Bytes}
    (waits : c.next tail = (tail, .ok none)) :
    c.decoder.all (stream payloads ++ tail) = (tail, .ok (payloads.map c.read)) := by
  induction payloads with
  | nil => exact Decoder.all_stop waits
  | cons payload rest next =>
    have taken := c.next_prefixed (fit payload (by simp)) (stream rest ++ tail)
    have others := next fun other member => fit other (List.mem_cons_of_mem _ member)
    rw [stream_cons, List.append_assoc, @Decoder.all_item _ _ c.decoder _ _ _ taken, others]
    rfl

theorem complete_within (payloads : List Bytes) (n : ℕ) : complete payloads n <+: payloads := by
  induction payloads generalizing n with
  | nil => exact List.prefix_rfl
  | cons payload rest next =>
    rw [complete]
    split
    · exact List.prefix_cons_inj _ |>.mpr (next _)
    · exact List.nil_prefix

theorem complete_left (payloads : List Bytes) (n : ℕ) :
    ∃ left, payloads = complete payloads n ++ left ∧
      ∀ payload ∈ left.head?, n < (stream (complete payloads n ++ [payload])).length := by
  induction payloads generalizing n with
  | nil => exact ⟨[], rfl, by simp⟩
  | cons payload rest next =>
    rw [complete]
    split
    · rename_i whole
      obtain ⟨left, split, beyond⟩ := next (n - (prefixed payload).length)
      refine ⟨left, ?_, ?_⟩
      · rw [List.cons_append, ← split]
      · intro first head
        have later := beyond first head
        rw [List.cons_append, stream_cons, List.length_append]
        omega
    · rename_i cut
      refine ⟨payload :: rest, rfl, ?_⟩
      intro first head
      cases head
      simp only [List.nil_append, stream, List.map_cons, List.map_nil, List.flatten_singleton]
      omega

-- What a cut of the stream leaves in the buffer waits for the rest of its frame.
theorem cut_waits {payloads : List Bytes} (fit : ∀ payload ∈ payloads, payload.length ≤ c.cap) (n : ℕ) :
    ∃ tail, (stream payloads).take n = stream (complete payloads n) ++ tail ∧ c.next tail = (tail, .ok none) := by
  induction payloads generalizing n with
  | nil => exact ⟨[], by simp [stream, complete], c.next_nil⟩
  | cons payload rest next =>
    rw [complete]
    by_cases whole : (prefixed payload).length ≤ n
    · obtain ⟨tail, cut, waits⟩ := next (fun other member => fit other (List.mem_cons_of_mem _ member))
        (n - (prefixed payload).length)
      refine ⟨tail, ?_, waits⟩
      rw [if_pos whole, stream_cons, stream_cons, List.take_append, List.take_of_length_le whole, cut,
        List.append_assoc]
    · refine ⟨(prefixed payload).take n, ?_, ?_⟩
      · rw [if_neg whole, stream_cons, List.take_append_of_le_length (by omega)]
        rfl
      · refine c.next_part (fit payload (by simp)) (List.take_append_drop n _) ?_
        intro empty
        have size := congrArg List.length empty
        rw [List.length_drop, List.length_nil] at size
        omega

-- Any cut of a stream of frames gives the frames that are whole, and keeps the rest.
theorem all_part {payloads : List Bytes} (fit : ∀ payload ∈ payloads, payload.length ≤ c.cap) {part : Bytes}
    (within : part <+: stream payloads) :
    ∃ tail, part = stream (complete payloads part.length) ++ tail ∧
      c.decoder.all part = (tail, .ok ((complete payloads part.length).map c.read)) := by
  obtain ⟨tail, cut, waits⟩ := cut_waits fit part.length
  rw [← List.prefix_iff_eq_take.mp within] at cut
  refine ⟨tail, cut, ?_⟩
  have whole : ∀ payload ∈ complete payloads part.length, payload.length ≤ c.cap := by
    intro payload member
    exact fit payload ((complete_within _ _).subset member)
  have taken := all_stream whole waits
  rwa [← cut] at taken

theorem fed_part {payloads : List Bytes} (fit : ∀ payload ∈ payloads, payload.length ≤ c.cap) {chunks : List Bytes}
    (within : chunks.flatten <+: stream payloads) :
    Machine.emitted c.decoder.feed [] chunks = (complete payloads chunks.flatten.length).map (.ok ∘ c.read) ∧
      chunks.flatten = stream (complete payloads chunks.flatten.length) ++ Machine.after c.decoder.feed [] chunks := by
  obtain ⟨tail, cut, taken⟩ := all_part fit within
  have good : ∀ part, part <+: chunks.flatten → ∃ tail items, c.decoder.all part = (tail, .ok items) := by
    intro part earlier
    obtain ⟨left, _, given⟩ := all_part fit (earlier.trans within)
    exact ⟨left, _, given⟩
  obtain ⟨sent, buffered⟩ := Decoder.fed good taken (Decoder.all_stop c.next_nil)
  rw [sent, buffered, List.map_map]
  exact ⟨rfl, cut⟩

end Stream

end Framing
