import Corsair.Lib.Framing

namespace Framing

variable {α ε σ : Type*}

namespace Decoder

-- One item at a time: a fault comes after the items before it.
def each (d : Decoder α ε) (buf : Bytes) : Bytes × List (Except ε α) :=
  match _taken : d.next buf with
  | (rest, .error fault) => (rest, [.error fault])
  | (rest, .ok none) => (rest, [])
  | (rest, .ok (some item)) => ((d.each rest).1, .ok item :: (d.each rest).2)
termination_by buf.length
decreasing_by all_goals exact d.shrinks _taken

-- Three loops that read: one that keeps its buffer and takes items one at a time, one that
-- keeps it and takes batches until a fault ends it, and one whose every read is a new buffer.
def stepwise (d : Decoder α ε) (buf chunk : Bytes) : Bytes × List (Except ε α) := d.each (buf ++ chunk)

def untilFault (d : Decoder α ε) : Option Bytes → Bytes → Option Bytes × List (Except ε α)
  | none, _ => (none, [])
  | some buf, chunk => match d.all (buf ++ chunk) with
    | (rest, .ok items) => (some rest, items.map .ok)
    | (_, .error fault) => (none, [.error fault])

def afresh (d : Decoder α ε) (_ : Unit) (chunk : Bytes) : Unit × List (Except ε α) :=
  match d.all chunk with
  | (_, .ok items) => ((), items.map .ok)
  | (_, .error fault) => ((), [.error fault])

theorem each_stop {d : Decoder α ε} {buf rest : Bytes} (stops : d.next buf = (rest, .ok none)) :
    d.each buf = (rest, []) := by
  rw [each]
  split <;> simp_all

theorem each_item {d : Decoder α ε} {buf rest : Bytes} {item : α} (taken : d.next buf = (rest, .ok (some item))) :
    d.each buf = ((d.each rest).1, .ok item :: (d.each rest).2) := by
  rw [each]
  split <;> simp_all

theorem each_error {d : Decoder α ε} {buf rest : Bytes} {fault : ε} (fails : d.next buf = (rest, .error fault)) :
    d.each buf = (rest, [.error fault]) := by
  rw [each]
  split <;> simp_all

-- Without a fault the two ways to take all items agree.
theorem each_all {d : Decoder α ε} {buf tail : Bytes} {items : List α} (taken : d.all buf = (tail, .ok items)) :
    d.each buf = (tail, items.map .ok) := by
  apply all_induction _ _ taken
  · intro buf rest front
    exact each_stop front
  · intro buf rest tail item items front later
    rw [each_item front, later]
    rfl

theorem until_agrees {d : Decoder α ε} {buf chunk tail : Bytes} {items : List α}
    (taken : d.all (buf ++ chunk) = (tail, .ok items)) :
    d.untilFault (some buf) chunk = (some tail, items.map .ok) := by
  simp only [untilFault, taken]

theorem until_stopped {d : Decoder α ε} (chunks : List Bytes) :
    Machine.emitted d.untilFault none chunks = [] ∧ Machine.after d.untilFault none chunks = none := by
  induction chunks with
  | nil => exact ⟨rfl, rfl⟩
  | cons chunk rest next => exact next

end Decoder

-- The first read that brings the bytes read to n.
theorem crossing {chunks : List Bytes} {n : ℕ} (some : 0 < n) (enough : n ≤ chunks.flatten.length) :
    ∃ past chunk later, chunks = past ++ chunk :: later ∧ past.flatten.length < n ∧
      n ≤ past.flatten.length + chunk.length := by
  induction chunks using List.reverseRecOn with
  | nil =>
    rw [List.flatten_nil, List.length_nil] at enough
    omega
  | append_singleton chunks last next =>
    by_cases earlier : n ≤ chunks.flatten.length
    · obtain ⟨past, chunk, later, rfl, before, after⟩ := next earlier
      exact ⟨past, chunk, later ++ [last], by simp, before, after⟩
    · refine ⟨chunks, last, [], rfl, by omega, ?_⟩
      simpa using enough

def Codec.due (c : Codec α ε) (bodies : List Bytes) : List (Except ε α) := bodies.map fun body => .ok (c.read body)

theorem due_append (c : Codec α ε) (before after : List Bytes) :
    c.due (before ++ after) = c.due before ++ c.due after :=
  List.map_append

section Header

variable {c : Codec α ε} {bodies : List Bytes}

theorem next_short {part : Bytes} (short : part.length < 4) : c.next part = (part, .ok none) := by
  unfold Codec.next fetch
  rw [if_pos short]

theorem next_oversize {size : ℕ} (exceeds : c.cap < size) (word : size < 2 ^ 32) (more : Bytes) :
    c.next (be32 size ++ more) = (be32 size ++ more, .error (c.oversize size)) := by
  have front : ofBe32 ((be32 size ++ more).take 4) = size := by
    rw [List.take_left' (be32_length size), ofBe32_be32 word]
  have long : ¬(be32 size ++ more).length < 4 := by
    rw [List.length_append, be32_length]
    omega
  unfold Codec.next fetch
  rw [front, if_neg long, if_pos exceeds]

theorem all_fault (fit : ∀ body ∈ bodies, body.length ≤ c.cap) {size : ℕ} (exceeds : c.cap < size)
    (word : size < 2 ^ 32) (more : Bytes) :
    c.decoder.all (stream bodies ++ (be32 size ++ more)) = (be32 size ++ more, .error (c.oversize size)) := by
  have whole := all_stream fit c.next_nil
  rw [List.append_nil] at whole
  rw [Decoder.all_append whole, List.nil_append,
    @Decoder.all_error _ _ c.decoder _ _ _ (next_oversize exceeds word more)]
  rfl

theorem each_fault (fit : ∀ body ∈ bodies, body.length ≤ c.cap) {size : ℕ} (exceeds : c.cap < size)
    (word : size < 2 ^ 32) (more : Bytes) :
    c.decoder.each (stream bodies ++ (be32 size ++ more)) =
      (be32 size ++ more, c.due bodies ++ [.error (c.oversize size)]) := by
  induction bodies with
  | nil => exact @Decoder.each_error _ _ c.decoder _ _ _ (next_oversize exceeds word more)
  | cons body rest next =>
    have taken := c.next_prefixed (fit body (by simp)) (stream rest ++ (be32 size ++ more))
    have others := next fun other member => fit other (List.mem_cons_of_mem _ member)
    rw [stream_cons, List.append_assoc, @Decoder.each_item _ _ c.decoder _ _ _ taken, others]
    rfl

theorem complete_whole {n : ℕ} (past : (stream bodies).length ≤ n) : complete bodies n = bodies := by
  obtain ⟨left, split, beyond⟩ := complete_left bodies n
  cases left with
  | nil => rwa [List.append_nil, eq_comm] at split
  | cons body rest =>
    have short := beyond body rfl
    have size := congrArg (fun all => (stream all).length) split
    rw [List.append_cons] at size
    simp only [stream_append, List.length_append] at size short
    omega

theorem complete_mono {m n : ℕ} (le : m ≤ n) : complete bodies m <+: complete bodies n := by
  induction bodies generalizing m n with
  | nil => exact List.prefix_rfl
  | cons body rest next =>
    rw [complete, complete]
    split
    · rw [if_pos (by omega), List.prefix_cons_inj]
      exact next (by omega)
    · exact List.nil_prefix

-- At a boundary between two frames nothing is cut off.
theorem complete_stream (done left : List Bytes) : complete (done ++ left) (stream done).length = done := by
  induction done with
  | nil =>
    cases left with
    | nil => rfl
    | cons body rest =>
      have positive := prefixed_length body
      rw [List.nil_append, complete, if_neg]
      change ¬(prefixed body).length ≤ 0
      omega
  | cons body rest next =>
    rw [stream_cons, List.length_append, List.cons_append, complete, if_pos (by omega), Nat.add_sub_cancel_left, next]

-- Up to the last byte before its header is whole, the bad frame disturbs nothing.
theorem all_before (fit : ∀ body ∈ bodies, body.length ≤ c.cap) {header part : Bytes} (short : header.length < 4)
    (within : part <+: stream bodies ++ header) :
    ∃ tail, part = stream (complete bodies part.length) ++ tail ∧
      c.decoder.all part = (tail, .ok ((complete bodies part.length).map c.read)) := by
  by_cases inside : part.length ≤ (stream bodies).length
  · exact all_part fit (List.prefix_of_prefix_length_le within (List.prefix_append _ _) inside)
  · have whole := @complete_whole bodies part.length (by omega)
    obtain ⟨tail, rfl⟩ := List.prefix_of_prefix_length_le (List.prefix_append _ _) within (by omega)
    have cut := (List.prefix_append_right_inj _).mp within
    rw [whole]
    exact ⟨tail, rfl, all_stream fit (next_short (Nat.lt_of_le_of_lt cut.length_le short))⟩

-- With a fault behind them nothing but the complete items can have been all of them.
theorem fault_unsent {n : ℕ} {left : List Bytes} {fault : ε} (parts : bodies = complete bodies n ++ left)
    (given : c.due bodies <+: c.due (complete bodies n) ++ [.error fault]) : left = [] := by
  have all : c.due bodies = c.due (complete bodies n) ++ c.due left := by
    rw [← due_append, ← parts]
  rw [all, List.prefix_append_right_inj] at given
  cases left with
  | nil => rfl
  | cons body others =>
    rw [Codec.due, List.map_cons, List.cons_prefix_cons] at given
    cases given.1

end Header

-- What a reader owes a stream of frames with a bad one behind them: every frame is given out
-- before anything else is, and at each moment what is not given out is still to be read.
structure Preserved (c : Codec α ε) (step : σ → Bytes → σ × List (Except ε α)) (held : σ → Bytes) (start : σ)
    (bodies : List Bytes) (bad : Bytes) (chunks : List Bytes) : Prop where
  delivered : c.due bodies <+: Machine.emitted step start chunks
  kept : ∀ past later, chunks = past ++ later →
    c.due bodies <+: Machine.emitted step start past ∨
    ∃ done left, bodies = done ++ left ∧ Machine.emitted step start past = c.due done ∧
      held (Machine.after step start past) ++ later.flatten = stream left ++ bad

-- A stream with a bad frame behind its good ones, cut into reads.
structure BadStream (cap : ℕ) (bodies : List Bytes) (size : ℕ) (rest : Bytes) (chunks : List Bytes) : Prop where
  fit : ∀ body ∈ bodies, body.length ≤ cap
  exceeds : cap < size
  word : size < 2 ^ 32
  whole : chunks.flatten = stream bodies ++ (be32 size ++ rest)

-- Some read ends behind the last good frame and before the fourth byte of the bad header.
def Pause (bodies chunks : List Bytes) : Prop :=
  ∃ past later, chunks = past ++ later ∧ (stream bodies).length ≤ past.flatten.length ∧
    past.flatten.length < (stream bodies).length + 4

-- Every read that starts among the good frames ends between two of them, or in that pause.
def Aligned (bodies chunks : List Bytes) : Prop :=
  ∀ past chunk later, chunks = past ++ chunk :: later → past.flatten.length < (stream bodies).length →
    (∃ done left, bodies = done ++ left ∧ past.flatten.length + chunk.length = (stream done).length) ∨
    ((stream bodies).length ≤ past.flatten.length + chunk.length ∧
      past.flatten.length + chunk.length < (stream bodies).length + 4)

theorem emitted_prefix {ο ι : Type*} {step : σ → ι → σ × List ο} (start : σ) (past later : List ι) :
    Machine.emitted step start past <+: Machine.emitted step start (past ++ later) := by
  rw [Machine.emitted_append]
  exact List.prefix_append _ _

section Reader

variable {c : Codec α ε} {bodies : List Bytes} (fit : ∀ body ∈ bodies, body.length ≤ c.cap) {size : ℕ} {rest : Bytes}
  {chunks : List Bytes} (whole : chunks.flatten = stream bodies ++ (be32 size ++ rest))

include whole

theorem enough_read : (stream bodies).length + 4 ≤ chunks.flatten.length := by
  have total := congrArg List.length whole
  rw [List.length_append, List.length_append, be32_length] at total
  omega

-- Bytes read past the bad header, of which the good frames before a cut are gone.
theorem crossed {past later : List Bytes} {chunk tail : Bytes} {done left : List Bytes}
    (split : chunks = past ++ chunk :: later) (parts : bodies = done ++ left) (cut : past.flatten = stream done ++ tail)
    (beyond : (stream bodies).length + 4 ≤ past.flatten.length + chunk.length) :
    ∃ more, tail ++ chunk = stream left ++ (be32 size ++ more) := by
  have unread : (tail ++ chunk) ++ later.flatten = stream left ++ (be32 size ++ rest) := by
    refine @List.append_cancel_left _ (stream done) _ _ ?_
    calc stream done ++ ((tail ++ chunk) ++ later.flatten)
        = chunks.flatten := by simp [split, cut]
      _ = stream done ++ (stream left ++ (be32 size ++ rest)) := by simp [whole, parts, stream_append]
  have long : (stream left ++ be32 size).length ≤ (tail ++ chunk).length := by
    have sizes := congrArg List.length cut
    rw [parts, stream_append] at beyond
    simp only [List.length_append, be32_length] at sizes beyond ⊢
    omega
  have front : stream left ++ be32 size <+: stream left ++ (be32 size ++ rest) := by
    rw [← List.append_assoc]
    exact List.prefix_append _ _
  obtain ⟨more, equal⟩ := List.prefix_of_prefix_length_le front (unread ▸ List.prefix_append _ _) long
  exact ⟨more, by rw [← equal, List.append_assoc]⟩

include fit

-- A loop that takes all there is has, up to the pause, given out the complete frames and
-- holds the rest of what it read.
theorem early {step : σ → Bytes → σ × List (Except ε α)} {hold : Bytes → σ}
    (agrees : ∀ {buf chunk tail : Bytes} {items : List α}, c.decoder.all (buf ++ chunk) = (tail, .ok items) →
      step (hold buf) chunk = (hold tail, items.map .ok)) {past later : List Bytes} (split : chunks = past ++ later)
    (before : past.flatten.length < (stream bodies).length + 4) :
    ∃ tail, past.flatten = stream (complete bodies past.flatten.length) ++ tail ∧
      Machine.emitted step (hold []) past = c.due (complete bodies past.flatten.length) ∧
      Machine.after step (hold []) past = hold tail := by
  have read : past.flatten <+: stream bodies ++ (be32 size ++ rest) := by
    rw [← whole, split, List.flatten_append]
    exact List.prefix_append _ _
  have front : stream bodies ++ (be32 size).take 3 <+: stream bodies ++ (be32 size ++ rest) :=
    (List.prefix_append_right_inj _).mpr ((List.take_prefix _ _).trans (List.prefix_append _ _))
  have bound : (stream bodies ++ (be32 size).take 3).length = (stream bodies).length + 3 := by
    simp [be32_length]
  have within := List.prefix_of_prefix_length_le read front (by omega)
  have short : ((be32 size).take 3).length < 4 := by simp [be32_length]
  obtain ⟨tail, cut, taken⟩ := all_before fit short within
  have good : ∀ part, part <+: past.flatten → ∃ tail items, c.decoder.all part = (tail, .ok items) := by
    intro part earlier
    obtain ⟨left, -, given⟩ := all_before fit short (earlier.trans within)
    exact ⟨left, _, given⟩
  obtain ⟨sent, buffered⟩ := Decoder.fed_by agrees good taken (Decoder.all_stop c.next_nil)
  refine ⟨tail, cut, ?_, buffered⟩
  rw [sent, List.map_map]
  rfl

theorem early_kept {step : σ → Bytes → σ × List (Except ε α)} {hold : Bytes → σ} {held : σ → Bytes}
    (holds : ∀ buf, held (hold buf) = buf)
    (agrees : ∀ {buf chunk tail : Bytes} {items : List α}, c.decoder.all (buf ++ chunk) = (tail, .ok items) →
      step (hold buf) chunk = (hold tail, items.map .ok)) {past later : List Bytes} (split : chunks = past ++ later)
    (before : past.flatten.length < (stream bodies).length + 4) :
    ∃ done left, bodies = done ++ left ∧ Machine.emitted step (hold []) past = c.due done ∧
      held (Machine.after step (hold []) past) ++ later.flatten = stream left ++ (be32 size ++ rest) := by
  obtain ⟨tail, cut, sent, buffered⟩ := early fit whole agrees split before
  obtain ⟨left, parts, -⟩ := complete_left bodies past.flatten.length
  refine ⟨_, left, parts, sent, ?_⟩
  rw [buffered, holds]
  refine @List.append_cancel_left _ (stream (complete bodies past.flatten.length)) _ _ ?_
  calc stream (complete bodies past.flatten.length) ++ (tail ++ later.flatten)
      = past.flatten ++ later.flatten := by rw [← List.append_assoc, ← cut]
    _ = stream bodies ++ (be32 size ++ rest) := by rw [← List.flatten_append, ← split, whole]
    _ = stream (complete bodies past.flatten.length) ++ (stream left ++ (be32 size ++ rest)) := by
      rw [← List.append_assoc (stream (complete _ _)), ← stream_append, ← parts]

variable (exceeds : c.cap < size) (word : size < 2 ^ 32)

include exceeds word

theorem stepwise_late {past later : List Bytes} (split : chunks = past ++ later)
    (beyond : (stream bodies).length + 4 ≤ past.flatten.length) :
    c.due bodies <+: Machine.emitted c.decoder.stepwise [] past := by
  obtain ⟨first, chunk, others, rfl, before, after⟩ := crossing (by omega) beyond
  have apart : chunks = first ++ chunk :: (others ++ later) := by simp [split]
  obtain ⟨tail, cut, sent, held⟩ := @early _ _ _ c bodies fit _ _ _ whole c.decoder.stepwise id
    (fun taken => Decoder.each_all taken) _ _ apart before
  rw [id] at sent held
  obtain ⟨left, parts, -⟩ := complete_left bodies first.flatten.length
  obtain ⟨more, next⟩ := crossed whole apart parts cut after
  have fits : ∀ body ∈ left, body.length ≤ c.cap := by
    intro body member
    exact fit body (parts ▸ List.mem_append_right _ member)
  have all : c.due bodies = c.due (complete bodies first.flatten.length) ++ c.due left := by
    rw [← due_append, ← parts]
  rw [Machine.emitted_append, sent, all, List.prefix_append_right_inj]
  change _ <+: (c.decoder.each (Machine.after c.decoder.stepwise [] first ++ chunk)).2 ++ _
  rw [held, id, next, each_fault fits exceeds word, List.append_assoc]
  exact List.prefix_append _ _

-- One item at a time loses nothing, however the stream is cut.
theorem stepwise_preserved :
    Preserved c c.decoder.stepwise id [] bodies (be32 size ++ rest) chunks := by
  constructor
  case delivered => exact stepwise_late fit whole exceeds word (List.append_nil _).symm (enough_read whole)
  case kept =>
    intro past later split
    by_cases before : past.flatten.length < (stream bodies).length + 4
    · exact .inr (@early_kept _ _ _ c bodies fit _ _ _ whole c.decoder.stepwise id id (fun _ => rfl)
        (fun taken => Decoder.each_all taken) _ _ split before)
    · exact .inl (stepwise_late fit whole exceeds word split (by omega))

-- Past the bad header the loop has ended, on the batch that had the header in it.
theorem until_late :
    ∃ past later, chunks = past ++ later ∧ past.flatten.length < (stream bodies).length + 4 ∧
      Machine.emitted c.decoder.untilFault (some []) chunks =
        c.due (complete bodies past.flatten.length) ++ [.error (c.oversize size)] := by
  obtain ⟨first, chunk, others, split, before, after⟩ := crossing (by omega) (enough_read whole)
  obtain ⟨tail, cut, sent, held⟩ := @early _ _ _ c bodies fit _ _ _ whole c.decoder.untilFault some
    Decoder.until_agrees _ _ split before
  obtain ⟨left, parts, -⟩ := complete_left bodies first.flatten.length
  obtain ⟨more, next⟩ := crossed whole split parts cut after
  have fits : ∀ body ∈ left, body.length ≤ c.cap := by
    intro body member
    exact fit body (parts ▸ List.mem_append_right _ member)
  have ends : c.decoder.untilFault (some tail) chunk = (none, [.error (c.oversize size)]) := by
    simp only [Decoder.untilFault, next, all_fault fits exceeds word]
  refine ⟨first, chunk :: others, split, before, ?_⟩
  rw [split, Machine.emitted_append, sent, held]
  simp only [Machine.emitted, ends, (Decoder.until_stopped others).1, List.append_nil]

theorem until_preserved :
    Preserved c c.decoder.untilFault (·.getD []) (some []) bodies (be32 size ++ rest) chunks ↔
      Pause bodies chunks := by
  constructor
  · intro preserved
    obtain ⟨past, later, split, before, sent⟩ := until_late fit whole exceeds word
    refine ⟨past, later, split, ?_, before⟩
    obtain ⟨tail, cut, -⟩ := @early _ _ _ c bodies fit _ _ _ whole c.decoder.untilFault some
      Decoder.until_agrees _ _ split before
    obtain ⟨left, parts, -⟩ := complete_left bodies past.flatten.length
    have given := preserved.delivered
    rw [sent] at given
    rw [fault_unsent parts given, List.append_nil] at parts
    rw [← parts] at cut
    rw [cut, List.length_append]
    omega
  · intro pause
    obtain ⟨past, later, split, reached, before⟩ := pause
    have given : Machine.emitted c.decoder.untilFault (some []) past = c.due bodies := by
      obtain ⟨tail, -, sent, -⟩ := @early _ _ _ c bodies fit _ _ _ whole c.decoder.untilFault some
        Decoder.until_agrees _ _ split before
      rwa [complete_whole reached] at sent
    constructor
    case delivered =>
      rw [← given, split]
      exact emitted_prefix _ _ _
    case kept =>
      intro other rest apart
      by_cases early : other.flatten.length < (stream bodies).length + 4
      · exact .inr (@early_kept _ _ _ c bodies fit _ _ _ whole c.decoder.untilFault some (·.getD []) (fun _ => rfl)
          Decoder.until_agrees _ _ apart early)
      · left
        have within : past <+: other := by
          have one : past <+: chunks := split ▸ List.prefix_append _ _
          have two : other <+: chunks := apart ▸ List.prefix_append _ _
          rcases List.prefix_or_prefix_of_prefix one two with shorter | ⟨more, rfl⟩
          · exact shorter
          · rw [List.flatten_append, List.length_append] at before
            omega
        obtain ⟨more, rfl⟩ := within
        rw [← given]
        exact emitted_prefix _ _ _

end Reader

section Afresh

variable {c : Codec α ε} {bodies : List Bytes} (fit : ∀ body ∈ bodies, body.length ≤ c.cap) {size : ℕ} {rest : Bytes}
  {chunks : List Bytes} (whole : chunks.flatten = stream bodies ++ (be32 size ++ rest))

-- The reads so far end between two frames, and gave out all the frames before that.
structure Begun (c : Codec α ε) (bodies past : List Bytes) : Prop where
  cut : past.flatten = stream (complete bodies past.flatten.length)
  sent : Machine.emitted c.decoder.afresh () past = c.due (complete bodies past.flatten.length)

theorem begun_nil (bodies : List Bytes) : Begun c bodies [] := by
  have none : complete bodies 0 = [] := complete_stream [] bodies
  exact ⟨by simp [none, stream], by simp [none, Machine.emitted, Codec.due]⟩

-- Read by read, what holds of the reads that end inside the stream.
theorem begun_along
    (next : ∀ past chunk later, chunks = past ++ chunk :: later →
      past.flatten.length + chunk.length < (stream bodies).length → Begun c bodies past →
      Begun c bodies (past ++ [chunk]))
    {past later : List Bytes} (split : chunks = past ++ later)
    (inside : past.flatten.length < (stream bodies).length) : Begun c bodies past := by
  induction past using List.reverseRecOn generalizing later with
  | nil => exact begun_nil bodies
  | append_singleton past chunk before =>
    rw [List.flatten_append, List.length_append, List.flatten_singleton] at inside
    have apart : chunks = past ++ chunk :: later := by simp [split]
    exact next past chunk later apart inside (before apart (by omega))

theorem begun_missing {past : List Bytes} (begun : Begun c bodies past)
    (inside : past.flatten.length < (stream bodies).length) {left : List Bytes}
    (parts : bodies = complete bodies past.flatten.length ++ left) : left ≠ [] := by
  intro empty
  rw [empty, List.append_nil] at parts
  have sizes := congrArg List.length begun.cut
  rw [← parts] at sizes
  omega

include whole

theorem read_within {past later : List Bytes} (split : chunks = past ++ later)
    (inside : past.flatten.length ≤ (stream bodies).length) : past.flatten <+: stream bodies := by
  refine List.prefix_of_prefix_length_le ?_ (whole ▸ List.prefix_append _ _) inside
  rw [split, List.flatten_append]
  exact List.prefix_append _ _

include fit

theorem afresh_sent {past later : List Bytes} {chunk : Bytes} (split : chunks = past ++ chunk :: later)
    (begun : Begun c bodies past) (before : past.flatten.length + chunk.length < (stream bodies).length + 4) :
    ∃ left tail, bodies = complete bodies past.flatten.length ++ left ∧
      chunk = stream (complete left chunk.length) ++ tail ∧
      Machine.emitted c.decoder.afresh () (past ++ [chunk]) =
        c.due (complete bodies past.flatten.length ++ complete left chunk.length) := by
  obtain ⟨left, parts, -⟩ := complete_left bodies past.flatten.length
  have fits : ∀ body ∈ left, body.length ≤ c.cap := by
    intro body member
    exact fit body (parts ▸ List.mem_append_right _ member)
  have unread : (chunk :: later).flatten = stream left ++ (be32 size ++ rest) := by
    refine @List.append_cancel_left _ (stream (complete bodies past.flatten.length)) _ _ ?_
    calc stream (complete bodies past.flatten.length) ++ (chunk :: later).flatten
        = past.flatten ++ (chunk :: later).flatten := by rw [← begun.cut]
      _ = stream bodies ++ (be32 size ++ rest) := by rw [← List.flatten_append, ← split, whole]
      _ = stream (complete bodies past.flatten.length) ++ (stream left ++ (be32 size ++ rest)) := by
        rw [← List.append_assoc (stream (complete _ _)), ← stream_append, ← parts]
  have sizes := congrArg (fun all => (stream all).length) parts
  have cut := congrArg List.length begun.cut
  simp only [stream_append, List.length_append] at sizes
  have front : stream left ++ (be32 size).take 3 <+: stream left ++ (be32 size ++ rest) :=
    (List.prefix_append_right_inj _).mpr ((List.take_prefix _ _).trans (List.prefix_append _ _))
  have bound : (stream left ++ (be32 size).take 3).length = (stream left).length + 3 := by
    simp [be32_length]
  have first : chunk <+: stream left ++ (be32 size ++ rest) := by
    rw [← unread, List.flatten_cons]
    exact List.prefix_append _ _
  have within := List.prefix_of_prefix_length_le first front (by omega)
  obtain ⟨tail, apart, taken⟩ := all_before fits (by simp [be32_length]) within
  refine ⟨left, tail, parts, apart, ?_⟩
  rw [Machine.emitted_append, begun.sent, due_append]
  congr 1
  simp only [Machine.emitted, Decoder.afresh, taken, List.append_nil, List.map_map]
  rfl

theorem begun_step {past later : List Bytes} {chunk : Bytes} (split : chunks = past ++ chunk :: later)
    (begun : Begun c bodies past) {done left : List Bytes} (parts : bodies = done ++ left)
    (ends : past.flatten.length + chunk.length = (stream done).length) : Begun c bodies (past ++ [chunk]) := by
  have reached : (past ++ [chunk]).flatten.length = (stream done).length := by simp [← ends]
  have inside : (stream done).length ≤ (stream bodies).length := by
    rw [parts, stream_append, List.length_append]
    omega
  have gone : complete bodies (past ++ [chunk]).flatten.length = done := by
    rw [reached, parts, complete_stream]
  have cut : (past ++ [chunk]).flatten = stream done := by
    have one : (past ++ [chunk]).flatten <+: stream bodies := by
      refine @read_within bodies size rest chunks whole (past ++ [chunk]) later ?_ (by omega)
      rw [split, List.append_assoc, List.singleton_append]
    have two : stream done <+: stream bodies := by
      rw [parts, stream_append]
      exact List.prefix_append _ _
    exact (List.prefix_of_prefix_length_le one two (by omega)).eq_of_length reached
  obtain ⟨middle, more⟩ := @complete_mono bodies _ _ (Nat.le_add_right past.flatten.length chunk.length)
  rw [ends, parts, complete_stream, ← parts] at more
  have frames : chunk = stream middle := by
    refine @List.append_cancel_left _ past.flatten _ _ ?_
    rw [← List.flatten_concat, cut, ← more, stream_append, ← begun.cut]
  have fits : ∀ body ∈ middle, body.length ≤ c.cap := by
    intro body member
    refine fit body ?_
    rw [parts, ← more]
    exact List.mem_append_left _ (List.mem_append_right _ member)
  have taken := all_stream fits c.next_nil
  rw [List.append_nil, ← frames] at taken
  constructor
  case cut => rw [gone, cut]
  case sent =>
    rw [gone, ← more, due_append, Machine.emitted_append, begun.sent]
    congr 1
    simp only [Machine.emitted, Decoder.afresh, taken, List.append_nil, List.map_map]
    rfl

theorem aligned_begun (aligned : Aligned bodies chunks) {past later : List Bytes} (split : chunks = past ++ later)
    (inside : past.flatten.length < (stream bodies).length) : Begun c bodies past := by
  apply begun_along ?_ split inside
  intro past chunk later apart inside begun
  rcases aligned past chunk later apart (by omega) with ⟨done, left, parts, ends⟩ | ⟨reached, -⟩
  · exact begun_step fit whole apart begun parts ends
  · omega

theorem aligned_late (aligned : Aligned bodies chunks) {past later : List Bytes} (split : chunks = past ++ later)
    (reached : (stream bodies).length ≤ past.flatten.length) :
    c.due bodies <+: Machine.emitted c.decoder.afresh () past := by
  rcases Nat.eq_zero_or_pos (stream bodies).length with zero | some
  · have none : bodies = [] := by
      rw [← complete_whole (Nat.le_of_eq zero)]
      exact complete_stream [] bodies
    rw [none]
    exact List.nil_prefix
  · obtain ⟨first, chunk, others, rfl, before, after⟩ := crossing some reached
    have apart : chunks = first ++ chunk :: (others ++ later) := by simp [split]
    have bound : first.flatten.length + chunk.length < (stream bodies).length + 4 := by
      rcases aligned first chunk _ apart before with ⟨done, left, parts, ends⟩ | ⟨-, bound⟩
      · rw [parts, stream_append, List.length_append, ends]
        omega
      · exact bound
    have begun : Begun c bodies first := aligned_begun fit whole aligned apart before
    obtain ⟨left, tail, parts, -, sent⟩ := afresh_sent fit whole apart begun bound
    have sizes := congrArg (fun all => (stream all).length) parts
    have cut := congrArg List.length begun.cut
    simp only [stream_append, List.length_append] at sizes
    have taken : complete left chunk.length = left := complete_whole (by omega)
    rw [taken, ← parts] at sent
    rw [← sent, show first ++ chunk :: others = (first ++ [chunk]) ++ others by simp]
    exact emitted_prefix _ _ _

-- Of a batch with the bad header in it nothing is given out.
theorem afresh_fault (exceeds : c.cap < size) (word : size < 2 ^ 32) {past later : List Bytes} {chunk : Bytes}
    (split : chunks = past ++ chunk :: later) (begun : Begun c bodies past)
    (beyond : (stream bodies).length + 4 ≤ past.flatten.length + chunk.length) :
    Machine.emitted c.decoder.afresh () (past ++ [chunk]) =
      c.due (complete bodies past.flatten.length) ++ [.error (c.oversize size)] := by
  obtain ⟨left, parts, -⟩ := complete_left bodies past.flatten.length
  have cut : past.flatten = stream (complete bodies past.flatten.length) ++ [] := by
    rw [List.append_nil]
    exact begun.cut
  obtain ⟨more, next⟩ := crossed whole split parts cut beyond
  have fits : ∀ body ∈ left, body.length ≤ c.cap := by
    intro body member
    exact fit body (parts ▸ List.mem_append_right _ member)
  rw [Machine.emitted_append, begun.sent, ← List.nil_append chunk, next]
  simp only [Machine.emitted, Decoder.afresh, all_fault fits exceeds word, List.append_nil]

theorem preserved_begun
    (preserved : Preserved c c.decoder.afresh (fun _ => []) () bodies (be32 size ++ rest) chunks)
    {past later : List Bytes} (split : chunks = past ++ later)
    (inside : past.flatten.length < (stream bodies).length) : Begun c bodies past := by
  apply begun_along ?_ split inside
  intro past chunk later apart inside begun
  have split : chunks = (past ++ [chunk]) ++ later := by simp [apart]
  rcases preserved.kept _ _ split with given | ⟨done, left, parts, -, unread⟩
  · obtain ⟨left, tail, parts, cut, sent⟩ := afresh_sent fit whole apart begun (by omega)
    have all : c.due bodies = c.due (complete bodies past.flatten.length) ++ c.due left := by
      rw [← due_append, ← parts]
    rw [sent, due_append, all, List.prefix_append_right_inj] at given
    have count := given.length_le
    simp only [Codec.due, List.length_map] at count
    have taken : complete left chunk.length = left := (complete_within _ _).eq_of_length_le count
    rw [taken] at cut
    have sizes := congrArg (fun all => (stream all).length) parts
    have read := congrArg List.length cut
    have gone := congrArg List.length begun.cut
    simp only [stream_append, List.length_append] at sizes read
    omega
  · refine begun_step fit whole apart begun parts ?_
    have total := congrArg List.length whole
    rw [split, List.flatten_append, List.length_append, parts, stream_append] at total
    rw [List.nil_append] at unread
    have later := congrArg List.length unread
    simp only [List.length_append, List.flatten_append, List.flatten_singleton] at total later
    omega

theorem afresh_preserved (exceeds : c.cap < size) (word : size < 2 ^ 32) :
    Preserved c c.decoder.afresh (fun _ => []) () bodies (be32 size ++ rest) chunks ↔ Aligned bodies chunks := by
  constructor
  · intro preserved past chunk later split inside
    have begun := preserved_begun fit whole preserved split inside
    rcases Nat.lt_or_ge (past.flatten.length + chunk.length) (stream bodies).length with short | reached
    · left
      have apart : chunks = (past ++ [chunk]) ++ later := by simp [split]
      have after := preserved_begun fit whole preserved apart (by simpa using short)
      obtain ⟨left, parts, -⟩ := complete_left bodies (past ++ [chunk]).flatten.length
      refine ⟨_, left, parts, ?_⟩
      rw [← after.cut]
      simp
    · refine .inr ⟨reached, ?_⟩
      by_contra late
      obtain ⟨left, parts, -⟩ := complete_left bodies past.flatten.length
      have sent := afresh_fault fit whole exceeds word split begun (by omega)
      rcases preserved.kept (past ++ [chunk]) later (by simp [split]) with given | ⟨done, others, -, other, -⟩
      · rw [sent] at given
        exact begun_missing begun inside parts (fault_unsent parts given)
      · have last : Except.error (c.oversize size) ∈ c.due done := by
          rw [← other, sent]
          simp
        simp [Codec.due] at last
  · intro aligned
    constructor
    case delivered =>
      refine aligned_late fit whole aligned (List.append_nil _).symm ?_
      have enough := enough_read whole
      omega
    case kept =>
      intro past later split
      rcases Nat.lt_or_ge past.flatten.length (stream bodies).length with inside | reached
      · right
        have begun : Begun c bodies past := aligned_begun fit whole aligned split inside
        obtain ⟨left, parts, -⟩ := complete_left bodies past.flatten.length
        refine ⟨_, left, parts, begun.sent, ?_⟩
        refine @List.append_cancel_left _ past.flatten _ _ ?_
        calc past.flatten ++ ([] ++ later.flatten)
            = stream bodies ++ (be32 size ++ rest) := by rw [List.nil_append, ← List.flatten_append, ← split, whole]
          _ = stream (complete bodies past.flatten.length) ++ (stream left ++ (be32 size ++ rest)) := by
            rw [← List.append_assoc (stream (complete _ _)), ← stream_append, ← parts]
          _ = past.flatten ++ (stream left ++ (be32 size ++ rest)) := by rw [← begun.cut]
      · exact .inl (aligned_late fit whole aligned split reached)

end Afresh

end Framing
