import Corsair.Ipc.Protocol
import Corsair.Lib.Readers
import Corsair.Native.Codec

open Framing

namespace Corsair.Native

-- The receive task up to what it forwards: its buffer, or `none` once it has left its loop.
def recvTask : Option Bytes → Bytes → Option Bytes × List (Except NativeError Frame)
  | none, _ => (none, [])
  | some buf, read =>
    match tryDecodeAll (buf ++ read) with
    | (rest, .ok frames) => (some rest, frames.map .ok)
    | (_, .error e) => (none, [.error e])

theorem recvTask_until : recvTask = codec.decoder.untilFault := by
  funext state read
  cases state with
  | none => rfl
  | some buf =>
    simp only [recvTask, Decoder.untilFault, tryDecodeAll]
    rcases codec.decoder.all (buf ++ read) with ⟨rest, fault | frames⟩ <;> rfl

end Corsair.Native

namespace Corsair.Ipc

-- One poll of the command pump, up to what it sends on. Its buffer is a new one each time.
def commandPump (_ : Unit) (bytes : Bytes) : Unit × List (Except IoError Bytes) :=
  if bytes.isEmpty then ((), [])
  else match (unpackAllFrames bytes).2 with
    | .ok frames => ((), frames.map .ok)
    | .error e => ((), [.error e])

theorem commandPump_afresh : commandPump = codec.decoder.afresh := by
  funext state bytes
  unfold commandPump Decoder.afresh unpackAllFrames
  cases bytes with
  | nil =>
    have stops : codec.decoder.all [] = ([], .ok []) := Decoder.all_stop codec.next_nil
    rw [stops]
    rfl
  | cons byte rest =>
    rw [List.isEmpty_cons, if_neg (by simp)]
    rcases codec.decoder.all (byte :: rest) with ⟨left, fault | frames⟩ <;> rfl

-- protocol.py. `unpackb` is the msgpack parser, `none` where it raises; the generator skips
-- such a frame.
inductive PyError where
  | valueError (message : String)
  deriving DecidableEq

def pyCodec {μ : Type} (unpackb : Bytes → Option μ) : Codec (Option μ) PyError where
  cap := maxFrameBytes
  small := codec.small
  oversize size := .valueError s!"oversize frame on wire: {size} > {maxFrameBytes}"
  read := unpackb

def unpackFrames {μ : Type} (unpackb : Bytes → Option μ) (buffer : Bytes) : Bytes × List (Except PyError (Option μ)) :=
  (pyCodec unpackb).decoder.each buffer

-- Its caller appends what it has read and runs the generator again.
def readFrames {μ : Type} (unpackb : Bytes → Option μ) (buffer read : Bytes) :
    Bytes × List (Except PyError (Option μ)) :=
  unpackFrames unpackb (buffer ++ read)

section Claim

variable {bodies : List Bytes} {size : ℕ} {rest : Bytes} {chunks : List Bytes}

theorem recv_preserved (bad : BadStream Native.maxMessageBytes bodies size rest chunks) :
    Preserved Native.codec Native.recvTask (·.getD []) (some []) bodies (be32 size ++ rest) chunks ↔
      Pause bodies chunks := by
  rw [Native.recvTask_until]
  exact until_preserved bad.fit bad.whole bad.exceeds bad.word

theorem pump_preserved (bad : BadStream maxFrameBytes bodies size rest chunks) :
    Preserved codec commandPump (fun _ => []) () bodies (be32 size ++ rest) chunks ↔ Aligned bodies chunks := by
  rw [commandPump_afresh]
  exact afresh_preserved bad.fit bad.whole bad.exceeds bad.word

theorem python_preserved {μ : Type} (unpackb : Bytes → Option μ)
    (bad : BadStream maxFrameBytes bodies size rest chunks) :
    Preserved (pyCodec unpackb) (readFrames unpackb) id [] bodies (be32 size ++ rest) chunks :=
  stepwise_preserved bad.fit bad.whole bad.exceeds bad.word

end Claim

-- A frame of one byte and the header of a bad one, read at once.
def oneRead (size : ℕ) : List Bytes := [stream [[7]] ++ be32 size]

theorem oneRead_bad {cap size : ℕ} (some : 1 ≤ cap) (exceeds : cap < size) (word : size < 2 ^ 32) :
    BadStream cap [[7]] size [] (oneRead size) := by
  refine ⟨?_, exceeds, word, by simp [oneRead]⟩
  intro body member
  rw [List.mem_singleton] at member
  rw [member]
  exact some

theorem oneRead_unpaused (size : ℕ) : ¬Pause [[7]] (oneRead size) := by
  intro pause
  obtain ⟨past, later, split, reached, before⟩ := pause
  have frame : (stream [[7]]).length = 5 := rfl
  cases past with
  | nil =>
    rw [frame] at reached
    simp at reached
  | cons first others =>
    simp only [oneRead, List.cons_append, List.cons.injEq] at split
    obtain ⟨rfl, -⟩ := split
    rw [frame, List.flatten_cons, List.length_append, List.length_append, frame, be32_length] at before
    omega

theorem oneRead_unaligned (size : ℕ) : ¬Aligned [[7]] (oneRead size) := by
  intro aligned
  have frame : (stream [[7]]).length = 5 := rfl
  have read : (stream [[7]] ++ be32 size).length = 9 := rfl
  rcases aligned [] _ [] rfl (by decide) with ⟨done, left, parts, ends⟩ | ⟨-, bound⟩
  · rw [read] at ends
    have most := congrArg (fun all => (stream all).length) parts
    simp only [stream_append, List.length_append, frame] at most
    simp at ends
    omega
  · rw [read, frame] at bound
    simp at bound

theorem good_frame_lost :
    BadStream maxFrameBytes [[7]] (2 ^ 25) [] (oneRead (2 ^ 25)) ∧
    BadStream Native.maxMessageBytes [[7]] (2 ^ 25) [] (oneRead (2 ^ 25)) ∧
    ¬Preserved Native.codec Native.recvTask (·.getD []) (some []) [[7]] (be32 (2 ^ 25) ++ []) (oneRead (2 ^ 25)) ∧
    ¬Preserved codec commandPump (fun _ => []) () [[7]] (be32 (2 ^ 25) ++ []) (oneRead (2 ^ 25)) := by
  have pump : BadStream maxFrameBytes [[7]] (2 ^ 25) [] (oneRead (2 ^ 25)) :=
    oneRead_bad (by decide) (by decide) (by decide)
  have wire : BadStream Native.maxMessageBytes [[7]] (2 ^ 25) [] (oneRead (2 ^ 25)) :=
    oneRead_bad (by decide) (by decide) (by decide)
  refine ⟨pump, wire, ?_, ?_⟩
  · exact fun preserved => oneRead_unpaused _ ((recv_preserved wire).mp preserved)
  · exact fun preserved => oneRead_unaligned _ ((pump_preserved pump).mp preserved)

theorem frames_before_fault {μ : Type} (unpackb : Bytes → Option μ) (bodies : List Bytes) (size : ℕ) (rest : Bytes)
    (chunks : List Bytes) :
    (BadStream Native.maxMessageBytes bodies size rest chunks →
      (Preserved Native.codec Native.recvTask (·.getD []) (some []) bodies (be32 size ++ rest) chunks ↔
        Pause bodies chunks)) ∧
    (BadStream maxFrameBytes bodies size rest chunks →
      (Preserved codec commandPump (fun _ => []) () bodies (be32 size ++ rest) chunks ↔ Aligned bodies chunks) ∧
      Preserved (pyCodec unpackb) (readFrames unpackb) id [] bodies (be32 size ++ rest) chunks) :=
  ⟨recv_preserved, fun bad => ⟨pump_preserved bad, python_preserved unpackb bad⟩⟩

-- Read at once, the good frame is lost to both loops, and the generator yields it.
theorem frames_before_fault_oneRead :
    ¬Preserved Native.codec Native.recvTask (·.getD []) (some []) [[7]] (be32 (2 ^ 25) ++ []) (oneRead (2 ^ 25)) ∧
    ¬Preserved codec commandPump (fun _ => []) () [[7]] (be32 (2 ^ 25) ++ []) (oneRead (2 ^ 25)) ∧
    Preserved (pyCodec (fun body => some body)) (readFrames fun body => some body) id [] [[7]] (be32 (2 ^ 25) ++ [])
      (oneRead (2 ^ 25)) := by
  have claim := frames_before_fault (fun body => some body) [[7]] (2 ^ 25) [] (oneRead (2 ^ 25))
  have wire := claim.1 (oneRead_bad (by decide) (by decide) (by decide))
  have pump := claim.2 (oneRead_bad (by decide) (by decide) (by decide))
  exact ⟨fun preserved => oneRead_unpaused _ (wire.mp preserved),
    fun preserved => oneRead_unaligned _ (pump.1.mp preserved), pump.2⟩

end Corsair.Ipc
