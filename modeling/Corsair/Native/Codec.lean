import Corsair.Lib.Framing
import Corsair.Native.Decoder

namespace Corsair.Native

open Framing

def utf8 (text : String) : Bytes := text.toByteArray.data.toList

section Lossy

-- Whether the byte after the lead of a 3- or 4-byte character can belong to it.
def mayFollow (lead second : UInt8) : Bool :=
  if lead = 0xE0 then 0xA0 ≤ second ∧ second ≤ 0xBF
  else if lead = 0xED then 0x80 ≤ second ∧ second ≤ 0x9F
  else if 0xE1 ≤ lead ∧ lead ≤ 0xEF then 0x80 ≤ second ∧ second ≤ 0xBF
  else if lead = 0xF0 then 0x90 ≤ second ∧ second ≤ 0xBF
  else if 0xF1 ≤ lead ∧ lead ≤ 0xF3 then 0x80 ≤ second ∧ second ≤ 0xBF
  else if lead = 0xF4 then 0x80 ≤ second ∧ second ≤ 0x8F
  else false

-- How many bytes one replacement character stands for.
def illFormed (bytes : Bytes) : ℕ :=
  let lead := bytes.getD 0 0
  let third := bytes.getD 2 0
  if ¬mayFollow lead (bytes.getD 1 0) then 1
  else if lead < 0xF0 then 2
  else if 0x80 ≤ third ∧ third ≤ 0xBF then 3
  else 2

def lossyChars : ℕ → Bytes → List Char
  | 0, _ => []
  | _, [] => []
  | fuel + 1, bytes =>
    match (ByteArray.mk bytes.toArray).utf8DecodeChar? 0 with
    | some c => c :: lossyChars fuel (bytes.drop c.utf8Size)
    | none => '\uFFFD' :: lossyChars fuel (bytes.drop (illFormed bytes))

-- String::from_utf8_lossy
def fromUtf8Lossy (bytes : Bytes) : String :=
  (String.fromUTF8? ⟨bytes.toArray⟩).getD (String.ofList (lossyChars bytes.length bytes))

theorem lossy_utf8 (text : String) : fromUtf8Lossy (utf8 text) = text := by
  have same : ByteArray.mk (utf8 text).toArray = text.toByteArray := by
    rw [utf8, Array.toArray_toList]
  rw [fromUtf8Lossy, same, String.fromUTF8?, dif_pos text.isValidUTF8]
  rfl

end Lossy

def maxMessageBytes : ℕ := 16 * 1024 * 1024

def payloadOf (fields : Frame) : Bytes := (fields.map fun field => utf8 field ++ [0]).flatten

def encodeFields (fields : Frame) : Bytes := prefixed (payloadOf fields)

-- The last field is empty because every field ends in a NUL.
def decodeFields (payload : Bytes) : Frame :=
  let fields := (payload.splitOn 0).map fromUtf8Lossy
  if fields.getLast? = some "" then fields.dropLast else fields

def codec : Codec Frame NativeError where
  cap := maxMessageBytes
  small := by decide
  oversize size := .protocol s!"oversize message: {size} > {maxMessageBytes}"
  read := decodeFields

def tryDecodeFrame (buf : Bytes) : Bytes × Except NativeError (Option Frame) := codec.next buf
def tryDecodeAll (buf : Bytes) : Bytes × Except NativeError (List Frame) := codec.decoder.all buf

-- The buffer of the receive loop, and the frames a read gives it to forward.
def recvChunk (buf chunk : Bytes) : Bytes × List (Except NativeError Frame) := codec.decoder.feed buf chunk

def wire (messages : List Frame) : Bytes := (messages.map encodeFields).flatten

structure Fits (message : Frame) : Prop where
  plain : ∀ field ∈ message, 0 ∉ utf8 field
  bounded : (payloadOf message).length ≤ maxMessageBytes

-- What the receiver owes once `received` is in: the messages whose last byte is in it,
-- and a buffer with the bytes of no message delivered.
structure Delivered (messages : List Frame) (received : Bytes) (sent : List (Except NativeError Frame))
    (buffer : Bytes) : Prop where
  due : ∃ done left, messages = done ++ left ∧ sent = done.map .ok ∧ received = wire done ++ buffer ∧
    ∀ message ∈ left.head?, received.length < (wire (done ++ [message])).length

theorem split_payload {fields : Frame} (plain : ∀ field ∈ fields, 0 ∉ utf8 field) :
    (payloadOf fields).splitOn 0 = fields.map utf8 ++ [[]] := by
  induction fields with
  | nil => rfl
  | cons field rest next =>
    have others := next fun other member => plain other (List.mem_cons_of_mem _ member)
    have step : payloadOf (field :: rest) = utf8 field ++ 0 :: payloadOf rest := by
      simp [payloadOf]
    rw [step, List.splitOn_append_cons_self_of_not_mem (plain field (by simp)), others]
    rfl

theorem decode_payload {message : Frame} (plain : ∀ field ∈ message, 0 ∉ utf8 field) :
    decodeFields (payloadOf message) = message := by
  have texts : (message.map utf8).map fromUtf8Lossy = message := by
    rw [List.map_map]
    exact List.map_id'' lossy_utf8 message
  have closing : fromUtf8Lossy [] = "" := lossy_utf8 ""
  unfold decodeFields
  rw [split_payload plain, List.map_append, texts]
  simp [closing]

theorem wire_stream (messages : List Frame) : wire messages = stream (messages.map payloadOf) := by
  rw [wire, stream, List.map_map]
  rfl

theorem payloads_read {messages : List Frame} (fit : ∀ message ∈ messages, Fits message) :
    (messages.map payloadOf).map codec.read = messages := by
  rw [List.map_map]
  refine List.map_congr_left (fun message member => ?_) |>.trans (List.map_id _)
  exact decode_payload (fit message member).plain

theorem payloads_bounded {messages : List Frame} (fit : ∀ message ∈ messages, Fits message) :
    ∀ payload ∈ messages.map payloadOf, payload.length ≤ codec.cap := by
  intro payload member
  obtain ⟨message, own, rfl⟩ := List.mem_map.mp member
  exact (fit message own).bounded

theorem decode_wire {messages : List Frame} (fit : ∀ message ∈ messages, Fits message) :
    tryDecodeAll (wire messages) = ([], .ok messages) := by
  have whole := all_stream (payloads_bounded fit) codec.next_nil
  rw [payloads_read fit, List.append_nil, ← wire_stream] at whole
  exact whole

theorem received_delivered {messages : List Frame} (fit : ∀ message ∈ messages, Fits message) {chunks : List Bytes}
    (within : chunks.flatten <+: wire messages) :
    Delivered messages chunks.flatten (Machine.emitted recvChunk [] chunks) (Machine.after recvChunk [] chunks) := by
  rw [wire_stream] at within
  obtain ⟨sent, received⟩ := fed_part (payloads_bounded fit) within
  obtain ⟨left, split, beyond⟩ := complete_left (messages.map payloadOf) chunks.flatten.length
  obtain ⟨done, rest, rfl, whole, others⟩ := List.map_eq_append_iff.mp split
  refine ⟨done, rest, rfl, ?_, ?_, ?_⟩
  · have texts := payloads_read fun message member => fit message (List.mem_append_left rest member)
    change Machine.emitted codec.decoder.feed [] chunks = _
    rw [sent, ← whole, ← List.map_map, texts]
  · rw [wire_stream, whole]
    exact received
  · intro message head
    rw [wire_stream, List.map_append, whole]
    refine beyond (payloadOf message) ?_
    rw [← others, List.head?_map]
    exact Option.mem_map_of_mem _ head

theorem incomplete_untouched {message : Frame} (fits : Fits message) {part rest : Bytes}
    (cut : part ++ rest = encodeFields message) (missing : rest ≠ []) :
    tryDecodeFrame part = (part, .ok none) ∧ tryDecodeAll part = (part, .ok []) := by
  have waits := codec.next_part fits.bounded cut missing
  exact ⟨waits, Decoder.all_stop waits⟩

theorem wire_append (before after : List Frame) : wire (before ++ after) = wire before ++ wire after := by
  rw [wire, List.map_append, List.flatten_append]
  rfl

theorem wire_round_trip {messages : List Frame} (fit : ∀ message ∈ messages, Fits message) {chunks : List Bytes}
    (cut : chunks.flatten = wire messages) :
    (∀ before after, chunks = before ++ after →
      Delivered messages before.flatten (Machine.emitted recvChunk [] before) (Machine.after recvChunk [] before)) ∧
    Machine.emitted recvChunk [] chunks = messages.map .ok ∧ Machine.after recvChunk [] chunks = [] ∧
    ∀ message ∈ messages, ∀ part rest, part ++ rest = encodeFields message → rest ≠ [] →
      tryDecodeFrame part = (part, .ok none) ∧ tryDecodeAll part = (part, .ok []) := by
  have along : ∀ before after, chunks = before ++ after →
      Delivered messages before.flatten (Machine.emitted recvChunk [] before) (Machine.after recvChunk [] before) := by
    intro before after split
    refine received_delivered fit ?_
    rw [← cut, split, List.flatten_append]
    exact List.prefix_append _ _
  obtain ⟨done, left, rfl, sent, received, beyond⟩ := (along chunks [] (List.append_nil _).symm).due
  have finished : left = [] := by
    cases left with
    | nil => rfl
    | cons message rest =>
      have short := beyond message rfl
      rw [cut, wire_append, wire_append, List.length_append, List.length_append] at short
      simp only [wire, List.map_cons, List.map_nil, List.flatten_cons, List.flatten_nil, List.length_append,
        List.length_nil] at short
      omega
  subst finished
  simp only [List.append_nil] at cut along ⊢
  refine ⟨along, sent, ?_, ?_⟩
  · rw [cut] at received
    exact List.self_eq_append_right.mp received
  · intro message member part rest frame missing
    exact incomplete_untouched (fit message (by simpa using member)) frame missing

-- Three messages, one with no field and one with empty fields, cut inside a length
-- prefix and inside a field.
def mixedMessages : List Frame := [["9", "1", "7"], [], ["4", "", ""]]

def mixedChunks : List Bytes :=
  [(wire mixedMessages).take 3, ((wire mixedMessages).drop 3).take 12, (wire mixedMessages).drop 15]

theorem wire_round_trip_mixed :
    (∀ before after, mixedChunks = before ++ after →
      Delivered mixedMessages before.flatten (Machine.emitted recvChunk [] before) (Machine.after recvChunk [] before)) ∧
    Machine.emitted recvChunk [] mixedChunks = mixedMessages.map .ok ∧ Machine.after recvChunk [] mixedChunks = [] ∧
    ∀ message ∈ mixedMessages, ∀ part rest, part ++ rest = encodeFields message → rest ≠ [] →
      tryDecodeFrame part = (part, .ok none) ∧ tryDecodeAll part = (part, .ok []) := by
  refine wire_round_trip ?_ ?_
  · intro message member
    simp only [mixedMessages, List.mem_cons, List.not_mem_nil, or_false] at member
    rcases member with rfl | rfl | rfl
    all_goals exact ⟨by decide +kernel, by decide +kernel⟩
  · decide +kernel

end Corsair.Native
