import Corsair.Lib.Framing

namespace Corsair.Ipc

open Framing

def maxFrameBytes : ℕ := 4 * 1024 * 1024

-- io::Error with ErrorKind::InvalidData, the only one protocol.rs builds.
inductive IoError where
  | invalidData (message : String)
  deriving DecidableEq

def packFrame (body : Bytes) : Bytes := prefixed body

def codec : Codec Bytes IoError where
  cap := maxFrameBytes
  small := by decide
  oversize size := .invalidData s!"oversize frame: {size} > {maxFrameBytes}"
  read := id

def unpackAllFrames (buf : Bytes) : Bytes × Except IoError (List Bytes) := codec.decoder.all buf

-- A whole number of frames comes apart into their bodies with nothing over.
theorem unpack_stream {bodies : List Bytes} (fit : ∀ body ∈ bodies, body.length ≤ maxFrameBytes) :
    unpackAllFrames (stream bodies) = ([], .ok bodies) := by
  have taken := @all_stream _ _ codec _ fit _ codec.next_nil
  rw [List.append_nil] at taken
  rw [unpackAllFrames, taken]
  exact congrArg (fun bodies => ([], Except.ok bodies)) (List.map_id bodies)

end Corsair.Ipc
