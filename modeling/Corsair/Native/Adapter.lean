import Corsair.Lib.Machine
import Corsair.Native.Broker

namespace Corsair.Native

open BrokerApi

-- What changes the adapter's state from outside: a frame taken by the
-- dispatcher, and the two ends of a recent_fills call that a frame does not end.
inductive AdapterEvent where
  | frame (now : ℕ) (fields : Frame)
  | fillsRequested (reqId : ℤ)
  | fillsTimedOut (reqId : ℤ)
  deriving DecidableEq

def adapterStep (chrono : Chrono) (publisher : Bool) (s : BrokerState) :
    AdapterEvent → BrokerState × List Emission
  | .frame now fields => dispatch chrono now publisher s fields
  | .fillsRequested reqId => ({ s with pendingExecutions := s.pendingExecutions.set reqId [] }, [])
  | .fillsTimedOut reqId => ({ s with pendingExecutions := s.pendingExecutions.remove reqId }, [])

def AdapterEvent.message : AdapterEvent → Option InboundMsg
  | .frame _ fields => (parseInbound fields).toOption
  | _ => none

-- A message is what a frame decodes to.
theorem message_read {event : AdapterEvent} {msg : InboundMsg} (decoded : event.message = some msg) :
    ∃ fields, parseInbound fields = .ok msg := by
  cases event with
  | frame now fields =>
    refine ⟨fields, ?_⟩
    cases built : parseInbound fields with
    | error fault => simp [AdapterEvent.message, built, Except.toOption] at decoded
    | ok value => simpa [AdapterEvent.message, built, Except.toOption] using decoded
  | fillsRequested reqId => cases decoded
  | fillsTimedOut reqId => cases decoded

end Corsair.Native
