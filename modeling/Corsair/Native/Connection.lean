import Corsair.Lib.Channel
import Corsair.Native.Codec
import Corsair.Native.Session

namespace Corsair.Native

open BrokerApi Framing

-- client.rs
def NativeClient.dispatchChannelCap : ℕ := 16384

-- What one read of the socket gives.
inductive Read where
  | eof
  | failed
  | bytes (chunk : Bytes)

-- Where a connect() call awaits: the two bootstrap answers, then its three requests.
inductive Connecting where
  | bootstrap
  | requests
  deriving DecidableEq

-- Where the receiving half of the client's channel is: `discarded` went with an
-- adapter that never dispatched.
inductive Rx where
  | inHolder
  | dispatching
  | finished
  | discarded
  deriving DecidableEq

-- The adapter with its tasks. `owned` while some Arc of the NativeBroker is left: with
-- the last one goes the client and the msg_tx in it. A receive task is its buffer, and
-- none when it has exited; it holds a clone of msg_tx.
structure Link where
  session : Session
  owned : Bool
  connecting : Option Connecting
  tasks : List (Option Bytes)
  frames : Channel.Mpsc NativeClient.dispatchChannelCap Frame
  rx : Rx
  connected : Bool
  msgsDropped : ℕ

def Link.new : Link where
  session := .new
  owned := true
  connecting := none
  tasks := []
  frames := .new
  rx := .inHolder
  connected := false
  msgsDropped := 0

inductive LinkEvent where
  | dialled (answers : Bool)
  | bootstrapped
  | bootstrapTimedOut
  | requested (sent : Bool)
  | read (task : ℕ) (outcome : Read)
  | dispatcherTurn (now : ℕ) (publisher : Bool)
  | called (call : SessionEvent)
  | disconnected
  | released

inductive LinkOut where
  | session (out : SessionOut)
  | connection (state : ConnectionState)

def SessionEvent.isCall : SessionEvent → Bool
  | .received _ | .dispatched .. => false
  | _ => true

namespace Link

def Rx.gone (rx : Rx) : Bool := rx = .finished ∨ rx = .discarded

-- The receive loop over the frames of one read. It goes on past a full channel and
-- returns at a closed one.
def forward (l : Link) : List Frame → Link × Bool
  | [] => (l, true)
  | fields :: rest =>
    let l := { l with session := { l.session with client := l.session.client.recvFrame fields } }
    if Rx.gone l.rx then (l, false)
    else match l.frames.queue.trySend fields with
      | some queue => forward { l with frames := { l.frames with queue } } rest
      | none => forward { l with msgsDropped := l.msgsDropped + 1 } rest

def exitTask (l : Link) (task : ℕ) : Link :=
  { l with tasks := l.tasks.set task none, frames := l.frames.dropped }

def recvTurn (l : Link) (task : ℕ) (buf : Bytes) : Read → Link
  | .eof | .failed => l.exitTask task
  | .bytes chunk =>
    match tryDecodeAll (buf ++ chunk) with
    | (rest, .ok frames) =>
      let (l, open_channel) := l.forward frames
      if open_channel then { l with tasks := l.tasks.set task (some rest) } else l.exitTask task
    | (_, .error _) => l.exitTask task

def dispatcherTurn (chrono : Chrono) (formats : Formats) (account : String) (now : ℕ) (publisher : Bool) (l : Link) :
    Link × List LinkOut :=
  if l.rx ≠ .dispatching then (l, [])
  else match l.frames.recv with
    | (frames, .value fields) =>
      let (session, out) := sessionStep chrono formats account l.session (.dispatched now publisher fields)
      ({ l with frames, session }, out.map .session)
    | (_, .pending) => (l, [])
    | (_, .closed) => ({ l with connected := false, rx := .finished }, [.connection .lostConnection])

-- The calls that wait are told before the socket is closed.
def drain (s : BrokerState) : BrokerState × List Emission :=
  ({ s with pendingContractDetails := ∅, pendingExecutions := ∅, pendingPlaceAcks := ∅ },
    s.pendingContractDetails.items.map (fun p =>
      .contracts p.1 (.error (.connectionLost "disconnect during pending qualify"))) ++
    s.pendingExecutions.items.map (fun p =>
      .executions p.1 (.error (.connectionLost "disconnect during pending executions"))) ++
    s.pendingPlaceAcks.items.map (fun p =>
      .placeAck p.1 (.error (.connectionLost "disconnect during pending place_order ack"))))

def disconnect (l : Link) : Link × List LinkOut :=
  let (broker, out) := drain l.session.broker
  ({ l with connected := false, session := { l.session with broker } },
    out.map (fun emission => .session (.routed emission)) ++ [.connection .closed])

def release (l : Link) : Link :=
  { l with owned := false, frames := l.frames.dropped, rx := if l.rx = .inHolder then .discarded else l.rx }

end Link

-- connect and disconnect take the adapter by `&mut self`, so neither runs beside the
-- other, and nothing drops it meanwhile.
def linkStep (chrono : Chrono) (formats : Formats) (account : String) (l : Link) : LinkEvent → Link × List LinkOut
  | .dialled answers =>
    if l.owned ∧ l.connecting = none ∧ ¬l.connected ∧ answers then
      ({ l with connecting := some .bootstrap, tasks := l.tasks ++ [some []], frames := l.frames.cloned }, [])
    else (l, [])
  | .bootstrapped =>
    if l.connecting = some .bootstrap ∧ 0 < l.session.client.nextOrderId ∧ l.session.client.managedAccounts ≠ [] then
      -- "rx already taken" on every connect after the first that came this far.
      if l.rx = .inHolder then ({ l with connecting := some .requests, rx := .dispatching }, [])
      else ({ l with connecting := none }, [])
    else (l, [])
  | .bootstrapTimedOut => if l.connecting = some .bootstrap then ({ l with connecting := none }, []) else (l, [])
  | .requested sent =>
    if l.connecting = some .requests then
      if sent then ({ l with connecting := none, connected := true }, [.connection .connected])
      else ({ l with connecting := none }, [])
    else (l, [])
  | .read task outcome =>
    match l.tasks[task]? with
    | some (some buf) => (l.recvTurn task buf outcome, [])
    | _ => (l, [])
  | .dispatcherTurn now publisher => l.dispatcherTurn chrono formats account now publisher
  | .called call =>
    if l.owned ∧ call.isCall then
      let (session, out) := sessionStep chrono formats account l.session call
      ({ l with session }, out.map .session)
    else (l, [])
  | .disconnected => if l.owned ∧ l.connecting = none then l.disconnect else (l, [])
  | .released => if l.owned ∧ l.connecting = none then (l.release, []) else (l, [])

def LinkOut.isLoss : LinkOut → Bool
  | .connection .lostConnection => true
  | _ => false

def losses (out : List LinkOut) : ℕ := out.countP LinkOut.isLoss

def running (tasks : List (Option Bytes)) : ℕ := tasks.countP Option.isSome

-- The receive loop was there and is over, and what it queued has been dispatched.
structure Drained (l : Link) : Prop where
  started : l.tasks ≠ []
  exited : running l.tasks = 0
  dispatched : l.frames.queue.items = []

section Detection

variable (chrono : Chrono) (formats : Formats) (account : String)

def linkAfter (events : List LinkEvent) : Link := Machine.after (linkStep chrono formats account) .new events
def linkSent (events : List LinkEvent) : List LinkOut := Machine.emitted (linkStep chrono formats account) .new events

def Detected (events : List LinkEvent) : Prop :=
  (linkAfter chrono formats account events).connected = false ∧ losses (linkSent chrono formats account events) = 1

-- By the dispatcher's next turn at the latest, which takes what the channel says then.
def LossDetected (events : List LinkEvent) : Prop :=
  Drained (linkAfter chrono formats account events) →
    ∀ now publisher, Detected chrono formats account (events ++ [.dispatcherTurn now publisher])

end Detection

-- Nobody owns the adapter any more, and its dispatcher had been started.
def Disowned (l : Link) : Prop := l.owned = false ∧ l.rx ≠ .discarded

section Proofs

variable {chrono : Chrono} {formats : Formats} {account : String}

-- The senders of the channel are the adapter and the receive tasks that run.
structure Sound (out : List LinkOut) (l : Link) : Prop where
  counted : l.frames.senders = (if l.owned then 1 else 0) + running l.tasks
  busy : l.connecting ≠ none → l.owned = true
  waiting : l.rx = .inHolder → l.owned = true
  discarded : l.rx = .discarded → l.owned = false
  finished : l.rx = .finished → l.frames.senders = 0 ∧ l.connected = false
  told : losses out = if l.rx = .finished then 1 else 0

theorem losses_append (xs ys : List LinkOut) : losses (xs ++ ys) = losses xs + losses ys := List.countP_append

theorem losses_session {α : Type} (f : α → SessionOut) (xs : List α) :
    losses (xs.map fun x => .session (f x)) = 0 := by
  unfold losses
  rw [List.countP_map]
  exact List.countP_eq_zero.mpr fun x _ => nofun

theorem losses_quiet {out more : List LinkOut} {told : ℕ} (before : losses out = told) (quiet : losses more = 0) :
    losses (out ++ more) = told := by
  rw [losses_append, before, quiet]
  rfl

theorem running_set {tasks : List (Option Bytes)} {task : ℕ} {buf : Bytes} (found : tasks[task]? = some (some buf))
    (next : Option Bytes) : running (tasks.set task next) + 1 = running tasks + if next.isSome then 1 else 0 := by
  induction tasks generalizing task with
  | nil => cases found
  | cons first rest later =>
    cases task with
    | zero =>
      cases found
      simp only [running, List.set_cons_zero, List.countP_cons, Option.isSome_some, if_true]
      omega
    | succ task =>
      have counted := later found
      simp only [running, List.set_cons_succ, List.countP_cons] at counted ⊢
      omega

-- What forwarding frames leaves as it was.
structure Forwarded (l next : Link) : Prop where
  owned : next.owned = l.owned
  connecting : next.connecting = l.connecting
  tasks : next.tasks = l.tasks
  senders : next.frames.senders = l.frames.senders
  rx : next.rx = l.rx
  connected : next.connected = l.connected

theorem forward_same (l : Link) (frames : List Frame) : Forwarded l (l.forward frames).1 := by
  induction frames generalizing l with
  | nil => exact ⟨rfl, rfl, rfl, rfl, rfl, rfl⟩
  | cons fields rest next =>
    unfold Link.forward
    dsimp only
    split
    · exact ⟨rfl, rfl, rfl, rfl, rfl, rfl⟩
    · split
      · obtain ⟨owned, connecting, tasks, senders, rx, connected⟩ := next _
        exact ⟨owned, connecting, tasks, senders, rx, connected⟩
      · obtain ⟨owned, connecting, tasks, senders, rx, connected⟩ := next _
        exact ⟨owned, connecting, tasks, senders, rx, connected⟩

theorem sound_forwarded {out : List LinkOut} {l next : Link} (sound : Sound out l) (same : Forwarded l next) :
    Sound out next := by
  obtain ⟨counted, busy, waiting, discarded, finished, told⟩ := sound
  obtain ⟨owned, connecting, tasks, senders, rx, connected⟩ := same
  refine ⟨?_, ?_, ?_, ?_, ?_, ?_⟩
  all_goals simp only [owned, connecting, tasks, senders, rx, connected]
  all_goals assumption

theorem sound_exit {out : List LinkOut} {l : Link} {task : ℕ} {buf : Bytes} (sound : Sound out l)
    (found : l.tasks[task]? = some (some buf)) : Sound out (l.exitTask task) := by
  have counted := sound.counted
  have one_less := running_set found none
  refine ⟨?_, sound.busy, sound.waiting, sound.discarded, ?_, sound.told⟩
  · change l.frames.senders - 1 = (if l.owned then 1 else 0) + running (l.tasks.set task none)
    simp only [Option.isSome_none, Bool.false_eq_true, if_false] at one_less
    omega
  · intro ended
    have none_left := (sound.finished ended).1
    refine ⟨?_, (sound.finished ended).2⟩
    change l.frames.senders - 1 = 0
    omega

theorem read_sound {out : List LinkOut} {l : Link} {task : ℕ} {buf : Bytes} (sound : Sound out l)
    (found : l.tasks[task]? = some (some buf)) (outcome : Read) : Sound out (l.recvTurn task buf outcome) := by
  cases outcome with
  | eof => exact sound_exit sound found
  | failed => exact sound_exit sound found
  | bytes chunk =>
    unfold Link.recvTurn
    dsimp only
    split
    · rename_i rest frames _
      have same := forward_same l frames
      have forwarded := sound_forwarded sound same
      rw [← same.tasks] at found
      split
      · refine ⟨?_, forwarded.busy, forwarded.waiting, forwarded.discarded, forwarded.finished, forwarded.told⟩
        refine forwarded.counted.trans ?_
        exact congrArg _ (Nat.succ.inj (running_set found (some rest))).symm
      · exact sound_exit forwarded found
    · exact sound_exit sound found

theorem turn_sound {out : List LinkOut} {l : Link} (sound : Sound out l) (now : ℕ) (publisher : Bool) :
    Sound (out ++ (l.dispatcherTurn chrono formats account now publisher).2)
      (l.dispatcherTurn chrono formats account now publisher).1 := by
  have senders := Channel.Mpsc.recv_senders l.frames
  unfold Link.dispatcherTurn
  split
  · rwa [List.append_nil]
  · rename_i dispatching
    rw [ne_eq, not_not] at dispatching
    split
    · rename_i frames fields taken
      rw [taken] at senders
      refine ⟨?_, sound.busy, sound.waiting, sound.discarded, ?_, losses_quiet sound.told (losses_session id _)⟩
      · exact senders.trans sound.counted
      · intro ended
        exact ⟨senders.trans (sound.finished ended).1, (sound.finished ended).2⟩
    · rwa [List.append_nil]
    · rename_i frames taken
      have none_left := Channel.Mpsc.recv_closed taken
      refine ⟨sound.counted, sound.busy, nofun, nofun, fun _ => ⟨none_left, rfl⟩, ?_⟩
      rw [losses_append, sound.told, dispatching]
      rfl

theorem session_sound {out : List LinkOut} {l : Link} (sound : Sound out l) (session : Session) (more : List LinkOut)
    (quiet : losses more = 0) : Sound (out ++ more) { l with session } :=
  ⟨sound.counted, sound.busy, sound.waiting, sound.discarded, sound.finished, losses_quiet sound.told quiet⟩

-- A connect call comes to an end, and leaves the adapter to its owner.
theorem connecting_sound {out : List LinkOut} {l : Link} (sound : Sound out l) : Sound out { l with connecting := none } :=
  ⟨sound.counted, nofun, sound.waiting, sound.discarded, sound.finished, sound.told⟩

theorem not_finished {out : List LinkOut} {l : Link} (sound : Sound out l) (owned : l.owned = true) :
    l.rx ≠ .finished ∧ l.rx ≠ .discarded := by
  constructor
  · intro ended
    have counted := sound.counted
    rw [(sound.finished ended).1, owned, if_pos rfl] at counted
    omega
  · intro ended
    rw [sound.discarded ended] at owned
    cases owned

theorem dial_sound {out : List LinkOut} {l : Link} (sound : Sound out l) (owned : l.owned = true) :
    Sound out { l with
      connecting := some .bootstrap, tasks := l.tasks ++ [some []], frames := l.frames.cloned } := by
  have alive := not_finished sound owned
  refine ⟨?_, fun _ => owned, sound.waiting, sound.discarded, fun ended => absurd ended alive.1, sound.told⟩
  have counted := sound.counted
  change l.frames.senders + 1 = (if l.owned then 1 else 0) + running (l.tasks ++ [some []])
  have one_more : running (l.tasks ++ [some []]) = running l.tasks + 1 := List.countP_append
  omega

theorem requested_sound {out : List LinkOut} {l : Link} (sound : Sound out l) (owned : l.owned = true) :
    Sound (out ++ [.connection .connected]) { l with connecting := none, connected := true } := by
  have alive := not_finished sound owned
  exact ⟨sound.counted, nofun, sound.waiting, sound.discarded, fun ended => absurd ended alive.1,
    losses_quiet sound.told rfl⟩

theorem disconnect_sound {out : List LinkOut} {l : Link} (sound : Sound out l) :
    Sound (out ++ l.disconnect.2) l.disconnect.1 := by
  refine ⟨sound.counted, sound.busy, sound.waiting, sound.discarded, ?_, ?_⟩
  · intro ended
    exact ⟨(sound.finished ended).1, rfl⟩
  · refine losses_quiet sound.told ?_
    change losses (_ ++ _) = 0
    rw [losses_append, losses_session]
    rfl

theorem release_sound {out : List LinkOut} {l : Link} (sound : Sound out l) (owned : l.owned = true)
    (idle : l.connecting = none) : Sound out l.release := by
  have alive := not_finished sound owned
  have counted := sound.counted
  rw [owned, if_pos rfl] at counted
  refine ⟨?_, fun busy => absurd idle busy, ?_, fun _ => rfl, ?_, ?_⟩
  · change l.frames.senders - 1 = 0 + running l.tasks
    omega
  · intro waiting
    exfalso
    revert waiting
    unfold Link.release
    dsimp only
    split <;> simp_all
  · intro ended
    exfalso
    revert ended
    unfold Link.release
    dsimp only
    split <;> simp_all
  · rw [sound.told, if_neg alive.1]
    unfold Link.release
    dsimp only
    split <;> simp_all

theorem link_sound (out : List LinkOut) (l : Link) (event : LinkEvent) (sound : Sound out l) :
    Sound (out ++ (linkStep chrono formats account l event).2) (linkStep chrono formats account l event).1 := by
  have unchanged : Sound (out ++ []) l := by rwa [List.append_nil]
  cases event with
  | dialled answers =>
    simp only [linkStep]
    split
    · rename_i ready
      rw [List.append_nil]
      exact dial_sound sound ready.1
    · exact unchanged
  | bootstrapped =>
    simp only [linkStep]
    split
    · rename_i ready
      split
      · have owned := sound.busy (by simp [ready.1])
        have alive := not_finished sound owned
        refine ⟨sound.counted, fun _ => owned, nofun, nofun, nofun, ?_⟩
        rw [List.append_nil, sound.told, if_neg alive.1]
        rfl
      · rw [List.append_nil]
        exact connecting_sound sound
    · exact unchanged
  | bootstrapTimedOut =>
    simp only [linkStep]
    split
    · rw [List.append_nil]
      exact connecting_sound sound
    · exact unchanged
  | requested sent =>
    simp only [linkStep]
    split
    · rename_i waiting
      split
      · exact requested_sound sound (sound.busy (by simp [waiting]))
      · rw [List.append_nil]
        exact connecting_sound sound
    · exact unchanged
  | read task outcome =>
    simp only [linkStep]
    split
    · rename_i buf found
      rw [List.append_nil]
      exact read_sound sound found outcome
    · exact unchanged
  | dispatcherTurn now publisher => exact @turn_sound chrono formats account out l sound now publisher
  | called call =>
    simp only [linkStep]
    split
    · exact session_sound sound _ _ (losses_session id _)
    · exact unchanged
  | disconnected =>
    simp only [linkStep]
    split
    · exact disconnect_sound sound
    · exact unchanged
  | released =>
    simp only [linkStep]
    split
    · rename_i idle
      rw [List.append_nil]
      exact release_sound sound idle.1 idle.2
    · exact unchanged

theorem run_sound (events : List LinkEvent) :
    Sound (linkSent chrono formats account events) (linkAfter chrono formats account events) := by
  refine Machine.traces (fun _ out l => Sound out l) (fun _ out l event => link_sound out l event) ?_ events
  exact ⟨rfl, nofun, fun _ => rfl, nofun, nofun, rfl⟩

theorem link_snoc (events : List LinkEvent) (event : LinkEvent) :
    linkAfter chrono formats account (events ++ [event]) =
        (linkStep chrono formats account (linkAfter chrono formats account events) event).1 ∧
      linkSent chrono formats account (events ++ [event]) = linkSent chrono formats account events ++
        (linkStep chrono formats account (linkAfter chrono formats account events) event).2 := by
  unfold linkAfter linkSent
  rw [Machine.after_append, Machine.emitted_append]
  exact ⟨rfl, congrArg _ (List.append_nil _)⟩

-- With every task gone the channel is open exactly while the adapter is owned.
theorem drained_senders {events : List LinkEvent} (drained : Drained (linkAfter chrono formats account events)) :
    (linkAfter chrono formats account events).frames.senders =
      if (linkAfter chrono formats account events).owned then 1 else 0 := by
  rw [(run_sound events).counted, drained.exited]
  rfl

-- The turn that finds the channel empty and closed is the one that tells of the loss.
theorem drained_turn {events : List LinkEvent} (drained : Drained (linkAfter chrono formats account events)) (now : ℕ)
    (publisher : Bool) :
    let l := linkAfter chrono formats account events
    l.dispatcherTurn chrono formats account now publisher =
      if l.rx = .dispatching ∧ l.owned = false then
        ({ l with connected := false, rx := .finished }, [.connection .lostConnection])
      else (l, []) := by
  intro l
  have senders : l.frames.senders = if l.owned then 1 else 0 := drained_senders drained
  unfold Link.dispatcherTurn
  rw [Channel.Mpsc.recv_drained drained.dispatched, senders]
  by_cases dispatching : l.rx = .dispatching
  · cases owned : l.owned <;> simp [dispatching]
  · simp [dispatching]

end Proofs

theorem loss_detected_iff {chrono : Chrono} {formats : Formats} {account : String} {events : List LinkEvent}
    (drained : Drained (linkAfter chrono formats account events)) (now : ℕ) (publisher : Bool) :
    Detected chrono formats account (events ++ [.dispatcherTurn now publisher]) ↔
      Disowned (linkAfter chrono formats account events) := by
  have sound := @run_sound chrono formats account events
  have turn := drained_turn drained now publisher
  have next := @link_snoc chrono formats account events (.dispatcherTurn now publisher)
  simp only [linkStep] at next
  unfold Detected Disowned
  rw [next.1, next.2, losses_append, sound.told, turn]
  generalize linkAfter chrono formats account events = l at *
  cases owned : l.owned with
  | true =>
    have alive := not_finished sound owned
    simp [alive.1, losses]
  | false =>
    cases place : l.rx with
    | inHolder => exact absurd (sound.waiting place) (by simp [owned])
    | discarded => simp [losses]
    | dispatching => simp [losses, LinkOut.isLoss]
    | finished => simp [losses, (sound.finished place).2]

section Reset

-- The two bootstrap answers in one read, the three requests, the dispatcher's turns.
def bootstrapAnswers : List Frame := [["9", "1", "7"], ["15", "1", "DU1"]]

def connectedThen (rest : List LinkEvent) : List LinkEvent :=
  [.dialled true, .read 0 (.bytes (wire bootstrapAnswers))] ++
    [.bootstrapped, .requested true, .dispatcherTurn 0 false, .dispatcherTurn 1 false] ++ rest

def bootstrapped : Link :=
  { Link.new with
    session := { Session.new with client := ⟨7, ["DU1"]⟩ }
    connecting := some .bootstrap
    tasks := [some []]
    frames := ⟨⟨bootstrapAnswers, by decide⟩, 2⟩ }

theorem bootstrap_read (chrono : Chrono) (formats : Formats) (account : String) :
    (linkStep chrono formats account (linkStep chrono formats account .new (.dialled true)).1
      (.read 0 (.bytes (wire bootstrapAnswers)))).1 = bootstrapped := by
  have fit : ∀ message ∈ bootstrapAnswers, Fits message := by
    intro message member
    simp only [bootstrapAnswers, List.mem_cons, List.not_mem_nil, or_false] at member
    rcases member with rfl | rfl
    all_goals exact ⟨by decide +kernel, by decide +kernel⟩
  change Link.recvTurn _ 0 [] (.bytes (wire bootstrapAnswers)) = _
  unfold Link.recvTurn
  dsimp only
  rw [List.nil_append, decode_wire fit]
  rfl

theorem connectedThen_after (chrono : Chrono) (formats : Formats) (account : String) (rest : List LinkEvent) :
    linkAfter chrono formats account (connectedThen rest) =
      Machine.after (linkStep chrono formats account) bootstrapped
        ([.bootstrapped, .requested true, .dispatcherTurn 0 false, .dispatcherTurn 1 false] ++ rest) := by
  unfold linkAfter connectedThen
  rw [List.append_assoc, Machine.after_append]
  exact congrArg (Machine.after _ · _) (bootstrap_read chrono formats account)

def noTexts : Formats := ⟨fun _ => "", fun _ _ => "", fun _ _ => ""⟩

end Reset

theorem loss_unseen : ¬∀ events, LossDetected ⟨fun _ _ => none⟩ noTexts "DU1" events := by
  intro detected
  have drained : Drained (linkAfter ⟨fun _ _ => none⟩ noTexts "DU1" (connectedThen [.read 0 .eof])) := by
    refine ⟨?_, ?_, ?_⟩
    all_goals
      rw [connectedThen_after]
      decide +kernel
  have down := (detected _ drained 2 false).1
  have snoc : connectedThen [.read 0 .eof] ++ [.dispatcherTurn 2 false] =
      connectedThen [.read 0 .eof, .dispatcherTurn 2 false] := by
    simp [connectedThen]
  rw [snoc, connectedThen_after] at down
  revert down
  decide +kernel

theorem loss_detected_released :
    Detected ⟨fun _ _ => none⟩ noTexts "DU1" (connectedThen [.released, .read 0 .eof] ++ [.dispatcherTurn 2 false]) := by
  refine (loss_detected_iff ?_ 2 false).mpr ?_
  · refine ⟨?_, ?_, ?_⟩
    all_goals
      rw [connectedThen_after]
      decide +kernel
  · unfold Disowned
    rw [connectedThen_after]
    decide +kernel

end Corsair.Native
