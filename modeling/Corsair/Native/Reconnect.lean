import Corsair.Native.Connection

namespace Corsair.Native

open BrokerApi Framing

-- messages.rs
def minServerVersion : ℤ := 176
def outReqOpenOrders : ℤ := 5
def outReqAcctData : ℤ := 6
def outReqPositions : ℤ := 61

-- requests.rs
def reqAccountUpdates (subscribe : Bool) (account : String) : Bytes :=
  encodeFields [encodeInt outReqAcctData, "2", encodeBool subscribe, account]

def reqPositions : Bytes := encodeFields [encodeInt outReqPositions, "1"]
def reqOpenOrders : Bytes := encodeFields [encodeInt outReqOpenOrders, "1"]

-- error.rs
def NativeError.text : NativeError → String
  | .io message => "io: " ++ message
  | .lost message => "connection lost: " ++ message
  | .notConnected => "not connected"
  | .protocol message => "protocol violation: " ++ message
  | .serverVersionTooLow version minimum =>
    "server version " ++ toString version ++ " below minimum supported " ++ toString minimum
  | .handshakeTimeout => "handshake timed out"
  | .malformed message => "malformed message: " ++ message

-- broker.rs
def mapNativeErr (e : NativeError) : BrokerError :=
  match e with
  | .lost _ | .handshakeTimeout | .io _ => .connectionLost e.text
  | .notConnected => .notConnected e.text
  | .serverVersionTooLow .. | .protocol _ | .malformed _ => .protocol none e.text

-- client.rs, connect: how far the gateway lets it come. `reply` is what
-- read_handshake_reply makes of the answer.
inductive Dial where
  | timedOut
  | failed (message : String)
  | handshakeUnsent (message : String)
  | replied (reply : Except NativeError (ℤ × String)) (startApi : Except String Unit)

-- The adapter over all its sessions. `writer` is the session whose socket the client
-- writes to, `sent` how many of the three requests are out, `begun` the number of sessions
-- opened when the connect call began. `heard` is what the newest session has been told.
structure Heard where
  nextValidId : Bool
  managedAccounts : Bool
  deriving DecidableEq

structure Lifecycle where
  link : Link
  serverVersion : ℤ
  connTime : String
  writer : Option ℕ
  sent : ℕ
  begun : ℕ
  heard : Heard

def Lifecycle.new : Lifecycle := ⟨.new, 0, "", none, 0, 0, ⟨false, false⟩⟩

-- connect runs up to its next await at each of its events; wait_for_bootstrap looks
-- every 20 ms, `expired` when its 10 s are over.
inductive LifecycleEvent where
  | connect (dial : Dial)
  | bootstrapPoll (expired : Bool)
  | requestWritten (outcome : Except String Unit)
  | disconnect
  | read (task : ℕ) (outcome : Read)
  | dispatcherTurn (now : ℕ) (publisher : Bool)
  | called (call : SessionEvent)

inductive LifecycleOut where
  | link (out : LinkOut)
  | request (frame : Bytes)
  | connectReturned (result : Except BrokerError Unit)
  | disconnectReturned (result : Except BrokerError Unit)

def managedAccountsOf (fields : Frame) : Option (List String) :=
  match fields with
  | head :: _ :: text :: _ => if parseInt head = .ok 15 then some (splitCommas [] text.toList) else none
  | _ => none

def Heard.adds (heard : Heard) (frames : List Frame) : Heard where
  nextValidId := heard.nextValidId || frames.any fun fields => (nextValidIdOf fields).isSome
  managedAccounts := heard.managedAccounts || frames.any fun fields => (managedAccountsOf fields).isSome

-- What a receive task gets out of a read.
def Link.framesRead (l : Link) (task : ℕ) (outcome : Read) : List Frame :=
  match l.tasks[task]?, outcome with
  | some (some buf), .bytes chunk => match tryDecodeAll (buf ++ chunk) with
    | (_, .ok frames) => frames
    | (_, .error _) => []
  | _, _ => []

namespace Lifecycle

def Bootstrapped (l : Lifecycle) : Prop :=
  0 < l.link.session.client.nextOrderId ∧ l.link.session.client.managedAccounts ≠ []

instance (l : Lifecycle) : Decidable l.Bootstrapped := inferInstanceAs (Decidable (_ ∧ _))

def clientConnect (l : Lifecycle) : Dial → Lifecycle × Except NativeError Unit
  | .timedOut => (l, .error .handshakeTimeout)
  | .failed message | .handshakeUnsent message => (l, .error (.io message))
  | .replied (.error e) _ => (l, .error e)
  | .replied (.ok (version, connTime)) startApi =>
    if version < minServerVersion then (l, .error (.serverVersionTooLow version minServerVersion))
    else match startApi with
      | .error message => ({ l with serverVersion := version, connTime }, .error (.io message))
      | .ok () => ({ l with serverVersion := version, connTime }, .ok ())

def subscriptions (account : String) : List Bytes := [reqAccountUpdates true account, reqPositions, reqOpenOrders]

end Lifecycle

section Steps

variable (chrono : Chrono) (formats : Formats) (account : String)

def Lifecycle.linked (l : Lifecycle) (e : LinkEvent) : Lifecycle :=
  { l with link := (linkStep chrono formats account l.link e).1 }

def Lifecycle.told (l : Lifecycle) (e : LinkEvent) : List LifecycleOut :=
  (linkStep chrono formats account l.link e).2.map .link

def lifecycleStep (l : Lifecycle) : LifecycleEvent → Lifecycle × List LifecycleOut
  | .connect dial =>
    if l.link.connecting ≠ none then (l, [])
    else if l.link.connected then (l, [.connectReturned (.ok ())])
    else match { l with begun := l.link.tasks.length }.clientConnect dial with
      | (l, .error e) => (l, [.connectReturned (.error (mapNativeErr e))])
      | (l, .ok ()) =>
        ({ l with writer := some l.link.tasks.length, sent := 0, heard := ⟨false, false⟩ }.linked chrono formats account
          (.dialled true), [])
  | .bootstrapPoll expired =>
    if l.link.connecting ≠ some .bootstrap then (l, [])
    else if l.Bootstrapped then
      (l.linked chrono formats account .bootstrapped,
        if l.link.rx = .inHolder then [] else [.connectReturned (.error (.internal "rx already taken"))])
    else if expired then
      (l.linked chrono formats account .bootstrapTimedOut,
        [.connectReturned (.error (mapNativeErr .handshakeTimeout))])
    else (l, [])
  | .requestWritten outcome =>
    if l.link.connecting ≠ some .requests then (l, [])
    else match l.writer, (Lifecycle.subscriptions account)[l.sent]?, outcome with
      | none, _, _ =>
        (l.linked chrono formats account (.requested false), [.connectReturned (.error (mapNativeErr .notConnected))])
      | some _, some frame, .error message =>
        (l.linked chrono formats account (.requested false),
          [.request frame, .connectReturned (.error (mapNativeErr (.io message)))])
      | some _, some frame, .ok () =>
        if l.sent + 1 < (Lifecycle.subscriptions account).length then ({ l with sent := l.sent + 1 }, [.request frame])
        else
          ({ l with sent := l.sent + 1 }.linked chrono formats account (.requested true),
            .request frame :: l.told chrono formats account (.requested true) ++ [.connectReturned (.ok ())])
      | some _, none, _ => (l, [])
  | .disconnect =>
    if l.link.connecting ≠ none then (l, [])
    else
      ({ l with writer := none }.linked chrono formats account .disconnected,
        l.told chrono formats account .disconnected ++ [.disconnectReturned (.ok ())])
  | .read task outcome =>
    let heard := if task + 1 = l.link.tasks.length then l.heard.adds (l.link.framesRead task outcome) else l.heard
    ({ l with heard }.linked chrono formats account (.read task outcome), l.told chrono formats account (.read task outcome))
  | .dispatcherTurn now publisher =>
    (l.linked chrono formats account (.dispatcherTurn now publisher),
      l.told chrono formats account (.dispatcherTurn now publisher))
  | .called call => (l.linked chrono formats account (.called call), l.told chrono formats account (.called call))

def lifecycleAfter (events : List LifecycleEvent) : Lifecycle :=
  Machine.after (lifecycleStep chrono formats account) .new events

end Steps

def Dial.opens : Dial → Bool
  | .replied (.ok (version, _)) (.ok ()) => minServerVersion ≤ version
  | _ => false

def Lifecycle.idle (l : Lifecycle) : Prop := l.link.connecting = none ∧ l.link.connected = false

-- A connection that the gateway accepts.
def LifecycleEvent.accepted : LifecycleEvent → Prop
  | .connect dial => dial.opens
  | .bootstrapPoll expired => expired = false
  | .requestWritten outcome => outcome = .ok ()
  | _ => True

structure CachesEmpty (s : BrokerState) : Prop where
  positions : s.positions = ∅
  openOrders : s.openOrders = ∅
  seeding : s.seeding = ⟨false, false, false⟩

section Property

variable (chrono : Chrono) (formats : Formats) (account : String)

def Succeeds (l : Lifecycle) (e : LifecycleEvent) : Prop :=
  let (next, out) := lifecycleStep chrono formats account l e
  ∀ result, .connectReturned result ∈ out →
    result = .ok () ∧ next.link.connected = true ∧ next.link.rx = .dispatching

def AwaitsBootstrap (l : Lifecycle) (e : LifecycleEvent) : Prop :=
  ∀ frame, .request frame ∈ (lifecycleStep chrono formats account l e).2 → l.heard = ⟨true, true⟩

def StartsFresh (l : Lifecycle) : LifecycleEvent → Prop
  | .connect dial => l.idle → dial.opens → CachesEmpty l.link.session.broker
  | _ => True

def LeavesClosed (l : Lifecycle) (e : LifecycleEvent) : Prop :=
  let (next, out) := lifecycleStep chrono formats account l e
  ∀ error, .connectReturned (.error error) ∈ out →
    next.writer = none ∧ ∀ task buf, next.link.tasks[task]? = some (some buf) → task < next.begun

structure Reconnects (events : List LifecycleEvent) : Prop where
  succeeds : (∀ e ∈ events, e.accepted) →
    Machine.Along (lifecycleStep chrono formats account) (Succeeds chrono formats account) .new events
  waits : Machine.Along (lifecycleStep chrono formats account) (AwaitsBootstrap chrono formats account) .new events
  fresh : Machine.Along (lifecycleStep chrono formats account) StartsFresh .new events
  closed : Machine.Along (lifecycleStep chrono formats account) (LeavesClosed chrono formats account) .new events

end Property

-- No session is opened after the first, and that one bootstraps in time and takes its requests.
def OneSession (l : Lifecycle) : LifecycleEvent → Prop
  | .connect dial => l.idle → dial.opens → l.link.tasks = []
  | .bootstrapPoll expired => l.link.connecting = some .bootstrap → expired = true → l.Bootstrapped
  | .requestWritten outcome => l.link.connecting = some .requests → outcome = .ok ()
  | _ => True

section Bootstrap

-- What the client knows, the session's own receive task has read.
structure Known (heard : Heard) (c : NativeClient) : Prop where
  nextValidId : 0 < c.nextOrderId → heard.nextValidId
  managedAccounts : c.managedAccounts ≠ [] → heard.managedAccounts

theorem recvFrame_accounts (c : NativeClient) (fields : Frame) :
    (c.recvFrame fields).managedAccounts = (managedAccountsOf fields).getD c.managedAccounts := by
  match fields with
  | [] => rfl
  | [head] =>
    simp only [NativeClient.recvFrame, managedAccountsOf, List.head?_cons, Option.map_some]
    cases parseInt head <;> simp
  | [head, version] =>
    simp only [NativeClient.recvFrame, managedAccountsOf, List.head?_cons, Option.map_some]
    cases parseInt head <;> simp
  | head :: version :: text :: rest =>
    simp only [NativeClient.recvFrame, managedAccountsOf, List.head?_cons, Option.map_some]
    cases parseInt head with
    | error e => simp
    | ok id =>
      by_cases next : id = 9
      · subst next
        simp only [List.length_cons, fieldOr]
        cases value : parseInt text with
        | error e => simp [value]
        | ok oid => by_cases above : c.nextOrderId < oid <;> simp [value, above]
      · by_cases accounts : id = 15
        · simp [accounts, fieldOr]
        · simp [next, accounts]

variable {heard : Heard} {c : NativeClient}

theorem adds_cons (heard : Heard) (fields : Frame) (rest : List Frame) :
    heard.adds (fields :: rest) = (heard.adds [fields]).adds rest := by
  simp [Heard.adds, Bool.or_assoc]

theorem known_adds (known : Known heard c) (frames : List Frame) : Known (heard.adds frames) c := by
  constructor
  · intro seeded
    rw [Heard.adds, known.nextValidId seeded, Bool.true_or]
  · intro listed
    rw [Heard.adds, known.managedAccounts listed, Bool.true_or]

theorem known_received (known : Known heard c) (fields : Frame) : Known (heard.adds [fields]) (c.recvFrame fields) := by
  constructor
  · intro seeded
    rw [recvFrame_counter] at seeded
    cases announces : nextValidIdOf fields with
    | some oid => simp [Heard.adds, announces]
    | none =>
      rw [announces] at seeded
      exact (known_adds known [fields]).nextValidId seeded
  · intro listed
    rw [recvFrame_accounts] at listed
    cases lists : managedAccountsOf fields with
    | some accounts => simp [Heard.adds, lists]
    | none =>
      rw [lists] at listed
      exact (known_adds known [fields]).managedAccounts listed

theorem forward_known {l : Link} (known : Known heard l.session.client) (frames : List Frame) :
    Known (heard.adds frames) (l.forward frames).1.session.client := by
  induction frames generalizing l heard with
  | nil => exact known_adds known []
  | cons fields rest next =>
    have received := known_received known fields
    rw [adds_cons]
    unfold Link.forward
    dsimp only
    split
    · exact known_adds received rest
    · split
      · exact next received
      · exact next received

theorem forward_broker (l : Link) (frames : List Frame) : (l.forward frames).1.session.broker = l.session.broker := by
  induction frames generalizing l with
  | nil => rfl
  | cons fields rest next =>
    unfold Link.forward
    dsimp only
    split
    · rfl
    · split
      · exact next _
      · exact next _

end Bootstrap

section Others

variable {chrono : Chrono} {formats : Formats} {account : String}

-- What an event beside the calls of connect and disconnect leaves as it was.
structure Beside (l next : Link) : Prop where
  owned : next.owned = l.owned
  connecting : next.connecting = l.connecting
  tasks : next.tasks.length = l.tasks.length
  rx : next.rx = l.rx
  connected : next.connected = l.connected

theorem recvTurn_beside (l : Link) (task : ℕ) (buf : Bytes) (outcome : Read) :
    Beside l (l.recvTurn task buf outcome) ∧ (l.recvTurn task buf outcome).session.broker = l.session.broker := by
  have exited : Beside l (l.exitTask task) := ⟨rfl, rfl, List.length_set, rfl, rfl⟩
  cases outcome with
  | eof => exact ⟨exited, rfl⟩
  | failed => exact ⟨exited, rfl⟩
  | bytes chunk =>
    unfold Link.recvTurn
    dsimp only
    split
    · rename_i rest frames _
      have same := forward_same l frames
      have broker := forward_broker l frames
      have tasks : ∀ next, ((l.forward frames).1.tasks.set task next).length = l.tasks.length := by
        intro next
        rw [List.length_set, same.tasks]
      split
      · exact ⟨⟨same.owned, same.connecting, tasks _, same.rx, same.connected⟩, broker⟩
      · exact ⟨⟨same.owned, same.connecting, tasks _, same.rx, same.connected⟩, broker⟩
    · exact ⟨exited, rfl⟩

theorem read_beside (l : Link) (task : ℕ) (outcome : Read) :
    Beside l (linkStep chrono formats account l (.read task outcome)).1 ∧
      (linkStep chrono formats account l (.read task outcome)).1.session.broker = l.session.broker := by
  unfold linkStep
  dsimp only
  split
  · exact recvTurn_beside l task _ outcome
  · exact ⟨⟨rfl, rfl, rfl, rfl, rfl⟩, rfl⟩

theorem read_known {heard : Heard} {l : Link} (known : Known heard l.session.client) (task : ℕ) (outcome : Read) :
    Known (heard.adds (l.framesRead task outcome))
      (linkStep chrono formats account l (.read task outcome)).1.session.client := by
  unfold linkStep Link.framesRead
  dsimp only
  cases found : l.tasks[task]? with
  | none => exact known_adds known []
  | some buffer =>
    cases buffer with
    | none => exact known_adds known []
    | some buf =>
      cases outcome with
      | eof => exact known_adds known []
      | failed => exact known_adds known []
      | bytes chunk =>
        unfold Link.recvTurn
        dsimp only
        cases decoded : tryDecodeAll (buf ++ chunk) with
        | mk rest result =>
          cases result with
          | error e => exact known_adds known []
          | ok frames =>
            have forwarded := forward_known known frames
            dsimp only
            split
            · exact forwarded
            · exact forwarded

theorem turn_beside {l : Link} {now : ℕ} {publisher : Bool} (alive : l.frames.senders ≠ 0) :
    let next := (l.dispatcherTurn chrono formats account now publisher).1
    Beside l next ∧ next.session.client = l.session.client ∧
      (l.rx ≠ .dispatching → next.session.broker = l.session.broker) := by
  unfold Link.dispatcherTurn
  split
  · exact ⟨⟨rfl, rfl, rfl, rfl, rfl⟩, rfl, fun _ => rfl⟩
  · rename_i dispatching
    split
    · exact ⟨⟨rfl, rfl, rfl, rfl, rfl⟩, rfl, fun other => absurd other dispatching⟩
    · exact ⟨⟨rfl, rfl, rfl, rfl, rfl⟩, rfl, fun _ => rfl⟩
    · rename_i frames taken
      exact absurd (Channel.Mpsc.recv_closed taken) alive

theorem session_call (s : Session) (call : SessionEvent) (calls : call.isCall) {heard : Heard} (known : Known heard s.client) :
    let next := (sessionStep chrono formats account s call).1
    Known heard next.client ∧ next.broker.positions = s.broker.positions ∧ next.broker.openOrders = s.broker.openOrders ∧
      next.broker.seeding = s.broker.seeding := by
  have allocated : Known heard s.client.allocOrderId.1 := by
    unfold NativeClient.allocOrderId
    dsimp only
    split
    · rename_i seeded
      exact ⟨fun _ => known.nextValidId seeded, known.managedAccounts⟩
    · exact known
  cases call with
  | received fields => cases calls
  | dispatched now publisher fields => cases calls
  | placeOrder req sends =>
    simp only [sessionStep, Session.placeOrder]
    split
    · exact ⟨known, rfl, rfl, rfl⟩
    · split
      · exact ⟨allocated, rfl, rfl, rfl⟩
      · split
        · exact ⟨allocated, rfl, rfl, rfl⟩
        · cases sends <;> exact ⟨allocated, rfl, rfl, rfl⟩
  | _ => exact ⟨known, rfl, rfl, rfl⟩

end Others

section Sessions

variable {chrono : Chrono} {formats : Formats} {account : String} {l : Lifecycle}

theorem clientConnect_cases (l : Lifecycle) (dial : Dial) :
    ∃ serverVersion connTime, if dial.opens then l.clientConnect dial = ({ l with serverVersion, connTime }, .ok ())
      else ∃ e, l.clientConnect dial = ({ l with serverVersion, connTime }, .error e) := by
  cases dial with
  | timedOut => exact ⟨_, _, _, rfl⟩
  | failed message => exact ⟨_, _, _, rfl⟩
  | handshakeUnsent message => exact ⟨_, _, _, rfl⟩
  | replied reply startApi =>
    cases reply with
    | error e => exact ⟨_, _, _, rfl⟩
    | ok answer =>
      obtain ⟨version, connTime⟩ := answer
      simp only [Lifecycle.clientConnect]
      by_cases low : version < minServerVersion
      · have closed : (Dial.replied (.ok (version, connTime)) startApi).opens = false := by
          cases startApi with
          | error message => rfl
          | ok written => exact decide_eq_false (not_le.mpr low)
        rw [closed, if_pos low]
        exact ⟨_, _, _, rfl⟩
      · rw [if_neg low]
        cases startApi with
        | error message => exact ⟨_, _, _, rfl⟩
        | ok written =>
          have opens : (Dial.replied (.ok (version, connTime)) (.ok written)).opens = true :=
            decide_eq_true (not_lt.mp low)
          rw [opens]
          exact ⟨version, connTime, rfl⟩

-- The state with a new session, before its bootstrap.
def Lifecycle.dialled (l : Lifecycle) (serverVersion : ℤ) (connTime : String) : Lifecycle where
  link := { l.link with
    connecting := some .bootstrap, tasks := l.link.tasks ++ [some []], frames := l.link.frames.cloned }
  serverVersion := serverVersion
  connTime := connTime
  writer := some l.link.tasks.length
  sent := 0
  begun := l.link.tasks.length
  heard := ⟨false, false⟩

-- All a connect call can do before it waits.
inductive Connects (l : Lifecycle) (dial : Dial) : Lifecycle × List LifecycleOut → Prop where
  | pending (busy : l.link.connecting ≠ none) : Connects l dial (l, [])
  | already (free : l.link.connecting = none) (connected : l.link.connected = true) :
      Connects l dial (l, [.connectReturned (.ok ())])
  | opened (idle : l.idle) (opens : dial.opens) (version : ℤ) (connTime : String) :
      Connects l dial (l.dialled version connTime, [])
  | refused (idle : l.idle) (closed : ¬dial.opens) (version : ℤ) (connTime : String) (e : BrokerError) :
      Connects l dial ({ l with serverVersion := version, connTime, begun := l.link.tasks.length },
        [.connectReturned (.error e)])

theorem connect_cases (owned : l.link.owned = true) (dial : Dial) :
    Connects l dial (lifecycleStep chrono formats account l (.connect dial)) := by
  unfold lifecycleStep
  dsimp only
  by_cases free : l.link.connecting = none
  · rw [if_neg (not_not.mpr free)]
    by_cases connected : l.link.connected = true
    · rw [if_pos connected]
      exact .already free connected
    · rw [if_neg connected]
      have idle : l.idle := ⟨free, Bool.not_eq_true _ ▸ connected⟩
      obtain ⟨version, connTime, went⟩ := clientConnect_cases { l with begun := l.link.tasks.length } dial
      by_cases opens : dial.opens
      · rw [if_pos opens] at went
        rw [went]
        have open_now : (linkStep chrono formats account l.link (.dialled true)).1 =
            (l.dialled version connTime).link := by
          simp [linkStep, owned, free, connected, Lifecycle.dialled]
        dsimp only [Lifecycle.linked]
        rw [open_now]
        exact .opened idle opens version connTime
      · rw [if_neg opens] at went
        obtain ⟨e, went⟩ := went
        rw [went]
        exact .refused idle opens version connTime _
  · rw [if_pos free]
    exact .pending free

def Lifecycle.ended (l : Lifecycle) : Lifecycle := { l with link := { l.link with connecting := none } }

inductive Polls (l : Lifecycle) (expired : Bool) : Lifecycle × List LifecycleOut → Prop where
  | elsewhere (other : l.link.connecting ≠ some .bootstrap) : Polls l expired (l, [])
  | passed (waiting : l.link.connecting = some .bootstrap) (bootstrapped : l.Bootstrapped) (held : l.link.rx = .inHolder) :
      Polls l expired ({ l with link := { l.link with connecting := some .requests, rx := .dispatching } }, [])
  | refused (waiting : l.link.connecting = some .bootstrap) (gone : l.link.rx ≠ .inHolder) :
      Polls l expired (l.ended, [.connectReturned (.error (.internal "rx already taken"))])
  | timedOut (waiting : l.link.connecting = some .bootstrap) (silent : ¬l.Bootstrapped) (late : expired = true) :
      Polls l expired (l.ended, [.connectReturned (.error (mapNativeErr .handshakeTimeout))])
  | looking (silent : ¬l.Bootstrapped) (early : expired = false) : Polls l expired (l, [])

theorem poll_cases (l : Lifecycle) (expired : Bool) :
    Polls l expired (lifecycleStep chrono formats account l (.bootstrapPoll expired)) := by
  simp only [lifecycleStep, Lifecycle.linked, linkStep]
  by_cases waiting : l.link.connecting = some .bootstrap
  · rw [if_neg (not_not.mpr waiting)]
    by_cases bootstrapped : l.Bootstrapped
    · have ready : l.link.connecting = some .bootstrap ∧ 0 < l.link.session.client.nextOrderId ∧
          l.link.session.client.managedAccounts ≠ [] := ⟨waiting, bootstrapped⟩
      rw [if_pos bootstrapped, if_pos ready]
      by_cases held : l.link.rx = .inHolder
      · rw [if_pos held, if_pos held]
        exact .passed waiting bootstrapped held
      · rw [if_neg held, if_neg held]
        exact .refused waiting held
    · rw [if_neg bootstrapped, if_pos waiting]
      cases expired with
      | true => exact .timedOut waiting bootstrapped rfl
      | false => exact .looking bootstrapped rfl
  · rw [if_pos waiting]
    exact .elsewhere waiting

inductive Requests (l : Lifecycle) (outcome : Except String Unit) : Lifecycle × List LifecycleOut → Prop where
  | elsewhere (other : l.link.connecting ≠ some .requests ∨ 3 ≤ l.sent) : Requests l outcome (l, [])
  | failed (waiting : l.link.connecting = some .requests) (lost : l.writer = none ∨ outcome ≠ .ok ()) (frames : List Bytes)
      (e : BrokerError) : Requests l outcome (l.ended, frames.map .request ++ [.connectReturned (.error e)])
  | sent (waiting : l.link.connecting = some .requests) (written : outcome = .ok ()) (room : l.sent + 1 < 3) (frame : Bytes) :
      Requests l outcome ({ l with sent := l.sent + 1 }, [.request frame])
  | done (waiting : l.link.connecting = some .requests) (written : outcome = .ok ()) (frame : Bytes) :
      Requests l outcome ({ l with sent := l.sent + 1, link := { l.link with connecting := none, connected := true } },
        [.request frame, .link (.connection .connected), .connectReturned (.ok ())])

theorem request_cases (l : Lifecycle) (outcome : Except String Unit) :
    Requests l outcome (lifecycleStep chrono formats account l (.requestWritten outcome)) := by
  simp only [lifecycleStep]
  by_cases waiting : l.link.connecting = some .requests
  · have ends : l.linked chrono formats account (.requested false) = l.ended := by
      simp [Lifecycle.linked, linkStep, waiting, Lifecycle.ended]
    rw [if_neg (not_not.mpr waiting), ends]
    split
    · rename_i lost
      exact .failed waiting (.inl lost) [] _
    · rename_i frame message _ _
      exact .failed waiting (.inr (by simp)) [frame] _
    · rename_i frame _ _
      split
      · rename_i room
        exact .sent waiting rfl room frame
      · have done : ({ l with sent := l.sent + 1 }.linked chrono formats account (.requested true),
            LifecycleOut.request frame :: l.told chrono formats account (.requested true) ++ [.connectReturned (.ok ())]) =
            ({ l with sent := l.sent + 1, link := { l.link with connecting := none, connected := true } },
              [.request frame, .link (.connection .connected), .connectReturned (.ok ())]) := by
          simp [Lifecycle.linked, Lifecycle.told, linkStep, waiting]
        rw [done]
        exact .done waiting rfl frame
    · rename_i none_left
      exact .elsewhere (.inr (List.getElem?_eq_none_iff.mp none_left))
  · rw [if_pos waiting]
    exact .elsewhere (.inl waiting)

end Sessions

-- An adapter that has opened no session, or its only one.
structure Unopened (l : Lifecycle) : Prop where
  idle : l.idle
  held : l.link.rx = .inHolder
  caches : CachesEmpty l.link.session.broker
  heard : l.heard = ⟨false, false⟩

structure Single (l : Lifecycle) : Prop where
  sound : ∃ out, Sound out l.link
  owned : l.link.owned = true
  known : Known l.heard l.link.session.client
  one : l.link.tasks.length ≤ 1
  unopened : l.link.tasks = [] → Unopened l
  writer : l.writer = none ↔ l.idle
  holder : l.link.rx = .inHolder → l.link.tasks = [] ∨ l.link.connecting = some .bootstrap
  bootstrap : l.link.connecting = some .bootstrap → l.link.rx = .inHolder
  requests : l.link.connecting = some .requests → l.heard = ⟨true, true⟩ ∧ l.link.rx = .dispatching
  connected : l.link.connected = true → l.link.connecting = none ∧ l.link.rx = .dispatching
  sent : l.link.connecting ≠ none → l.sent < 3

section Invariant

variable {chrono : Chrono} {formats : Formats} {account : String} {l : Lifecycle}

theorem start_single : Single .new where
  sound := ⟨[], rfl, nofun, fun _ => rfl, nofun, nofun, rfl⟩
  owned := rfl
  known := ⟨fun seeded => absurd seeded (lt_irrefl 0), fun listed => absurd rfl listed⟩
  one := Nat.zero_le 1
  unopened _ := ⟨⟨rfl, rfl⟩, rfl, ⟨rfl, rfl, rfl⟩, rfl⟩
  writer := ⟨fun _ => ⟨rfl, rfl⟩, fun _ => rfl⟩
  holder _ := .inl rfl
  bootstrap := nofun
  requests := nofun
  connected := nofun
  sent waiting := absurd rfl waiting

theorem linked_sound (single : Single l) (event : LinkEvent) :
    ∃ out, Sound out (l.linked chrono formats account event).link := by
  obtain ⟨out, sound⟩ := single.sound
  exact ⟨_, link_sound out l.link event sound⟩

theorem single_writes (single : Single l) {stage : Connecting} (waiting : l.link.connecting = some stage) :
    l.writer ≠ none := by
  intro unwritten
  have idle := (single.writer.mp unwritten).1
  rw [waiting] at idle
  cases idle

theorem single_opened (single : Single l) {stage : Connecting} (waiting : l.link.connecting = some stage) :
    l.link.tasks ≠ [] := by
  intro none_opened
  have idle := (single.unopened none_opened).idle.1
  rw [waiting] at idle
  cases idle

-- An event beside the calls keeps a session's invariant if it keeps what the client
-- knows, and an unopened adapter unopened.
theorem single_beside {next : Lifecycle} (single : Single l) (sound : ∃ out, Sound out next.link)
    (beside : Beside l.link next.link) (writer : next.writer = l.writer) (known : Known next.heard next.link.session.client)
    (sent : l.link.connecting ≠ none → next.sent < 3) (grows : l.heard = ⟨true, true⟩ → next.heard = ⟨true, true⟩)
    (fresh : l.link.tasks = [] → Unopened l → CachesEmpty next.link.session.broker ∧ next.heard = l.heard) : Single next := by
  obtain ⟨owned, connecting, tasks, rx, connected⟩ := beside
  have idle : next.idle ↔ l.idle := by rw [Lifecycle.idle, connecting, connected]; rfl
  have none_opened : next.link.tasks = [] → l.link.tasks = [] := by
    rw [← List.length_eq_zero_iff, ← List.length_eq_zero_iff, tasks]
    exact id
  refine ⟨sound, owned.trans single.owned, known, tasks ▸ single.one, ?_, ?_, ?_, ?_, ?_, ?_, ?_⟩
  · intro none_left
    have before := single.unopened (none_opened none_left)
    have kept := fresh (none_opened none_left) before
    exact ⟨idle.mpr before.idle, rx.trans before.held, kept.1, kept.2.trans before.heard⟩
  · rw [writer, idle]
    exact single.writer
  · rw [rx, connecting, ← List.length_eq_zero_iff, tasks, List.length_eq_zero_iff]
    exact single.holder
  · rw [rx, connecting]
    exact single.bootstrap
  · rw [rx, connecting]
    exact fun waiting => ⟨grows (single.requests waiting).1, (single.requests waiting).2⟩
  · rw [rx, connecting, connected]
    exact single.connected
  · rw [connecting]
    exact sent

theorem adds_heard {heard : Heard} (both : heard = ⟨true, true⟩) (frames : List Frame) :
    heard.adds frames = ⟨true, true⟩ := by
  rw [both]
  rfl

theorem read_single (single : Single l) (task : ℕ) (outcome : Read) :
    Single (lifecycleStep chrono formats account l (.read task outcome)).1 := by
  have beside := @read_beside chrono formats account l.link task outcome
  have known := @read_known chrono formats account l.heard l.link single.known task outcome
  refine single_beside single (linked_sound single _) beside.1 rfl ?_ single.sent ?_ ?_
  · change Known (if task + 1 = l.link.tasks.length then _ else l.heard) _
    split
    · exact known
    · rename_i other
      -- A task that is not the newest is not there, and reads nothing.
      have missing : l.link.tasks[task]? = none := by
        have one := single.one
        rw [List.getElem?_eq_none_iff]
        omega
      have unread : (linkStep chrono formats account l.link (.read task outcome)).1 = l.link := by
        simp [linkStep, missing]
      change Known l.heard (linkStep chrono formats account l.link (.read task outcome)).1.session.client
      rw [unread]
      exact single.known
  · intro both
    change (if task + 1 = l.link.tasks.length then _ else l.heard) = _
    split
    · exact adds_heard both _
    · exact both
  · intro none_opened before
    refine ⟨?_, ?_⟩
    · dsimp only [lifecycleStep, Lifecycle.linked]
      rw [beside.2]
      exact before.caches
    · change (if task + 1 = l.link.tasks.length then _ else l.heard) = _
      rw [none_opened]
      rfl

theorem turn_single (single : Single l) (now : ℕ) (publisher : Bool) :
    Single (lifecycleStep chrono formats account l (.dispatcherTurn now publisher)).1 := by
  obtain ⟨out, sound⟩ := single.sound
  have counted := sound.counted
  rw [single.owned, if_pos rfl] at counted
  have beside := @turn_beside chrono formats account l.link now publisher (by omega)
  refine single_beside single (linked_sound single _) beside.1 rfl ?_ single.sent id ?_
  · change Known l.heard (l.link.dispatcherTurn chrono formats account now publisher).1.session.client
    rw [beside.2.1]
    exact single.known
  · intro _ before
    refine ⟨?_, rfl⟩
    change CachesEmpty (l.link.dispatcherTurn chrono formats account now publisher).1.session.broker
    rw [beside.2.2 (by rw [before.held]; exact Rx.noConfusion)]
    exact before.caches

theorem called_single (single : Single l) (call : SessionEvent) :
    Single (lifecycleStep chrono formats account l (.called call)).1 := by
  have sound := @linked_sound chrono formats account l single (.called call)
  have moved : (linkStep chrono formats account l.link (.called call)).1 =
      if call.isCall then { l.link with session := (sessionStep chrono formats account l.link.session call).1 }
      else l.link := by
    simp only [linkStep, single.owned, true_and]
    split <;> rfl
  dsimp only [lifecycleStep, Lifecycle.linked] at sound ⊢
  rw [moved] at sound ⊢
  by_cases calls : call.isCall
  · rw [if_pos calls] at sound ⊢
    obtain ⟨known, positions, orders, seeding⟩ :=
      @session_call chrono formats account l.link.session call calls l.heard single.known
    refine single_beside single sound ⟨rfl, rfl, rfl, rfl, rfl⟩ rfl known single.sent id ?_
    intro _ before
    exact ⟨⟨positions.trans before.caches.positions, orders.trans before.caches.openOrders,
      seeding.trans before.caches.seeding⟩, rfl⟩
  · rw [if_neg calls]
    exact single

theorem dialled_single (single : Single l) (first : l.link.tasks = []) (serverVersion : ℤ) (connTime : String) :
    Single (l.dialled serverVersion connTime) := by
  have before := single.unopened first
  obtain ⟨out, sound⟩ := single.sound
  refine ⟨⟨out, dial_sound sound single.owned⟩, single.owned, ?_, ?_, ?_, ?_, fun _ => .inr rfl,
    fun _ => before.held, nofun, ?_, fun _ => Nat.zero_lt_succ 2⟩
  · have known := single.known
    rw [before.heard] at known
    exact known
  · simp [Lifecycle.dialled, first]
  · simp [Lifecycle.dialled]
  · simp [Lifecycle.dialled, Lifecycle.idle]
  · intro connected
    exact absurd (before.idle.2.symm.trans connected) Bool.false_ne_true

theorem refused_single (single : Single l) (serverVersion : ℤ) (connTime : String) (begun : ℕ) :
    Single { l with serverVersion, connTime, begun } :=
  single_beside single single.sound ⟨rfl, rfl, rfl, rfl, rfl⟩ rfl single.known single.sent id fun _ before =>
    ⟨before.caches, rfl⟩

theorem passed_single (single : Single l) (waiting : l.link.connecting = some .bootstrap) (bootstrapped : l.Bootstrapped)
    (sound : ∃ out, Sound out { l.link with connecting := some .requests, rx := .dispatching }) :
    Single { l with link := { l.link with connecting := some .requests, rx := .dispatching } } := by
  have heard : l.heard = ⟨true, true⟩ := by
    have id := single.known.nextValidId bootstrapped.1
    have accounts := single.known.managedAccounts bootstrapped.2
    cases heard : l.heard with
    | mk nextValidId managedAccounts =>
      rw [heard] at id accounts
      exact congrArg₂ Heard.mk id accounts
  have opened := single_opened single waiting
  have writing := single_writes single waiting
  refine ⟨sound, single.owned, single.known, single.one, fun none_opened => absurd none_opened opened, ?_, nofun, nofun,
    fun _ => ⟨heard, rfl⟩, ?_, fun _ => single.sent (by simp [waiting])⟩
  · exact ⟨fun none_written => absurd none_written writing, fun idle => by cases idle.1⟩
  · intro connected
    have free := (single.connected connected).1
    rw [waiting] at free
    cases free

theorem done_single (single : Single l) (waiting : l.link.connecting = some .requests)
    (sound : ∃ out, Sound out { l.link with connecting := none, connected := true }) (sent : ℕ) :
    Single { l with sent, link := { l.link with connecting := none, connected := true } } := by
  have dispatching := (single.requests waiting).2
  have opened := single_opened single waiting
  have writing := single_writes single waiting
  refine ⟨sound, single.owned, single.known, single.one, fun none_opened => absurd none_opened opened, ?_, ?_, nofun, nofun,
    fun _ => ⟨rfl, dispatching⟩, fun busy => absurd rfl busy⟩
  · exact ⟨fun none_written => absurd none_written writing, fun idle => by cases idle.2⟩
  · intro held
    rw [dispatching] at held
    cases held

theorem disconnect_single (single : Single l) (free : l.link.connecting = none)
    (sound : ∃ out, Sound out l.link.disconnect.1) :
    Single { l with writer := none, link := l.link.disconnect.1 } := by
  refine ⟨sound, single.owned, single.known, single.one, ?_, ?_, single.holder, single.bootstrap, single.requests, nofun,
    single.sent⟩
  · intro none_opened
    have before := single.unopened none_opened
    exact ⟨⟨free, rfl⟩, before.held, ⟨before.caches.positions, before.caches.openOrders, before.caches.seeding⟩,
      before.heard⟩
  · exact ⟨fun _ => ⟨free, rfl⟩, fun _ => rfl⟩

theorem step_single {e : LifecycleEvent} (one : OneSession l e) (single : Single l) :
    Single (lifecycleStep chrono formats account l e).1 := by
  cases e with
  | connect dial =>
    have effect := @connect_cases chrono formats account l single.owned dial
    generalize lifecycleStep chrono formats account l (.connect dial) = result at effect ⊢
    cases effect with
    | pending busy => exact single
    | already free connected => exact single
    | opened idle opens version connTime => exact dialled_single single (one idle opens) version connTime
    | refused idle closed version connTime e => exact refused_single single version connTime _
  | bootstrapPoll expired =>
    have sound := @linked_sound chrono formats account l single .bootstrapped
    have effect := @poll_cases chrono formats account l expired
    generalize lifecycleStep chrono formats account l (.bootstrapPoll expired) = result at effect ⊢
    cases effect with
    | elsewhere other => exact single
    | passed waiting bootstrapped held =>
      have ready : l.link.connecting = some .bootstrap ∧ 0 < l.link.session.client.nextOrderId ∧
          l.link.session.client.managedAccounts ≠ [] := ⟨waiting, bootstrapped⟩
      simp only [Lifecycle.linked, linkStep, if_pos ready, if_pos held] at sound
      exact passed_single single waiting bootstrapped sound
    | refused waiting gone => exact absurd (single.bootstrap waiting) gone
    | timedOut waiting silent late => exact absurd (one waiting late) silent
    | looking _ early => exact single
  | requestWritten outcome =>
    have sound := @linked_sound chrono formats account l single (.requested true)
    have effect := @request_cases chrono formats account l outcome
    generalize lifecycleStep chrono formats account l (.requestWritten outcome) = result at effect ⊢
    cases effect with
    | elsewhere other => exact single
    | failed waiting lost frames e =>
      rcases lost with unwritten | unsent
      · exact absurd unwritten (single_writes single waiting)
      · exact absurd (one waiting) unsent
    | sent waiting written room frame =>
      exact single_beside single single.sound ⟨rfl, rfl, rfl, rfl, rfl⟩ rfl single.known (fun _ => room) id
        fun _ before => ⟨before.caches, rfl⟩
    | done waiting written frame =>
      simp only [Lifecycle.linked, linkStep, if_pos waiting, if_true] at sound
      exact done_single single waiting sound _
  | disconnect =>
    have sound := @linked_sound chrono formats account l single .disconnected
    unfold lifecycleStep
    dsimp only
    by_cases free : l.link.connecting = none
    · rw [if_neg (not_not.mpr free)]
      simp only [Lifecycle.linked, linkStep, if_pos (⟨single.owned, free⟩ : _ ∧ _)] at sound ⊢
      exact disconnect_single single free sound
    · rw [if_pos free]
      exact single
  | read task outcome => exact read_single single task outcome
  | dispatcherTurn now publisher => exact turn_single single now publisher
  | called call => exact called_single single call

-- The link tells of its own outputs only.
theorem untold {out : LifecycleOut} (other : ∀ own, out ≠ .link own) (e : LinkEvent) :
    out ∉ l.told chrono formats account e := by
  intro sent
  obtain ⟨own, -, rfl⟩ := List.mem_map.mp sent
  exact other own rfl

-- All the ways a connect call comes to an end.
inductive Returned (l : Lifecycle) : LifecycleEvent → Except BrokerError Unit → Lifecycle → Prop where
  | already (dial : Dial) (free : l.link.connecting = none) (connected : l.link.connected = true) :
      Returned l (.connect dial) (.ok ()) l
  | refused (dial : Dial) (idle : l.idle) (closed : ¬dial.opens) (version : ℤ) (connTime : String) (e : BrokerError) :
      Returned l (.connect dial) (.error e) { l with serverVersion := version, connTime, begun := l.link.tasks.length }
  | taken (expired : Bool) (waiting : l.link.connecting = some .bootstrap) (gone : l.link.rx ≠ .inHolder) :
      Returned l (.bootstrapPoll expired) (.error (.internal "rx already taken")) l.ended
  | timedOut (waiting : l.link.connecting = some .bootstrap) (silent : ¬l.Bootstrapped) (e : BrokerError) :
      Returned l (.bootstrapPoll true) (.error e) l.ended
  | failed (outcome : Except String Unit) (waiting : l.link.connecting = some .requests)
      (lost : l.writer = none ∨ outcome ≠ .ok ()) (e : BrokerError) : Returned l (.requestWritten outcome) (.error e) l.ended
  | done (outcome : Except String Unit) (waiting : l.link.connecting = some .requests) :
      Returned l (.requestWritten outcome) (.ok ())
        { l with sent := l.sent + 1, link := { l.link with connecting := none, connected := true } }

theorem connect_returned (owned : l.link.owned = true) {e : LifecycleEvent} {result : Except BrokerError Unit}
    (returned : .connectReturned result ∈ (lifecycleStep chrono formats account l e).2) :
    Returned l e result (lifecycleStep chrono formats account l e).1 := by
  have silent : ∀ link, .connectReturned result ∉ l.told chrono formats account link :=
    untold fun _ => LifecycleOut.noConfusion
  cases e with
  | connect dial =>
    have effect := @connect_cases chrono formats account l owned dial
    generalize lifecycleStep chrono formats account l (.connect dial) = step at effect returned ⊢
    cases effect with
    | pending busy => cases returned
    | already free connected =>
      obtain rfl := LifecycleOut.connectReturned.inj (List.mem_singleton.mp returned)
      exact .already dial free connected
    | opened idle opens version connTime => cases returned
    | refused idle closed version connTime e =>
      obtain rfl := LifecycleOut.connectReturned.inj (List.mem_singleton.mp returned)
      exact .refused dial idle closed version connTime e
  | bootstrapPoll expired =>
    have effect := @poll_cases chrono formats account l expired
    generalize lifecycleStep chrono formats account l (.bootstrapPoll expired) = step at effect returned ⊢
    cases effect with
    | refused waiting gone =>
      obtain rfl := LifecycleOut.connectReturned.inj (List.mem_singleton.mp returned)
      exact .taken expired waiting gone
    | timedOut waiting unanswered late =>
      obtain rfl := LifecycleOut.connectReturned.inj (List.mem_singleton.mp returned)
      obtain rfl := late
      exact .timedOut waiting unanswered _
    | _ => cases returned
  | requestWritten outcome =>
    have effect := @request_cases chrono formats account l outcome
    generalize lifecycleStep chrono formats account l (.requestWritten outcome) = step at effect returned ⊢
    cases effect with
    | elsewhere other => cases returned
    | failed waiting lost frames e =>
      have same : result = .error e := by simpa using returned
      rw [same]
      exact .failed outcome waiting lost e
    | sent waiting written room frame => simp at returned
    | done waiting written frame =>
      have same : result = .ok () := by simpa using returned
      rw [same]
      exact .done outcome waiting
  | disconnect =>
    unfold lifecycleStep at returned
    dsimp only at returned
    split at returned
    · cases returned
    · rcases List.mem_append.mp returned with told | closed
      · exact absurd told (silent _)
      · cases List.mem_singleton.mp closed
  | read task outcome => exact absurd returned (silent _)
  | dispatcherTurn now publisher => exact absurd returned (silent _)
  | called call => exact absurd returned (silent _)

theorem request_sent {e : LifecycleEvent} {frame : Bytes} (owned : l.link.owned = true)
    (sent : .request frame ∈ (lifecycleStep chrono formats account l e).2) : l.link.connecting = some .requests := by
  have silent : ∀ link, .request frame ∉ l.told chrono formats account link :=
    untold fun _ => LifecycleOut.noConfusion
  cases e with
  | connect dial =>
    have effect := @connect_cases chrono formats account l owned dial
    generalize lifecycleStep chrono formats account l (.connect dial) = step at effect sent
    cases effect <;> simp at sent
  | bootstrapPoll expired =>
    have effect := @poll_cases chrono formats account l expired
    generalize lifecycleStep chrono formats account l (.bootstrapPoll expired) = step at effect sent
    cases effect <;> simp at sent
  | requestWritten outcome =>
    have effect := @request_cases chrono formats account l outcome
    generalize lifecycleStep chrono formats account l (.requestWritten outcome) = step at effect sent
    cases effect with
    | elsewhere other => cases sent
    | failed waiting lost frames e => exact waiting
    | sent waiting written room frame => exact waiting
    | done waiting written frame => exact waiting
  | disconnect =>
    unfold lifecycleStep at sent
    dsimp only at sent
    split at sent
    · cases sent
    · rcases List.mem_append.mp sent with told | closed
      · exact absurd told (silent _)
      · cases List.mem_singleton.mp closed
  | read task outcome => exact absurd sent (silent _)
  | dispatcherTurn now publisher => exact absurd sent (silent _)
  | called call => exact absurd sent (silent _)

theorem single_awaits (single : Single l) (e : LifecycleEvent) : AwaitsBootstrap chrono formats account l e :=
  fun _ sent => (single.requests (request_sent single.owned sent)).1

theorem single_fresh {e : LifecycleEvent} (one : OneSession l e) (single : Single l) : StartsFresh l e := by
  cases e with
  | connect dial => exact fun idle opens => (single.unopened (one idle opens)).caches
  | _ => trivial

-- A connect call within the only session comes to one of three ends.
theorem single_returned {e : LifecycleEvent} (one : OneSession l e) (single : Single l) {result : Except BrokerError Unit}
    (returned : .connectReturned result ∈ (lifecycleStep chrono formats account l e).2) :
    let next := (lifecycleStep chrono formats account l e).1
    (result = .ok () ∧ next.link.connected = true ∧ next.link.rx = .dispatching) ∨
      (¬e.accepted ∧ next.writer = none ∧ next.begun = next.link.tasks.length) := by
  have ways := connect_returned single.owned returned
  generalize (lifecycleStep chrono formats account l e).1 = next at ways
  cases ways with
  | already dial free connected => exact .inl ⟨rfl, connected, (single.connected connected).2⟩
  | refused dial idle closed version connTime e => exact .inr ⟨closed, single.writer.mpr idle, rfl⟩
  | taken expired waiting gone => exact absurd (single.bootstrap waiting) gone
  | timedOut waiting silent e => exact absurd (one waiting rfl) silent
  | failed outcome waiting lost e =>
    rcases lost with unwritten | unsent
    · exact absurd unwritten (single_writes single waiting)
    · exact absurd (one waiting) unsent
  | done outcome waiting => exact .inl ⟨rfl, rfl, (single.requests waiting).2⟩

theorem single_closed {e : LifecycleEvent} (one : OneSession l e) (single : Single l) :
    LeavesClosed chrono formats account l e := by
  intro error returned
  rcases single_returned one single returned with ⟨ok, -⟩ | ⟨-, unwritten, begun⟩
  · cases ok
  · refine ⟨unwritten, ?_⟩
    intro task buf held
    exact (List.getElem?_eq_some_iff.mp held).1.trans_eq begun.symm

theorem single_succeeds {e : LifecycleEvent} (one : OneSession l e) (accepted : e.accepted) (single : Single l) :
    Succeeds chrono formats account l e := by
  intro result returned
  rcases single_returned one single returned with succeeded | ⟨refused, -⟩
  · exact succeeded
  · exact absurd accepted refused

theorem one_session_reconnects {events : List LifecycleEvent}
    (one : Machine.Along (lifecycleStep chrono formats account) OneSession .new events) :
    Reconnects chrono formats account events := by
  have kept : ∀ l e, OneSession l e → Single l → Single (lifecycleStep chrono formats account l e).1 :=
    fun _ _ one single => step_single one single
  constructor
  · intro accepted
    exact Machine.along_of Single kept (fun _ e member one single => single_succeeds one (accepted e member) single)
      start_single one
  · exact Machine.along_of Single kept (fun _ e _ _ single => single_awaits single e) start_single one
  · exact Machine.along_of Single kept (fun _ _ _ one single => single_fresh one single) start_single one
  · exact Machine.along_of Single kept (fun _ _ _ one single => single_closed one single) start_single one

-- A connect call of a session after the first: the receiver it waits for is gone.
structure Doomed (l : Lifecycle) : Prop where
  owned : l.link.owned = true
  waiting : l.link.connecting = some .bootstrap
  gone : l.link.rx ≠ .inHolder
  writing : l.writer ≠ none

theorem turn_gone {l : Link} (gone : l.rx ≠ .inHolder) (now : ℕ) (publisher : Bool) :
    let next := (l.dispatcherTurn chrono formats account now publisher).1
    next.owned = l.owned ∧ next.connecting = l.connecting ∧ next.rx ≠ .inHolder := by
  unfold Link.dispatcherTurn
  split
  · exact ⟨rfl, rfl, gone⟩
  · split
    · exact ⟨rfl, rfl, gone⟩
    · exact ⟨rfl, rfl, gone⟩
    · exact ⟨rfl, rfl, Rx.noConfusion⟩

theorem doomed_step {e : LifecycleEvent} (doomed : Doomed l) (closed : LeavesClosed chrono formats account l e) :
    Doomed (lifecycleStep chrono formats account l e).1 := by
  have kept := doomed
  obtain ⟨owned, waiting, gone, writing⟩ := doomed
  have busy : l.link.connecting ≠ none := by simp [waiting]
  unfold LeavesClosed at closed
  cases e with
  | connect dial =>
    unfold lifecycleStep
    dsimp only
    rw [if_pos busy]
    exact kept
  | bootstrapPoll expired =>
    have effect := @poll_cases chrono formats account l expired
    generalize lifecycleStep chrono formats account l (.bootstrapPoll expired) = step at effect closed ⊢
    cases effect with
    | elsewhere other => exact kept
    | passed _ bootstrapped held => exact absurd held gone
    | refused _ _ => exact absurd (closed _ (List.mem_singleton_self _)).1 writing
    | timedOut _ silent late => exact absurd (closed _ (List.mem_singleton_self _)).1 writing
    | looking _ early => exact kept
  | requestWritten outcome =>
    have elsewhere : l.link.connecting ≠ some .requests := by simp [waiting]
    unfold lifecycleStep
    dsimp only
    rw [if_pos elsewhere]
    exact kept
  | disconnect =>
    unfold lifecycleStep
    dsimp only
    rw [if_pos busy]
    exact kept
  | read task outcome =>
    obtain ⟨beside, -⟩ := @read_beside chrono formats account l.link task outcome
    exact ⟨beside.owned.trans owned, beside.connecting.trans waiting, beside.rx ▸ gone, writing⟩
  | dispatcherTurn now publisher =>
    obtain ⟨same, connecting, still⟩ := @turn_gone chrono formats account l.link gone now publisher
    exact ⟨same.trans owned, connecting.trans waiting, still, writing⟩
  | called call =>
    dsimp only [lifecycleStep, Lifecycle.linked, linkStep]
    split
    · exact ⟨owned, waiting, gone, writing⟩
    · exact kept

theorem doomed_unsettled {events : List LifecycleEvent} (doomed : Doomed l)
    (closed : Machine.Along (lifecycleStep chrono formats account) (LeavesClosed chrono formats account) l events) :
    (Machine.after (lifecycleStep chrono formats account) l events).link.connecting ≠ none := by
  have last := Machine.reached Doomed (fun _ _ closed doomed => doomed_step doomed closed) doomed closed
  rw [last.waiting]
  exact Option.some_ne_none _

-- A step out of the only session leaves a socket open, or a connect that will.
theorem second_session {e : LifecycleEvent} (single : Single l) (second : ¬OneSession l e)
    (closed : LeavesClosed chrono formats account l e) : Doomed (lifecycleStep chrono formats account l e).1 := by
  unfold LeavesClosed at closed
  cases e with
  | connect dial =>
    obtain ⟨idle, others⟩ := Classical.not_imp.mp second
    obtain ⟨opens, opened⟩ := Classical.not_imp.mp others
    have effect := @connect_cases chrono formats account l single.owned dial
    generalize lifecycleStep chrono formats account l (.connect dial) = step at effect ⊢
    cases effect with
    | pending busy => exact absurd idle.1 busy
    | already free connected => exact absurd (idle.2.symm.trans connected) Bool.false_ne_true
    | opened _ _ version connTime =>
      refine ⟨single.owned, rfl, ?_, Option.some_ne_none _⟩
      intro held
      rcases single.holder held with none_opened | waiting
      · exact opened none_opened
      · rw [idle.1] at waiting
        cases waiting
    | refused _ refused version connTime e => exact absurd opens refused
  | bootstrapPoll expired =>
    obtain ⟨waiting, others⟩ := Classical.not_imp.mp second
    obtain ⟨late, silent⟩ := Classical.not_imp.mp others
    have writing := single_writes single waiting
    have effect := @poll_cases chrono formats account l expired
    generalize lifecycleStep chrono formats account l (.bootstrapPoll expired) = step at effect closed ⊢
    cases effect with
    | elsewhere other => exact absurd waiting other
    | passed _ bootstrapped held => exact absurd bootstrapped silent
    | refused _ gone => exact absurd (closed _ (List.mem_singleton_self _)).1 writing
    | timedOut _ _ _ => exact absurd (closed _ (List.mem_singleton_self _)).1 writing
    | looking _ early =>
      rw [late] at early
      cases early
  | requestWritten outcome =>
    obtain ⟨waiting, unsent⟩ := Classical.not_imp.mp second
    have writing := single_writes single waiting
    have room := single.sent (by simp [waiting])
    have effect := @request_cases chrono formats account l outcome
    generalize lifecycleStep chrono formats account l (.requestWritten outcome) = step at effect closed ⊢
    cases effect with
    | elsewhere other =>
      rcases other with idle | full
      · exact absurd waiting idle
      · omega
    | failed _ lost frames e =>
      exact absurd (closed e (List.mem_append_right _ (List.mem_singleton_self _))).1 writing
    | sent _ written room frame => exact absurd written unsent
    | done _ written frame => exact absurd written unsent
  | _ => exact absurd trivial second

theorem settled_one_session {events : List LifecycleEvent} (single : Single l)
    (closed : Machine.Along (lifecycleStep chrono formats account) (LeavesClosed chrono formats account) l events)
    (settled : (Machine.after (lifecycleStep chrono formats account) l events).link.connecting = none) :
    Machine.Along (lifecycleStep chrono formats account) OneSession l events := by
  induction events generalizing l with
  | nil => trivial
  | cons e rest next =>
    by_cases one : OneSession l e
    · exact ⟨one, next (step_single one single) closed.2 settled⟩
    · have doomed := second_session single one closed.1
      have unsettled := doomed_unsettled doomed closed.2
      exact absurd settled unsettled

end Invariant

theorem reconnects_within_one_session (chrono : Chrono) (formats : Formats) (account : String)
    (events : List LifecycleEvent) :
    (Machine.Along (lifecycleStep chrono formats account) OneSession .new events →
      Reconnects chrono formats account events) ∧
    ((lifecycleAfter chrono formats account events).link.connecting = none → Reconnects chrono formats account events →
      Machine.Along (lifecycleStep chrono formats account) OneSession .new events) := by
  refine ⟨one_session_reconnects, ?_⟩
  intro settled reconnects
  exact settled_one_session start_single reconnects.closed settled

section Second

def acceptedDial : Dial := .replied (.ok (176, "20260620 10:00:00")) (.ok ())

-- The bootstrap and an empty position list in one read.
def firstAnswers : List Frame := bootstrapAnswers ++ [["62", "1"]]

def opening : List LifecycleEvent := [.connect acceptedDial, .read 0 (.bytes (wire firstAnswers))]

def established : List LifecycleEvent :=
  [.bootstrapPoll false, .requestWritten (.ok ()), .requestWritten (.ok ()), .requestWritten (.ok ()),
    .dispatcherTurn 0 false, .dispatcherTurn 1 false, .dispatcherTurn 2 false]

def again : List LifecycleEvent := [.disconnect, .connect acceptedDial]

def reconnected : List LifecycleEvent := opening ++ established ++ again ++ [.bootstrapPoll false]

def opened : Lifecycle where
  link := { Link.new with
    session := { Session.new with client := ⟨7, ["DU1"]⟩ }
    connecting := some .bootstrap
    tasks := [some []]
    frames := ⟨⟨firstAnswers, by decide⟩, 2⟩ }
  serverVersion := 176
  connTime := "20260620 10:00:00"
  writer := some 0
  sent := 0
  begun := 0
  heard := ⟨true, true⟩

theorem opening_after : lifecycleAfter ⟨fun _ _ => none⟩ noTexts "DU1" opening = opened := by
  have fit : ∀ message ∈ firstAnswers, Fits message := by
    intro message member
    simp only [firstAnswers, bootstrapAnswers, List.cons_append, List.nil_append, List.mem_cons, List.not_mem_nil,
      or_false] at member
    rcases member with rfl | rfl | rfl
    all_goals exact ⟨by decide +kernel, by decide +kernel⟩
  change (lifecycleStep _ _ _ (Lifecycle.new.dialled 176 "20260620 10:00:00") (.read 0 (.bytes (wire firstAnswers)))).1 = _
  dsimp only [lifecycleStep, Lifecycle.linked, linkStep, Lifecycle.dialled, Lifecycle.new, Link.new, Link.framesRead,
    Link.recvTurn, List.nil_append, List.getElem?_cons_zero]
  rw [decode_wire fit]
  rfl

theorem opening_then (rest : List LifecycleEvent) :
    lifecycleAfter ⟨fun _ _ => none⟩ noTexts "DU1" (opening ++ rest) =
      Machine.after (lifecycleStep ⟨fun _ _ => none⟩ noTexts "DU1") opened rest := by
  rw [lifecycleAfter, Machine.after_append, ← opening_after]
  rfl

end Second

theorem first_session_reconnects :
    Reconnects ⟨fun _ _ => none⟩ noTexts "DU1" (opening ++ established ++ [.connect acceptedDial, .disconnect]) := by
  refine (reconnects_within_one_session ⟨fun _ _ => none⟩ noTexts "DU1" _).1 ?_
  refine ⟨fun _ _ => rfl, trivial, ?_, fun _ => rfl, fun _ => rfl, fun _ => rfl, trivial, trivial, trivial, ?_, trivial,
    trivial⟩
  · intro _ late
    cases late
  · intro idle
    have connected : (lifecycleAfter ⟨fun _ _ => none⟩ noTexts "DU1" (opening ++ established)).link.connected = true := by
      rw [opening_then]
      decide +kernel
    exact absurd (idle.2.symm.trans connected) Bool.false_ne_true

-- The gateway accepts both connections. The second connect opens its socket over the
-- flags of the first session, fails, and leaves the socket behind.
theorem second_connect_fails :
    (∀ e ∈ reconnected, e.accepted) ∧
      (lifecycleAfter ⟨fun _ _ => none⟩ noTexts "DU1" (opening ++ established ++ [.disconnect])).link.session.broker.seeding =
        ⟨true, false, false⟩ ∧
      (lifecycleAfter ⟨fun _ _ => none⟩ noTexts "DU1" reconnected).writer = some 1 ∧
      ¬Reconnects ⟨fun _ _ => none⟩ noTexts "DU1" reconnected := by
  refine ⟨?_, ?_, ?_, ?_⟩
  · simp [reconnected, opening, established, again, LifecycleEvent.accepted, acceptedDial, Dial.opens, minServerVersion]
  · rw [List.append_assoc, opening_then]
    decide +kernel
  · rw [reconnected, List.append_assoc, List.append_assoc, opening_then]
    decide +kernel
  · intro reconnects
    have closed := ((Machine.along_append _ _ _).mp reconnects.closed).2.1
    change LeavesClosed _ _ _ (lifecycleAfter _ _ _ (opening ++ established ++ again)) _ at closed
    rw [List.append_assoc, opening_then] at closed
    generalize passed : Machine.after _ opened (established ++ again) = l at closed
    have waiting : l.link.connecting = some .bootstrap := by
      rw [← passed]
      decide +kernel
    have gone : l.link.rx ≠ .inHolder := by
      rw [← passed]
      decide +kernel
    have bootstrapped : l.Bootstrapped := by
      rw [← passed]
      decide +kernel
    have writing : l.writer ≠ none := by
      rw [← passed]
      decide +kernel
    unfold LeavesClosed at closed
    have effect := @poll_cases ⟨fun _ _ => none⟩ noTexts "DU1" l false
    generalize lifecycleStep _ _ _ l (.bootstrapPoll false) = step at effect closed
    cases effect with
    | elsewhere other => exact other waiting
    | passed _ _ held => exact gone held
    | refused _ _ => exact writing (closed _ (List.mem_singleton_self _)).1
    | timedOut _ silent _ => exact silent bootstrapped
    | looking silent early => exact silent bootstrapped

end Corsair.Native
