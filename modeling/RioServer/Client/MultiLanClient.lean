import RioServer.Client.Reconnect
import RioServer.Db.Channels

/-!
# The whole DB client: every session and every thread (MultiLanClient.cpp)

`MultiLanClient` is what the threads of the client share: the sessions of
`sessionList` that `Start` has set up, the list of the ids that wait for the
`Reconnecter`, and the counters that hand out ids and channels. What a thread
does at a session is the action of `Session.lean` on the `view` of that session:
its own fields, and how often its id is in the list. `commit` writes back.

What only the whole client shows is added here. `Start` sets the sessions up one
after the other and gives each the next id; `SendPacket` picks a session by
`m_channelSelector` or by a fixed id; and there is one `Reconnecter` for all
sessions, which takes the first id of the list, uses it as an index, and takes it
off the list when it has reconnected the session.

The list's lock is not everywhere: `ReleaseSession` appends under it (line 218),
the `Reconnecter` takes the first id off without it (line 427). Each of the two
is one action here, that is, the two are assumed not to overlap.

`SendPacket` and `Stop` are called when `Start` has returned. Where a channel is
none of `sessionList`, or the modulus zero, nothing can happen, and neither behind
a `WSASend` that fails with `WSAENOBUFS`: that the process ends there is in
`ClientThreads.lean`.
-/

namespace RioServer.Client

open Machine

/-- A session of `sessionList` behind its set-up: `m_SessionId` and the rest. -/
structure Connection where
  sessionId : Nat
  state : State

/-- `CMultiLanClient` (MultiLanClient.h:26). `started` says that `Start` has
returned; `released` and `reconnected` record which ids were put on the list and
taken off it, and no code reads them. -/
structure MultiLanClient where
  sessionList : List Connection
  sessionIdGenerator : Nat
  channelSelector : UInt64
  sessionReconnectIdList : List Nat
  stopClient : Bool
  started : Bool
  released : List Nat
  reconnected : List Nat

/-- `Start` in front of one of its calls for a session. -/
inductive StartPc where
  | socket
  | connect
  | setSockOpt
  deriving DecidableEq, Repr

/-- Where a thread stands. `sleeping` is the `Reconnecter` between its turns,
`stopped` when it has returned; `returned` is a call that did not get to a
session, and `stop` one of `Stop`. -/
inductive ClientPc where
  | start (i : Nat) (pc : StartPc)
  | startRecvPost (i : Nat) (pc : Pc)
  | startReturned
  | sleeping
  | reconnecter (i : Nat) (pc : Pc)
  | stopped
  | session (i : Nat) (pc : Pc)
  | returned
  | stop
  deriving DecidableEq, Repr

namespace MultiLanClient

/-- The client in front of the loop of `Start`. -/
def initial : MultiLanClient where
  sessionList := []
  sessionIdGenerator := 0
  channelSelector := 0
  sessionReconnectIdList := []
  stopClient := false
  started := false
  released := []
  reconnected := []

/-! ## One session in the client -/

/-- A session with what the client keeps for it. -/
def view (g : MultiLanClient) (conn : Connection) : State :=
  { conn.state with
    sessionReconnectIdList := g.sessionReconnectIdList.count conn.sessionId
    stopClient := g.stopClient }

/-- `sessionReconnectIdList` behind an action for a session: `emplace_back` in
`ReleaseSession` (MultiLanClient.cpp:218), `pop_front` in `Reconnecter`
(MultiLanClient.cpp:427). -/
def listed (g : MultiLanClient) (conn : Connection) : Pc → List Nat
  | .release .emplaceBack _ => g.sessionReconnectIdList ++ [conn.sessionId]
  | .reconnecter (.popFront _) => g.sessionReconnectIdList.tail
  | _ => g.sessionReconnectIdList

/-- The ids that were put on the list. -/
def enlisted (g : MultiLanClient) (conn : Connection) : Pc → List Nat
  | .release .emplaceBack _ => g.released ++ [conn.sessionId]
  | _ => g.released

/-- The ids that were taken off the list. -/
def delisted (g : MultiLanClient) : Pc → List Nat
  | .reconnecter (.popFront _) => g.reconnected ++ g.sessionReconnectIdList.head?.toList
  | _ => g.reconnected

/-- Write back that session `i` has gone on to `s'` at `pc`. -/
def commit (g : MultiLanClient) (i : Nat) (conn : Connection) (pc : Pc) (s' : State) :
    MultiLanClient :=
  { g with
    sessionList := g.sessionList.set i { conn with state := s' }
    sessionReconnectIdList := g.listed conn pc
    released := g.enlisted conn pc
    reconnected := g.delisted pc }

/-- An action at session `i`. -/
def act (spec : ClientSpec) (g : MultiLanClient) (i : Nat) (pc : Pc) (o : CallResult) :
    Option (MultiLanClient × Pc) :=
  match g.sessionList[i]? with
  | none => none
  | some conn =>
    (Client.exec spec pc o (g.view conn)).map fun r => (g.commit i conn pc r.1, r.2)

/-- `Start` has set up the next session, up to its `RecvPost`
(MultiLanClient.cpp:105–114). -/
def setUp (g : MultiLanClient) : MultiLanClient :=
  { g with
    sessionList := g.sessionList ++ [⟨g.sessionIdGenerator, State.initial⟩]
    sessionIdGenerator := g.sessionIdGenerator + 1 }

/-! ## Actions -/

/-- `Start` behind the `RecvPost` of session `i`. -/
def startNext (i : Nat) (pc : Pc) : ClientPc :=
  if pc = .finished then .start (i + 1) .socket else .startRecvPost i pc

/-- `Reconnecter` behind an action for session `i`. -/
def reconnecterNext (i : Nat) (pc : Pc) : ClientPc :=
  if pc = .reconnecter .takeFirst then .sleeping else .reconnecter i pc

/-- One action of a thread. -/
def exec (spec : ClientSpec) (options : Db.LanClientOptions) (pc : ClientPc) (o : CallResult)
    (g : MultiLanClient) : Option (MultiLanClient × ClientPc) :=
  match pc with
  -- the loop of `Start` (MultiLanClient.cpp:68); where it fails, `DBClient::Start`
  -- brings the process down
  | .start i .socket =>
    if i < options.numOfSession.toNat then
      if o = .success then some (g, .start i .connect) else some (g, .startReturned)
    else some ({ g with started := true }, .startReturned)
  | .start i .connect =>
    match o with
    | .success => some (g, .start i .setSockOpt)
    | .wsaEisconn => some (g, .start i .socket)
    | _ => some (g, .start i .connect)
  | .start i .setSockOpt =>
    if o = .success then some (g.setUp, .startRecvPost i (.recvPost .isFull .start))
    else some (g, .startReturned)
  | .startRecvPost i pc => (g.act spec i pc o).map fun r => (r.1, startNext i r.2)
  -- `Reconnecter` (MultiLanClient.cpp:360): the list is looked at under its lock
  | .sleeping =>
    if g.stopClient then some (g, .stopped)
    else
      match g.sessionReconnectIdList with
      | [] => none
      | releasedSessionId :: _ =>
        (g.act spec releasedSessionId (.reconnecter .takeFirst) o).map fun r =>
          (r.1, reconnecterNext releasedSessionId r.2)
  | .reconnecter i pc => (g.act spec i pc o).map fun r => (r.1, reconnecterNext i r.2)
  | .session i pc => (g.act spec i pc o).map fun r => (r.1, .session i r.2)
  | .startReturned | .stopped | .returned | .stop => none

/-! ## Events -/

/-- What happens around the client: `SendPacket` of a buffer or of a null
pointer, `SendPacket` with a fixed id, a worker takes the completion of a
receive or a send of some session, or `Stop` is called. -/
inductive Event where
  | sendPacket
  | sendNull
  | sendPacketFixed (fixedId : UInt64)
  | recvCompletion (i k : Nat) (bytes : List UInt8)
  | sendCompletion (i k : Nat)
  | stop
  deriving DecidableEq, Repr

/-- An event at session `i`. -/
def begin (g : MultiLanClient) (i : Nat) (e : Client.Event) :
    Option (MultiLanClient × ClientPc) :=
  match g.sessionList[i]? with
  | none => none
  | some conn =>
    (Client.spawn e (g.view conn)).map fun r => (g.commit i conn .finished r.1, .session i r.2)

/-- The thread an event starts. `GetChannelId` (MultiLanClient.cpp:490) and
`GetFixedChannelId` (MultiLanClient.cpp:495) choose the session of a packet. -/
def spawn (options : Db.LanClientOptions) (e : Event) (g : MultiLanClient) :
    Option (MultiLanClient × ClientPc) :=
  match e with
  | .sendPacket =>
    if g.started ∧ options.numOfWorkerThread ≠ 0 then
      { g with channelSelector := g.channelSelector + 1 }.begin
        ((g.channelSelector + 1).toNat % options.numOfWorkerThread.toNat) .sendPacket
    else none
  | .sendNull =>
    if g.started ∧ options.numOfWorkerThread ≠ 0 then
      some ({ g with channelSelector := g.channelSelector + 1 }, .returned)
    else none
  | .sendPacketFixed fixedId =>
    if g.started ∧ options.numOfUsingWorkerThread ≠ 0 then
      g.begin (fixedId.toNat % options.numOfUsingWorkerThread.toNat) .sendPacket
    else none
  | .recvCompletion i k bytes => g.begin i (.recvCompletion k bytes)
  | .sendCompletion i k => g.begin i (.sendCompletion k)
  | .stop => if g.started then some ({ g with stopClient := true }, .stop) else none

end MultiLanClient

/-- **The client's machine**: all threads of all sessions. -/
def multiLanClient (spec : ClientSpec) (options : Db.LanClientOptions) :
    Machine MultiLanClient ClientPc CallResult MultiLanClient.Event where
  exec := MultiLanClient.exec spec options
  spawn := MultiLanClient.spawn options

/-- The client in front of the loop of `Start`, the `Reconnecter` waiting. -/
def multiLanClient.init : Config MultiLanClient ClientPc :=
  ⟨MultiLanClient.initial, [.start 0 .socket, .sleeping]⟩

end RioServer.Client
