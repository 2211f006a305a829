import RioServer.Lib.Interleaving
import RioServer.Server.RecvCompleted
import RioServer.Server.SendStream

/-!
# One session and the threads that act on it (RIOTestServer.cpp, RIOTestSession.cpp)

`State` is one `RIOTestSession` together with what the server's tables say
about it, the RIO requests that the system still holds for it, and a record of
what happened (`SendHistory`, `ReleaseHistory`; no code reads it). `Pc` says
where a thread stands: in the accepter's `MakeNewSession`, in a sender's
`SendPacket`, in `SendPost`, in `RecvPost`, in `IOCountDecrement` and
`ReleaseSession`, or in the worker's handling of one completion. A function
that is called from several places carries its caller, so that returning is
a step to the caller's next counter.

`server` puts them together: any number of senders beside the accepter of the
session and the worker that owns it, with every RIO call free to fail, every
completion free to carry 0 bytes or malformed ones, and every order of steps.
What the worker calls out to (`OnRecvPacket`) sends through threads of its
own here, which allows more orders than the code has.

An action is one access to shared data. Three calls are one action although
they touch several fields, because a single thread owns these: the parse loop
(the ring belongs to the worker), `MakeSendStream` (the buffer belongs to the
thread whose exchange of `ioMode` succeeded; senders only append behind the
packets it counted first) and a `RIOReceive` or `RIOSend` with its context.
-/

namespace RioServer

/-! ## State -/

/-- `IOContext` (RIOTestSession.h:17): a pooled object, the request's
operation and its `RIO_BUF` window. `packets` records which packets
`MakeSendStream` copied for it. -/
structure IoContext where
  id : Nat
  ioType : RioOperationType
  length : Nat
  offset : Nat
  packets : List NetBuffer
  deriving DecidableEq, Repr

/-- `RIOTestSession` (RIOTestSession.h:43): whether the handles it keeps are
valid, and the fields of `RecvItem` and `SendItem`. -/
structure Session extends SendItem where
  socket : Bool
  recvBufferId : Bool
  sendBufferId : Bool
  rioRQ : Bool
  sendDisconnect : Bool
  ioCancle : Bool
  isReleasedSession : Bool
  ioCount : Int
  recvRingBuffer : Ringbuffer
  rioRecvOffset : Nat
  deriving DecidableEq, Repr

/-- The share of this session in the server's tables: its entry of
`sessionMap`, whether the accepter holds the map's lock, its entry of the
broadcaster's `sessionIdSet`, the two session counters, and the objects of
`contextPool` that are allocated for it. -/
structure Tables where
  inSessionMap : Bool
  sessionMapLocked : Bool
  inSessionIdSet : Bool
  sessionCount : Int
  numOfSessionInWorkerThread : Int
  contextPool : List Nat
  deriving DecidableEq, Repr

/-- What was sent: the packets in enqueue order, the bytes of the posted sends,
the packets of completed sends, the packets given to `SendPacketAndDisconnect`,
and how many posted sends have not reset `ioMode`. -/
structure SendHistory where
  nextSerial : Nat
  enqueued : List NetBuffer
  posted : List UInt8
  transmitted : List NetBuffer
  disconnectSerials : List Nat
  sendsNotReset : Nat
  deriving DecidableEq, Repr

/-- Whether other threads could get hold of the session, the packets given to
`OnRecvPacket`, how often `ReleaseSession` was entered, and whether
`RecvCompleted` entered it for a packet error. -/
structure ReleaseHistory where
  published : Bool
  delivered : List (List UInt8)
  releases : Nat
  packetErrorReleased : Bool
  deriving DecidableEq, Repr

/-- The shared state of all threads that act on one session. -/
structure State extends Session, Tables, SendHistory, ReleaseHistory where
  /-- The RIO requests whose completion no worker has taken yet. -/
  outstanding : List IoContext
  /-- The worker that owns the session is handling one of its completions. -/
  workerBusy : Bool
  deriving DecidableEq, Repr

/-- The session as `MakeNewSession` has just made it, its `ioCount` raised. -/
def State.initial : State where
  sendQueue := []
  rioSendBuffer := List.replicate maxSendBufferSize 0
  reservedBuffer := none
  ioMode := .ioNoneSending
  socket := true
  recvBufferId := false
  sendBufferId := false
  rioRQ := false
  sendDisconnect := false
  ioCancle := false
  isReleasedSession := false
  ioCount := 1
  recvRingBuffer := Ringbuffer.initPointer
  rioRecvOffset := 0
  inSessionMap := false
  sessionMapLocked := false
  inSessionIdSet := false
  sessionCount := 0
  numOfSessionInWorkerThread := 0
  contextPool := []
  nextSerial := 0
  enqueued := []
  posted := []
  transmitted := []
  disconnectSerials := []
  sendsNotReset := 0
  published := false
  delivered := []
  releases := 0
  packetErrorReleased := false
  outstanding := []
  workerBusy := false

/-! ## Program counters -/

/-- Who called `SendPost`. -/
inductive SendPostCaller where
  | sendPacket
  | sendCompleted (context : IoContext)
  deriving DecidableEq, Repr

/-- Who called `RecvPost`. -/
inductive RecvPostCaller where
  | makeNewSession
  | recvCompleted (context : IoContext) (packetError : Bool)
  deriving DecidableEq, Repr

/-- Who called `IOCountDecrement`, or `ReleaseSession` directly. -/
inductive ReleaseCaller where
  | worker
  | sendPost (caller : SendPostCaller)
  | recvCompleted (context : IoContext) (result : IoPostError)
  | makeNewSession
  | emplaceFailed
  | makeNewSessionFailed
  | invalidIoCompleted (context : IoContext)
  deriving DecidableEq, Repr

/-- `MakeNewSession` behind its first lines, and `Accepter` behind the call. -/
inductive MakeNewSessionPc where
  | registerRecvBuffer
  | registerSendBuffer
  | createRequestQueue
  | incrementNumOfSession
  | emplace
  | leaveEmplace
  | onSessionEntered
  | incrementSessionCount
  | closeEnteredSocket
  deriving DecidableEq, Repr

/-- The ways to `SendPacket`, and `SendPacket` up to its `SendPost`. -/
inductive SendPacketPc where
  | setSendDisconnect
  | getSession
  | isReleasedSession
  | encode
  | enqueue
  deriving DecidableEq, Repr

/-- `SendPost`. -/
inductive SendPostPc where
  | compareExchange
  | testSendQueue
  | testReservedBuffer
  | resetIoMode
  | retestSendQueue
  | makeSendStream
  | incrementIoCount (context : IoContext)
  | rioSend (context : IoContext)
  deriving DecidableEq, Repr

/-- `RecvPost`. -/
inductive RecvPostPc where
  | rioReceive
  | incrementIoCount
  deriving DecidableEq, Repr

/-- `IOCountDecrement`, whose zero goes on to `ReleaseSession`. -/
inductive ReleasePc where
  | ioCountDecrement
  | onSessionLeaved
  | releaseSession
  | decrementNumOfSession
  | decrementSessionCount
  | eraseSession
  | onSessionReleased
  | invalidateSocket
  deriving DecidableEq, Repr

/-- `Worker`, with the completion it handles. -/
inductive WorkerPc where
  | getIoCompletedContext (context : IoContext) (bytes : List UInt8)
  | testTransferred (context : IoContext) (bytes : List UInt8)
  | recvCompleted (context : IoContext) (bytes : List UInt8)
  | sendIoCompleted (context : IoContext)
  | sendCompleted (context : IoContext)
  | disconnect (context : IoContext)
  | invalidIoCompleted (context : IoContext)
  | freeInvalidContext (context : IoContext)
  | freeContext (context : IoContext) (result : IoPostError)
  | endCompletion
  deriving DecidableEq, Repr

/-- Where a thread stands. A sender carries its packet and whether it
`m_bIsEncoded`; `finished` is a thread that has left the session alone. -/
inductive Pc where
  | makeNewSession (pc : MakeNewSessionPc)
  | sendPacket (pc : SendPacketPc) (isEncoded : Bool) (packet : NetBuffer)
  | sendPost (pc : SendPostPc) (caller : SendPostCaller)
  | recvPost (pc : RecvPostPc) (caller : RecvPostCaller)
  | release (pc : ReleasePc) (caller : ReleaseCaller)
  | worker (pc : WorkerPc)
  | finished
  deriving DecidableEq, Repr

/-- Where `SendPost` returns to with a result. -/
def SendPostCaller.next : SendPostCaller → IoPostError → Pc
  | .sendPacket, _ => .finished
  | .sendCompleted context, result => .worker (.freeContext context result)

/-- Where `RecvPost` returns to with a result: `RecvCompleted` releases the
session if it found a packet error, and returns `RecvPost`'s result. -/
def RecvPostCaller.next : RecvPostCaller → IoPostError → Pc
  | .makeNewSession, _ => .release .ioCountDecrement .makeNewSession
  | .recvCompleted context true, result =>
    .release .releaseSession (.recvCompleted context result)
  | .recvCompleted context false, result => .worker (.freeContext context result)

/-- Where `IOCountDecrement` or `ReleaseSession` returns to. -/
def ReleaseCaller.next : ReleaseCaller → Pc
  | .worker => .worker .endCompletion
  | .sendPost caller => caller.next .failedSendPost
  | .recvCompleted context result => .worker (.freeContext context result)
  | .makeNewSession => .makeNewSession .onSessionEntered
  | .emplaceFailed => .makeNewSession .leaveEmplace
  | .makeNewSessionFailed => .makeNewSession .closeEnteredSocket
  | .invalidIoCompleted context => .worker (.freeInvalidContext context)

/-! ## Actions -/

/-- What an action does not choose: whether the system call or the insertion
succeeds, and which free object `contextPool` hands out. -/
structure Oracle where
  ok : Bool
  context : Nat
  deriving DecidableEq, Repr

section

variable (spec : NetBufferSpec)

/-- `InitSession` (RIOTestSession.cpp:24) and the rest of `MakeNewSession`
(RIOTestServer.cpp:539–580). A failed insertion leaves the lock's scope only
after its `IOCountDecrement`. -/
def execMakeNewSession (o : Oracle) (s : State) : MakeNewSessionPc → State × Pc
  | .registerRecvBuffer =>
    if o.ok then ({ s with recvBufferId := true }, .makeNewSession .registerSendBuffer)
    else (s, .makeNewSession .closeEnteredSocket)
  | .registerSendBuffer =>
    if o.ok then ({ s with sendBufferId := true }, .makeNewSession .createRequestQueue)
    else (s, .makeNewSession .closeEnteredSocket)
  | .createRequestQueue =>
    if o.ok then ({ s with rioRQ := true }, .makeNewSession .incrementNumOfSession)
    else (s, .makeNewSession .closeEnteredSocket)
  | .incrementNumOfSession =>
    ({ s with numOfSessionInWorkerThread := s.numOfSessionInWorkerThread + 1 },
      .makeNewSession .emplace)
  | .emplace =>
    if o.ok then
      ({ s with inSessionMap := true, published := true },
        .recvPost .rioReceive .makeNewSession)
    else ({ s with sessionMapLocked := true }, .release .ioCountDecrement .emplaceFailed)
  | .leaveEmplace =>
    ({ s with sessionMapLocked := false }, .release .releaseSession .makeNewSessionFailed)
  | .onSessionEntered =>
    ({ s with inSessionIdSet := true }, .makeNewSession .incrementSessionCount)
  | .incrementSessionCount => ({ s with sessionCount := s.sessionCount + 1 }, .finished)
  | .closeEnteredSocket => ({ s with socket := false }, .finished)

/-- `SendPacketAndDisconnect` (RIOTestSession.cpp:72), the body of
`BroadcastToAllSession`'s loop (Broadcaster.cpp:32) and `SendPacket`
(RIOTestServer.cpp:645). -/
def execSendPacket (s : State) (isEncoded : Bool) (packet : NetBuffer) :
    SendPacketPc → Option (State × Pc)
  | .setSendDisconnect =>
    some ({ s with
      sendDisconnect := true
      disconnectSerials := packet.serial :: s.disconnectSerials },
      .sendPacket .encode isEncoded packet)
  | .getSession =>
    if s.sessionMapLocked then none
    else if s.inSessionMap then some (s, .sendPacket .isReleasedSession isEncoded packet)
    else some (s, .finished)
  | .isReleasedSession =>
    if s.isReleasedSession then some (s, .finished)
    else some (s, .sendPacket .encode isEncoded packet)
  | .encode =>
    if isEncoded then some (s, .sendPacket .enqueue true packet)
    else some (s, .sendPacket .enqueue true { packet with bytes := spec.encode packet.bytes })
  | .enqueue =>
    some ({ s with
      sendQueue := s.sendQueue ++ [packet]
      enqueued := s.enqueued ++ [packet] },
      .sendPost .compareExchange .sendPacket)

/-- `SendPost` (RIOTestServer.cpp:681). -/
def execSendPost (o : Oracle) (s : State) (caller : SendPostCaller) :
    SendPostPc → Option (State × Pc)
  | .compareExchange =>
    match s.ioMode with
    | .ioSending => some (s, caller.next .success)
    | .ioNoneSending => some ({ s with ioMode := .ioSending }, .sendPost .testSendQueue caller)
  | .testSendQueue =>
    if s.sendQueue.isEmpty then some (s, .sendPost .testReservedBuffer caller)
    else some (s, .sendPost .makeSendStream caller)
  | .testReservedBuffer =>
    if s.reservedBuffer.isNone then some (s, .sendPost .resetIoMode caller)
    else some (s, .sendPost .makeSendStream caller)
  | .resetIoMode =>
    some ({ s with ioMode := .ioNoneSending }, .sendPost .retestSendQueue caller)
  | .retestSendQueue =>
    if s.sendQueue.isEmpty then some (s, caller.next .success)
    else some (s, .sendPost .compareExchange caller)
  | .makeSendStream =>
    if o.context ∈ s.contextPool then none
    else
      match makeSendStream s.toSendItem with
      | none => none
      | some r =>
        some ({ s with
          contextPool := o.context :: s.contextPool
          sendQueue := r.queue
          rioSendBuffer := r.buffer
          reservedBuffer := r.reserved },
          .sendPost (.incrementIoCount ⟨o.context, .opSend, r.length, 0, r.copied⟩) caller)
  | .incrementIoCount context =>
    some ({ s with ioCount := s.ioCount + 1 }, .sendPost (.rioSend context) caller)
  | .rioSend context =>
    if o.ok then
      some ({ s with
        outstanding := s.outstanding ++ [context]
        posted := s.posted ++ s.rioSendBuffer.take context.length
        sendsNotReset := s.sendsNotReset + 1 },
        .sendPost .compareExchange caller)
    else some (s, .release .ioCountDecrement (.sendPost caller))

/-- The request of `RecvPost` (RIOTestServer.cpp:659–668); `Length` is a
`ULONG`. -/
def recvContext (context : Nat) (s : State) : IoContext where
  id := context
  ioType := .opRecv
  length :=
    (((s.recvRingBuffer.getNotBrokenPutSize spec.defaultRingbufferMax : Int) -
      s.recvRingBuffer.getNotBrokenGetSize spec.defaultRingbufferMax) % 2 ^ 32).toNat
  offset := s.rioRecvOffset % spec.defaultRingbufferMax
  packets := []

/-- `RecvPost` (RIOTestServer.cpp:659). -/
def execRecvPost (o : Oracle) (s : State) (caller : RecvPostCaller) :
    RecvPostPc → Option (State × Pc)
  | .rioReceive =>
    if o.context ∈ s.contextPool then none
    else if o.ok then
      some ({ s with
        contextPool := o.context :: s.contextPool
        outstanding := s.outstanding ++ [recvContext spec o.context s] },
        .recvPost .incrementIoCount caller)
    else
      some ({ s with contextPool := o.context :: s.contextPool }, caller.next .failedRecvPost)
  | .incrementIoCount => some ({ s with ioCount := s.ioCount + 1 }, caller.next .success)

/-- `IOCountDecrement` and `ReleaseSession` (RIOTestServer.cpp:582–606). The
map's lock is not recursive: whoever holds it waits for itself. -/
def execRelease (s : State) (caller : ReleaseCaller) : ReleasePc → Option (State × Pc)
  | .ioCountDecrement =>
    if s.ioCount - 1 = 0 then
      some ({ s with ioCount := s.ioCount - 1 }, .release .onSessionLeaved caller)
    else some ({ s with ioCount := s.ioCount - 1 }, caller.next)
  | .onSessionLeaved =>
    some ({ s with inSessionIdSet := false }, .release .releaseSession caller)
  | .releaseSession =>
    some ({ s with
      socket := false
      releases := s.releases + 1
      packetErrorReleased := s.packetErrorReleased || caller matches .recvCompleted _ _ },
      .release .decrementNumOfSession caller)
  | .decrementNumOfSession =>
    some ({ s with numOfSessionInWorkerThread := s.numOfSessionInWorkerThread - 1 },
      .release .decrementSessionCount caller)
  | .decrementSessionCount =>
    some ({ s with sessionCount := s.sessionCount - 1 }, .release .eraseSession caller)
  | .eraseSession =>
    if s.sessionMapLocked then none
    else some ({ s with inSessionMap := false }, .release .onSessionReleased caller)
  | .onSessionReleased =>
    some ({ s with recvBufferId := false, sendBufferId := false },
      .release .invalidateSocket caller)
  | .invalidateSocket => some ({ s with socket := false }, caller.next)

/-- `Worker` (RIOTestServer.cpp:327–349) with `GetIOCompletedContext`,
`IOCompleted`, `RecvCompleted` up to its `RecvPost`, `SendIOCompleted`,
`SendCompleted`, `Disconnect` and `InvalidIOCompleted`. -/
def execWorker (s : State) : WorkerPc → Option (State × Pc)
  | .getIoCompletedContext context bytes =>
    if s.sessionMapLocked then none
    else if s.inSessionMap then some (s, .worker (.testTransferred context bytes))
    else
      some ({ s with contextPool := s.contextPool.erase context.id }, .worker .endCompletion)
  | .testTransferred context bytes =>
    if bytes.isEmpty || s.ioCancle then
      some ({ s with contextPool := s.contextPool.erase context.id },
        .release .ioCountDecrement .worker)
    else
      match context.ioType with
      | .opRecv => some (s, .worker (.recvCompleted context bytes))
      | .opSend => some (s, .worker (.sendIoCompleted context))
      | _ => some (s, .worker (.invalidIoCompleted context))
  | .recvCompleted context bytes =>
    let result := recvLoop spec (s.recvRingBuffer.moveWritePos bytes)
    some ({ s with
      recvRingBuffer := result.ring
      rioRecvOffset := (s.rioRecvOffset + bytes.length) % 2 ^ 32
      delivered := s.delivered ++ result.delivered },
      .recvPost .rioReceive (.recvCompleted context result.packetError))
  | .sendIoCompleted context =>
    some ({ s with ioMode := .ioNoneSending, sendsNotReset := s.sendsNotReset - 1 },
      .worker (.sendCompleted context))
  | .sendCompleted context =>
    if s.sendDisconnect then some (s, .worker (.disconnect context))
    else some (s, .sendPost .compareExchange (.sendCompleted context))
  | .disconnect context =>
    if s.sessionMapLocked then none else some (s, .worker (.freeContext context .success))
  | .invalidIoCompleted context =>
    if s.sessionMapLocked then none
    else if s.inSessionMap then
      some (s, .release .ioCountDecrement (.invalidIoCompleted context))
    else some (s, .worker (.freeInvalidContext context))
  | .freeInvalidContext context =>
    some ({ s with contextPool := s.contextPool.erase context.id }, .worker .endCompletion)
  | .freeContext context result =>
    if result = .isDeletedSession then
      some ({ s with contextPool := s.contextPool.erase context.id }, .worker .endCompletion)
    else
      some ({ s with contextPool := s.contextPool.erase context.id },
        .release .ioCountDecrement .worker)
  | .endCompletion => some ({ s with workerBusy := false }, .finished)

/-- One action of a thread. -/
def exec (pc : Pc) (o : Oracle) (s : State) : Option (State × Pc) :=
  match pc with
  | .makeNewSession pc => some (execMakeNewSession o s pc)
  | .sendPacket pc isEncoded packet => execSendPacket spec s isEncoded packet pc
  | .sendPost pc caller => execSendPost o s caller pc
  | .recvPost pc caller => execRecvPost spec o s caller pc
  | .release pc caller => execRelease s caller pc
  | .worker pc => execWorker spec s pc
  | .finished => none

end

/-- What happens around the session: a thread that holds it starts to send, or
the worker takes the completion of a request from its queue, with the bytes
that were transferred. -/
inductive Event where
  | sendPacket (isEncoded : Bool) (bytes : List UInt8)
  | sendPacketAndDisconnect (isEncoded : Bool) (bytes : List UInt8)
  | broadcastToAllSession (isEncoded : Bool) (bytes : List UInt8)
  | completion (i : Nat) (bytes : List UInt8)
  deriving DecidableEq, Repr

/-- A new sender, its packet numbered. -/
def startSend (s : State) (pc : SendPacketPc) (isEncoded : Bool) (bytes : List UInt8) :
    State × Pc :=
  ({ s with nextSerial := s.nextSerial + 1 }, .sendPacket pc isEncoded ⟨s.nextSerial, bytes⟩)

/-- The thread an event starts. A send with bytes has transmitted its packets;
the completions of one session are handled one after the other. -/
def spawn (e : Event) (s : State) : Option (State × Pc) :=
  match e with
  | .sendPacket isEncoded bytes =>
    if s.published then some (startSend s .encode isEncoded bytes) else none
  | .sendPacketAndDisconnect isEncoded bytes =>
    if s.published then some (startSend s .setSendDisconnect isEncoded bytes) else none
  | .broadcastToAllSession isEncoded bytes =>
    if s.inSessionIdSet then some (startSend s .getSession isEncoded bytes) else none
  | .completion i bytes =>
    if s.workerBusy then none
    else
      match s.outstanding[i]? with
      | none => none
      | some context =>
        if context.length < bytes.length then none
        else
          some ({ s with
            outstanding := s.outstanding.eraseIdx i
            workerBusy := true
            transmitted := if bytes.isEmpty then s.transmitted
              else s.transmitted ++ context.packets },
            .worker (.getIoCompletedContext context bytes))

/-- What a completion event does. -/
theorem spawn_completion {i : Nat} {bytes : List UInt8} {s s' : State} {pc : Pc}
    (h : spawn (.completion i bytes) s = some (s', pc)) :
    ∃ context, s.workerBusy = false ∧ s.outstanding[i]? = some context ∧
      bytes.length ≤ context.length ∧
      s' = { s with
        outstanding := s.outstanding.eraseIdx i
        workerBusy := true
        transmitted := if bytes.isEmpty then s.transmitted
          else s.transmitted ++ context.packets } ∧
      pc = .worker (.getIoCompletedContext context bytes) := by
  simp only [spawn] at h
  split at h
  · cases h
  · next hbusy =>
    split at h
    · cases h
    · next context hi =>
      split at h
      · cases h
      · next hlen =>
        cases h
        exact ⟨context, by simpa using hbusy, hi, by omega, rfl, rfl⟩

/-- An event leaves the session, the tables and what was released alone. -/
theorem spawn_frame {e : Event} {s s' : State} {pc : Pc} (h : spawn e s = some (s', pc)) :
    s'.toSession = s.toSession ∧ s'.toTables = s.toTables ∧
      s'.toReleaseHistory = s.toReleaseHistory := by
  cases e with
  | completion i bytes =>
    obtain ⟨context, -, -, -, rfl, -⟩ := spawn_completion h
    exact ⟨rfl, rfl, rfl⟩
  | _ =>
    obtain ⟨-, rfl, -⟩ := Option.ite_none_right_eq_some.mp h
    exact ⟨rfl, rfl, rfl⟩

/-- **The session's machine**: all threads that act on it. -/
def server (spec : NetBufferSpec) : Machine State Pc Oracle Event where
  exec := exec spec
  spawn := spawn

/-- The session at its creation, with the accepter in `InitSession`. -/
def server.init : Machine.Config State Pc :=
  ⟨State.initial, [.makeNewSession .registerRecvBuffer]⟩

/-- The accepter's actions from `InitSession` to its end, nothing failing; its
receive is posted with the pool's object 0. -/
def server.accept : List (Machine.Act Oracle Event) :=
  List.replicate 10 (.run 0 ⟨true, 0⟩)

/-! ## Two flags that nobody sets -/

/-- No action writes `ioCancle` or `isReleasedSession`. -/
theorem exec_flags {spec : NetBufferSpec} {pc pc' : Pc} {o : Oracle} {s s' : State}
    (h : exec spec pc o s = some (s', pc')) :
    s'.ioCancle = s.ioCancle ∧ s'.isReleasedSession = s.isReleasedSession := by
  revert h
  cases pc with
  | makeNewSession pc =>
    simp only [exec, Option.some.injEq]
    fun_cases execMakeNewSession o s pc <;> rintro ⟨⟩ <;> exact ⟨rfl, rfl⟩
  | sendPacket pc isEncoded packet =>
    simp only [exec]
    fun_cases execSendPacket spec s isEncoded packet pc <;> rintro ⟨⟩ <;> exact ⟨rfl, rfl⟩
  | sendPost pc caller =>
    simp only [exec]
    fun_cases execSendPost o s caller pc <;> rintro ⟨⟩ <;> exact ⟨rfl, rfl⟩
  | recvPost pc caller =>
    simp only [exec]
    fun_cases execRecvPost spec o s caller pc <;> rintro ⟨⟩ <;> exact ⟨rfl, rfl⟩
  | release pc caller =>
    simp only [exec]
    fun_cases execRelease s caller pc <;> rintro ⟨⟩ <;> exact ⟨rfl, rfl⟩
  | worker pc =>
    simp only [exec]
    fun_cases execWorker spec s pc <;> rintro ⟨⟩ <;> exact ⟨rfl, rfl⟩
  | finished => rintro ⟨⟩

/-- **Dead flags**: no run cancels a session's completions or marks it
released, so `IsReleasedSession` never stops a broadcast. -/
theorem flags_false {spec : NetBufferSpec} {c : Machine.Config State Pc}
    (h : (server spec).Reachable server.init c) :
    c.shared.ioCancle = false ∧ c.shared.isReleasedSession = false := by
  refine Machine.Run.induct
    (I := fun s _ => s.ioCancle = false ∧ s.isReleasedSession = false) h ⟨rfl, rfl⟩ ?_ ?_
  · intro s l pc r o s' pc' _ hI _ hexec
    obtain ⟨hcancle, hreleased⟩ := exec_flags hexec
    exact ⟨hcancle.trans hI.1, hreleased.trans hI.2⟩
  · intro s ts e s' pc _ hI hspawn
    rw [(spawn_frame hspawn).1]
    exact hI

end RioServer
