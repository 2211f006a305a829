import RioServer.Client.RecvLoop
import RioServer.Lib.Interleaving

/-!
# One session of the DB client and the threads that act on it (MultiLanClient.cpp)

`State` is one `CMultiLanClient::Session` together with its entries of
`sessionReconnectIdList`, the requests that the system still holds for it and a
record of what happened (`SendHistory`, `ReleaseHistory`; no code reads it).
`Pc` says where a thread stands: in `RecvPost`, in `SendPost`, in front of an
`InterlockedDecrement` of `m_IOCount`, in `ReleaseSession`, in `Worker` with one
completion, in `SendPacketImpl`, or in `Reconnecter`.

`client` puts them together, from the moment `Start` has set the session up and
is about to post its first receive: any number of workers and senders beside
`Start` and the one `Reconnecter`, with every call of the system free to fail,
every completion free to carry 0 bytes or any others, and every order of steps.
An action is one access to shared data; the parse loop is one action because the
ring belongs to the completion that is handled.

`CLockFreeQueue` is a queue whose operations are atomic, and a `Dequeue` of an
empty queue leaves its argument alone. A null `CSerializationBuf*` is `none`.
-/

namespace RioServer.Client

/-- `IOCP_ONE_SEND_WSABUF_MAX` (MultiLanClient.h:17). -/
def iocpOneSendWsabufMax : Nat := 200

/-- `IOMode` (MultiLanClient.h:11). -/
inductive IoMode where
  | nonSending
  | sending
  deriving DecidableEq, Repr

/-- `POST_RETVAL_...` (MultiLanClient.h:14). -/
inductive PostRetval where
  | errSessionDeleted
  | err
  | complete
  deriving DecidableEq, Repr

/-- `m_sock`: `INVALID_SOCKET`, a socket as `socket` makes it, a connected one,
or a handle that `closesocket` was called on. -/
inductive Socket where
  | invalid
  | created
  | connected
  | closed
  deriving DecidableEq, Repr

/-- How a system call ends. -/
inductive CallResult where
  | success
  | failure
  | wsaEisconn
  | wsaEnobufs
  deriving DecidableEq, Repr

/-! ## State -/

/-- `CMultiLanClient::Session` (MultiLanClient.h:89). `m_IOCount` is a `UINT`; a
negative `ioCount` is one that has wrapped. -/
structure Session where
  bIsConnect : Bool
  ioCount : Int
  ringBuffer : Ringbuffer
  lBufferCount : Int
  ioMode : IoMode
  sendQ : List Nat
  sock : Socket
  pSeirializeBufStore : List (Option Nat)
  deriving DecidableEq, Repr

/-- What was sent: the buffers in enqueue order, the posted sends, and the
buffers that were passed to `Free`. `storeReleased` says that `ReleaseSession`
has freed the store since `SendPost` last counted into it. -/
structure SendHistory where
  nextSerial : Nat
  enqueued : List Nat
  posts : List (List Nat)
  freed : List Nat
  storeReleased : Bool
  deriving DecidableEq, Repr

/-- The payloads given to `OnRecv`, how often `ReleaseSession` was entered since
the connection was established, and, since it was last entered, whether no
completion and no `SendPacket` has begun and whether the `Reconnecter` has posted
a receive. -/
structure ReleaseHistory where
  received : List (List UInt8)
  releases : Nat
  quiet : Bool
  reposted : Bool
  deriving DecidableEq, Repr

/-- The shared state of all threads that act on one session. -/
structure State extends Session, SendHistory, ReleaseHistory where
  /-- The entries of `sessionReconnectIdList` that name this session. -/
  sessionReconnectIdList : Nat
  stopClient : Bool
  /-- The receives whose completion no worker has taken yet: the room posted. -/
  outstandingRecv : List Nat
  /-- The sends whose completion no worker has taken yet: their buffers. -/
  outstandingSend : List (List Nat)
  deriving DecidableEq, Repr

/-- The session as `Start` has set it up, in front of its `RecvPost`. -/
def State.initial : State where
  bIsConnect := true
  ioCount := 0
  ringBuffer := Ringbuffer.initPointer
  lBufferCount := 0
  ioMode := .nonSending
  sendQ := []
  sock := .connected
  pSeirializeBufStore := List.replicate iocpOneSendWsabufMax none
  nextSerial := 0
  enqueued := []
  posts := []
  freed := []
  storeReleased := false
  received := []
  releases := 0
  quiet := false
  reposted := false
  sessionReconnectIdList := 0
  stopClient := false
  outstandingRecv := []
  outstandingSend := []

/-- `SendQ.GetRestSize()`, an `int`. -/
def State.getRestSize (s : State) : Int := s.sendQ.length

/-- `CSerializationBuf::Free(pSeirializeBufStore[i])`. -/
def State.freeStore (s : State) (i : Nat) : State :=
  { s with freed := s.freed ++ (s.pSeirializeBufStore.getD i none).toList }

/-! ## Program counters -/

/-- Who called `RecvPost`. -/
inductive RecvPostCaller where
  | start
  | worker
  | reconnecter
  deriving DecidableEq, Repr

/-- Who called `SendPost`. -/
inductive SendPostCaller where
  | sendPacketImpl
  | worker
  deriving DecidableEq, Repr

/-- The places where `m_IOCount` is decremented, each followed by
`ReleaseSession` if that gave zero: in `Worker` for a receive of 0 bytes and at
its end, in `RecvPost` for a full ring and for a failed `WSARecv`, and in
`SendPost` for a negative `GetRestSize` and for a failed `WSASend`. -/
inductive DecrementSite where
  | recvZero
  | workerEnd
  | ringFull (caller : RecvPostCaller)
  | recvFailed (caller : RecvPostCaller)
  | restNegative (caller : SendPostCaller)
  | sendFailed (caller : SendPostCaller)
  deriving DecidableEq, Repr

inductive RecvPostPc where
  | isFull
  | ioCountIncrement
  | wsaRecv (length : Nat)
  deriving DecidableEq, Repr

/-- `SendPost`, with the loop variable, `UseSize` and `wsaSendBuf`. -/
inductive SendPostPc where
  | compareExchange
  | getRestSize
  | resetIoMode
  | retestRestSize
  | resetNegative
  | dequeue (i useSize : Nat) (wsaSendBuf : List Nat)
  | ioCountIncrement (wsaSendBuf : List Nat)
  | wsaSend (wsaSendBuf : List Nat)
  deriving DecidableEq, Repr

/-- `ReleaseSession`, with the loop variable, `SendBufferRestSize`, `Rest` and
`DeleteBuf`. -/
inductive ReleasePc where
  | onDisconnect
  | readBufferCount
  | getRestSize (sendBufferRestSize : Int)
  | freeStore (i : Nat) (sendBufferRestSize rest : Int)
  | freeQueue (rest : Int) (deleteBuf : Option Nat)
  | closeSocket
  | invalidateSocket
  | emplaceBack
  deriving DecidableEq, Repr

/-- `Worker`, with the completion it handles. -/
inductive WorkerPc where
  | recvCompleted (bytes : List UInt8)
  | sendCompleted
  | freeSent (i : Nat) (bufferCount : Int)
  | resetIoMode
  deriving DecidableEq, Repr

/-- `Reconnecter`; `popFront` carries what its `RecvPost` returned. -/
inductive ReconnecterPc where
  | takeFirst
  | socket
  | connect
  | setSockOpt
  | popFront (retval : PostRetval)
  deriving DecidableEq, Repr

/-- Where a thread stands. `finished` is a thread that has left the session
alone. -/
inductive Pc where
  | recvPost (pc : RecvPostPc) (caller : RecvPostCaller)
  | sendPost (pc : SendPostPc) (caller : SendPostCaller)
  | ioCountDecrement (site : DecrementSite)
  | release (pc : ReleasePc) (site : DecrementSite)
  | worker (pc : WorkerPc)
  | sendPacketImpl (buf : Nat)
  | reconnecter (pc : ReconnecterPc)
  | finished
  deriving DecidableEq, Repr

/-- The end of a turn of `Worker`. -/
def workerNext (cPostRetval : PostRetval) : Pc :=
  if cPostRetval = .errSessionDeleted then .finished else .ioCountDecrement .workerEnd

/-- Where `RecvPost` returns to with a result. -/
def RecvPostCaller.next : RecvPostCaller → PostRetval → Pc
  | .start, _ => .finished
  | .worker, retval => workerNext retval
  | .reconnecter, retval => .reconnecter (.popFront retval)

/-- Where `SendPost` returns to with a result. -/
def SendPostCaller.next : SendPostCaller → PostRetval → Pc
  | .sendPacketImpl, _ => .finished
  | .worker, retval => workerNext retval

/-- What follows a decrement that did not give zero. -/
def DecrementSite.otherwise : DecrementSite → Pc
  | .recvZero | .workerEnd => .finished
  | .ringFull caller | .recvFailed caller => caller.next .err
  | .restNegative caller => .sendPost .resetNegative caller
  | .sendFailed caller => caller.next .err

/-- What follows the `ReleaseSession` of a decrement that gave zero. -/
def DecrementSite.released : DecrementSite → Pc
  | .recvZero | .workerEnd => .finished
  | .ringFull caller | .recvFailed caller => caller.next .errSessionDeleted
  | .restNegative caller | .sendFailed caller => caller.next .errSessionDeleted

/-! ## Actions -/

section

variable (spec : ClientSpec)

/-- `RecvPost` (MultiLanClient.cpp:439). -/
def execRecvPost (o : CallResult) (s : State) (caller : RecvPostCaller) :
    RecvPostPc → State × Pc
  | .isFull =>
    if spec.ringbufferMax ≤ s.ringBuffer.getUseSize then (s, .ioCountDecrement (.ringFull caller))
    else (s, .recvPost .ioCountIncrement caller)
  | .ioCountIncrement =>
    ({ s with ioCount := s.ioCount + 1 },
      .recvPost (.wsaRecv (spec.ringbufferMax - s.ringBuffer.getUseSize)) caller)
  | .wsaRecv length =>
    if o = .success ∧ s.sock = .connected then
      ({ s with
        outstandingRecv := s.outstandingRecv ++ [length]
        reposted := s.reposted || caller matches .reconnecter },
        caller.next .complete)
    else (s, .ioCountDecrement (.recvFailed caller))

/-- `SendPost` (MultiLanClient.cpp:535). `WSAENOBUFS` ends the process. -/
def execSendPost (o : CallResult) (s : State) (caller : SendPostCaller) :
    SendPostPc → Option (State × Pc)
  | .compareExchange =>
    match s.ioMode with
    | .sending => some (s, caller.next .complete)
    | .nonSending => some ({ s with ioMode := .sending }, .sendPost .getRestSize caller)
  | .getRestSize =>
    if s.getRestSize = 0 then some (s, .sendPost .resetIoMode caller)
    else if s.getRestSize < 0 then some (s, .ioCountDecrement (.restNegative caller))
    else
      some (s, .sendPost (.dequeue 0 (min iocpOneSendWsabufMax s.getRestSize.toNat) []) caller)
  | .resetIoMode =>
    some ({ s with ioMode := .nonSending }, .sendPost .retestRestSize caller)
  | .retestRestSize =>
    if 0 < s.getRestSize then some (s, .sendPost .compareExchange caller)
    else some (s, caller.next .complete)
  | .resetNegative => some ({ s with ioMode := .nonSending }, caller.next .err)
  | .dequeue i useSize wsaSendBuf =>
    if i < useSize then
      match s.sendQ with
      | [] =>
        some (s, .sendPost (.dequeue (i + 1) useSize
          (wsaSendBuf ++ (s.pSeirializeBufStore.getD i none).toList)) caller)
      | buf :: sendQ =>
        some ({ s with
          sendQ := sendQ
          pSeirializeBufStore := s.pSeirializeBufStore.set i (some buf) },
          .sendPost (.dequeue (i + 1) useSize (wsaSendBuf ++ [buf])) caller)
    else
      some ({ s with lBufferCount := useSize, storeReleased := false },
        .sendPost (.ioCountIncrement wsaSendBuf) caller)
  | .ioCountIncrement wsaSendBuf =>
    some ({ s with ioCount := s.ioCount + 1 }, .sendPost (.wsaSend wsaSendBuf) caller)
  | .wsaSend wsaSendBuf =>
    if o = .success ∧ s.sock = .connected then
      some ({ s with
        outstandingSend := s.outstandingSend ++ [wsaSendBuf]
        posts := s.posts ++ [wsaSendBuf] },
        .sendPost .compareExchange caller)
    else if o = .wsaEnobufs then none
    else some (s, .ioCountDecrement (.sendFailed caller))

/-- `InterlockedDecrement(&m_IOCount)`, and `ReleaseSession` if that is zero. -/
def execDecrement (s : State) (site : DecrementSite) : State × Pc :=
  if s.ioCount - 1 = 0 then
    ({ s with
      ioCount := s.ioCount - 1
      releases := s.releases + 1
      quiet := true
      reposted := false },
      .release .onDisconnect site)
  else ({ s with ioCount := s.ioCount - 1 }, site.otherwise)

/-- `ReleaseSession` (MultiLanClient.cpp:188). -/
def execRelease (s : State) (site : DecrementSite) : ReleasePc → State × Pc
  | .onDisconnect => ({ s with bIsConnect := false }, .release .readBufferCount site)
  | .readBufferCount => (s, .release (.getRestSize s.lBufferCount) site)
  | .getRestSize sendBufferRestSize =>
    (s, .release (.freeStore 0 sendBufferRestSize s.getRestSize) site)
  | .freeStore i sendBufferRestSize rest =>
    if (i : Int) < sendBufferRestSize then
      (s.freeStore i, .release (.freeStore (i + 1) sendBufferRestSize rest) site)
    else ({ s with storeReleased := true }, .release (.freeQueue rest none) site)
  | .freeQueue rest deleteBuf =>
    if 0 < rest then
      match s.sendQ with
      | [] =>
        ({ s with freed := s.freed ++ deleteBuf.toList },
          .release (.freeQueue (rest - 1) deleteBuf) site)
      | buf :: sendQ =>
        ({ s with sendQ := sendQ, freed := s.freed ++ [buf] },
          .release (.freeQueue (rest - 1) (some buf)) site)
    else (s, .release .closeSocket site)
  | .closeSocket =>
    if spec.isReconnect then ({ s with sock := .closed }, .release .invalidateSocket site)
    else ({ s with sock := .closed }, site.released)
  | .invalidateSocket => ({ s with sock := .invalid }, .release .emplaceBack site)
  | .emplaceBack =>
    ({ s with sessionReconnectIdList := s.sessionReconnectIdList + 1 }, site.released)

/-- `Worker` (MultiLanClient.cpp:225) behind `GetQueuedCompletionStatus`. -/
def execWorker (s : State) : WorkerPc → State × Pc
  | .recvCompleted bytes =>
    if bytes.isEmpty then (s, .ioCountDecrement .recvZero)
    else
      let result := recvLoop spec (s.ringBuffer.moveWritePos bytes)
      ({ s with ringBuffer := result.ring, received := s.received ++ result.received },
        .recvPost .isFull .worker)
  | .sendCompleted => (s, .worker (.freeSent 0 s.lBufferCount))
  | .freeSent i bufferCount =>
    if (i : Int) < bufferCount then (s.freeStore i, .worker (.freeSent (i + 1) bufferCount))
    else ({ s with lBufferCount := s.lBufferCount - bufferCount }, .worker .resetIoMode)
  | .resetIoMode =>
    ({ s with ioMode := .nonSending }, .sendPost .compareExchange .worker)

/-- `Reconnecter` (MultiLanClient.cpp:350). `connect` is tried until it
succeeds; a connected socket is closed and made again. -/
def execReconnecter (o : CallResult) (s : State) : ReconnecterPc → Option (State × Pc)
  | .takeFirst =>
    if s.stopClient then some (s, .finished)
    else if s.sessionReconnectIdList = 0 then none
    else some (s, .reconnecter .socket)
  | .socket =>
    if o = .success then some ({ s with sock := .created }, .reconnecter .connect)
    else some ({ s with sock := .invalid }, .finished)
  | .connect =>
    if s.stopClient then some (s, .finished)
    else
      match o with
      | .success =>
        some ({ s with sock := .connected, releases := 0 }, .reconnecter .setSockOpt)
      | .wsaEisconn => some ({ s with sock := .closed }, .reconnecter .socket)
      | _ => some (s, .reconnecter .connect)
  | .setSockOpt =>
    if o = .success then some ({ s with bIsConnect := true }, .recvPost .isFull .reconnecter)
    else some ({ s with bIsConnect := true }, .finished)
  | .popFront _ =>
    some ({ s with sessionReconnectIdList := s.sessionReconnectIdList - 1 },
      .reconnecter .takeFirst)

/-- One action of a thread. `SendPacketImpl` writes the payload size into the
buffer, which nobody else has yet, and enqueues it. -/
def exec (pc : Pc) (o : CallResult) (s : State) : Option (State × Pc) :=
  match pc with
  | .recvPost pc caller => some (execRecvPost spec o s caller pc)
  | .sendPost pc caller => execSendPost o s caller pc
  | .ioCountDecrement site => some (execDecrement s site)
  | .release pc site => some (execRelease spec s site pc)
  | .worker pc => some (execWorker spec s pc)
  | .sendPacketImpl buf =>
    some ({ s with sendQ := s.sendQ ++ [buf], enqueued := s.enqueued ++ [buf] },
      .sendPost .compareExchange .sendPacketImpl)
  | .reconnecter pc => execReconnecter o s pc
  | .finished => none

end

/-- What happens around the session: `SendPacket` picks it for a buffer, a
worker takes the completion of a receive (with the bytes transferred) or of a
send, or `Stop` is called. `SendPacket` of a null pointer returns at once. -/
inductive Event where
  | sendPacket
  | recvCompletion (i : Nat) (bytes : List UInt8)
  | sendCompletion (i : Nat)
  | stop
  deriving DecidableEq, Repr

/-- The thread an event starts. -/
def spawn (e : Event) (s : State) : Option (State × Pc) :=
  match e with
  | .sendPacket =>
    some ({ s with nextSerial := s.nextSerial + 1, quiet := false },
      .sendPacketImpl s.nextSerial)
  | .recvCompletion i bytes =>
    match s.outstandingRecv[i]? with
    | none => none
    | some length =>
      if length < bytes.length then none
      else
        some ({ s with outstandingRecv := s.outstandingRecv.eraseIdx i, quiet := false },
          .worker (.recvCompleted bytes))
  | .sendCompletion i =>
    match s.outstandingSend[i]? with
    | none => none
    | some _ =>
      some ({ s with outstandingSend := s.outstandingSend.eraseIdx i, quiet := false },
        .worker .sendCompleted)
  | .stop => some ({ s with stopClient := true }, .finished)

/-- What the completion of a receive does. -/
theorem spawn_recvCompletion {i : Nat} {bytes : List UInt8} {s s' : State} {pc : Pc}
    (h : spawn (.recvCompletion i bytes) s = some (s', pc)) :
    ∃ length, s.outstandingRecv[i]? = some length ∧ bytes.length ≤ length ∧
      s' = { s with outstandingRecv := s.outstandingRecv.eraseIdx i, quiet := false } ∧
      pc = .worker (.recvCompleted bytes) := by
  simp only [spawn] at h
  split at h
  · cases h
  · next length hi =>
    obtain ⟨hlen, heq⟩ := Option.ite_none_left_eq_some.mp h
    cases heq
    exact ⟨length, hi, Nat.le_of_not_lt hlen, rfl, rfl⟩

/-- What the completion of a send does. -/
theorem spawn_sendCompletion {i : Nat} {s s' : State} {pc : Pc}
    (h : spawn (.sendCompletion i) s = some (s', pc)) :
    ∃ bufs, s.outstandingSend[i]? = some bufs ∧
      s' = { s with outstandingSend := s.outstandingSend.eraseIdx i, quiet := false } ∧
      pc = .worker .sendCompleted := by
  simp only [spawn] at h
  split at h
  · cases h
  · next bufs hi =>
    cases h
    exact ⟨bufs, hi, rfl, rfl⟩

/-- Where a thread starts. -/
theorem spawn_pc {e : Event} {s s' : State} {pc : Pc} (h : spawn e s = some (s', pc)) :
    (∃ serial, pc = .sendPacketImpl serial) ∨ (∃ bytes, pc = .worker (.recvCompleted bytes)) ∨
      pc = .worker .sendCompleted ∨ pc = .finished := by
  cases e with
  | sendPacket =>
    cases h
    exact .inl ⟨_, rfl⟩
  | recvCompletion i bytes =>
    obtain ⟨-, -, -, -, hpc⟩ := spawn_recvCompletion h
    exact .inr (.inl ⟨bytes, hpc⟩)
  | sendCompletion i =>
    obtain ⟨-, -, -, hpc⟩ := spawn_sendCompletion h
    exact .inr (.inr (.inl hpc))
  | stop =>
    cases h
    exact .inr (.inr (.inr rfl))

/-- What `ReleaseSession` leaves alone. -/
structure ReleaseFrame (s s' : State) : Prop where
  ioCount : s'.ioCount = s.ioCount
  ringBuffer : s'.ringBuffer = s.ringBuffer
  lBufferCount : s'.lBufferCount = s.lBufferCount
  ioMode : s'.ioMode = s.ioMode
  pSeirializeBufStore : s'.pSeirializeBufStore = s.pSeirializeBufStore
  nextSerial : s'.nextSerial = s.nextSerial
  enqueued : s'.enqueued = s.enqueued
  posts : s'.posts = s.posts
  releaseHistory : s'.toReleaseHistory = s.toReleaseHistory
  outstandingRecv : s'.outstandingRecv = s.outstandingRecv
  outstandingSend : s'.outstandingSend = s.outstandingSend

/-- `ReleaseSession` goes on, or it returns and may have listed the session. -/
theorem execRelease_cases {spec : ClientSpec} {s s' : State} {pc : ReleasePc}
    {site : DecrementSite} {pc' : Pc} (h : execRelease spec s site pc = (s', pc')) :
    ReleaseFrame s s' ∧
      ((∃ q, pc' = .release q site ∧ s'.sessionReconnectIdList = s.sessionReconnectIdList) ∨
        (pc' = site.released ∧ s'.sessionReconnectIdList ≤ s.sessionReconnectIdList + 1 ∧
          s.sessionReconnectIdList ≤ s'.sessionReconnectIdList)) := by
  revert h
  fun_cases execRelease spec s site pc <;> rintro ⟨⟩ <;>
    refine ⟨⟨rfl, rfl, rfl, rfl, rfl, rfl, rfl, rfl, rfl, rfl, rfl⟩, ?_⟩ <;>
    first
    | exact .inl ⟨_, rfl, rfl⟩
    | exact .inr ⟨rfl, Nat.le_succ _, Nat.le_refl _⟩
    | exact .inr ⟨rfl, Nat.le_refl _, Nat.le_succ _⟩

/-- **The session's machine**: all threads that act on it. -/
def client (spec : ClientSpec) : Machine State Pc CallResult Event where
  exec := exec spec
  spawn := spawn

/-- The session as `Start` has set it up, with `Start` in front of its
`RecvPost` and the `Reconnecter` waiting. -/
def client.init : Machine.Config State Pc :=
  ⟨State.initial, [.recvPost .isFull .start, .reconnecter .takeFirst]⟩

/-- `Start`'s `RecvPost`, succeeding. -/
def client.start : List (Machine.Act CallResult Event) :=
  List.replicate 3 (.run 0 .success)

end RioServer.Client
