import RioServer.Lib.UnorderedMap
import RioServer.Server.WorkerBalance

/-!
# A connection that cannot be set up (RIOTestServer.cpp:296, 539–606, RIOTestSession.cpp:24)

`MakeNewSession` takes an id, registers two RIO buffers, makes a request queue
and enters the session into the tables, and can fail at each of these.
`Accepter` then closes the client's socket. Here all of it is one program on the
server's tables, for the thread of the accepter alone; a call that waits for
ever, as a second acquisition of the map's lock does, has no result.

What was done before the failure is undone by nobody. A failure in front of the
first registered buffer leaves nothing to undo (`accepter_getNewSession`,
`accepter_initSession`). A later one in `InitSession` keeps the buffers
registered, and a failed `emplace` runs into `ReleaseSession` under the lock
that `ReleaseSession` takes (`accepter_emplace`). `cleanedUp_iff` puts these
together.
-/

namespace RioServer.MakeNewSession

open WorkerBalance

/-- The server's tables. Sockets and buffers are known by their handles,
sessions by their addresses. -/
structure Server where
  nextSessionId : UInt64
  maxClientCount : UInt32
  sessionMap : UnorderedMap UInt64 Nat
  sessionCount : UInt32
  numOfSessionInWorkerThread : List Nat
  sessionIdSet : Finset UInt64
  registeredBuffers : List Nat
  closedSockets : List Nat

/-- The server, seen by the accepter, and whether the accepter is in the scope
of the map's write lock. -/
structure World extends Server where
  sessionMapLocked : Bool

/-- A program of the accepter; `none` if it never returns. -/
abbrev M := StateT World Option

/-- `RIOTestSession`, as far as it is set up here. -/
structure NewSession where
  address : Nat
  socket : Option Nat
  sessionId : UInt64
  threadId : UInt8
  ioCount : Int
  recvBufferId : Option Nat
  sendBufferId : Option Nat

/-- What the system calls return; `none` is `RIO_INVALID_BUFFERID`. -/
structure Calls where
  address : Nat
  recvBufferId : Option Nat
  sendBufferId : Option Nat
  createRequestQueue : Bool
  rioReceive : Bool

/-! ## System calls and locks -/

def closesocket (socket : Option Nat) : M Unit :=
  modify fun w => { w with closedSockets := w.closedSockets ++ socket.toList }

def registerBuffer (bufferId : Nat) : M Unit :=
  modify fun w => { w with registeredBuffers := bufferId :: w.registeredBuffers }

/-- `RIODeregisterBuffer`, which does nothing with an invalid id. -/
def deregisterBuffer : Option Nat → M Unit
  | none => return
  | some bufferId =>
    modify fun w => { w with registeredBuffers := w.registeredBuffers.erase bufferId }

/-- `SCOPE_WRITE_LOCK(sessionMapLock)`. An `SRWLOCK` is not recursive. -/
def lockSessionMap : M Unit := fun w =>
  if w.sessionMapLocked then none else some ((), { w with sessionMapLocked := true })

def unlockSessionMap : M Unit := modify fun w => { w with sessionMapLocked := false }

/-! ## The program -/

/-- `ReleaseSession` (RIOTestServer.cpp:582) with `OnSessionReleased`. -/
def releaseSession (session : NewSession) : M NewSession := do
  closesocket session.socket
  modify fun w => { w with
    numOfSessionInWorkerThread := step w.maxClientCount w.numOfSessionInWorkerThread
      (.release session.threadId.toNat) }
  modify fun w => { w with sessionCount := w.sessionCount - 1 }
  lockSessionMap
  modify fun w => { w with sessionMap := w.sessionMap.erase session.sessionId }
  unlockSessionMap
  deregisterBuffer session.recvBufferId
  deregisterBuffer session.sendBufferId
  return { session with socket := none }

/-- `IOCountDecrement` (RIOTestServer.cpp:599). -/
def ioCountDecrement (session : NewSession) : M NewSession :=
  let session := { session with ioCount := session.ioCount - 1 }
  if session.ioCount = 0 then do
    modify fun w => { w with sessionIdSet := w.sessionIdSet.erase session.sessionId }
    releaseSession session
  else return session

/-- `GetNewSession` (RIOTestServer.cpp:527). -/
def getNewSession (calls : Calls) (enteredClientSocket : Nat) (threadId : UInt8) :
    M (Option NewSession) := fun w =>
  let newSessionId := w.nextSessionId + 1
  let w := { w with nextSessionId := newSessionId }
  if newSessionId = 0 then some (none, w)
  else some (some ⟨calls.address, enteredClientSocket, newSessionId, threadId, 0, none, none⟩, w)

/-- `InitSession` (RIOTestSession.cpp:24): the session, and the result. -/
def initSession (calls : Calls) (session : NewSession) : M (NewSession × Bool) :=
  match calls.recvBufferId with
  | none => return (session, false)
  | some recvBufferId => do
    registerBuffer recvBufferId
    let session := { session with recvBufferId := some recvBufferId }
    match calls.sendBufferId with
    | none => return (session, false)
    | some sendBufferId =>
      registerBuffer sendBufferId
      return ({ session with sendBufferId := some sendBufferId }, calls.createRequestQueue)

/-- `sessionMap.emplace`: whether the id was free. -/
def emplace (session : NewSession) : M Bool := fun w =>
  some ((w.sessionMap.find session.sessionId).isNone,
    { w with sessionMap := w.sessionMap.insert session.sessionId session.address })

/-- `RecvPost` (RIOTestServer.cpp:659), whose result is not used. -/
def recvPost (calls : Calls) (session : NewSession) : NewSession :=
  if calls.rioReceive then { session with ioCount := session.ioCount + 1 } else session

/-- `MakeNewSession` (RIOTestServer.cpp:539). -/
def makeNewSession (calls : Calls) (enteredClientSocket : Nat) : M Bool := do
  let w ← get
  let threadId := getMinimumSessionThreadId w.maxClientCount w.numOfSessionInWorkerThread
  match ← getNewSession calls enteredClientSocket threadId with
  | none => return false
  | some newSession =>
    let newSession := { newSession with ioCount := newSession.ioCount + 1 }
    let (newSession, initialized) ← initSession calls newSession
    if initialized then do
      modify fun w => { w with
        numOfSessionInWorkerThread := w.numOfSessionInWorkerThread.modify threadId.toNat
          fun c => (c + 1) % 2 ^ 32 }
      lockSessionMap
      if ← emplace newSession then do
        unlockSessionMap
        let newSession ← ioCountDecrement (recvPost calls newSession)
        modify fun w => { w with sessionIdSet := insert newSession.sessionId w.sessionIdSet }
        return true
      else do
        let newSession ← ioCountDecrement newSession
        unlockSessionMap
        let _ ← releaseSession newSession
        return false
    else return false

/-- `Accepter` (RIOTestServer.cpp:296), for a client that was accepted. -/
def accepter (calls : Calls) (enteredClientSocket : Nat) : M Unit := do
  if ← makeNewSession calls enteredClientSocket then
    modify fun w => { w with sessionCount := w.sessionCount + 1 }
  else closesocket (some enteredClientSocket)

/-! ## Where it fails -/

/-- The points at which `MakeNewSession` can fail. -/
inductive FailurePoint where
  | getNewSession
  | registerRecvBuffer
  | registerSendBuffer
  | createRequestQueue
  | emplace
  deriving DecidableEq, Repr

/-- The first of them that does. -/
def failurePoint (s : Server) (calls : Calls) : Option FailurePoint :=
  if s.nextSessionId + 1 = 0 then some .getNewSession
  else if calls.recvBufferId.isNone then some .registerRecvBuffer
  else if calls.sendBufferId.isNone then some .registerSendBuffer
  else if calls.createRequestQueue = false then some .createRequestQueue
  else if (s.sessionMap.find (s.nextSessionId + 1)).isSome then some .emplace
  else none

/-- The accepter is through with the client, and the tables, the counters and
the buffers are as before; the client's socket was closed once. -/
def CleanedUp (s : Server) (calls : Calls) (enteredClientSocket : Nat) : Prop :=
  ∃ w, (accepter calls enteredClientSocket).run ⟨s, false⟩ = some ((), w) ∧
    w.sessionMap = s.sessionMap ∧ w.sessionCount = s.sessionCount ∧
    w.numOfSessionInWorkerThread = s.numOfSessionInWorkerThread ∧
    w.sessionIdSet = s.sessionIdSet ∧ w.registeredBuffers = s.registeredBuffers ∧
    w.closedSockets = s.closedSockets ++ [enteredClientSocket]

variable {s : Server} {calls : Calls} {enteredClientSocket : Nat}

/-! ## What each part does -/

@[simp] theorem run_closesocket (socket : Option Nat) (w : World) :
    (closesocket socket).run w =
      some ((), { w with closedSockets := w.closedSockets ++ socket.toList }) := rfl

@[simp] theorem run_registerBuffer (bufferId : Nat) (w : World) :
    (registerBuffer bufferId).run w =
      some ((), { w with registeredBuffers := bufferId :: w.registeredBuffers }) := rfl

@[simp] theorem run_unlockSessionMap (w : World) :
    unlockSessionMap.run w = some ((), { w with sessionMapLocked := false }) := rfl

theorem run_lockSessionMap {w : World} (h : w.sessionMapLocked = false) :
    lockSessionMap.run w = some ((), { w with sessionMapLocked := true }) :=
  if_neg (by rw [h]; exact Bool.false_ne_true)

theorem run_lockSessionMap_locked {w : World} (h : w.sessionMapLocked = true) :
    lockSessionMap.run w = none := if_pos h

/-- Under the map's lock `ReleaseSession` does not return. -/
theorem run_releaseSession_locked (session : NewSession) {w : World}
    (h : w.sessionMapLocked = true) : (releaseSession session).run w = none := by
  simp [releaseSession, run_lockSessionMap_locked, h]

/-- Without it, it does. -/
theorem run_releaseSession (session : NewSession) {w : World} (h : w.sessionMapLocked = false) :
    ∃ r, (releaseSession session).run w = some r := by
  obtain ⟨address, socket, sessionId, threadId, ioCount, recvBufferId, sendBufferId⟩ := session
  cases recvBufferId <;> cases sendBufferId <;>
    simp [releaseSession, run_lockSessionMap, h, deregisterBuffer]

theorem run_ioCountDecrement (session : NewSession) {w : World}
    (h : w.sessionMapLocked = false) : ∃ r, (ioCountDecrement session).run w = some r := by
  by_cases hzero : session.ioCount - 1 = 0
  · obtain ⟨r, hr⟩ := run_releaseSession { session with ioCount := session.ioCount - 1 }
      (w := { w with sessionIdSet := w.sessionIdSet.erase session.sessionId }) h
    refine ⟨r, ?_⟩
    simp only [ioCountDecrement, if_pos hzero]
    exact hr
  · exact ⟨_, by simp only [ioCountDecrement, if_neg hzero]; rfl⟩

theorem run_getNewSession_invalid {w : World} (h : w.nextSessionId + 1 = 0) (threadId : UInt8) :
    (getNewSession calls enteredClientSocket threadId).run w =
      some (none, { w with nextSessionId := w.nextSessionId + 1 }) := if_pos h

theorem run_getNewSession {w : World} (h : w.nextSessionId + 1 ≠ 0) (threadId : UInt8) :
    (getNewSession calls enteredClientSocket threadId).run w =
      some (some ⟨calls.address, enteredClientSocket, w.nextSessionId + 1, threadId, 0, none, none⟩,
        { w with nextSessionId := w.nextSessionId + 1 }) := if_neg h

theorem run_emplace (session : NewSession) (w : World) :
    (emplace session).run w = some ((w.sessionMap.find session.sessionId).isNone,
      { w with sessionMap := w.sessionMap.insert session.sessionId session.address }) := rfl

/-! ## The accepter at each point -/

/-- No id was left: nothing but the socket has changed. -/
theorem accepter_getNewSession (h : s.nextSessionId + 1 = 0) :
    (accepter calls enteredClientSocket).run ⟨s, false⟩ =
      some ((), ⟨{ s with
        nextSessionId := s.nextSessionId + 1
        closedSockets := s.closedSockets ++ [enteredClientSocket] }, false⟩) := by
  simp [accepter, makeNewSession, run_getNewSession_invalid, h]

/-- `InitSession` has failed: what it had registered by then stays. -/
theorem accepter_initSession (hid : s.nextSessionId + 1 ≠ 0)
    (h : calls.recvBufferId = none ∨ calls.sendBufferId = none ∨
      calls.createRequestQueue = false) :
    (accepter calls enteredClientSocket).run ⟨s, false⟩ =
      some ((), ⟨{ s with
        nextSessionId := s.nextSessionId + 1
        registeredBuffers :=
          (if calls.recvBufferId.isSome then calls.sendBufferId.toList else []) ++
            calls.recvBufferId.toList ++ s.registeredBuffers
        closedSockets := s.closedSockets ++ [enteredClientSocket] }, false⟩) := by
  obtain ⟨address, recvBufferId, sendBufferId, createRequestQueue, rioReceive⟩ := calls
  cases recvBufferId with
  | none => simp [accepter, makeNewSession, run_getNewSession, hid, initSession]
  | some recvBufferId =>
    cases sendBufferId with
    | none => simp [accepter, makeNewSession, run_getNewSession, hid, initSession]
    | some sendBufferId =>
      obtain rfl : createRequestQueue = false := by simpa using h
      simp [accepter, makeNewSession, run_getNewSession, hid, initSession]

/-- The id was in the map: the accepter never returns. It holds the lock of the
map, and `ReleaseSession` asks for it. -/
theorem accepter_emplace {recvBufferId sendBufferId address : Nat}
    (hid : s.nextSessionId + 1 ≠ 0) (hrecv : calls.recvBufferId = some recvBufferId)
    (hsend : calls.sendBufferId = some sendBufferId) (hqueue : calls.createRequestQueue = true)
    (hfound : s.sessionMap.find (s.nextSessionId + 1) = some address) :
    (accepter calls enteredClientSocket).run ⟨s, false⟩ = none := by
  simp [accepter, makeNewSession, run_getNewSession, hid, initSession, hrecv, hsend, hqueue,
    run_lockSessionMap, run_emplace, hfound, ioCountDecrement, run_releaseSession_locked]

/-- At no other point does it fail. -/
theorem makeNewSession_of_none (h : failurePoint s calls = none) :
    ∃ w, (makeNewSession calls enteredClientSocket).run ⟨s, false⟩ = some (true, w) := by
  unfold failurePoint at h
  split_ifs at h with hid hrecv hsend hqueue hfound
  obtain ⟨recvBufferId, hrecv⟩ := Option.ne_none_iff_exists'.mp (by simpa using hrecv)
  obtain ⟨sendBufferId, hsend⟩ := Option.ne_none_iff_exists'.mp (by simpa using hsend)
  have hqueue : calls.createRequestQueue = true := by simpa using hqueue
  have hfree : s.sessionMap.find (s.nextSessionId + 1) = none := by simpa using hfound
  simp [makeNewSession, run_getNewSession, hid, initSession, hrecv, hsend, hqueue,
    run_lockSessionMap, run_emplace, hfree]
  -- the count may be zero by now, but the map's lock is free again
  generalize hdecrement : (ioCountDecrement _).run _ = result
  obtain ⟨r, hr⟩ : ∃ r, result = some r := by
    rw [← hdecrement]
    exact run_ioCountDecrement _ rfl
  rw [hr]
  exact ⟨_, rfl⟩

/-- The accepter does not come back from a failed `emplace`, and from all other
failures it does. -/
theorem accepter_returns_iff {point : FailurePoint} (h : failurePoint s calls = some point) :
    (∃ w, (accepter calls enteredClientSocket).run ⟨s, false⟩ = some ((), w)) ↔
      point ≠ .emplace := by
  unfold failurePoint at h
  split_ifs at h with hid hrecv hsend hqueue hfound <;> cases h
  · exact iff_of_true ⟨_, accepter_getNewSession hid⟩ (by decide)
  · have hnone : calls.recvBufferId = none := by simpa using hrecv
    exact iff_of_true ⟨_, accepter_initSession hid (.inl hnone)⟩ (by decide)
  · have hnone : calls.sendBufferId = none := by simpa using hsend
    exact iff_of_true ⟨_, accepter_initSession hid (.inr (.inl hnone))⟩ (by decide)
  · exact iff_of_true ⟨_, accepter_initSession hid (.inr (.inr hqueue))⟩ (by decide)
  · obtain ⟨recvBufferId, hrecv⟩ := Option.ne_none_iff_exists'.mp (by simpa using hrecv)
    obtain ⟨sendBufferId, hsend⟩ := Option.ne_none_iff_exists'.mp (by simpa using hsend)
    obtain ⟨address, hfound⟩ := Option.isSome_iff_exists.mp hfound
    refine iff_of_false ?_ (by simp)
    rintro ⟨w, hrun⟩
    rw [accepter_emplace hid hrecv hsend (by simpa using hqueue) hfound] at hrun
    cases hrun

/-- All is as it was, and the socket is closed once, exactly if the failure came
before the first buffer was registered. -/
theorem cleanedUp_of_failurePoint {point : FailurePoint} (h : failurePoint s calls = some point) :
    CleanedUp s calls enteredClientSocket ↔
      point = .getNewSession ∨ point = .registerRecvBuffer := by
  have hpoint := h
  unfold failurePoint at h
  split_ifs at h with hid hrecv hsend hqueue hfound <;> cases h
  · refine iff_of_true ⟨_, accepter_getNewSession hid, rfl, rfl, rfl, rfl, rfl, rfl⟩ (.inl rfl)
  · have hnone : calls.recvBufferId = none := by simpa using hrecv
    refine iff_of_true ⟨_, accepter_initSession hid (.inl hnone), rfl, rfl, rfl, rfl, ?_, rfl⟩
      (.inr rfl)
    simp [hnone]
  · -- the receive buffer stays registered
    obtain ⟨recvBufferId, hrecv⟩ := Option.ne_none_iff_exists'.mp (by simpa using hrecv)
    have hnone : calls.sendBufferId = none := by simpa using hsend
    refine iff_of_false ?_ (by simp)
    rintro ⟨w, hrun, -, -, -, -, hregistered, -⟩
    rw [accepter_initSession hid (.inr (.inl hnone))] at hrun
    cases hrun
    simp [hrecv, hnone] at hregistered
  · -- both buffers do
    obtain ⟨recvBufferId, hrecv⟩ := Option.ne_none_iff_exists'.mp (by simpa using hrecv)
    refine iff_of_false ?_ (by simp)
    rintro ⟨w, hrun, -, -, -, -, hregistered, -⟩
    rw [accepter_initSession hid (.inr (.inr hqueue))] at hrun
    cases hrun
    have hlength := congrArg List.length hregistered
    simp only [hrecv, List.length_append, Option.toList_some, List.length_singleton] at hlength
    omega
  · -- the accepter waits for itself
    refine iff_of_false ?_ (by simp)
    rintro ⟨w, hrun, -⟩
    exact (accepter_returns_iff hpoint).mp ⟨w, hrun⟩ rfl

/-- **What a failure leaves behind**: all is as it was, and the socket is closed
once, exactly if the failure came before the first buffer was registered; and
the accepter is there for the next client exactly if `emplace` was not what
failed. -/
theorem cleanedUp_iff {point : FailurePoint} (h : failurePoint s calls = some point) :
    (CleanedUp s calls enteredClientSocket ↔
      point = .getNewSession ∨ point = .registerRecvBuffer) ∧
    ((∃ w, (accepter calls enteredClientSocket).run ⟨s, false⟩ = some ((), w)) ↔
      point ≠ .emplace) :=
  ⟨cleanedUp_of_failurePoint h, accepter_returns_iff h⟩

/-- A server with two workers before its first client. -/
def emptyServer : Server where
  nextSessionId := 1
  maxClientCount := 1000
  sessionMap := .empty
  sessionCount := 0
  numOfSessionInWorkerThread := [0, 0]
  sessionIdSet := ∅
  registeredBuffers := []
  closedSockets := []

/-- The same server with two clients on one worker and a third on the other. -/
def busyServer : Server where
  nextSessionId := 4
  maxClientCount := 1000
  sessionMap := ⟨[(1, 10), (2, 20), (3, 30)], by decide⟩
  sessionCount := 3
  numOfSessionInWorkerThread := [2, 1]
  sessionIdSet := {1, 2, 3}
  registeredBuffers := [1, 2, 3, 4, 5, 6]
  closedSockets := []

/-- The first `RIORegisterBuffer` fails for its fourth client. -/
theorem cleanedUp_registerRecvBuffer : CleanedUp busyServer ⟨0, none, none, true, true⟩ 7 :=
  (cleanedUp_iff rfl).1.mpr (.inr rfl)

/-- The second one fails: the buffer of the first is never given back. -/
theorem not_cleanedUp_registerSendBuffer :
    failurePoint emptyServer ⟨0, some 1, none, true, true⟩ = some .registerSendBuffer ∧
    (accepter ⟨0, some 1, none, true, true⟩ 7).run ⟨emptyServer, false⟩ =
      some ((), ⟨{ emptyServer with
        nextSessionId := 2, registeredBuffers := [1], closedSockets := [7] }, false⟩) ∧
    ¬CleanedUp emptyServer ⟨0, some 1, none, true, true⟩ 7 := by
  have hrun : (accepter ⟨0, some 1, none, true, true⟩ 7).run ⟨emptyServer, false⟩ =
      some ((), ⟨{ emptyServer with
        nextSessionId := 2, registeredBuffers := [1], closedSockets := [7] }, false⟩) :=
    accepter_initSession (by decide) (.inr (.inl rfl))
  refine ⟨rfl, hrun, ?_⟩
  rintro ⟨w, hrun', -, -, -, -, hregistered, -⟩
  rw [hrun] at hrun'
  cases hrun'
  cases hregistered

end RioServer.MakeNewSession
