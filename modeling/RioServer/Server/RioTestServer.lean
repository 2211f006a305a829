import RioServer.Lib.UnorderedMap
import RioServer.Server.Session

/-!
# The whole server: every session and every thread (RIOTestServer.cpp)

`RioTestServer` is the state that all threads share: the sessions that were
made, the tables `sessionMap`, `sessionIdSet` and `contextPool`, the counters,
and the memory of the pooled contexts. A thread acts on one session at a time,
and what it does there is the action of Session.lean on the `view` of that
session: its own fields, and the tables as the session's id finds them.
`commit` writes the tables back.

What only the whole server shows is added here. A completion brings nothing but
a context: `GetIOCompletedContext` reads the owner's id from the pooled object
and asks `sessionMap` for it, so which session a completion is handled for
depends on what other threads did to the map and to that object. `session` of
a thread is the session it found, `origin` the one whose request or send
started it. Sessions are numbered in the order they were made, and the number
stands for the `shared_ptr`; ids come from `nextSessionId`, which may wrap.
-/

namespace RioServer

open Machine

/-- `INVALID_SESSION_ID` (DefineType.h). -/
def invalidSessionId : UInt64 := 0

/-- The fields of an object of `contextPool` that are read back from a
completion (RIOTestSession.h:17). -/
structure PooledContext where
  ownerSessionId : UInt64
  ioType : RioOperationType
  deriving DecidableEq, Repr

/-- A session that `GetNewSession` has made. `state` keeps what is the
session's own; the server's tables override the rest. `erased` records that
`ReleaseSession` has taken it out of `sessionMap`. -/
structure Entry where
  sessionId : UInt64
  threadId : Nat
  state : State
  erased : Bool
  deriving DecidableEq, Repr

/-- What the threads of the server share. `accepted` counts the connections,
`accepterBusy` says that one of them is in `MakeNewSession`, `contexts` is the
memory of the pool, and `leaked` records the contexts of posts that failed. -/
structure RioTestServer where
  nextSessionId : UInt64
  accepted : Nat
  accepterBusy : Bool
  sessions : List Entry
  sessionMap : UnorderedMap UInt64 Nat
  sessionMapLocked : Bool
  sessionIdSet : Finset UInt64
  sessionCount : Int
  numOfSessionInWorkerThread : Nat → Int
  contextPool : List Nat
  contexts : Nat → PooledContext
  leaked : List Nat

/-- A thread: the session it works for, the session it came from, and where it
stands. -/
structure Thread where
  session : Nat
  origin : Nat
  pc : Pc
  deriving DecidableEq, Repr

namespace RioTestServer

/-- The server after `InitializeRIO`. -/
def initial : RioTestServer where
  nextSessionId := invalidSessionId + 1
  accepted := 0
  accepterBusy := false
  sessions := []
  sessionMap := .empty
  sessionMapLocked := false
  sessionIdSet := ∅
  sessionCount := 0
  numOfSessionInWorkerThread := fun _ => 0
  contextPool := []
  contexts := fun _ => ⟨invalidSessionId, .opError⟩
  leaked := []

/-! ## One session in the server -/

/-- A session with the tables filled in. `sessionId` is the id that the action
looks up in `sessionMap`. -/
def view (g : RioTestServer) (e : Entry) (sessionId : UInt64) : State :=
  { e.state with
    inSessionMap := (g.sessionMap.find sessionId).isSome
    sessionMapLocked := g.sessionMapLocked
    inSessionIdSet := decide (e.sessionId ∈ g.sessionIdSet)
    contextPool := g.contextPool }

/-- Write back that session `i` has gone from `s` to `s'`. -/
def commit (g : RioTestServer) (i : Nat) (e : Entry) (s s' : State) : RioTestServer :=
  { g with
    sessions := g.sessions.set i
      { e with state := s', erased := e.erased || (s.inSessionMap && !s'.inSessionMap) }
    sessionMap :=
      if s'.inSessionMap = s.inSessionMap then g.sessionMap
      else if s'.inSessionMap then g.sessionMap.insert e.sessionId i
      else g.sessionMap.erase e.sessionId
    sessionMapLocked := s'.sessionMapLocked
    sessionIdSet :=
      if s'.inSessionIdSet then insert e.sessionId g.sessionIdSet
      else g.sessionIdSet.erase e.sessionId
    sessionCount := g.sessionCount + (s'.sessionCount - s.sessionCount)
    numOfSessionInWorkerThread := fun threadId =>
      if threadId = e.threadId then g.numOfSessionInWorkerThread threadId +
        (s'.numOfSessionInWorkerThread - s.numOfSessionInWorkerThread)
      else g.numOfSessionInWorkerThread threadId
    contextPool := s'.contextPool }

/-! ## Actions -/

/-- The session an action is on. The end of an iteration is the worker's own. -/
def target (t : Thread) : Nat :=
  match t.pc with
  | .worker .endCompletion => t.origin
  | _ => t.session

/-- The id an action looks up: `GetIOCompletedContext` and `InvalidIOCompleted`
read it from the pooled object. -/
def lookedUp (g : RioTestServer) (e : Entry) : Pc → UInt64
  | .worker (.getIoCompletedContext context _) | .worker (.invalidIoCompleted context) =>
    (g.contexts context.id).ownerSessionId
  | _ => e.sessionId

/-- The session that the lookup has found. -/
def found (g : RioTestServer) (e : Entry) (t : Thread) : Nat :=
  match t.pc with
  | .worker (.getIoCompletedContext _ _) | .worker (.invalidIoCompleted _)
  | .sendPacket .getSession _ _ => (g.sessionMap.find (g.lookedUp e t.pc)).getD t.session
  | _ => t.session

/-- `IOCompleted` reads `ioType` from the pooled object. -/
def reread (g : RioTestServer) : Pc → Pc
  | .worker (.testTransferred context bytes) =>
    .worker (.testTransferred { context with ioType := (g.contexts context.id).ioType } bytes)
  | pc => pc

/-- `emplace` inserts unless the id has an entry. -/
def emplaceResult (s : State) (o : Oracle) : Pc → Oracle
  | .makeNewSession .emplace => { o with ok := !s.inSessionMap }
  | _ => o

/-- `InitContext` on the object that `contextPool.Alloc` has returned. -/
def initContext (contexts : Nat → PooledContext) (e : Entry) (o : Oracle) :
    Pc → Nat → PooledContext
  | .sendPost .makeSendStream _ => Function.update contexts o.context ⟨e.sessionId, .opSend⟩
  | .recvPost .rioReceive _ => Function.update contexts o.context ⟨e.sessionId, .opRecv⟩
  | _ => contexts

/-- The context of a post that fails. -/
def lost (o : Oracle) : Pc → List Nat
  | .recvPost .rioReceive _ => if o.ok then [] else [o.context]
  | .sendPost (.rioSend context) _ => if o.ok then [] else [context.id]
  | _ => []

/-- The accepter goes back to `accept`. -/
def endsAccept : Pc → Bool
  | .makeNewSession .incrementSessionCount | .makeNewSession .closeEnteredSocket => true
  | _ => false

/-- One action of a thread. -/
def exec (spec : NetBufferSpec) (t : Thread) (o : Oracle) (g : RioTestServer) :
    Option (RioTestServer × Thread) :=
  match g.sessions[target t]? with
  | none => none
  | some e =>
    let s := g.view e (g.lookedUp e t.pc)
    (RioServer.exec spec (g.reread t.pc) (emplaceResult s o t.pc) s).map fun r =>
      ({ g.commit (target t) e s r.1 with
          contexts := initContext g.contexts e o t.pc
          leaked := g.leaked ++ lost o t.pc
          accepterBusy := g.accepterBusy && !endsAccept t.pc },
        ⟨g.found e t, t.origin, r.2⟩)

/-! ## Events -/

/-- A connection is accepted, or something happens around a session. -/
inductive Event where
  | accept (threadId : Nat)
  | session (i : Nat) (e : RioServer.Event)
  deriving DecidableEq, Repr

/-- `Accepter`'s next connection, with `MakeNewSession` up to `InitSession`.
While the counters are read for `GetMinimumSessionThreadId` they change, so
any worker may come out. -/
def accept (g : RioTestServer) (threadId : Nat) : RioTestServer × Thread :=
  let newSessionId := g.nextSessionId + 1
  if newSessionId = invalidSessionId then
    ({ g with nextSessionId := newSessionId, accepted := g.accepted + 1 },
      ⟨g.sessions.length, g.sessions.length, .finished⟩)
  else
    ({ g with
      nextSessionId := newSessionId
      accepted := g.accepted + 1
      accepterBusy := true
      sessions := g.sessions ++ [⟨newSessionId, threadId, State.initial, false⟩] },
      ⟨g.sessions.length, g.sessions.length, .makeNewSession .registerRecvBuffer⟩)

@[simp] theorem accept_accepted (g : RioTestServer) (threadId : Nat) :
    (g.accept threadId).1.accepted = g.accepted + 1 := by
  simp only [accept]
  split <;> rfl

/-- The worker of a session is free. -/
def workerFree (g : RioTestServer) (threadId : Nat) : Bool :=
  g.sessions.all fun e => !(e.threadId == threadId && e.state.workerBusy)

/-- A worker takes completions one after the other, whichever of its sessions
they belong to. -/
def canHappen (g : RioTestServer) (e : Entry) : RioServer.Event → Bool
  | .completion _ _ => g.workerFree e.threadId
  | _ => true

/-- The thread an event starts. -/
def spawn (numOfWorkerThread : Nat) (ev : Event) (g : RioTestServer) :
    Option (RioTestServer × Thread) :=
  match ev with
  | .accept threadId =>
    if threadId < numOfWorkerThread ∧ g.accepterBusy = false then some (g.accept threadId)
    else none
  | .session i ev =>
    match g.sessions[i]? with
    | none => none
    | some e =>
      if g.canHappen e ev then
        let s := g.view e e.sessionId
        (RioServer.spawn ev s).map fun r => (g.commit i e s r.1, ⟨i, i, r.2⟩)
      else none

/-- **The server's machine**: all threads of all sessions. -/
def server (spec : NetBufferSpec) (numOfWorkerThread : Nat) :
    Machine RioTestServer Thread Oracle Event where
  exec := exec spec
  spawn := spawn numOfWorkerThread

/-- The server before the first connection. -/
def server.init : Machine.Config RioTestServer Thread := ⟨initial, []⟩

/-! ## What a step is -/

variable {spec : NetBufferSpec} {numOfWorkerThread : Nat} {g g' : RioTestServer}
  {t t' : Thread} {o : Oracle}

/-- An action of a thread is an action on its session. -/
theorem exec_eq_some (h : exec spec t o g = some (g', t')) :
    ∃ e s' pc', g.sessions[target t]? = some e ∧
      RioServer.exec spec (g.reread t.pc)
        (emplaceResult (g.view e (g.lookedUp e t.pc)) o t.pc)
        (g.view e (g.lookedUp e t.pc)) = some (s', pc') ∧
      g' = { g.commit (target t) e (g.view e (g.lookedUp e t.pc)) s' with
        contexts := initContext g.contexts e o t.pc
        leaked := g.leaked ++ lost o t.pc
        accepterBusy := g.accepterBusy && !endsAccept t.pc } ∧
      t' = ⟨g.found e t, t.origin, pc'⟩ := by
  simp only [exec] at h
  cases he : g.sessions[target t]? with
  | none => rw [he] at h; cases h
  | some e =>
    rw [he] at h
    obtain ⟨⟨s', pc'⟩, hexec, heq⟩ := Option.map_eq_some_iff.mp h
    cases heq
    exact ⟨e, s', pc', rfl, hexec, rfl, rfl⟩

/-- An event accepts a connection, or is an event of a session. -/
theorem spawn_eq_some {ev : Event} (h : spawn numOfWorkerThread ev g = some (g', t')) :
    (∃ threadId, ev = .accept threadId ∧ threadId < numOfWorkerThread ∧
      g.accepterBusy = false ∧ (g', t') = g.accept threadId) ∨
    (∃ i ev' e s' pc', ev = .session i ev' ∧ g.sessions[i]? = some e ∧
      g.canHappen e ev' = true ∧
      RioServer.spawn ev' (g.view e e.sessionId) = some (s', pc') ∧
      g' = g.commit i e (g.view e e.sessionId) s' ∧ t' = ⟨i, i, pc'⟩) := by
  cases ev with
  | accept threadId =>
    left
    obtain ⟨⟨hlt, hbusy⟩, heq⟩ := Option.ite_none_right_eq_some.mp h
    exact ⟨threadId, rfl, hlt, hbusy, (Option.some.inj heq).symm⟩
  | session i ev' =>
    right
    simp only [spawn] at h
    cases he : g.sessions[i]? with
    | none => rw [he] at h; cases h
    | some e =>
      rw [he] at h
      obtain ⟨hcan, heq⟩ := Option.ite_none_right_eq_some.mp h
      obtain ⟨⟨s', pc'⟩, hspawn, heq⟩ := Option.map_eq_some_iff.mp heq
      cases heq
      exact ⟨i, ev', e, s', pc', rfl, he, hcan, hspawn, rfl, rfl⟩

end RioTestServer

end RioServer
