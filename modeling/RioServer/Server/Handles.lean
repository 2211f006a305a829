import RioServer.Lib.Interleaving
import RioServer.Lib.UnorderedMap

/-!
# Socket handles (RIOTestServer.cpp:273, 515, 582)

A session keeps the value of its socket handle. `ReleaseSession` closes it
first, takes the session out of `sessionMap` after that, and sets the field to
`INVALID_SOCKET` last; `Disconnect` looks the session up and shuts down what the
field holds. In between the operating system may give the value to the next
client that the accepter takes. `socketThreads` is any number of calls of the
two, on any sessions, beside the accepter.

As long as a session's socket has not been closed its handle denotes its own
connection, in the field and in every call that has read it (`Owned`). So
nothing can go wrong but a call on a session that is closed already, with a
value that is in use again (`calls_own`), and that always does (`calls_other`).

A session is named by the connection that was accepted for it.
-/

namespace RioServer

open Machine

/-! ## Handles and sessions -/

/-- A value of `SOCKET`; `INVALID_SOCKET` is `none`. -/
abbrev SocketHandle := Nat

/-- The fields of a session that are used here, and a record whether
`ReleaseSession` has closed its socket. -/
structure SocketSession where
  sessionId : UInt64
  socket : Option SocketHandle
  closed : Bool

/-- The handles that are open, with their connections, and the number of
connections so far; the sessions by connection; `sessionMap` with its lock; and
a record of the calls of `shutdown` and `closesocket`, each with its session and
the connection it acts on, if its handle is open. -/
structure Sockets where
  openHandles : UnorderedMap SocketHandle Nat
  accepted : Nat
  sessions : UnorderedMap Nat SocketSession
  sessionMap : UnorderedMap UInt64 Nat
  nextSessionId : UInt64
  readers : Nat
  writer : Bool
  calls : List (Nat × Option Nat)

/-- `nextSessionId` starts behind `INVALID_SESSION_ID`. -/
def Sockets.initial : Sockets := ⟨.empty, 0, .empty, .empty, 1, 0, false, []⟩

/-- The connection that a handle denotes. -/
def Sockets.connection (s : Sockets) (socket : Option SocketHandle) : Option Nat :=
  socket.bind s.openHandles.find

inductive SocketPc where
  /-- `Accepter`, with the client's handle and connection. -/
  | accept
  | getNewSession (handle : SocketHandle) (client : Nat)
  | initSession (handle : SocketHandle) (client : Nat) (sessionId : UInt64)
  | emplace (handle : SocketHandle) (client : Nat) (sessionId : UInt64)
  | closeClient (handle : SocketHandle) (client : Nat)
  /-- `ReleaseSession`: the field is read, and what was read is closed. -/
  | releaseSession (session : Nat)
  | closeSocket (session : Nat) (socket : Option SocketHandle)
  | eraseSession (session : Nat)
  | setInvalid (session : Nat)
  /-- `Disconnect`: the field is read, and what was read is shut down. -/
  | disconnect (sessionId : UInt64)
  | findSession (sessionId : UInt64)
  | readSocket (session : Nat)
  | shutdown (session : Nat) (socket : Option SocketHandle)
  | unlockRead
  | finished
  deriving DecidableEq

/-- What a step cannot choose: the handle of the next client, and whether
`InitSession` succeeds. -/
structure SocketOracle where
  handle : SocketHandle
  ok : Bool

/-- Set fields of a session. -/
def Sockets.update (s : Sockets) (session : Nat) (f : SocketSession → SocketSession) : Sockets :=
  match s.sessions.find session with
  | some object => { s with sessions := s.sessions.assign session (f object) }
  | none => s

/-- One step of a thread. -/
def execSocket : SocketPc → SocketOracle → Sockets → Option (Sockets × SocketPc)
  -- RIOTestServer.cpp:283; the handle of a new client is any that is not open
  | .accept, o, s =>
    if s.openHandles.find o.handle = none then
      some ({ s with
        openHandles := s.openHandles.insert o.handle s.accepted
        accepted := s.accepted + 1 }, .getNewSession o.handle s.accepted)
    else none
  -- RIOTestServer.cpp:527
  | .getNewSession handle client, _, s =>
    let newSessionId := s.nextSessionId + 1
    let s := { s with nextSessionId := newSessionId }
    if newSessionId = 0 then some (s, .closeClient handle client)
    else some (s, .initSession handle client newSessionId)
  | .initSession handle client sessionId, o, s =>
    if o.ok then some (s, .emplace handle client sessionId)
    else some (s, .closeClient handle client)
  -- RIOTestServer.cpp:559; a session that is not entered is released inside the lock
  | .emplace handle client sessionId, _, s =>
    if s.writer ∨ s.readers ≠ 0 then none
    else
      let entered := { s with
        sessions := s.sessions.insert client ⟨sessionId, some handle, false⟩
        sessionMap := s.sessionMap.insert sessionId client }
      match s.sessionMap.find sessionId with
      | none => some (entered, .accept)
      | some _ => some ({ entered with writer := true }, .releaseSession client)
  | .closeClient handle _, _, s =>
    some ({ s with openHandles := s.openHandles.erase handle }, .accept)
  -- RIOTestServer.cpp:582
  | .releaseSession session, _, s =>
    (s.sessions.find session).map fun object => (s, .closeSocket session object.socket)
  | .closeSocket session socket, _, s =>
    let s := { s with
      openHandles := socket.elim s.openHandles s.openHandles.erase
      calls := s.calls ++ [(session, s.connection socket)] }
    some (s.update session fun object => { object with closed := true }, .eraseSession session)
  | .eraseSession session, _, s =>
    if s.writer ∨ s.readers ≠ 0 then none
    else (s.sessions.find session).map fun object =>
      ({ s with sessionMap := s.sessionMap.erase object.sessionId }, .setInvalid session)
  | .setInvalid session, _, s =>
    some (s.update session fun object => { object with socket := none }, .finished)
  -- RIOTestServer.cpp:515
  | .disconnect sessionId, _, s =>
    if s.writer then none else some ({ s with readers := s.readers + 1 }, .findSession sessionId)
  | .findSession sessionId, _, s =>
    match s.sessionMap.find sessionId with
    | none => some (s, .unlockRead)
    | some session => some (s, .readSocket session)
  | .readSocket session, _, s =>
    (s.sessions.find session).map fun object => (s, .shutdown session object.socket)
  | .shutdown session socket, _, s =>
    some ({ s with calls := s.calls ++ [(session, s.connection socket)] }, .unlockRead)
  | .unlockRead, _, s => some ({ s with readers := s.readers - 1 }, .finished)
  | .finished, _, _ => none

inductive SocketEvent where
  | releaseSession (session : Nat)
  | disconnect (sessionId : UInt64)

/-- `ReleaseSession` on a session that there is, or `Disconnect` of any id. -/
def spawnSocket : SocketEvent → Sockets → Option (Sockets × SocketPc)
  | .releaseSession session, s =>
    if (s.sessions.find session).isSome then some (s, .releaseSession session) else none
  | .disconnect sessionId, s => some (s, .disconnect sessionId)

def socketThreads : Machine Sockets SocketPc SocketOracle SocketEvent := ⟨execSocket, spawnSocket⟩

def socketThreads.init : Config Sockets SocketPc := ⟨.initial, [.accept]⟩

/-! ## Whose handle it is -/

/-- Every `shutdown` and `closesocket` acts on the connection of its session, or
on none. -/
def Sockets.CallsOwn (s : Sockets) : Prop :=
  ∀ session connection, (session, some connection) ∈ s.calls → connection = session

/-- The session that a call is about to act for, and what it has read there. -/
def SocketPc.carries : SocketPc → Option (Nat × Option SocketHandle)
  | .closeSocket session socket | .shutdown session socket => some (session, socket)
  | _ => none

/-- **The exact exception**: no call is made on a session whose socket has been
closed, with a handle that is open again. -/
def NotReopened : Guard Sockets SocketPc SocketOracle := fun pc _ s _ =>
  ∀ e ∈ pc.carries, ∀ object ∈ s.sessions.find e.1, object.closed = true →
    s.connection e.2 = none

instance (pc : SocketPc) (o : SocketOracle) (s : Sockets) (ts : List SocketPc) :
    Decidable (NotReopened pc o s ts) := by
  unfold NotReopened
  infer_instance

/-- The client that the accepter has got, as long as there is no session for it. -/
def SocketPc.client : SocketPc → Option (SocketHandle × Nat)
  | .getNewSession handle client | .initSession handle client _ | .emplace handle client _
  | .closeClient handle client => some (handle, client)
  | _ => none

/-- The session that the thread has closed the socket of. -/
def SocketPc.closedSession : SocketPc → Option Nat
  | .eraseSession session | .setInvalid session => some session
  | _ => none

/-- The accepter. -/
def SocketPc.isAccepter : SocketPc → Nat
  | .accept | .getNewSession _ _ | .initSession _ _ _ | .emplace _ _ _ | .closeClient _ _ => 1
  | _ => 0

/-- A session's handle denotes its connection until it is closed, and the
connection has no handle after that. -/
structure OwnsSocket (s : Sockets) (session : Nat) (object : SocketSession) : Prop where
  accepted : session < s.accepted
  own : object.closed = false → s.connection object.socket = some session
  gone : object.closed = true → ∀ handle, s.openHandles.find handle ≠ some session

/-- What a thread has to do with handles is in order. -/
structure SocketPc.InOrder (s : Sockets) (pc : SocketPc) : Prop where
  carried : ∀ session socket, pc.carries = some (session, socket) →
    ∃ object, s.sessions.find session = some object ∧
      (object.closed = false → s.connection socket = some session)
  client : ∀ handle client, pc.client = some (handle, client) →
    s.openHandles.find handle = some client ∧ s.sessions.find client = none
  closed : ∀ session, pc.closedSession = some session →
    ∃ object, s.sessions.find session = some object ∧ object.closed = true

/-- Everyone who has a handle has the handle of the right connection. -/
structure Owned (s : Sockets) (ts : List SocketPc) : Prop where
  accepted : ∀ handle connection, s.openHandles.find handle = some connection →
    connection < s.accepted
  single : ∀ handle handle' connection, s.openHandles.find handle = some connection →
    s.openHandles.find handle' = some connection → handle = handle'
  sessions : ∀ session object, s.sessions.find session = some object → OwnsSocket s session object
  calls : s.CallsOwn
  threads : ∀ pc ∈ ts, pc.InOrder s
  accepter : load SocketPc.isAccepter ts ≤ 1

variable {s s' : Sockets} {pc pc' : SocketPc} {l r ts : List SocketPc} {o : SocketOracle}

/-- A thread that has no handle is in order. -/
theorem inOrder_of_none (hcarries : pc.carries = none) (hclient : pc.client = none)
    (hclosed : pc.closedSession = none) : pc.InOrder s := by
  refine ⟨fun session socket h => ?_, fun handle client h => ?_, fun session h => ?_⟩
  · rw [hcarries] at h
    cases h
  · rw [hclient] at h
    cases h
  · rw [hclosed] at h
    cases h

/-- A thread that is about to use what it has read from a session's field. -/
theorem inOrder_of_carries {session : Nat} {socket : Option SocketHandle} {object : SocketSession}
    (hcarries : pc.carries = some (session, socket)) (hclient : pc.client = none)
    (hclosed : pc.closedSession = none) (hobject : s.sessions.find session = some object)
    (hown : object.closed = false → s.connection socket = some session) : pc.InOrder s := by
  refine ⟨fun session' socket' h => ?_, fun handle client h => ?_, fun session' h => ?_⟩
  · rw [hcarries] at h
    cases h
    exact ⟨object, hobject, hown⟩
  · rw [hclient] at h
    cases h
  · rw [hclosed] at h
    cases h

/-- The accepter goes on with the same client. -/
theorem inOrder_of_client {pc₀ : SocketPc} (hpc₀ : pc₀.InOrder s) (hcarries : pc.carries = none)
    (hclient : pc.client = pc₀.client) (hclosed : pc.closedSession = none) : pc.InOrder s := by
  refine ⟨fun session socket h => ?_, fun handle client h => ?_, fun session h => ?_⟩
  · rw [hcarries] at h
    cases h
  · rw [hclient] at h
    exact hpc₀.client handle client h
  · rw [hclosed] at h
    cases h

/-- `ReleaseSession` goes on with the session that it has closed. -/
theorem inOrder_of_closed {pc₀ : SocketPc} (hpc₀ : pc₀.InOrder s) (hcarries : pc.carries = none)
    (hclient : pc.client = none) (hclosed : pc.closedSession = pc₀.closedSession) :
    pc.InOrder s := by
  refine ⟨fun session socket h => ?_, fun handle client h => ?_, fun session h => ?_⟩
  · rw [hcarries] at h
    cases h
  · rw [hclient] at h
    cases h
  · rw [hclosed] at h
    exact hpc₀.closed session h

theorem connection_eq_some {socket : Option SocketHandle} {connection : Nat} :
    s.connection socket = some connection ↔
      ∃ handle, socket = some handle ∧ s.openHandles.find handle = some connection :=
  Option.bind_eq_some_iff

/-- A thread stays in order while sessions stay, closed ones closed and open ones
with their connections, and while the accepter's client keeps its handle. -/
theorem SocketPc.InOrder.mono {q : SocketPc} (h : q.InOrder s)
    (hsessions : ∀ session object, s.sessions.find session = some object →
      ∃ object', s'.sessions.find session = some object' ∧
        (object.closed = true → object'.closed = true) ∧
        (object'.closed = false → ∀ socket, s.connection socket = some session →
          s'.connection socket = some session))
    (hclient : ∀ handle client, q.client = some (handle, client) →
      s.openHandles.find handle = some client → s.sessions.find client = none →
      s'.openHandles.find handle = some client ∧ s'.sessions.find client = none) :
    q.InOrder s' := by
  refine ⟨fun session socket hq => ?_, fun handle client hq => ?_, fun session hq => ?_⟩
  · obtain ⟨object, hobject, hown⟩ := h.carried session socket hq
    obtain ⟨object', hobject', hclosed, hconn⟩ := hsessions session object hobject
    refine ⟨object', hobject', fun hopen => hconn hopen socket (hown ?_)⟩
    -- a session that is open has been open before
    by_contra hnot
    rw [hclosed (Bool.eq_true_of_not_eq_false hnot)] at hopen
    cases hopen
  · obtain ⟨hhandle, hnone⟩ := h.client handle client hq
    exact hclient handle client hq hhandle hnone
  · obtain ⟨object, hobject, hold⟩ := h.closed session hq
    obtain ⟨object', hobject', hclosed, -⟩ := hsessions session object hobject
    exact ⟨object', hobject', hclosed hold⟩

/-- Nobody becomes a second accepter. -/
theorem Owned.accepter_place (hI : Owned s (l ++ pc :: r)) (h : pc'.isAccepter ≤ pc.isAccepter) :
    load SocketPc.isAccepter (l ++ pc' :: r) ≤ 1 := by
  have hload := hI.accepter
  rw [load_append, load_cons] at hload ⊢
  omega

/-- A step that touches neither handles nor sessions. -/
theorem Owned.move (hI : Owned s (l ++ pc :: r)) (hopen : s'.openHandles = s.openHandles)
    (haccepted : s'.accepted = s.accepted) (hsessions : s'.sessions = s.sessions)
    (hcalls : s'.CallsOwn) (haccepter : pc'.isAccepter ≤ pc.isAccepter) (hpc : pc'.InOrder s) :
    Owned s' (l ++ pc' :: r) := by
  have hconn : ∀ socket, s'.connection socket = s.connection socket := fun socket => by
    rw [Sockets.connection, hopen, Sockets.connection]
  have horder : ∀ q : SocketPc, q.InOrder s → q.InOrder s' := by
    intro q hq
    refine hq.mono (fun session object hobject => ?_) fun handle client _ hhandle hnone => ?_
    · rw [hsessions]
      exact ⟨object, hobject, id, fun _ socket h => (hconn socket).trans h⟩
    · rw [hopen, hsessions]
      exact ⟨hhandle, hnone⟩
  obtain ⟨hl, -, hr⟩ := forall_mem_place.mp hI.threads
  refine ⟨?_, ?_, ?_, hcalls, ?_, ?_⟩
  · rw [hopen, haccepted]
    exact hI.accepted
  · rw [hopen]
    exact hI.single
  · rw [hsessions]
    intro session object hfind
    obtain ⟨hlt, hown, hgone⟩ := hI.sessions session object hfind
    refine ⟨haccepted ▸ hlt, ?_, ?_⟩
    · rw [hconn]
      exact hown
    · rw [hopen]
      exact hgone
  · exact forall_mem_place.mpr ⟨fun q hq => horder q (hl q hq), horder pc' hpc,
      fun q hq => horder q (hr q hq)⟩
  · exact hI.accepter_place haccepter

theorem find_update (session session' : Nat) (f : SocketSession → SocketSession) :
    (s.update session f).sessions.find session' =
      if session = session' then (s.sessions.find session).map f
      else s.sessions.find session' := by
  rw [Sockets.update]
  cases hfind : s.sessions.find session with
  | some object => exact UnorderedMap.find_assign _ _ _ _
  | none =>
    by_cases hs : session = session'
    · rw [if_pos hs, ← hs]
      exact hfind
    · rw [if_neg hs]

/-- Of the sessions, only the one that is updated changes. -/
theorem update_other (session : Nat) (f : SocketSession → SocketSession) :
    (s.update session f).openHandles = s.openHandles ∧
      (s.update session f).accepted = s.accepted ∧ (s.update session f).calls = s.calls := by
  rw [Sockets.update]
  split <;> exact ⟨rfl, rfl, rfl⟩

/-- With a handle goes its connection, and no other. -/
theorem Owned.find_erase (hI : Owned s ts) {handle : SocketHandle} {connection : Nat}
    (hhandle : s.openHandles.find handle = some connection) (handle' : SocketHandle)
    (connection' : Nat) :
    (s.openHandles.erase handle).find handle' = some connection' ↔
      s.openHandles.find handle' = some connection' ∧ connection' ≠ connection := by
  rw [UnorderedMap.find_erase]
  by_cases hh : handle = handle'
  · rw [if_pos hh]
    refine ⟨nofun, fun ⟨hfind, hne⟩ => ?_⟩
    rw [← hh, hhandle, Option.some.injEq] at hfind
    exact absurd hfind.symm hne
  · rw [if_neg hh]
    refine ⟨fun hfind => ⟨hfind, ?_⟩, And.left⟩
    rintro rfl
    exact hh (hI.single _ _ _ hhandle hfind)

/-- A connection loses its handle, and its session, if there is one, is closed. -/
theorem Owned.close (hI : Owned s (l ++ pc :: r)) {connection : Nat}
    (hopen : ∀ handle connection', s'.openHandles.find handle = some connection' ↔
      s.openHandles.find handle = some connection' ∧ connection' ≠ connection)
    (haccepted : s'.accepted = s.accepted)
    (hsessions : ∀ session, s'.sessions.find session =
      if connection = session then (s.sessions.find connection).map ({ · with closed := true })
      else s.sessions.find session)
    (hcalls : s'.CallsOwn) (haccepter : pc'.isAccepter ≤ pc.isAccepter)
    (hclients : ∀ q ∈ l ++ r, ∀ handle, q.client ≠ some (handle, connection))
    (hpc : pc'.InOrder s') : Owned s' (l ++ pc' :: r) := by
  have hkeep : ∀ socket session, session ≠ connection → s.connection socket = some session →
      s'.connection socket = some session := by
    intro socket session hne hconn
    obtain ⟨handle, hsocket, hfind⟩ := connection_eq_some.mp hconn
    exact connection_eq_some.mpr ⟨handle, hsocket, (hopen _ _).mpr ⟨hfind, hne⟩⟩
  have horder : ∀ q ∈ l ++ r, q.InOrder s → q.InOrder s' := by
    intro q hq hqs
    refine hqs.mono (fun session object hfind => ?_) fun handle client h hfind hnone => ?_
    · rw [hsessions]
      by_cases hs : connection = session
      · rw [if_pos hs, hs, hfind]
        exact ⟨_, rfl, fun _ => rfl, nofun⟩
      · rw [if_neg hs]
        exact ⟨object, hfind, id, fun _ socket => hkeep socket session (Ne.symm hs)⟩
    · have hne : client ≠ connection := by
        rintro rfl
        exact hclients q hq handle h
      rw [hsessions, if_neg hne.symm]
      exact ⟨(hopen _ _).mpr ⟨hfind, hne⟩, hnone⟩
  obtain ⟨hl, -, hr⟩ := forall_mem_place.mp hI.threads
  refine ⟨fun handle session hfind => ?_, fun handle handle' session hfind hfind' => ?_,
    fun session object hfind => ?_, hcalls, ?_, ?_⟩
  · rw [haccepted]
    exact hI.accepted handle session ((hopen _ _).mp hfind).1
  · exact hI.single handle handle' session ((hopen _ _).mp hfind).1 ((hopen _ _).mp hfind').1
  · rw [hsessions] at hfind
    by_cases hs : connection = session
    · subst hs
      rw [if_pos rfl] at hfind
      obtain ⟨object, hold, rfl⟩ := Option.map_eq_some_iff.mp hfind
      refine ⟨haccepted ▸ (hI.sessions _ object hold).accepted, nofun, fun _ handle hhandle => ?_⟩
      exact ((hopen _ _).mp hhandle).2 rfl
    · rw [if_neg hs] at hfind
      obtain ⟨hlt, hown, hgone⟩ := hI.sessions session object hfind
      refine ⟨haccepted ▸ hlt, fun hobject => hkeep _ _ (Ne.symm hs) (hown hobject), ?_⟩
      exact fun hobject handle hhandle => hgone hobject handle ((hopen _ _).mp hhandle).1
  · refine forall_mem_place.mpr ⟨fun q hq => ?_, hpc, fun q hq => ?_⟩
    · exact horder q (List.mem_append_left _ hq) (hl q hq)
    · exact horder q (List.mem_append_right _ hq) (hr q hq)
  · exact hI.accepter_place haccepter

/-- A new client gets a handle that nobody has. -/
theorem Owned.accept (hI : Owned s (l ++ .accept :: r)) {handle : SocketHandle}
    (hfree : s.openHandles.find handle = none) :
    Owned { s with
      openHandles := s.openHandles.insert handle s.accepted
      accepted := s.accepted + 1 } (l ++ .getNewSession handle s.accepted :: r) := by
  have hfind : ∀ handle', (s.openHandles.insert handle s.accepted).find handle' =
      if handle = handle' then some s.accepted else s.openHandles.find handle' :=
    UnorderedMap.find_insert_of_none hfree s.accepted
  have hkeep : ∀ {handle' connection}, s.openHandles.find handle' = some connection →
      (s.openHandles.insert handle s.accepted).find handle' = some connection :=
    fun h => UnorderedMap.find_insert_of_found h _ _
  have hconn : ∀ {socket connection}, s.connection socket = some connection →
      socket.bind (s.openHandles.insert handle s.accepted).find = some connection := by
    intro socket connection h
    obtain ⟨handle', hsocket, hfind⟩ := connection_eq_some.mp h
    exact Option.bind_eq_some_iff.mpr ⟨handle', hsocket, hkeep hfind⟩
  -- the new connection has no session yet, and no other handle
  have hnew : s.sessions.find s.accepted = none := by
    rw [Option.eq_none_iff_forall_ne_some]
    intro object hobject
    exact absurd (hI.sessions _ object hobject).accepted (Nat.lt_irrefl _)
  have hcases : ∀ {handle' connection},
      (s.openHandles.insert handle s.accepted).find handle' = some connection →
      (handle = handle' ∧ connection = s.accepted) ∨
        (s.openHandles.find handle' = some connection ∧ connection < s.accepted) := by
    intro handle' connection h
    rw [hfind] at h
    by_cases hh : handle = handle'
    · rw [if_pos hh, Option.some.injEq] at h
      exact .inl ⟨hh, h.symm⟩
    · rw [if_neg hh] at h
      exact .inr ⟨h, hI.accepted _ _ h⟩
  obtain ⟨hl, -, hr⟩ := forall_mem_place.mp hI.threads
  have horder : ∀ q : SocketPc, q.InOrder s → q.InOrder { s with
      openHandles := s.openHandles.insert handle s.accepted
      accepted := s.accepted + 1 } := by
    intro q hq
    refine hq.mono (fun session object hobject => ?_) fun handle client _ hhandle hnone => ?_
    · exact ⟨object, hobject, id, fun _ socket => hconn⟩
    · exact ⟨hkeep hhandle, hnone⟩
  refine ⟨fun handle' connection h => ?_, fun handle₁ handle₂ connection h₁ h₂ => ?_,
    fun session object hobject => ?_, hI.calls, ?_, ?_⟩
  · show connection < s.accepted + 1
    rcases hcases h with ⟨-, rfl⟩ | ⟨-, hlt⟩ <;> omega
  · rcases hcases h₁ with ⟨rfl, rfl⟩ | ⟨hold₁, hlt⟩
    · rcases hcases h₂ with ⟨rfl, -⟩ | ⟨-, hlt⟩
      · rfl
      · exact absurd hlt (Nat.lt_irrefl _)
    · rcases hcases h₂ with ⟨-, rfl⟩ | ⟨hold₂, -⟩
      · exact absurd hlt (Nat.lt_irrefl _)
      · exact hI.single _ _ _ hold₁ hold₂
  · obtain ⟨hlt, hown, hgone⟩ := hI.sessions session object hobject
    refine ⟨Nat.lt_succ_of_lt hlt, fun hopen => hconn (hown hopen), fun hclosed handle' h => ?_⟩
    rcases hcases h with ⟨-, rfl⟩ | ⟨hold, -⟩
    · exact Nat.lt_irrefl _ hlt
    · exact hgone hclosed _ hold
  · refine forall_mem_place.mpr ⟨fun q hq => horder q (hl q hq), ⟨nofun, ?_, nofun⟩,
      fun q hq => horder q (hr q hq)⟩
    intro handle' client h
    cases h
    refine ⟨?_, hnew⟩
    show (s.openHandles.insert handle s.accepted).find handle = some s.accepted
    rw [hfind, if_pos rfl]
  · exact hI.accepter_place (Nat.le_refl 1)

/-- A thread beside the accepter has no client. -/
theorem client_of_not_accepter (h : pc.isAccepter = 0) : pc.client = none := by
  cases pc <;> first | rfl | cases h

/-- The others have no client while the accepter has one. -/
theorem Owned.clients_eq_none (hI : Owned s (l ++ pc :: r)) (hpc : pc.isAccepter = 1) :
    ∀ q ∈ l ++ r, q.client = none := by
  have hload := hI.accepter
  rw [load_append, load_cons, hpc] at hload
  have hnone : load SocketPc.isAccepter (l ++ r) = 0 := by
    rw [load_append]
    omega
  exact fun q hq => client_of_not_accepter (load_eq_zero_iff.mp hnone q hq)

/-- A session is made for the client, with the client's handle. -/
theorem Owned.emplace (hI : Owned s (l ++ pc :: r)) (hpc : pc.isAccepter = 1)
    {handle : SocketHandle} {client : Nat} (hclient : pc.client = some (handle, client))
    {sessionId : UInt64} (hopen : s'.openHandles = s.openHandles)
    (haccepted : s'.accepted = s.accepted)
    (hsessions : s'.sessions = s.sessions.insert client ⟨sessionId, some handle, false⟩)
    (hcalls : s'.calls = s.calls) (hpc' : pc' = .accept ∨ pc' = .releaseSession client) :
    Owned s' (l ++ pc' :: r) := by
  obtain ⟨hhandle, hnone⟩ := (forall_mem_place.mp hI.threads).2.1.client handle client hclient
  have hfound : ∀ {session object}, s.sessions.find session = some object →
      s'.sessions.find session = some object := by
    intro session object hobject
    rw [hsessions]
    exact UnorderedMap.find_insert_of_found hobject _ _
  have hconn : ∀ socket, s'.connection socket = s.connection socket := fun socket => by
    rw [Sockets.connection, hopen, Sockets.connection]
  have horder : ∀ q ∈ l ++ r, q.InOrder s → q.InOrder s' := by
    intro q hq hqs
    refine hqs.mono (fun session object hobject => ?_) fun handle client h _ _ => ?_
    · exact ⟨object, hfound hobject, id, fun _ socket h => (hconn socket).trans h⟩
    · rw [hI.clients_eq_none hpc q hq] at h
      cases h
  obtain ⟨hl, -, hr⟩ := forall_mem_place.mp hI.threads
  refine ⟨?_, ?_, fun session object hobject => ?_, ?_, ?_, ?_⟩
  · rw [hopen, haccepted]
    exact hI.accepted
  · rw [hopen]
    exact hI.single
  · rw [hsessions, UnorderedMap.find_insert_of_none hnone] at hobject
    by_cases hs : client = session
    · rw [if_pos hs, Option.some.injEq] at hobject
      rw [← hobject, ← hs]
      refine ⟨haccepted ▸ hI.accepted _ _ hhandle, fun _ => (hconn _).trans ?_, nofun⟩
      exact connection_eq_some.mpr ⟨handle, rfl, hhandle⟩
    · rw [if_neg hs] at hobject
      obtain ⟨hlt, hown, hgone⟩ := hI.sessions session object hobject
      refine ⟨haccepted ▸ hlt, fun hnot => (hconn _).trans (hown hnot), ?_⟩
      rw [hopen]
      exact hgone
  · rw [Sockets.CallsOwn, hcalls]
    exact hI.calls
  · have hnew : pc'.InOrder s' := by
      rcases hpc' with rfl | rfl <;> exact inOrder_of_none rfl rfl rfl
    refine forall_mem_place.mpr ⟨fun q hq => ?_, hnew, fun q hq => ?_⟩
    · exact horder q (List.mem_append_left _ hq) (hl q hq)
    · exact horder q (List.mem_append_right _ hq) (hr q hq)
  · refine hI.accepter_place ?_
    rw [hpc]
    rcases hpc' with rfl | rfl
    · exact Nat.le_refl 1
    · exact Nat.zero_le 1

/-- What `closesocket` leaves of the handles. -/
theorem find_closeSocket (socket : Option SocketHandle) (handle : SocketHandle) :
    (socket.elim s.openHandles s.openHandles.erase).find handle =
      if socket = some handle then none else s.openHandles.find handle := by
  cases socket with
  | none => rfl
  | some handle' =>
    rw [Option.elim_some, UnorderedMap.find_erase]
    simp only [Option.some.injEq]

/-- **A call acts on its own connection**, or on none. -/
theorem Owned.call_own (hI : Owned s (l ++ pc :: r)) (hG : NotReopened pc o s ts) {session : Nat}
    {socket : Option SocketHandle} (hpc : pc.carries = some (session, socket)) :
    ∃ object, s.sessions.find session = some object ∧
      (object.closed = false → s.connection socket = some session) ∧
      (object.closed = true → s.connection socket = none) := by
  obtain ⟨object, hobject, hown⟩ := (forall_mem_place.mp hI.threads).2.1.carried session socket hpc
  exact ⟨object, hobject, hown, hG _ hpc object hobject⟩

/-- Recording such a call. -/
theorem Sockets.CallsOwn.called (h : s.CallsOwn) {session : Nat} {socket : Option SocketHandle}
    {object : SocketSession} (hown : object.closed = false → s.connection socket = some session)
    (hnone : object.closed = true → s.connection socket = none)
    (hcalls : s'.calls = s.calls ++ [(session, s.connection socket)]) : s'.CallsOwn := by
  intro session' connection hmem
  rw [hcalls] at hmem
  rcases List.mem_append.mp hmem with hold | hnew
  · exact h session' connection hold
  · obtain ⟨rfl, hconn⟩ := Prod.mk.inj (List.mem_singleton.mp hnew)
    cases hobject : object.closed with
    | false =>
      rw [hown hobject] at hconn
      exact Option.some.inj hconn
    | true =>
      rw [hnone hobject] at hconn
      cases hconn

/-- `closesocket` of a session's own handle, or of one that is not open. -/
theorem Owned.closeSocket {session : Nat} {socket : Option SocketHandle}
    (hI : Owned s (l ++ .closeSocket session socket :: r))
    (hG : NotReopened (.closeSocket session socket) o s ts)
    (h : execSocket (.closeSocket session socket) o s = some (s', pc')) :
    Owned s' (l ++ pc' :: r) := by
  obtain ⟨object, hobject, hown, hnone⟩ := hI.call_own hG rfl
  cases h
  have hupdate := update_other (s := { s with
      openHandles := socket.elim s.openHandles s.openHandles.erase
      calls := s.calls ++ [(session, s.connection socket)] }) session
    fun object => { object with closed := true }
  have hfind := find_update (s := { s with
      openHandles := socket.elim s.openHandles s.openHandles.erase
      calls := s.calls ++ [(session, s.connection socket)] }) session
  obtain ⟨hopen, haccepted, hcalls⟩ := hupdate
  refine hI.close ?_ haccepted (fun session' => hfind session' _)
    (hI.calls.called hown hnone hcalls) (Nat.zero_le _) ?_ ⟨nofun, nofun, ?_⟩
  · intro handle connection
    rw [hopen]
    cases hclosed : object.closed with
    | false =>
      obtain ⟨handle', rfl, hhandle⟩ := connection_eq_some.mp (hown hclosed)
      exact hI.find_erase hhandle handle connection
    | true =>
      -- nothing is closed, and the connection has been gone before
      have hgone := (hI.sessions session object hobject).gone hclosed
      have hsame : (socket.elim s.openHandles s.openHandles.erase).find handle =
          s.openHandles.find handle := by
        rw [find_closeSocket]
        split
        · next hsocket =>
          have hnot := hnone hclosed
          rw [hsocket] at hnot
          exact hnot.symm
        · rfl
      rw [hsame]
      refine ⟨fun hfound => ⟨hfound, ?_⟩, And.left⟩
      rintro rfl
      exact hgone handle hfound
  · intro q hq handle hclient
    obtain ⟨hl, -, hr⟩ := forall_mem_place.mp hI.threads
    have horder : q.InOrder s := (List.mem_append.mp hq).elim (hl q) (hr q)
    have hnot := (horder.client handle session hclient).2
    rw [hobject] at hnot
    cases hnot
  · intro session' hsession'
    cases hsession'
    refine ⟨{ object with closed := true }, ?_, rfl⟩
    rw [hfind, if_pos rfl]
    show (s.sessions.find session).map _ = _
    rw [hobject]
    rfl

/-- The accepter gives up a client: no session has the handle. -/
theorem Owned.closeClient {handle : SocketHandle} {client : Nat}
    (hI : Owned s (l ++ .closeClient handle client :: r)) :
    Owned { s with openHandles := s.openHandles.erase handle } (l ++ .accept :: r) := by
  obtain ⟨hhandle, hnone⟩ := (forall_mem_place.mp hI.threads).2.1.client handle client rfl
  refine hI.close (fun _ _ => hI.find_erase hhandle _ _) rfl ?_ hI.calls
    (Nat.le_refl 1) ?_ (inOrder_of_none rfl rfl rfl)
  · intro session
    by_cases hs : client = session
    · rw [if_pos hs, ← hs]
      show s.sessions.find client = _
      rw [hnone]
      rfl
    · rw [if_neg hs]
  · intro q hq handle' h
    rw [hI.clients_eq_none rfl q hq] at h
    cases h

/-- The field of a closed session is set to `INVALID_SOCKET`. -/
theorem Owned.setInvalid {session : Nat} (hI : Owned s (l ++ .setInvalid session :: r)) :
    Owned (s.update session fun object => { object with socket := none })
      (l ++ .finished :: r) := by
  obtain ⟨object, hobject, hclosed⟩ :=
    (forall_mem_place.mp hI.threads).2.1.closed session rfl
  obtain ⟨hopen, haccepted, hcalls⟩ := update_other (s := s) session
    fun object => { object with socket := none }
  have hfind : ∀ session', (s.update session fun object =>
      { object with socket := none }).sessions.find session' =
      if session = session' then some { object with socket := none }
      else s.sessions.find session' := by
    intro session'
    rw [find_update, hobject]
    rfl
  have hconn : ∀ socket, (s.update session fun object =>
      { object with socket := none }).connection socket = s.connection socket := fun socket => by
    rw [Sockets.connection, hopen, Sockets.connection]
  have horder : ∀ q : SocketPc, q.InOrder s →
      q.InOrder (s.update session fun object => { object with socket := none }) := by
    intro q hq
    refine hq.mono (fun session' object' hobject' => ?_) fun handle client _ hhandle hnone => ?_
    · rw [hfind]
      by_cases hs : session = session'
      · rw [if_pos hs]
        refine ⟨_, rfl, fun _ => hclosed, fun hnot => ?_⟩
        rw [show object.closed = false from hnot] at hclosed
        cases hclosed
      · rw [if_neg hs]
        exact ⟨object', hobject', id, fun _ socket h => (hconn socket).trans h⟩
    · have hne : session ≠ client := by
        rintro rfl
        rw [hobject] at hnone
        cases hnone
      rw [hopen, hfind, if_neg hne]
      exact ⟨hhandle, hnone⟩
  obtain ⟨hl, -, hr⟩ := forall_mem_place.mp hI.threads
  refine ⟨?_, ?_, fun session' object' hobject' => ?_, ?_, ?_, ?_⟩
  · rw [hopen, haccepted]
    exact hI.accepted
  · rw [hopen]
    exact hI.single
  · rw [hfind] at hobject'
    by_cases hs : session = session'
    · rw [if_pos hs, Option.some.injEq] at hobject'
      rw [← hobject', ← hs]
      obtain ⟨hlt, -, hgone⟩ := hI.sessions session object hobject
      refine ⟨haccepted ▸ hlt, fun hnot => ?_, fun _ => ?_⟩
      · rw [show object.closed = false from hnot] at hclosed
        cases hclosed
      · rw [hopen]
        exact hgone hclosed
    · rw [if_neg hs] at hobject'
      obtain ⟨hlt, hown, hgone⟩ := hI.sessions session' object' hobject'
      refine ⟨haccepted ▸ hlt, fun hnot => (hconn _).trans (hown hnot), ?_⟩
      rw [hopen]
      exact hgone
  · rw [Sockets.CallsOwn, hcalls]
    exact hI.calls
  · exact forall_mem_place.mpr ⟨fun q hq => horder q (hl q hq), inOrder_of_none rfl rfl rfl,
      fun q hq => horder q (hr q hq)⟩
  · exact hI.accepter_place (Nat.le_refl 0)

theorem exec_owned (hI : Owned s (l ++ pc :: r)) (hG : NotReopened pc o s (l ++ pc :: r))
    (h : execSocket pc o s = some (s', pc')) : Owned s' (l ++ pc' :: r) := by
  have hpc := (forall_mem_place.mp hI.threads).2.1
  cases pc with
  | accept =>
    simp only [execSocket] at h
    split at h <;> cases h
    next hfree => exact hI.accept hfree
  | getNewSession handle client =>
    simp only [execSocket] at h
    split at h <;> cases h <;>
      exact hI.move rfl rfl rfl hI.calls (Nat.le_refl 1) (inOrder_of_client hpc rfl rfl rfl)
  | initSession handle client sessionId =>
    simp only [execSocket] at h
    split at h <;> cases h <;>
      exact hI.move rfl rfl rfl hI.calls (Nat.le_refl 1) (inOrder_of_client hpc rfl rfl rfl)
  | emplace handle client sessionId =>
    simp only [execSocket] at h
    split at h
    · cases h
    · split at h <;> cases h
      · exact hI.emplace rfl rfl rfl rfl rfl rfl (.inl rfl)
      · exact hI.emplace rfl rfl rfl rfl rfl rfl (.inr rfl)
  | closeClient handle client =>
    cases h
    exact hI.closeClient
  | releaseSession session =>
    obtain ⟨object, hobject, h⟩ := Option.map_eq_some_iff.mp h
    cases h
    exact hI.move rfl rfl rfl hI.calls (Nat.le_refl 0)
      (inOrder_of_carries rfl rfl rfl hobject (hI.sessions session object hobject).own)
  | closeSocket session socket => exact hI.closeSocket hG h
  | eraseSession session =>
    simp only [execSocket] at h
    split at h
    · cases h
    · obtain ⟨object, hobject, h⟩ := Option.map_eq_some_iff.mp h
      cases h
      exact hI.move rfl rfl rfl hI.calls (Nat.le_refl 0) (inOrder_of_closed hpc rfl rfl rfl)
  | setInvalid session =>
    cases h
    exact hI.setInvalid
  | disconnect sessionId =>
    simp only [execSocket] at h
    split at h <;> cases h
    exact hI.move rfl rfl rfl hI.calls (Nat.le_refl 0) (inOrder_of_none rfl rfl rfl)
  | findSession sessionId =>
    simp only [execSocket] at h
    split at h <;> cases h <;>
      exact hI.move rfl rfl rfl hI.calls (Nat.le_refl 0) (inOrder_of_none rfl rfl rfl)
  | readSocket session =>
    obtain ⟨object, hobject, h⟩ := Option.map_eq_some_iff.mp h
    cases h
    exact hI.move rfl rfl rfl hI.calls (Nat.le_refl 0)
      (inOrder_of_carries rfl rfl rfl hobject (hI.sessions session object hobject).own)
  | shutdown session socket =>
    obtain ⟨object, hobject, hown, hnone⟩ := hI.call_own hG rfl
    cases h
    exact hI.move rfl rfl rfl (hI.calls.called hown hnone rfl) (Nat.le_refl 0)
      (inOrder_of_none rfl rfl rfl)
  | unlockRead =>
    cases h
    exact hI.move rfl rfl rfl hI.calls (Nat.le_refl 0) (inOrder_of_none rfl rfl rfl)
  | finished => cases h

theorem owned {c : Config Sockets SocketPc}
    (h : socketThreads.Run NotReopened socketThreads.init c) :
    Owned c.shared c.threads := by
  refine h.induct (I := Owned) ?_ ?_ ?_
  · refine ⟨nofun, nofun, nofun, nofun, fun pc hpc => ?_, Nat.le_refl 1⟩
    rw [List.mem_singleton.mp hpc]
    exact inOrder_of_none rfl rfl rfl
  · exact fun _ hI hG hexec => exec_owned hI hG hexec
  · intro s ts e s' pc _ hI hspawn
    obtain ⟨rfl, hpc, haccepter⟩ : s' = s ∧ pc.InOrder s ∧ pc.isAccepter = 0 := by
      cases e with
      | releaseSession session =>
        simp only [socketThreads, spawnSocket] at hspawn
        split at hspawn <;> cases hspawn
        exact ⟨rfl, inOrder_of_none rfl rfl rfl, rfl⟩
      | disconnect sessionId =>
        cases hspawn
        exact ⟨rfl, inOrder_of_none rfl rfl rfl, rfl⟩
    refine ⟨hI.accepted, hI.single, hI.sessions, hI.calls,
      forall_mem_spawned.mpr ⟨hI.threads, hpc⟩, ?_⟩
    rw [load_append, load_cons, load_nil, haccepter]
    exact hI.accepter

/-- **Each call acts on the connection of its session**, if no session is called
upon with a handle that was closed and is open again. -/
theorem calls_own {c : Config Sockets SocketPc}
    (h : socketThreads.Run NotReopened socketThreads.init c) : c.shared.CallsOwn :=
  (owned h).calls

/-- A client is accepted, disconnected and released. -/
theorem calls_own_disconnected : ∃ c, socketThreads.Run NotReopened socketThreads.init c ∧
    c.shared.calls = [(0, some 0), (0, some 0)] ∧ c.shared.CallsOwn := by
  obtain ⟨c, hrun, hcalls⟩ := exists_run socketThreads NotReopened socketThreads.init
    [.run 0 ⟨3, true⟩, .run 0 ⟨3, true⟩, .run 0 ⟨3, true⟩, .run 0 ⟨3, true⟩,
      .event (.disconnect 2), .run 1 ⟨3, true⟩, .run 1 ⟨3, true⟩, .run 1 ⟨3, true⟩,
      .run 1 ⟨3, true⟩, .run 1 ⟨3, true⟩, .event (.releaseSession 0), .run 2 ⟨3, true⟩,
      .run 2 ⟨3, true⟩, .run 2 ⟨3, true⟩, .run 2 ⟨3, true⟩]
    (P := fun c => c.shared.calls = [(0, some 0), (0, some 0)]) (by decide +kernel)
  exact ⟨c, hrun, hcalls, calls_own hrun⟩

/-- The first client is being released, and its handle is closed; the second
client gets the same handle, and `Disconnect` of the first shuts it down. -/
theorem disconnect_shuts_other : ∃ c, socketThreads.Reachable socketThreads.init c ∧
    c.shared.calls = [(0, some 0), (0, some 1)] ∧ ¬c.shared.CallsOwn := by
  obtain ⟨c, hrun, hcalls⟩ := exists_run socketThreads unguarded socketThreads.init
    [.run 0 ⟨3, true⟩, .run 0 ⟨3, true⟩, .run 0 ⟨3, true⟩, .run 0 ⟨3, true⟩,
      .event (.releaseSession 0), .run 1 ⟨3, true⟩, .run 1 ⟨3, true⟩, .run 0 ⟨3, true⟩,
      .event (.disconnect 2), .run 2 ⟨3, true⟩, .run 2 ⟨3, true⟩, .run 2 ⟨3, true⟩,
      .run 2 ⟨3, true⟩]
    (P := fun c => c.shared.calls = [(0, some 0), (0, some 1)]) (by decide +kernel)
  refine ⟨c, hrun, hcalls, fun h => ?_⟩
  have hother := h 0 1 (by rw [hcalls]; decide)
  cases hother

/-- **Outside the exception no call is spared**: the first one on a closed session
with a handle that is open again acts on another client. -/
theorem calls_other (hrun : socketThreads.Run NotReopened socketThreads.init ⟨s, l ++ pc :: r⟩)
    (hG : ¬NotReopened pc o s (l ++ pc :: r)) (h : execSocket pc o s = some (s', pc')) :
    ¬s'.CallsOwn := by
  have hI : Owned s (l ++ pc :: r) := owned hrun
  unfold NotReopened at hG
  push Not at hG
  obtain ⟨⟨session, socket⟩, hcarries, object, hobject, hclosed, hopen⟩ := hG
  obtain ⟨other, hother⟩ := Option.ne_none_iff_exists'.mp hopen
  have hne : other ≠ session := by
    rintro rfl
    obtain ⟨handle, -, hhandle⟩ := connection_eq_some.mp hother
    exact (hI.sessions _ object hobject).gone hclosed handle hhandle
  have hcalls : s'.calls = s.calls ++ [(session, some other)] := by
    cases pc with
    | closeSocket session' socket' =>
      cases hcarries
      cases h
      rw [(update_other session _).2.2, ← hother]
    | shutdown session' socket' =>
      cases hcarries
      cases h
      show s.calls ++ [(session, s.connection socket)] = _
      rw [hother]
    | _ => cases hcarries
  intro hown
  refine hne (hown session other ?_)
  rw [hcalls]
  exact List.mem_append_right _ (List.mem_singleton_self _)

end RioServer
