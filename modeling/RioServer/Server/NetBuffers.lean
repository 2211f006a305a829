import RioServer.Server.RioTestServer
import RioServer.Server.SendCopies

/-!
# The buffers of the senders (RIOTestSession.cpp:52, Broadcaster.cpp:11)

A `NetBuffer` comes from `Alloc` with one reference. A single sender hands it to
one session; `BroadcastToAllSession` takes a second reference, hands it to one
session after the other and gives its reference back with `Free`. Of the two ways
to lose a buffer, `MakeSendStream`, which copies it and drops the pointer, and
`ReleaseSession`, after which nobody reads the queue, neither calls `Free`.

`bufferServer` is the server's machine with the identity of the buffers added: a
send is a thread that has a buffer in hand, and what it does inside
`RIOTestServer::SendPacket` is what the server's thread does (`simulated`).

No buffer is ever returned to the pool (`counted`). So nothing is returned too
early, and everything that loses its last reference is lost for good:
`buffers_balanced` says that the pool is right exactly as long as no step drops
a last reference.
-/

namespace RioServer

open Machine

/-! ## Buffers -/

/-- A `NetBuffer` of the pool: its reference count, `m_bIsEncoded`, the bytes it
holds, and a record how often it was returned to the pool. -/
structure PooledBuffer where
  refCount : Nat
  isEncoded : Bool
  bytes : List UInt8
  returned : Nat
  deriving DecidableEq, Repr

/-- `Free`: the last reference returns the buffer. -/
def PooledBuffer.free (buffer : PooledBuffer) : PooledBuffer :=
  { buffer with
    refCount := buffer.refCount - 1
    returned := if buffer.refCount - 1 = 0 then buffer.returned + 1 else buffer.returned }

/-- `Encode`. -/
def PooledBuffer.encode (spec : NetBufferSpec) (buffer : PooledBuffer) : PooledBuffer :=
  { buffer with isEncoded := true, bytes := spec.encode buffer.bytes }

/-- The server, the buffers by the number of their `Alloc`, and a record which
buffer each packet of a session is: session, number of the packet, buffer. -/
structure BufferServer where
  server : RioTestServer
  buffers : List PooledBuffer
  handed : List (Nat × Nat × Nat)

def BufferServer.initial : BufferServer := ⟨.initial, [], []⟩

/-! ## Threads -/

/-- A thread of the server, or a sender with its buffer: about to hand it to a
session, inside `SendPacket` there, or in `BroadcastToAllSession`. `rest` are the
sessions that a broadcast has still to go through. -/
inductive BufferPc where
  | server (t : Thread)
  | handOver (session : Nat) (andDisconnect : Bool) (buffer : Nat) (rest : Option (List UInt64))
  | send (t : Thread) (buffer : Nat) (rest : Option (List UInt64))
  | snapshot (buffer : Nat)
  | broadcast (buffer : Nat) (sessionIdList : List UInt64)
  | finished
  deriving DecidableEq, Repr

/-- What a step does not choose: as for the server, and the order in which
`sessionIdSet` lists its elements. -/
structure BufferOracle where
  server : Oracle
  sessionIdList : List UInt64

/-- The call of `RIOTestServer::SendPacket` that a sender makes. -/
def handOverEvent (andDisconnect : Bool) (buffer : PooledBuffer) : Event :=
  if andDisconnect then .sendPacketAndDisconnect buffer.isEncoded buffer.bytes
  else .sendPacket buffer.isEncoded buffer.bytes

section

variable (spec : NetBufferSpec) (numOfWorkerThread : Nat)

/-- What a step inside `SendPacket` does to the buffer. -/
def BufferServer.encoded (s : BufferServer) (buffer : Nat) : Pc → List PooledBuffer
  | .sendPacket .encode false _ => s.buffers.modify buffer (PooledBuffer.encode spec)
  | _ => s.buffers

/-- One step of a thread. -/
def execBuffer : BufferPc → BufferOracle → BufferServer → Option (BufferServer × BufferPc)
  | .server t, o, s =>
    (RioTestServer.exec spec t o.server s.server).map fun r =>
      ({ s with server := r.1 }, .server r.2)
  -- RIOTestSession.cpp:64, Broadcaster.cpp:44
  | .handOver session andDisconnect buffer rest, _, s =>
    match s.server.sessions[session]?, s.buffers[buffer]? with
    | some e, some b =>
      (RioTestServer.spawn numOfWorkerThread (.session session (handOverEvent andDisconnect b))
        s.server).map fun r =>
          ({ s with
            server := r.1
            handed := (session, e.state.nextSerial, buffer) :: s.handed }, .send r.2 buffer rest)
    | _, _ => none
  | .send t buffer rest, o, s =>
    if t.pc = .finished then
      match rest with
      | none => some (s, .finished)
      | some sessionIdList => some (s, .broadcast buffer sessionIdList)
    else
      (RioTestServer.exec spec t o.server s.server).map fun r =>
        ({ s with server := r.1, buffers := s.encoded spec buffer t.pc }, .send r.2 buffer rest)
  -- Broadcaster.cpp:24
  | .snapshot buffer, o, s =>
    if o.sessionIdList.Nodup ∧ o.sessionIdList.toFinset = s.server.sessionIdSet then
      some (s, .broadcast buffer o.sessionIdList)
    else none
  | .broadcast buffer (sessionId :: sessionIdList), _, s =>
    if s.server.sessionMapLocked then none
    else
      match s.server.sessionMap.find sessionId with
      | none => some (s, .broadcast buffer sessionIdList)
      | some session =>
        match s.server.sessions[session]? with
        | none => none
        | some e =>
          if e.state.isReleasedSession then some (s, .broadcast buffer sessionIdList)
          else some (s, .handOver session false buffer (some sessionIdList))
  | .broadcast buffer [], _, s =>
    some ({ s with buffers := s.buffers.modify buffer PooledBuffer.free }, .finished)
  | .finished, _, _ => none

/-- A connection, a completion, or a call of a sender. -/
inductive BufferEvent where
  | accept (threadId : Nat)
  | completion (session i : Nat) (bytes : List UInt8)
  | sendPacket (session : Nat) (andDisconnect : Bool) (bytes : List UInt8)
  | broadcastToAllSession (bytes : List UInt8)

/-- The thread an event starts. A sender has allocated its buffer and written
its packet to it, and a broadcast has added its reference. -/
def spawnBuffer : BufferEvent → BufferServer → Option (BufferServer × BufferPc)
  | .accept threadId, s =>
    (RioTestServer.spawn numOfWorkerThread (.accept threadId) s.server).map fun r =>
      ({ s with server := r.1 }, .server r.2)
  | .completion session i bytes, s =>
    (RioTestServer.spawn numOfWorkerThread (.session session (.completion i bytes))
      s.server).map fun r => ({ s with server := r.1 }, .server r.2)
  | .sendPacket session andDisconnect bytes, s =>
    some ({ s with buffers := s.buffers ++ [⟨1, false, bytes, 0⟩] },
      .handOver session andDisconnect s.buffers.length none)
  | .broadcastToAllSession bytes, s =>
    some ({ s with buffers := s.buffers ++ [⟨2, false, bytes, 0⟩] }, .snapshot s.buffers.length)

/-- **The server with the buffers of its senders.** -/
def bufferServer : Machine BufferServer BufferPc BufferOracle BufferEvent :=
  ⟨execBuffer spec numOfWorkerThread, spawnBuffer numOfWorkerThread⟩

def bufferServer.init : Config BufferServer BufferPc := ⟨.initial, []⟩

end

/-! ## Who still has a buffer -/

/-- What the loop of `MakeSendStream` leaves of the queue: the packets from the
first one on that would fill the buffer. -/
def notTaken (totalSendSize : Nat) : List NetBuffer → List NetBuffer
  | [] => []
  | p :: queue =>
    if maxSendBufferSize ≤ totalSendSize + p.getAllUseSize then p :: queue
    else notTaken (totalSendSize + p.getAllUseSize) queue

/-- What an action leaves of the packets that are waiting. -/
def SendItem.leaves (s : SendItem) : Pc → List NetBuffer
  | .sendPost .makeSendStream _ => notTaken s.reservedSize s.sendQueue
  | _ => s.waiting

namespace RioTestServer

/-- The packets in `sendQueue` and `reservedBuffer` of a session, released or
not. -/
def queues (g : RioTestServer) (session : Nat) : List NetBuffer :=
  match g.sessions[session]? with
  | some e => e.state.waiting
  | none => []

/-- The packets of a session that is not released. -/
def waits (g : RioTestServer) (session : Nat) : List NetBuffer :=
  match g.sessions[session]? with
  | some e => if e.erased then [] else e.state.waiting
  | none => []

/-- `ReleaseSession` takes a session out of the map. -/
def erases (g : RioTestServer) (e : Entry) : Pc → Bool
  | .release .eraseSession _ => (g.sessionMap.find e.sessionId).isSome
  | _ => false

/-- What an action of a thread leaves of the packets of a session. -/
def leaves (g : RioTestServer) (t : Thread) (session : Nat) : List NetBuffer :=
  match g.sessions[session]? with
  | some e =>
    if session = target t then
      if e.erased || g.erases e t.pc then [] else e.state.toSendItem.leaves t.pc
    else if e.erased then [] else e.state.waiting
  | none => []

end RioTestServer

/-- The buffer that a sender is not done with. -/
def BufferPc.buffer : BufferPc → Option Nat
  | .handOver _ _ buffer _ | .send _ buffer _ | .snapshot buffer | .broadcast buffer _ =>
    some buffer
  | .server _ | .finished => none

/-- A sender's last step: `SendPacket` has returned, or `Free` is called. -/
def BufferPc.isDone : BufferPc → Bool
  | .send t _ none => t.pc = .finished
  | .broadcast _ [] => true
  | _ => false

/-- A buffer is among the packets that a session has. -/
def BufferServer.IsIn (s : BufferServer) (packets : Nat → List NetBuffer) (buffer : Nat) : Prop :=
  ∃ h ∈ s.handed, h.2.2 = buffer ∧ ∃ p ∈ packets h.1, p.serial = h.2.1

instance (s : BufferServer) (packets : Nat → List NetBuffer) (buffer : Nat) :
    Decidable (s.IsIn packets buffer) :=
  inferInstanceAs (Decidable (∃ h ∈ s.handed, h.2.2 = buffer ∧ ∃ p ∈ packets h.1, p.serial = h.2.1))

/-- A session that is not released has the buffer, or its sender is not done. -/
def BufferServer.Held (s : BufferServer) (ts : List BufferPc) (buffer : Nat) : Prop :=
  s.IsIn s.server.waits buffer ∨ ∃ t ∈ ts, t.buffer = some buffer

instance (s : BufferServer) (ts : List BufferPc) (buffer : Nat) : Decidable (s.Held ts buffer) :=
  inferInstanceAs (Decidable (_ ∨ _))

/-- What a step leaves of the packets of a session. -/
def BufferServer.leaves (s : BufferServer) : BufferPc → Nat → List NetBuffer
  | .server t => s.server.leaves t
  | .send t _ _ => if t.pc = .finished then s.server.waits else s.server.leaves t
  | _ => s.server.waits

/-- **No last reference is dropped.** Whatever buffer the step lets go of, with
the packets that `MakeSendStream` takes, with a session that is released, or with
a sender that is done, is still in another session or has another sender. -/
def KeepsReference : Guard BufferServer BufferPc BufferOracle := fun pc _ s ts =>
  ∀ buffer < s.buffers.length, s.Held ts buffer →
    s.IsIn (s.leaves pc) buffer ∨ ∃ t ∈ ts, t.buffer = some buffer ∧ ¬(t = pc ∧ pc.isDone = true)

instance (pc : BufferPc) (o : BufferOracle) (s : BufferServer) (ts : List BufferPc) :
    Decidable (KeepsReference pc o s ts) :=
  inferInstanceAs (Decidable (∀ buffer < s.buffers.length, _))

/-- A buffer in a session is not in the pool, and one that no session has and
whose sender is done was returned once. -/
structure Balanced (s : BufferServer) (ts : List BufferPc) : Prop where
  notEarly : ∀ i (buffer : PooledBuffer), s.buffers[i]? = some buffer →
    s.IsIn s.server.queues i → buffer.returned = 0
  once : ∀ i (buffer : PooledBuffer), s.buffers[i]? = some buffer →
    ¬s.Held ts i → buffer.returned = 1

/-! ## The packets of the sessions -/

/-- What the loop puts aside and leaves in the queue. -/
theorem streamQueue_notTaken {queue : List NetBuffer} :
    ∀ {total : Nat} {buffer : List UInt8} {r : SendStream},
      streamQueue total buffer queue = some r →
      r.reserved.toList ++ r.queue = notTaken total queue := by
  induction queue with
  | nil =>
    intro total buffer r h
    cases h
    rfl
  | cons p queue ih =>
    intro total buffer r h
    simp only [streamQueue] at h
    obtain ⟨-, h⟩ := Option.ite_none_right_eq_some.mp h
    rw [notTaken]
    split at h
    · next hfull =>
      cases h
      rw [if_pos hfull]
      rfl
    · next hfull =>
      obtain ⟨r', hr', rfl⟩ := Option.map_eq_some_iff.mp h
      rw [if_neg hfull, ← ih hr']
      split <;> rfl

theorem makeSendStream_notTaken {s : SendItem} {r : SendStream} (h : makeSendStream s = some r) :
    r.reserved.toList ++ r.queue = notTaken s.reservedSize s.sendQueue := by
  unfold makeSendStream at h
  unfold SendItem.reservedSize
  cases hp : s.reservedBuffer with
  | none =>
    rw [hp] at h
    exact streamQueue_notTaken h
  | some p =>
    rw [hp] at h
    obtain ⟨-, h⟩ := Option.ite_none_right_eq_some.mp h
    obtain ⟨r', hr', rfl⟩ := Option.map_eq_some_iff.mp h
    rw [show (frameBytes (some p).toList).length = p.getAllUseSize by
      rw [NetBuffer.getAllUseSize, Option.toList_some, frameBytes_cons, frameBytes_nil,
        List.append_nil]]
    have hleft := streamQueue_notTaken hr'
    exact hleft

/-- An action leaves what it leaves, and may add behind it. -/
theorem exec_leaves {spec : NetBufferSpec} {pc pc' : Pc} {o : Oracle} {s s' : State}
    (h : exec spec pc o s = some (s', pc')) :
    ∃ ps, s'.waiting = s.toSendItem.leaves pc ++ ps := by
  revert h
  cases pc with
  | makeNewSession pc =>
    simp only [exec, Option.some.injEq]
    fun_cases execMakeNewSession o s pc <;> rintro ⟨⟩ <;> exact ⟨[], (List.append_nil _).symm⟩
  | sendPacket pc isEncoded packet =>
    simp only [exec]
    fun_cases execSendPacket spec s isEncoded packet pc <;> rintro ⟨⟩
    case case9 => exact ⟨[packet], (List.append_assoc ..).symm⟩
    all_goals exact ⟨[], (List.append_nil _).symm⟩
  | sendPost pc caller =>
    simp only [exec]
    fun_cases execSendPost o s caller pc <;> rintro ⟨⟩
    case case12 r hr =>
      -- `MakeSendStream`: what it puts aside, and what is left in the queue
      exact ⟨[], (makeSendStream_notTaken hr).trans (List.append_nil _).symm⟩
    all_goals exact ⟨[], (List.append_nil _).symm⟩
  | recvPost pc caller =>
    simp only [exec]
    fun_cases execRecvPost spec o s caller pc <;> rintro ⟨⟩ <;>
      exact ⟨[], (List.append_nil _).symm⟩
  | release pc caller =>
    simp only [exec]
    fun_cases execRelease s caller pc <;> rintro ⟨⟩ <;> exact ⟨[], (List.append_nil _).symm⟩
  | worker pc =>
    simp only [exec]
    fun_cases execWorker spec s pc <;> rintro ⟨⟩ <;> exact ⟨[], (List.append_nil _).symm⟩
  | finished => rintro ⟨⟩

/-- Only `ReleaseSession` takes a session out of the map. -/
theorem exec_staysInMap {spec : NetBufferSpec} {pc pc' : Pc} {o : Oracle} {s s' : State}
    (h : exec spec pc o s = some (s', pc')) :
    (∃ caller, pc = .release .eraseSession caller) ∨
      (s.inSessionMap = true → s'.inSessionMap = true) := by
  revert h
  cases pc with
  | makeNewSession pc =>
    simp only [exec, Option.some.injEq]
    fun_cases execMakeNewSession o s pc <;> rintro ⟨⟩
    case case8 => exact .inr fun _ => rfl
    all_goals exact .inr id
  | sendPacket pc isEncoded packet =>
    simp only [exec]
    fun_cases execSendPacket spec s isEncoded packet pc <;> rintro ⟨⟩ <;> exact .inr id
  | sendPost pc caller =>
    simp only [exec]
    fun_cases execSendPost o s caller pc <;> rintro ⟨⟩ <;> exact .inr id
  | recvPost pc caller =>
    simp only [exec]
    fun_cases execRecvPost spec o s caller pc <;> rintro ⟨⟩ <;> exact .inr id
  | release pc caller =>
    simp only [exec]
    fun_cases execRelease s caller pc <;> rintro ⟨⟩
    case case8 => exact .inl ⟨caller, rfl⟩
    all_goals exact .inr id
  | worker pc =>
    simp only [exec]
    fun_cases execWorker spec s pc <;> rintro ⟨⟩ <;> exact .inr id
  | finished => rintro ⟨⟩

/-- An event touches neither. -/
theorem spawn_waiting {e : Event} {s s' : State} {pc : Pc} (h : spawn e s = some (s', pc)) :
    s'.waiting = s.waiting ∧ s'.inSessionMap = s.inSessionMap := by
  obtain ⟨hsession, htables, -⟩ := spawn_frame h
  rw [hsession, htables]
  exact ⟨rfl, rfl⟩

namespace RioTestServer

variable {spec : NetBufferSpec} {numOfWorkerThread : Nat} {g g' : RioTestServer}
  {t t' : Thread} {o : Oracle} {i : Nat} {p : NetBuffer}

theorem mem_waits : p ∈ g.waits i ↔
    ∃ e, g.sessions[i]? = some e ∧ e.erased = false ∧ p ∈ e.state.waiting := by
  unfold waits
  cases g.sessions[i]? with
  | none => simp
  | some e =>
    by_cases herased : e.erased = true
    · simp [herased]
    · simp [Bool.eq_false_iff.mpr herased]

/-- The acting session after its action is written back. -/
theorem commit_waits {e : Entry} {s s' : State} (he : g.sessions[i]? = some e)
    (herased : e.erased = false) (hkept : s.inSessionMap = true → s'.inSessionMap = true)
    (hp : p ∈ s'.waiting) : p ∈ (g.commit i e s s').waits i := by
  obtain ⟨hi, -⟩ := List.getElem?_eq_some_iff.mp he
  refine mem_waits.mpr ⟨_, List.getElem?_set_self hi, ?_, hp⟩
  rw [herased, Bool.false_or]
  cases hin : s.inSessionMap with
  | false => rfl
  | true =>
    rw [hkept hin]
    rfl

/-- Every other session. -/
theorem commit_waits_other {j : Nat} {e : Entry} {s s' : State} (hij : i ≠ j) :
    (g.commit i e s s').waits j = g.waits j := by
  have hset : (g.commit i e s s').sessions[j]? = g.sessions[j]? := List.getElem?_set_ne hij
  unfold waits
  rw [hset]

theorem leaves_reread (g : RioTestServer) (s : SendItem) (pc : Pc) :
    s.leaves (g.reread pc) = s.leaves pc := by
  unfold reread
  split <;> rfl

/-- A session stays in the map, unless the action is the one that erases it. -/
theorem exec_staysInMap {e : Entry} {s' : State} {pc' : Pc} (herases : g.erases e t.pc = false)
    (hexec : RioServer.exec spec (g.reread t.pc)
      (emplaceResult (g.view e (g.lookedUp e t.pc)) o t.pc)
      (g.view e (g.lookedUp e t.pc)) = some (s', pc'))
    (hin : (g.view e (g.lookedUp e t.pc)).inSessionMap = true) : s'.inSessionMap = true := by
  rcases RioServer.exec_staysInMap hexec with ⟨caller, hpc⟩ | hstays
  · have hpc' : t.pc = .release .eraseSession caller := by
      unfold reread at hpc
      split at hpc
      · cases hpc
      · exact hpc
    rw [hpc'] at herases hin
    change (g.sessionMap.find e.sessionId).isSome = false at herases
    change (g.sessionMap.find e.sessionId).isSome = true at hin
    rw [herases] at hin
    cases hin
  · exact hstays hin

/-- What a thread's action leaves is still there behind it. -/
theorem exec_waits (h : exec spec t o g = some (g', t')) (hp : p ∈ g.leaves t i) :
    p ∈ g'.waits i := by
  obtain ⟨e, s', pc', he, hexec, rfl, -⟩ := exec_eq_some h
  by_cases hi : i = target t
  · subst hi
    unfold leaves at hp
    rw [he] at hp
    simp only [if_true] at hp
    obtain ⟨ps, hwaiting⟩ := RioServer.exec_leaves hexec
    by_cases hgone : (e.erased || g.erases e t.pc) = true
    · rw [if_pos hgone] at hp
      cases hp
    · rw [if_neg hgone] at hp
      obtain ⟨herased, herases⟩ := Bool.or_eq_false_iff.mp (Bool.eq_false_iff.mpr hgone)
      have hin : p ∈ s'.waiting := by
        rw [hwaiting, leaves_reread]
        exact List.mem_append_left _ hp
      exact commit_waits he herased (exec_staysInMap herases hexec) hin
  · have hp' : p ∈ g.waits i := by
      unfold leaves at hp
      simp only [if_neg hi] at hp
      exact hp
    rw [← commit_waits_other (Ne.symm hi)] at hp'
    exact hp'

/-- An event takes nothing away. -/
theorem spawn_waits {ev : Event} (h : spawn numOfWorkerThread ev g = some (g', t'))
    (hp : p ∈ g.waits i) : p ∈ g'.waits i := by
  obtain ⟨e, he, herased, hin⟩ := mem_waits.mp hp
  rcases spawn_eq_some h with ⟨threadId, -, -, -, hacc⟩ |
    ⟨j, ev', d, s', pc', -, hd, -, hspawn, rfl, -⟩
  · have hsessions : ∃ new, g'.sessions = g.sessions ++ new := by
      rw [show g' = (g.accept threadId).1 from congrArg Prod.fst hacc]
      simp only [accept]
      split
      · exact ⟨[], (List.append_nil _).symm⟩
      · exact ⟨_, rfl⟩
    obtain ⟨new, hsessions⟩ := hsessions
    have hold : g'.sessions[i]? = some e := by
      obtain ⟨hi, -⟩ := List.getElem?_eq_some_iff.mp he
      rw [hsessions, List.getElem?_append_left hi]
      exact he
    exact mem_waits.mpr ⟨e, hold, herased, hin⟩
  · obtain ⟨hwaiting, hmap⟩ := spawn_waiting hspawn
    by_cases hij : j = i
    · subst hij
      rw [hd] at he
      cases he
      refine commit_waits hd herased (fun hmap' => hmap.trans hmap') ?_
      rw [hwaiting]
      exact hin
    · rw [commit_waits_other hij]
      exact hp

end RioTestServer

/-! ## Steps of the senders -/

section

variable {spec : NetBufferSpec} {numOfWorkerThread : Nat} {s s' : BufferServer}
  {ts l r : List BufferPc} {pc pc' : BufferPc} {o : BufferOracle}

/-- What a packet is in stays there if the packets do; more may be handed over. -/
theorem BufferServer.IsIn.mono {f f' : Nat → List NetBuffer} {buffer : Nat}
    (h : s.IsIn f buffer) (hf : ∀ i, ∀ p ∈ f i, p ∈ f' i)
    (hhanded : ∀ x ∈ s.handed, x ∈ s'.handed) : s'.IsIn f' buffer := by
  obtain ⟨x, hx, hbuffer, p, hp, hserial⟩ := h
  exact ⟨x, hhanded x hx, hbuffer, p, hf _ p hp, hserial⟩

/-- The buffer of a broadcast, which has to give a reference back. -/
def BufferPc.broadcastBuffer : BufferPc → Option Nat
  | .handOver _ _ buffer (some _) | .send _ buffer (some _) | .snapshot buffer
  | .broadcast buffer _ => some buffer
  | _ => none

/-- The thread of the server that a sender stands for. -/
def BufferPc.threads : BufferPc → List Thread
  | .server t | .send t _ _ => [t]
  | _ => []

/-- What a step can be. -/
inductive BufferEffect (spec : NetBufferSpec) (numOfWorkerThread : Nat) (o : BufferOracle)
    (s : BufferServer) : BufferPc → BufferServer → BufferPc → Prop
  | server {t t' : Thread} {g' : RioTestServer} :
      RioTestServer.exec spec t o.server s.server = some (g', t') →
      BufferEffect spec numOfWorkerThread o s (.server t) { s with server := g' } (.server t')
  | handOver {session buffer : Nat} {andDisconnect : Bool} {rest : Option (List UInt64)}
      {ev : RioTestServer.Event} {x : Nat × Nat × Nat} {t' : Thread} {g' : RioTestServer} :
      RioTestServer.spawn numOfWorkerThread ev s.server = some (g', t') →
      BufferEffect spec numOfWorkerThread o s (.handOver session andDisconnect buffer rest)
        { s with server := g', handed := x :: s.handed } (.send t' buffer rest)
  | send {buffer : Nat} {rest : Option (List UInt64)} {t t' : Thread} {g' : RioTestServer} :
      t.pc ≠ .finished → RioTestServer.exec spec t o.server s.server = some (g', t') →
      BufferEffect spec numOfWorkerThread o s (.send t buffer rest)
        { s with server := g', buffers := s.encoded spec buffer t.pc } (.send t' buffer rest)
  | done {buffer : Nat} {t : Thread} : t.pc = .finished →
      BufferEffect spec numOfWorkerThread o s (.send t buffer none) s .finished
  | goesOn {buffer : Nat} {pc pc' : BufferPc} : pc.buffer = some buffer →
      pc.broadcastBuffer = some buffer → pc'.buffer = some buffer →
      pc'.broadcastBuffer = some buffer → s.leaves pc = s.server.waits → pc'.threads = [] →
      BufferEffect spec numOfWorkerThread o s pc s pc'
  | free {buffer : Nat} :
      BufferEffect spec numOfWorkerThread o s (.broadcast buffer [])
        { s with buffers := s.buffers.modify buffer PooledBuffer.free } .finished

theorem execBuffer_effect (h : execBuffer spec numOfWorkerThread pc o s = some (s', pc')) :
    BufferEffect spec numOfWorkerThread o s pc s' pc' := by
  revert h
  fun_cases execBuffer spec numOfWorkerThread pc o s
  case case1 t =>
    intro h
    obtain ⟨⟨g', t'⟩, hexec, heq⟩ := Option.map_eq_some_iff.mp h
    cases heq
    exact .server hexec
  case case2 session andDisconnect buffer rest e b hb he =>
    intro h
    obtain ⟨⟨g', t'⟩, hspawn, heq⟩ := Option.map_eq_some_iff.mp h
    cases heq
    exact .handOver hspawn
  case case4 t buffer hfinished =>
    rintro ⟨⟩
    exact .done hfinished
  case case5 t buffer hfinished ids =>
    rintro ⟨⟩
    exact .goesOn rfl rfl rfl rfl (if_pos hfinished) rfl
  case case6 t buffer rest hfinished =>
    intro h
    obtain ⟨⟨g', t'⟩, hexec, heq⟩ := Option.map_eq_some_iff.mp h
    cases heq
    exact .send hfinished hexec
  case case14 =>
    rintro ⟨⟩
    exact .free
  case case7 | case10 | case12 | case13 =>
    rintro ⟨⟩
    exact .goesOn rfl rfl rfl rfl rfl rfl
  all_goals rintro ⟨⟩

/-- What an event can be: one of the server's, or a sender with a new buffer. -/
theorem spawnBuffer_cases {ev : BufferEvent}
    (h : spawnBuffer numOfWorkerThread ev s = some (s', pc)) :
    (∃ ev' g' t, RioTestServer.spawn numOfWorkerThread ev' s.server = some (g', t) ∧
      s' = { s with server := g' } ∧ pc = .server t) ∨
    (∃ refCount bytes, 1 ≤ refCount ∧
      s' = { s with buffers := s.buffers ++ [⟨refCount, false, bytes, 0⟩] } ∧
      pc.buffer = some s.buffers.length ∧
      pc.broadcastBuffer = (if refCount = 2 then some s.buffers.length else none) ∧
      pc.threads = []) := by
  cases ev with
  | accept threadId =>
    obtain ⟨⟨g', t⟩, hspawn, heq⟩ := Option.map_eq_some_iff.mp h
    cases heq
    exact .inl ⟨_, g', t, hspawn, rfl, rfl⟩
  | completion session i bytes =>
    obtain ⟨⟨g', t⟩, hspawn, heq⟩ := Option.map_eq_some_iff.mp h
    cases heq
    exact .inl ⟨_, g', t, hspawn, rfl, rfl⟩
  | sendPacket session andDisconnect bytes =>
    cases h
    exact .inr ⟨1, bytes, Nat.le_refl 1, rfl, rfl, rfl, rfl⟩
  | broadcastToAllSession bytes =>
    cases h
    exact .inr ⟨2, bytes, by decide, rfl, rfl, rfl, rfl⟩

/-! ## The server below -/

/-- The server's machine has come to the same state with the threads that the
senders stand for, and some that were done. -/
def Simulated (spec : NetBufferSpec) (numOfWorkerThread : Nat) (g : RioTestServer)
    (ts : List Thread) : Prop :=
  ∃ us done, (RioTestServer.server spec numOfWorkerThread).Reachable RioTestServer.server.init
    ⟨g, us⟩ ∧ us.Perm (ts ++ done)

/-- A thread of the server takes its step there. -/
theorem Simulated.exec {g g' : RioTestServer} {t t' : Thread} {o : Oracle} {l r : List Thread}
    (h : Simulated spec numOfWorkerThread g (l ++ t :: r))
    (hexec : RioTestServer.exec spec t o g = some (g', t')) :
    Simulated spec numOfWorkerThread g' (l ++ t' :: r) := by
  obtain ⟨us, done, hrun, hperm⟩ := h
  have hin : t ∈ us := hperm.mem_iff.mpr (by simp)
  obtain ⟨a, b, rfl⟩ := List.append_of_mem hin
  rw [List.append_assoc, List.cons_append] at hperm
  have hrest : (a ++ b).Perm (l ++ (r ++ done)) :=
    ((List.perm_middle.symm.trans hperm).trans List.perm_middle).cons_inv
  refine ⟨a ++ t' :: b, done, hrun.place trivial hexec, ?_⟩
  rw [List.append_assoc, List.cons_append]
  exact (List.perm_middle.trans (hrest.cons t')).trans List.perm_middle.symm

/-- An event starts its thread there. -/
theorem Simulated.event {g g' : RioTestServer} {t : Thread} {ev : RioTestServer.Event}
    {l r : List Thread} (h : Simulated spec numOfWorkerThread g (l ++ r))
    (hspawn : RioTestServer.spawn numOfWorkerThread ev g = some (g', t)) :
    Simulated spec numOfWorkerThread g' (l ++ t :: r) := by
  obtain ⟨us, done, hrun, hperm⟩ := h
  refine ⟨us ++ [t], done, hrun.started hspawn, ?_⟩
  rw [List.append_assoc] at hperm ⊢
  exact ((List.perm_append_singleton t us).trans (hperm.cons t)).trans List.perm_middle.symm

/-- A sender leaves its thread behind. -/
theorem Simulated.left {g : RioTestServer} {l m r : List Thread}
    (h : Simulated spec numOfWorkerThread g (l ++ (m ++ r))) :
    Simulated spec numOfWorkerThread g (l ++ r) := by
  obtain ⟨us, done, hrun, hperm⟩ := h
  refine ⟨us, m ++ done, hrun, hperm.trans ?_⟩
  rw [List.append_assoc, List.append_assoc, List.append_assoc]
  exact List.Perm.append_left l (List.perm_append_comm_assoc m r done)

/-- **The server's machine simulates its buffers**: what holds of every run of the
server holds of it among its senders. -/
theorem simulated {c : Config BufferServer BufferPc}
    (h : (bufferServer spec numOfWorkerThread).Reachable bufferServer.init c) :
    Simulated spec numOfWorkerThread c.shared.server (c.threads.flatMap BufferPc.threads) := by
  refine Run.induct
    (I := fun s ts => Simulated spec numOfWorkerThread s.server (ts.flatMap BufferPc.threads))
    h ⟨[], [], .refl, .refl _⟩ ?_ ?_
  · intro s l p r o s' p' _ hI _ hexec
    rw [List.flatMap_append, List.flatMap_cons] at hI ⊢
    cases execBuffer_effect hexec with
    | server hserver => exact hI.exec hserver
    | handOver hspawn => exact hI.event hspawn
    | send _ hserver => exact hI.exec hserver
    | done _ => exact hI.left
    | goesOn _ _ _ _ _ hthreads =>
      rw [hthreads]
      exact hI.left
    | free => exact hI
  · intro s ts e s' p _ hI hevent
    rw [List.flatMap_append, List.flatMap_singleton]
    rw [← List.append_nil (ts.flatMap BufferPc.threads)] at hI
    rcases spawnBuffer_cases hevent with ⟨ev, g', t, hspawn, rfl, rfl⟩ |
      ⟨refCount, bytes, -, rfl, -, -, hthreads⟩
    · exact hI.event hspawn
    · rw [hthreads]
      exact hI

/-! ## No buffer is ever returned -/

/-- The reference count of a buffer and how often it was returned. -/
def PooledBuffer.counts (buffer : PooledBuffer) : Nat × Nat := (buffer.refCount, buffer.returned)

/-- The counts of every buffer there is. -/
def BufferServer.counts (s : BufferServer) (buffer : Nat) : Option (Nat × Nat) :=
  s.buffers[buffer]?.map PooledBuffer.counts

/-- What is known of the counts: nothing was returned, every buffer has a
reference, and two while it is being broadcast, which each is once. -/
structure BuffersCounted (s : BufferServer) (ts : List BufferPc) : Prop where
  kept : ∀ i c, s.counts i = some c → 1 ≤ c.1 ∧ c.2 = 0
  broadcasts : ∀ i ∈ ts.filterMap BufferPc.broadcastBuffer, s.counts i = some (2, 0)
  nodup : (ts.filterMap BufferPc.broadcastBuffer).Nodup

/-- `Encode` does not count. -/
theorem counts_encoded (s : BufferServer) (buffer i : Nat) (pc : Pc) :
    (s.encoded spec buffer pc)[i]?.map PooledBuffer.counts = s.counts i := by
  unfold BufferServer.encoded BufferServer.counts
  split
  · rw [List.getElem?_modify]
    cases s.buffers[i]? with
    | none => rfl
    | some x =>
      by_cases hi : buffer = i
      · simp only [if_pos hi]
        rfl
      · simp only [if_neg hi]
        rfl
  · rfl

/-- `Free` of a buffer with two references leaves one. -/
theorem counts_free (s : BufferServer) {buffer : Nat} (htwo : s.counts buffer = some (2, 0))
    (i : Nat) :
    (s.buffers.modify buffer PooledBuffer.free)[i]?.map PooledBuffer.counts =
      if buffer = i then some (1, 0) else s.counts i := by
  unfold BufferServer.counts at *
  rw [List.getElem?_modify]
  by_cases hi : buffer = i
  · subst hi
    obtain ⟨x, hx, hcounts⟩ := Option.map_eq_some_iff.mp htwo
    obtain ⟨href, hret⟩ := Prod.mk.inj hcounts
    rw [hx]
    simp [PooledBuffer.counts, PooledBuffer.free, href, hret]
  · rw [if_neg hi]
    cases s.buffers[i]? with
    | none => rfl
    | some x => simp [hi]

/-- A step that neither counts nor begins or ends a broadcast. -/
theorem BuffersCounted.congr (hI : BuffersCounted s (l ++ pc :: r))
    (hcounts : ∀ i, s'.counts i = s.counts i)
    (hpc : pc'.broadcastBuffer = pc.broadcastBuffer) : BuffersCounted s' (l ++ pc' :: r) := by
  have hsame : (l ++ pc' :: r).filterMap BufferPc.broadcastBuffer =
      (l ++ pc :: r).filterMap BufferPc.broadcastBuffer := by
    simp only [List.filterMap_append, List.filterMap_cons, hpc]
  refine ⟨fun i c hc => ?_, fun i hi => ?_, ?_⟩
  · rw [hcounts] at hc
    exact hI.kept i c hc
  · rw [hsame] at hi
    rw [hcounts]
    exact hI.broadcasts i hi
  · rw [hsame]
    exact hI.nodup

/-- What `Free` leaves: the broadcast is over, with one reference. -/
theorem BuffersCounted.free {buffer : Nat}
    (hI : BuffersCounted s (l ++ .broadcast buffer [] :: r)) :
    BuffersCounted { s with buffers := s.buffers.modify buffer PooledBuffer.free }
      (l ++ .finished :: r) := by
  have hts : (l ++ .broadcast buffer [] :: r).filterMap BufferPc.broadcastBuffer =
      l.filterMap BufferPc.broadcastBuffer ++ buffer :: r.filterMap BufferPc.broadcastBuffer := by
    rw [List.filterMap_append]
    rfl
  have hts' : (l ++ .finished :: r).filterMap BufferPc.broadcastBuffer =
      l.filterMap BufferPc.broadcastBuffer ++ r.filterMap BufferPc.broadcastBuffer := by
    rw [List.filterMap_append]
    rfl
  obtain ⟨hkept, hbroadcasts, hnodup⟩ := hI
  rw [hts] at hbroadcasts hnodup
  obtain ⟨hother, hnodup'⟩ := List.nodup_cons.mp (List.nodup_middle.mp hnodup)
  have hcounts := counts_free s (hbroadcasts buffer (by simp))
  refine ⟨fun i c hc => ?_, fun i hi => ?_, ?_⟩
  · rw [BufferServer.counts, hcounts] at hc
    split at hc
    · cases hc
      exact ⟨Nat.le_refl 1, rfl⟩
    · exact hkept i c hc
  · -- another broadcast has another buffer
    rw [hts'] at hi
    have hne : buffer ≠ i := fun heq => hother (heq ▸ hi)
    rw [BufferServer.counts, hcounts, if_neg hne]
    exact hbroadcasts i
      (List.mem_append.mpr ((List.mem_append.mp hi).imp_right (List.mem_cons_of_mem _)))
  · rw [hts']
    exact hnodup'

theorem exec_counted (hI : BuffersCounted s (l ++ pc :: r))
    (h : execBuffer spec numOfWorkerThread pc o s = some (s', pc')) :
    BuffersCounted s' (l ++ pc' :: r) := by
  cases execBuffer_effect h with
  | server _ => exact hI.congr (fun _ => rfl) rfl
  | handOver _ => exact hI.congr (fun _ => rfl) (by cases ‹Option (List UInt64)› <;> rfl)
  | send _ _ =>
    exact hI.congr (fun i => counts_encoded s _ i _) (by cases ‹Option (List UInt64)› <;> rfl)
  | done _ => exact hI.congr (fun _ => rfl) rfl
  | goesOn _ hpc _ hpc' _ _ => exact hI.congr (fun _ => rfl) (hpc'.trans hpc.symm)
  | free => exact hI.free

/-- A new buffer starts with the references of its sender. -/
theorem BuffersCounted.alloc {refCount : Nat} {bytes : List UInt8} (hI : BuffersCounted s ts)
    (href : 1 ≤ refCount)
    (hpc : pc.broadcastBuffer = if refCount = 2 then some s.buffers.length else none) :
    BuffersCounted { s with buffers := s.buffers ++ [⟨refCount, false, bytes, 0⟩] }
      (ts ++ [pc]) := by
  have hold : ∀ i c, s.counts i = some c →
      BufferServer.counts { s with buffers := s.buffers ++ [⟨refCount, false, bytes, 0⟩] } i =
        some c := by
    intro i c hc
    obtain ⟨x, hx, hxc⟩ := Option.map_eq_some_iff.mp hc
    obtain ⟨hi, -⟩ := List.getElem?_eq_some_iff.mp hx
    rw [BufferServer.counts, List.getElem?_append_left hi]
    exact hc
  have hnew : BufferServer.counts
      { s with buffers := s.buffers ++ [⟨refCount, false, bytes, 0⟩] } s.buffers.length =
        some (refCount, 0) := by
    rw [BufferServer.counts, List.getElem?_concat_length]
    rfl
  have hfresh : s.buffers.length ∉ ts.filterMap BufferPc.broadcastBuffer := by
    intro hin
    have hnone : s.counts s.buffers.length = none := by
      rw [BufferServer.counts, List.getElem?_eq_none (Nat.le_refl _)]
      rfl
    rw [hI.broadcasts _ hin] at hnone
    cases hnone
  refine ⟨fun i c hc => ?_, fun i hi => ?_, ?_⟩
  · obtain ⟨x, hx, hxc⟩ := Option.map_eq_some_iff.mp hc
    rcases Nat.lt_or_ge i s.buffers.length with hi | hi
    · rw [List.getElem?_append_left hi] at hx
      exact hI.kept i c (Option.map_eq_some_iff.mpr ⟨x, hx, hxc⟩)
    · obtain ⟨hlt, -⟩ := List.getElem?_eq_some_iff.mp hx
      obtain rfl : i = s.buffers.length := by
        rw [List.length_append, List.length_singleton] at hlt
        omega
      rw [hnew] at hc
      cases hc
      exact ⟨href, rfl⟩
  · rw [List.filterMap_append, List.mem_append] at hi
    rcases hi with hi | hi
    · exact hold i _ (hI.broadcasts i hi)
    · obtain ⟨p, hp, hpi⟩ := List.mem_filterMap.mp hi
      obtain rfl := List.mem_singleton.mp hp
      rw [hpc] at hpi
      obtain ⟨rfl, hlen⟩ := Option.ite_none_right_eq_some.mp hpi
      cases hlen
      exact hnew
  · rw [List.filterMap_append, List.filterMap_cons, List.filterMap_nil, hpc]
    by_cases htwo : refCount = 2
    · rw [if_pos htwo]
      exact List.nodup_append'.mpr ⟨hI.nodup, List.nodup_singleton _,
        List.disjoint_singleton.mpr hfresh⟩
    · rw [if_neg htwo, List.append_nil]
      exact hI.nodup

/-- An event that does not touch the buffers. -/
theorem BuffersCounted.started {g' : RioTestServer} {t : Thread} (hI : BuffersCounted s ts) :
    BuffersCounted { s with server := g' } (ts ++ [.server t]) := by
  have hts : (ts ++ [BufferPc.server t]).filterMap BufferPc.broadcastBuffer =
      ts.filterMap BufferPc.broadcastBuffer := by
    rw [List.filterMap_append]
    exact List.append_nil _
  refine ⟨hI.kept, fun i hi => ?_, ?_⟩
  · rw [hts] at hi
    exact hI.broadcasts i hi
  · rw [hts]
    exact hI.nodup

theorem event_counted {ev : BufferEvent} (hI : BuffersCounted s ts)
    (h : spawnBuffer numOfWorkerThread ev s = some (s', pc)) : BuffersCounted s' (ts ++ [pc]) := by
  rcases spawnBuffer_cases h with ⟨ev', g', t, -, rfl, rfl⟩ |
    ⟨refCount, bytes, href, rfl, -, hpc, -⟩
  · exact hI.started
  · exact hI.alloc href hpc

/-- **No buffer is ever returned**, whatever becomes of it. -/
theorem counted {c : Config BufferServer BufferPc}
    (h : (bufferServer spec numOfWorkerThread).Reachable bufferServer.init c) :
    BuffersCounted c.shared c.threads := by
  refine Run.induct h ⟨?_, ?_, ?_⟩ ?_ ?_
  · intro i c hc
    cases hc
  · intro i hi
    cases hi
  · exact List.nodup_nil
  · intro s l p r o s' p' _ hI _ hexec
    exact exec_counted hI hexec
  · intro s ts e s' p _ hI hspawn
    exact event_counted hI hspawn

/-! ## No last reference is dropped -/

/-- What a step leaves of the packets is there behind it, what was handed over
stays so, and no step makes or takes a buffer. -/
theorem BufferEffect.leaves (h : BufferEffect spec numOfWorkerThread o s pc s' pc') :
    (∀ i, ∀ p ∈ s.leaves pc i, p ∈ s'.server.waits i) ∧ (∀ x ∈ s.handed, x ∈ s'.handed) ∧
      s'.buffers.length = s.buffers.length := by
  cases h with
  | server hexec => exact ⟨fun i p hp => RioTestServer.exec_waits hexec hp, fun x => id, rfl⟩
  | handOver hspawn =>
    exact ⟨fun i p hp => RioTestServer.spawn_waits hspawn hp,
      fun x hx => List.mem_cons_of_mem _ hx, rfl⟩
  | @send buffer rest t t' g' hne hexec =>
    refine ⟨fun i p hp => ?_, fun x => id, ?_⟩
    · rw [BufferServer.leaves, if_neg hne] at hp
      exact RioTestServer.exec_waits hexec hp
    · show (s.encoded spec buffer t.pc).length = s.buffers.length
      unfold BufferServer.encoded
      split
      · exact List.length_modify ..
      · rfl
  | done hfinished =>
    refine ⟨fun i p hp => ?_, fun x => id, rfl⟩
    rw [BufferServer.leaves, if_pos hfinished] at hp
    exact hp
  | goesOn _ _ _ _ hwaits _ =>
    refine ⟨fun i p hp => ?_, fun x => id, rfl⟩
    rw [hwaits] at hp
    exact hp
  | free => exact ⟨fun i p => id, fun x => id, List.length_modify ..⟩

/-- A sender has its buffer until its last step. -/
theorem BufferEffect.buffer (h : BufferEffect spec numOfWorkerThread o s pc s' pc')
    (hdone : pc.isDone = false) : pc'.buffer = pc.buffer := by
  cases h with
  | server _ | handOver _ | send _ _ => rfl
  | done hfinished => simp [BufferPc.isDone, hfinished] at hdone
  | goesOn hpc _ hpc' _ _ _ => rw [hpc, hpc']
  | free => cases hdone

/-- A step that keeps the references keeps every buffer held. -/
theorem BufferEffect.held (h : BufferEffect spec numOfWorkerThread o s pc s' pc')
    (hkeeps : KeepsReference pc o s (l ++ pc :: r))
    (hheld : ∀ i < s.buffers.length, s.Held (l ++ pc :: r) i) :
    ∀ i < s'.buffers.length, s'.Held (l ++ pc' :: r) i := by
  obtain ⟨hleaves, hhanded, hlen⟩ := h.leaves
  intro i hi
  rw [hlen] at hi
  rcases hkeeps i hi (hheld i hi) with hin | ⟨t, ht, hbuffer, hnotDone⟩
  · exact .inl (hin.mono hleaves hhanded)
  · right
    by_cases heq : t = pc
    · -- the acting sender still has it
      subst heq
      have hdone : t.isDone = false := Bool.eq_false_iff.mpr fun hdone => hnotDone ⟨rfl, hdone⟩
      exact ⟨pc', by simp, (h.buffer hdone).trans hbuffer⟩
    · refine ⟨t, ?_, hbuffer⟩
      simp only [List.mem_append, List.mem_cons] at ht ⊢
      exact ht.imp_right fun ht => ht.imp_left fun ht => absurd ht heq

/-- An event that does not touch the buffers leaves them held. -/
theorem held_started {ev : RioTestServer.Event} {g' : RioTestServer} {t : Thread}
    (hheld : ∀ i < s.buffers.length, s.Held ts i)
    (hspawn : RioTestServer.spawn numOfWorkerThread ev s.server = some (g', t)) :
    ∀ i < s.buffers.length, BufferServer.Held { s with server := g' } (ts ++ [.server t]) i := by
  intro i hi
  rcases hheld i hi with hin | ⟨t, ht, hbuffer⟩
  · exact .inl (hin.mono (fun j p hp => RioTestServer.spawn_waits hspawn hp) fun x => id)
  · exact .inr ⟨t, List.mem_append_left _ ht, hbuffer⟩

/-- A new buffer is with its sender. -/
theorem held_alloc {x : PooledBuffer} (hheld : ∀ i < s.buffers.length, s.Held ts i)
    (hpc : pc.buffer = some s.buffers.length) :
    ∀ i < (s.buffers ++ [x]).length,
      BufferServer.Held { s with buffers := s.buffers ++ [x] } (ts ++ [pc]) i := by
  intro i hi
  rw [List.length_append, List.length_singleton] at hi
  rcases Nat.lt_succ_iff_lt_or_eq.mp hi with hi | rfl
  · rcases hheld i hi with hin | ⟨t, ht, hbuffer⟩
    · exact .inl hin
    · exact .inr ⟨t, List.mem_append_left _ ht, hbuffer⟩
  · exact .inr ⟨pc, List.mem_concat_self, hpc⟩

theorem event_held {ev : BufferEvent} (hheld : ∀ i < s.buffers.length, s.Held ts i)
    (h : spawnBuffer numOfWorkerThread ev s = some (s', pc)) :
    ∀ i < s'.buffers.length, s'.Held (ts ++ [pc]) i := by
  rcases spawnBuffer_cases h with ⟨ev', g', t, hspawn, rfl, rfl⟩ |
    ⟨refCount, bytes, -, rfl, hpc, -, -⟩
  · exact held_started (s := s) hheld hspawn
  · exact held_alloc hheld hpc

/-- Every buffer is held as long as no step drops a last reference. -/
theorem held_of_run {c : Config BufferServer BufferPc}
    (h : (bufferServer spec numOfWorkerThread).Run KeepsReference bufferServer.init c) :
    ∀ i < c.shared.buffers.length, c.shared.Held c.threads i := by
  refine Run.induct (I := fun s ts => ∀ i < s.buffers.length, s.Held ts i) h ?_ ?_ ?_
  · intro i hi
    cases hi
  · intro s l p r o s' p' _ hI hkeeps hexec
    exact (execBuffer_effect hexec).held hkeeps hI
  · intro s ts e s' p _ hI hspawn
    exact event_held hI hspawn

/-- The pool is right exactly while every buffer is held, since nothing is ever
returned. -/
theorem BuffersCounted.balanced_iff (hI : BuffersCounted s ts) :
    Balanced s ts ↔ ∀ i < s.buffers.length, s.Held ts i := by
  have hzero : ∀ (i : Nat) (buffer : PooledBuffer),
      s.buffers[i]? = some buffer → buffer.returned = 0 := by
    intro i buffer hi
    have hcounts : s.counts i = some buffer.counts := by
      rw [BufferServer.counts, hi]
      rfl
    exact (hI.kept i _ hcounts).2
  constructor
  · intro hbalanced i hi
    by_contra hnot
    have hone := hbalanced.once i _ (List.getElem?_eq_getElem hi) hnot
    rw [hzero i _ (List.getElem?_eq_getElem hi)] at hone
    cases hone
  · intro hheld
    refine ⟨fun i buffer hi _ => hzero i buffer hi, fun i buffer hi hnot => ?_⟩
    obtain ⟨hlt, -⟩ := List.getElem?_eq_some_iff.mp hi
    exact absurd (hheld i hlt) hnot

/-- **The buffers balance** in every run without a last reference dropped. -/
theorem buffers_balanced {c : Config BufferServer BufferPc}
    (h : (bufferServer spec numOfWorkerThread).Run KeepsReference bufferServer.init c) :
    Balanced c.shared c.threads :=
  (counted h.anywhere).balanced_iff.mpr (held_of_run h)

end

/-! ## A broadcast and a packet -/

/-- A connection, accepted, with its receive posted. -/
def bufferServer.connected : List (Act BufferOracle BufferEvent) :=
  .event (.accept 0) :: List.replicate 10 (.run 0 ⟨⟨true, 0⟩, []⟩)

/-- A broadcast, up to its one session's `SendPacket`. The packet is sent, and
the buffer still has the broadcaster. -/
theorem buffers_balanced_broadcast :
    ∃ c : Config BufferServer BufferPc, c.shared.buffers.length = 1 ∧
      (c.shared.server.sessions.any fun e => !e.state.posted.isEmpty) = true ∧
      Balanced c.shared c.threads := by
  obtain ⟨c, hrun, hlen, hposted⟩ := exists_run (bufferServer plainSpec 1) KeepsReference
    bufferServer.init
    (bufferServer.connected ++ .event (.broadcastToAllSession [1, 2]) ::
      List.replicate 12 (.run 1 ⟨⟨true, 1⟩, [2]⟩))
    (P := fun c => c.shared.buffers.length = 1 ∧
      (c.shared.server.sessions.any fun e => !e.state.posted.isEmpty) = true) (by decide +kernel)
  exact ⟨c, hlen, hposted, buffers_balanced hrun⟩

/-- One packet to one session is sent, and its buffer is lost. -/
theorem buffer_lost :
    ∃ c, (bufferServer plainSpec 1).Reachable bufferServer.init c ∧
      ¬Balanced c.shared c.threads := by
  obtain ⟨c, hrun, hbuffers, hlost⟩ := exists_run (bufferServer plainSpec 1) unguarded
    bufferServer.init
    (bufferServer.connected ++ .event (.sendPacket 0 false [1, 2]) ::
      List.replicate 10 (.run 1 ⟨⟨true, 1⟩, []⟩))
    (P := fun c => c.shared.buffers.head?.map PooledBuffer.returned = some 0 ∧
      ¬c.shared.Held c.threads 0) (by decide +kernel)
  refine ⟨c, hrun, fun hbalanced => ?_⟩
  obtain ⟨buffer, hbuffer, hzero⟩ := Option.map_eq_some_iff.mp hbuffers
  rw [List.head?_eq_getElem?] at hbuffer
  have hone := hbalanced.once 0 buffer hbuffer hlost
  rw [hzero] at hone
  cases hone

end RioServer
