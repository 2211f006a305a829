import RioServer.Client.ReconnectList
import RioServer.Lib.Hosted

/-!
# The threads of the DB client (MultiLanClient.cpp)

`MultiLanClient.lean` has a thread for every completion. The client has
`numOfWorkerThread` workers, which take the completions of all sessions off one
port, one after the other, and this is what `clientThreads` adds: the packets in
the port, the workers, `Stop`, and the calls of `g_Dump.Crash`, which end the process
from any thread.

`hosted` connects the two: what the workers and the port have in hand are threads of
a run of `multiLanClient`.

`Stop` is called once, by the destructor of `DBClient`, when `Start` has returned.
`WaitForMultipleObjects` fails at once for no handle and for more than
`MAXIMUM_WAIT_OBJECTS`, and a port that is closed gives its waiting threads no
overlapped. What `shutdown` does to a session shows in the completions that come.
-/

namespace RioServer.Client

open Machine

/-! ## The threads -/

/-- What is taken off the completion port: the completion of a request, with the
session and where its worker begins, what `Stop` has posted, or what a worker has
posted. -/
inductive Packet where
  | completion (i : Nat) (pc : Pc)
  | stop
  | null
  deriving DecidableEq, Repr

/-- What brings the process down: a call of `g_Dump.Crash`, because `Start` has
failed (DBClient.cpp:31), `Worker` has got no overlapped (MultiLanClient.cpp:323) or
`WSASend` fails with `WSAENOBUFS` (MultiLanClient.cpp:582); or a `SendPacket` that
finds no session, since its channel is none of `sessionList` or the modulus zero. -/
inductive Crash where
  | startFailed
  | overlappedNull
  | noBuffers
  | noChannel
  deriving DecidableEq, Repr

/-- The process: the client, its completion port, the workers that a wait for
their handles would wait for, and the crash that has ended it. -/
structure ClientProcess where
  client : MultiLanClient
  packets : List Packet
  portOpen : Bool
  runningWorkers : Nat
  crashed : Option Crash

inductive ThreadPc where
  /-- `Start`, the `Reconnecter`, or a caller of `SendPacket`. -/
  | client (pc : ClientPc)
  /-- `Stop`. -/
  | shutdownSessions
  | postStop
  | waitForWorkers
  | closeWorkerHandles
  | closePort
  | cleanup
  | stopReturned
  /-- `Worker`. -/
  | getQueued
  | handle (i : Nat) (pc : Pc)
  | postNull
  | freeChunks
  | workerReturned
  | finished
  deriving DecidableEq, Repr

/-- `MAXIMUM_WAIT_OBJECTS`. -/
def maximumWaitObjects : Nat := 64

/-- `WSASend` fails for want of buffers. -/
def Pc.outOfBuffers (pc : Pc) (o : CallResult) : Bool :=
  o = .wsaEnobufs && pc matches .sendPost (.wsaSend _) _

def ClientPc.outOfBuffers (pc : ClientPc) (o : CallResult) : Bool :=
  match pc with
  | .session _ pc => pc.outOfBuffers o
  | _ => false

namespace ClientProcess

/-- `WaitForMultipleObjects` for the handles of all workers returns. -/
def waitReturns (numOfWorkerThread : Nat) (s : ClientProcess) : Bool :=
  decide (numOfWorkerThread = 0 ∨ maximumWaitObjects < numOfWorkerThread ∨ s.runningWorkers = 0)

/-- A packet comes to the port. The result of `PostQueuedCompletionStatus` is
looked at by nobody. -/
def post (s : ClientProcess) (packet : Packet) : ClientProcess :=
  if s.portOpen then { s with packets := s.packets ++ [packet] } else s

@[simp] theorem post_crashed (s : ClientProcess) (packet : Packet) :
    (s.post packet).crashed = s.crashed := by
  rw [post]
  split <;> rfl

@[simp] theorem post_client (s : ClientProcess) (packet : Packet) :
    (s.post packet).client = s.client := by
  rw [post]
  split <;> rfl

/-- The process ends. -/
def crash (s : ClientProcess) (cause : Crash) : ClientProcess × ThreadPc :=
  ({ s with crashed := some cause }, .finished)

/-- A request of session `i` completes. -/
def complete (s : ClientProcess) (i : Nat) (e : Client.Event) :
    Option (ClientProcess × ThreadPc) :=
  match s.client.begin i e with
  | some (g, .session j pc) => some ({ s with client := g }.post (.completion j pc), .finished)
  | _ => none

end ClientProcess

section

variable (spec : ClientSpec) (options : Db.LanClientOptions)

/-- One step of a thread. -/
def execThread (pc : ThreadPc) (o : CallResult) (s : ClientProcess) :
    Option (ClientProcess × ThreadPc) :=
  if s.crashed.isSome then none
  else
    match pc with
    | .client pc =>
      if pc.outOfBuffers o then some (s.crash .noBuffers)
      else if pc = .startReturned ∧ s.client.started = false then some (s.crash .startFailed)
      else
        (MultiLanClient.exec spec options pc o s.client).map fun r =>
          ({ s with client := r.1 }, .client r.2)
    -- `Stop` (MultiLanClient.cpp:123), behind `stopClient = true`
    | .shutdownSessions => some (s, .postStop)
    | .postStop => some (s.post .stop, .waitForWorkers)
    | .waitForWorkers =>
      if s.waitReturns options.numOfWorkerThread.toNat then some (s, .closeWorkerHandles)
      else none
    | .closeWorkerHandles => some (s, .closePort)
    | .closePort => some ({ s with portOpen := false }, .cleanup)
    | .cleanup => some (s, .stopReturned)
    -- `Worker` (MultiLanClient.cpp:225)
    | .getQueued =>
      if s.portOpen then
        match s.packets with
        | [] => none
        | .completion i pc :: packets => some ({ s with packets := packets }, .handle i pc)
        | .stop :: packets => some ({ s with packets := packets }, .postNull)
        | .null :: packets => some ({ s with packets := packets }.crash .overlappedNull)
      else some (s.crash .overlappedNull)
    | .handle i pc =>
      if pc.outOfBuffers o then some (s.crash .noBuffers)
      else if pc = .finished then some (s, .getQueued)
      else (s.client.act spec i pc o).map fun r => ({ s with client := r.1 }, .handle i r.2)
    | .postNull => some (s.post .null, .freeChunks)
    | .freeChunks => some ({ s with runningWorkers := s.runningWorkers - 1 }, .workerReturned)
    | .stopReturned | .workerReturned | .finished => none

/-- What an event does: a completion goes to the port, `SendPacket` and `Stop` are
threads. -/
def spawnThread (e : MultiLanClient.Event) (s : ClientProcess) :
    Option (ClientProcess × ThreadPc) :=
  if s.crashed.isSome then none
  else
    match e with
    | .recvCompletion i k bytes => s.complete i (.recvCompletion k bytes)
    | .sendCompletion i k => s.complete i (.sendCompletion k)
    | .stop =>
      if s.client.stopClient then none
      else
        (MultiLanClient.spawn options .stop s.client).map fun r =>
          ({ s with client := r.1 }, .shutdownSessions)
    | .sendPacket | .sendNull | .sendPacketFixed _ =>
      match MultiLanClient.spawn options e s.client with
      | some (g, pc) => some ({ s with client := g }, .client pc)
      | none => if s.client.started then some (s.crash .noChannel) else none

/-- **The client's machine with the threads it really has**. -/
def clientThreads : Machine ClientProcess ThreadPc CallResult MultiLanClient.Event :=
  ⟨execThread spec options, spawnThread options⟩

/-- `Start` has started the workers and the `Reconnecter`, and is in front of its
loop. -/
def clientThreads.init : Config ClientProcess ThreadPc where
  shared := ⟨MultiLanClient.initial, [], true, options.numOfWorkerThread.toNat, none⟩
  threads := multiLanClient.init.threads.map .client ++
    List.replicate options.numOfWorkerThread.toNat .getQueued

end

variable {spec : ClientSpec} {options : Db.LanClientOptions} {o : CallResult}
variable {s s' : ClientProcess} {pc pc' : ThreadPc} {l r ts : List ThreadPc} {n : Nat}

/-! ## What a step is -/

/-- The steps of the threads of a process that has not ended. -/
inductive ThreadStep (spec : ClientSpec) (options : Db.LanClientOptions) (o : CallResult)
    (s : ClientProcess) : ThreadPc → ClientProcess → ThreadPc → Prop
  | client {pc pc' : ClientPc} {g : MultiLanClient}
      (hexec : MultiLanClient.exec spec options pc o s.client = some (g, pc')) :
      ThreadStep spec options o s (.client pc) { s with client := g } (.client pc')
  | shutdownSessions : ThreadStep spec options o s .shutdownSessions s .postStop
  | postStop : ThreadStep spec options o s .postStop (s.post .stop) .waitForWorkers
  | waits (hwait : s.waitReturns options.numOfWorkerThread.toNat = true) :
      ThreadStep spec options o s .waitForWorkers s .closeWorkerHandles
  | closeWorkerHandles : ThreadStep spec options o s .closeWorkerHandles s .closePort
  | closePort : ThreadStep spec options o s .closePort { s with portOpen := false } .cleanup
  | cleanup : ThreadStep spec options o s .cleanup s .stopReturned
  | takes (i : Nat) (pc : Pc) (packets : List Packet) (hopen : s.portOpen = true)
      (hpackets : s.packets = .completion i pc :: packets) :
      ThreadStep spec options o s .getQueued { s with packets := packets } (.handle i pc)
  | takesStop (packets : List Packet) (hopen : s.portOpen = true)
      (hpackets : s.packets = .stop :: packets) :
      ThreadStep spec options o s .getQueued { s with packets := packets } .postNull
  | handle {i : Nat} {pc pc' : Pc} {g : MultiLanClient}
      (hact : s.client.act spec i pc o = some (g, pc')) :
      ThreadStep spec options o s (.handle i pc) { s with client := g } (.handle i pc')
  | turnEnded (i : Nat) : ThreadStep spec options o s (.handle i .finished) s .getQueued
  | postNull : ThreadStep spec options o s .postNull (s.post .null) .freeChunks
  | freeChunks : ThreadStep spec options o s .freeChunks
      { s with runningWorkers := s.runningWorkers - 1 } .workerReturned
  | overlappedNull (packets : List Packet) (hopen : s.portOpen = true)
      (hpackets : s.packets = .null :: packets) :
      ThreadStep spec options o s .getQueued
        { s with packets := packets, crashed := some .overlappedNull } .finished
  | portClosed (hclosed : s.portOpen = false) :
      ThreadStep spec options o s .getQueued { s with crashed := some .overlappedNull } .finished
  | crash (pc : ThreadPc) {cause : Crash} (hcause : cause ≠ .overlappedNull) :
      ThreadStep spec options o s pc { s with crashed := some cause } .finished

/-- **What a step is**: the process has not ended, and does one of these. -/
theorem execThread_cases (h : execThread spec options pc o s = some (s', pc')) :
    s.crashed = none ∧ ThreadStep spec options o s pc s' pc' := by
  simp only [execThread] at h
  split at h
  · cases h
  · next hcrashed =>
    refine ⟨by simpa using hcrashed, ?_⟩
    cases pc with
    | client pc =>
      simp only at h
      split at h
      · cases h
        exact .crash _ (by decide)
      · split at h
        · cases h
          exact .crash _ (by decide)
        · obtain ⟨⟨g, q⟩, hexec, heq⟩ := Option.map_eq_some_iff.mp h
          cases heq
          exact .client hexec
    | handle i pc =>
      simp only at h
      split at h
      · cases h
        exact .crash _ (by decide)
      · split at h
        · next hpc =>
          cases h
          cases hpc
          exact .turnEnded i
        · obtain ⟨⟨g, q⟩, hact, heq⟩ := Option.map_eq_some_iff.mp h
          cases heq
          exact .handle hact
    | getQueued =>
      simp only at h
      split at h
      · next hopen =>
        split at h
        · cases h
        · next i q packets hpackets =>
          cases h
          exact .takes i q packets hopen hpackets
        · next packets hpackets =>
          cases h
          exact .takesStop packets hopen hpackets
        · next packets hpackets =>
          cases h
          exact .overlappedNull packets hopen hpackets
      · next hclosed =>
        cases h
        exact .portClosed (by simpa using hclosed)
    | waitForWorkers =>
      obtain ⟨hwait, h⟩ := Option.ite_none_right_eq_some.mp h
      cases h
      exact .waits hwait
    | shutdownSessions | postStop | closeWorkerHandles | closePort | cleanup | postNull
    | freeChunks =>
      cases h
      constructor
    | stopReturned | workerReturned | finished => cases h

/-- **What an event is**: the process has not ended, and a completion comes to the
port, `Stop` is called for the first time, a `SendPacket` finds its session, or it
finds none. -/
theorem spawnThread_cases {e : MultiLanClient.Event}
    (h : spawnThread options e s = some (s', pc)) :
    s.crashed = none ∧
      ((∃ g j q, e ≠ .stop ∧ MultiLanClient.spawn options e s.client = some (g, .session j q) ∧
          s' = { s with client := g }.post (.completion j q) ∧ pc = .finished) ∨
        (∃ g q, e = .stop ∧ s.client.stopClient = false ∧
          MultiLanClient.spawn options e s.client = some (g, q) ∧
          s' = { s with client := g } ∧ pc = .shutdownSessions) ∨
        (∃ g q, e ≠ .stop ∧ MultiLanClient.spawn options e s.client = some (g, q) ∧
          s' = { s with client := g } ∧ pc = .client q) ∨
        s' = { s with crashed := some .noChannel } ∧ pc = .finished) := by
  have hcomplete : ∀ {i : Nat} {e : Client.Event}, s.complete i e = some (s', pc) →
      ∃ g j q, s.client.begin i e = some (g, .session j q) ∧
        s' = { s with client := g }.post (.completion j q) ∧ pc = .finished := by
    intro i e h
    simp only [ClientProcess.complete] at h
    split at h
    · next g j q hbegin =>
      cases h
      exact ⟨g, j, q, hbegin, rfl, rfl⟩
    · cases h
  simp only [spawnThread] at h
  split at h
  · cases h
  · next hcrashed =>
    refine ⟨by simpa using hcrashed, ?_⟩
    cases e with
    | recvCompletion i k bytes | sendCompletion i k =>
      obtain ⟨g, j, q, hbegin, hs', hpc⟩ := hcomplete h
      exact .inl ⟨g, j, q, by simp, hbegin, hs', hpc⟩
    | stop =>
      obtain ⟨hstop, h⟩ := Option.ite_none_left_eq_some.mp h
      obtain ⟨⟨g, q⟩, hspawn, heq⟩ := Option.map_eq_some_iff.mp h
      cases heq
      exact .inr (.inl ⟨g, q, rfl, by simpa using hstop, hspawn, rfl, rfl⟩)
    | sendPacket | sendNull | sendPacketFixed =>
      simp only at h
      split at h
      · next g q hspawn =>
        cases h
        exact .inr (.inr (.inl ⟨g, q, by simp, hspawn, rfl, rfl⟩))
      · obtain ⟨-, h⟩ := Option.ite_none_right_eq_some.mp h
        cases h
        exact .inr (.inr (.inr ⟨rfl, rfl⟩))

/-! ## What the threads have in hand -/

/-- The thread of the client that a thread is in the middle of. -/
def ThreadPc.inner : ThreadPc → Option ClientPc
  | .client pc => some pc
  | .handle i pc => some (.session i pc)
  | _ => none

/-- The thread of the client that a packet is the beginning of. -/
def Packet.inner : Packet → Option ClientPc
  | .completion i pc => some (.session i pc)
  | _ => none

/-- The threads of the client that wait in the port. -/
def ClientProcess.waiting (s : ClientProcess) : List ClientPc :=
  s.packets.filterMap Packet.inner

/-- The threads of the client that wait in the port or are under way. -/
def held (s : ClientProcess) (ts : List ThreadPc) : Multiset ClientPc :=
  (s.waiting : Multiset ClientPc) + ts.filterMap ThreadPc.inner

theorem held_place (s : ClientProcess) :
    held s (l ++ pc :: r) =
      (pc.inner.toList ++ (s.waiting ++ (l ++ r).filterMap ThreadPc.inner) : List ClientPc) := by
  have hplace : ((l ++ pc :: r).filterMap ThreadPc.inner).Perm
      (pc.inner.toList ++ (l ++ r).filterMap ThreadPc.inner) := by
    refine (List.perm_middle.filterMap _).trans (List.Perm.of_eq ?_)
    cases hinner : pc.inner <;> simp [hinner]
  refine Multiset.coe_eq_coe.mpr ((hplace.append_left s.waiting).trans ?_)
  rw [← List.append_assoc, ← List.append_assoc]
  exact List.perm_append_comm.append_right _

theorem held_spawned (s : ClientProcess) :
    held s (ts ++ [pc]) =
      (pc.inner.toList ++ (s.waiting ++ ts.filterMap ThreadPc.inner) : List ClientPc) := by
  have h : held s (ts ++ pc :: []) = _ := held_place s
  rwa [List.append_nil] at h

/-- A packet that comes to the port may be that of a completion. -/
theorem waiting_post (s : ClientProcess) (packet : Packet) :
    (s.post packet).waiting = s.waiting ∨
      (s.post packet).waiting = s.waiting ++ packet.inner.toList := by
  rw [ClientProcess.post]
  split
  · right
    cases hinner : packet.inner <;> simp [ClientProcess.waiting, List.filterMap_append, hinner]
  · exact .inl rfl

/-- An action of a worker is one of the client. -/
theorem exec_of_act (options : Db.LanClientOptions) {g g' : MultiLanClient} {i : Nat} {q q' : Pc}
    (h : g.act spec i q o = some (g', q')) :
    MultiLanClient.exec spec options (.session i q) o g = some (g', .session i q') := by
  simp [MultiLanClient.exec, h]

/-- **What a step is for the client**: an action of the thread in hand, the
beginning of the one that has waited longest, or nothing but that a thread is no
longer in hand. -/
theorem exec_client (h : execThread spec options pc o s = some (s', pc')) :
    (∃ q q', pc.inner = some q ∧ pc'.inner = some q' ∧ s'.waiting = s.waiting ∧
      MultiLanClient.exec spec options q o s.client = some (s'.client, q')) ∨
    (s'.client = s.client ∧ ∃ q, pc.inner = none ∧ pc'.inner = some q ∧
      s.waiting = q :: s'.waiting) ∨
    (s'.client = s.client ∧ pc'.inner = none ∧ s'.waiting = s.waiting) := by
  obtain ⟨-, hstep⟩ := execThread_cases h
  cases hstep with
  | client hexec => exact .inl ⟨_, _, rfl, rfl, rfl, hexec⟩
  | handle hact => exact .inl ⟨_, _, rfl, rfl, rfl, exec_of_act options hact⟩
  | takes i q packets _ hpackets =>
    refine .inr (.inl ⟨rfl, .session i q, rfl, rfl, ?_⟩)
    simp [ClientProcess.waiting, hpackets, Packet.inner]
  | takesStop packets _ hpackets | overlappedNull packets _ hpackets =>
    refine .inr (.inr ⟨rfl, rfl, ?_⟩)
    simp only [ClientProcess.waiting, hpackets]
    rfl
  | postStop =>
    exact .inr (.inr ⟨s.post_client _, rfl, by simpa [Packet.inner] using waiting_post s .stop⟩)
  | postNull =>
    exact .inr (.inr ⟨s.post_client _, rfl, by simpa [Packet.inner] using waiting_post s .null⟩)
  | _ => exact .inr (.inr ⟨rfl, rfl, rfl⟩)

/-- **What an event is for the client**: a thread of its own starts, on a thread or
in the port, and may be lost; or the process ends. -/
theorem spawn_client {e : MultiLanClient.Event}
    (h : spawnThread options e s = some (s', pc)) :
    (∃ q, MultiLanClient.spawn options e s.client = some (s'.client, q) ∧
      (s'.waiting = s.waiting ∧ (pc.inner = some q ∨ pc.inner = none) ∨
        s'.waiting = s.waiting ++ [q] ∧ pc.inner = none)) ∨
    (s'.client = s.client ∧ pc.inner = none ∧ s'.waiting = s.waiting) := by
  obtain ⟨-, ⟨g, j, q, -, hspawn, rfl, rfl⟩ | ⟨g, q, -, -, hspawn, rfl, rfl⟩ |
    ⟨g, q, -, hspawn, rfl, rfl⟩ | ⟨rfl, rfl⟩⟩ := spawnThread_cases h
  · refine .inl ⟨.session j q, ?_, ?_⟩
    · rw [hspawn, ClientProcess.post_client]
    · rcases waiting_post { s with client := g } (.completion j q) with hwaiting | hwaiting
      · exact .inl ⟨hwaiting, .inr rfl⟩
      · exact .inr ⟨hwaiting, rfl⟩
  · exact .inl ⟨q, hspawn, .inl ⟨rfl, .inr rfl⟩⟩
  · exact .inl ⟨q, hspawn, .inl ⟨rfl, .inl rfl⟩⟩
  · exact .inr ⟨rfl, rfl, rfl⟩

/-- **What the threads have in hand are threads of a run of the client**. -/
theorem hosted {c : Config ClientProcess ThreadPc}
    (h : (clientThreads spec options).Reachable (clientThreads.init options) c) :
    (multiLanClient spec options).Among multiLanClient.init c.shared.client
      (held c.shared c.threads) := by
  refine Run.induct (I := fun s ts => (multiLanClient spec options).Among multiLanClient.init
    s.client (held s ts)) h ?_ ?_ ?_
  · refine Among.init.mono (le_of_eq ?_)
    have hworkers : (List.replicate options.numOfWorkerThread.toNat
        ThreadPc.getQueued).filterMap ThreadPc.inner = [] :=
      List.filterMap_eq_nil_iff.mpr fun pc hpc => by
        rw [List.eq_of_mem_replicate hpc]
        rfl
    simp [held, ClientProcess.waiting, clientThreads.init, hworkers, multiLanClient.init,
      ThreadPc.inner]
  · intro s l pc r o s' pc' _ hA _ hexec
    rw [held_place] at hA ⊢
    rcases exec_client hexec with ⟨q, q', hq, hq', hwaiting, hx⟩ |
      ⟨hclient, q, hpc, hq, hwaiting⟩ | ⟨hclient, hpc', hwaiting⟩
    · rw [hq, Option.toList_some, List.singleton_append, ← Multiset.cons_coe] at hA
      rw [hq', hwaiting, Option.toList_some, List.singleton_append, ← Multiset.cons_coe]
      exact hA.exec hx
    · rw [hpc, hwaiting] at hA
      rw [hclient, hq]
      refine hA.mono (Multiset.coe_eq_coe.mpr ?_).le
      exact List.perm_middle.symm
    · rw [hclient, hpc', hwaiting]
      refine hA.mono ?_
      exact (List.sublist_append_right _ _).subperm
  · intro s ts e s' pc _ hA hspawn
    rw [held_spawned]
    rcases spawn_client hspawn with ⟨q, hx, ⟨hwaiting, hpc⟩ | ⟨hwaiting, hpc⟩⟩ |
      ⟨hclient, hpc, hwaiting⟩
    · rw [hwaiting]
      rcases hpc with hpc | hpc
      · rw [hpc, Option.toList_some, List.singleton_append, ← Multiset.cons_coe]
        exact hA.spawn hx
      · rw [hpc]
        exact (hA.spawn hx).mono (Multiset.le_cons_self _ q)
    · rw [hpc, hwaiting]
      refine (hA.spawn hx).mono (le_of_eq ?_)
      refine Multiset.coe_eq_coe.mpr ?_
      simp
    · rw [hclient, hpc, hwaiting]
      exact hA

/-- A worker handles a completion of a session that is there, and is not the
`Reconnecter`. -/
theorem turns_known {c : Config ClientProcess ThreadPc}
    (h : (clientThreads spec options).Reachable (clientThreads.init options) c) :
    (∀ {i q}, .handle i q ∈ c.threads →
      i < c.shared.client.sessionList.length ∧ q.reconnects = 0) ∧
    ∀ {i q}, .completion i q ∈ c.shared.packets →
      i < c.shared.client.sessionList.length ∧ q.reconnects = 0 := by
  have hknown : ∀ {i q}, ClientPc.session i q ∈ held c.shared c.threads →
      i < c.shared.client.sessionList.length ∧ q.reconnects = 0 := fun hmem =>
    (hosted h).forall_mem (P := fun g q => g.Knows q) (fun hd => (coherent hd).knows) hmem
  refine ⟨fun hmem => hknown ?_, fun hmem => hknown ?_⟩
  · exact Multiset.mem_add.mpr (.inr (List.mem_filterMap.mpr ⟨_, hmem, rfl⟩))
  · exact Multiset.mem_add.mpr (.inl (List.mem_filterMap.mpr ⟨_, hmem, rfl⟩))

end RioServer.Client
