import RioServer.Lib.Interleaving

/-!
# The end of the server (RIOTestServer.cpp:123)

`StopServer` closes the listening socket, tells the workers to stop and waits
for them, closes their completion queues, deletes `rioCQList` and returns. It
waits for the workers only: `accepterThread` is joined nowhere, and
`serverThreads` has the accepter run on beside it, wherever it is.

With the workers all is well. The accepter can get hold of no new client once
the socket is closed, but it may have one already, and then goes on with it to
the queue it reads from `rioCQList` for `InitSession`; and it takes its next
step whenever it likes, after `StopServer` has returned too. `stopServer_orderly`
says that this is all that goes wrong.

Which worker gets a session, and what a worker finds in its queue, are oracles:
nothing that is done with a completion reads `rioCQList`.
-/

namespace RioServer

open Machine

/-! ## The threads -/

/-- What is recorded of a step: those of `StopServer` by what they do to the
queues, those of the other threads by whether they read `rioCQList` and which
queue they pass on to `InitSession`. -/
inductive ShutdownStep where
  | closeQueue (i : Nat)
  | deleteList
  | returned
  | accepter (reads : Bool) (passes : Option Nat)
  | worker (reads : Bool)
  deriving DecidableEq

/-- `listenSocket` until it is closed, `serverStop`, the workers that a `join`
would wait for, and the record of the steps. -/
structure Shutdown where
  listenOpen : Bool
  serverStop : Bool
  runningWorkers : Nat
  steps : List ShutdownStep

/-- The end of `accept`: a client, the error `WSAEINTR`, or another one. -/
inductive AcceptResult where
  | client
  | interrupted
  | failed
  deriving DecidableEq

/-- What a step cannot choose: how `accept` ends, which worker has the fewest
sessions, whether a call succeeds, and how many completions are dequeued. -/
structure ShutdownOracle where
  accepted : AcceptResult
  threadId : Nat
  ok : Bool
  numOfResults : Nat

inductive ShutdownPc where
  /-- `StopServer`. -/
  | closeListenSocket
  | setServerStop
  | joinWorkers
  | closeQueues (i : Nat)
  | deleteCQList
  | deleteWorkerOnList
  /-- `Accepter`; from `getNewSession` to `enter` inside `MakeNewSession`. -/
  | accept
  | getNewSession
  | initSession (threadId : Nat)
  | registerBuffers (threadId : Nat)
  | createRequestQueue (threadId : Nat)
  | emplace
  | enter
  | closeClient
  /-- `Worker`. -/
  | testServerStop (threadId : Nat)
  | dequeue (threadId : Nat)
  | handle (threadId numOfResults : Nat)
  | sleep (threadId : Nat)
  | deregister
  | finished
  deriving DecidableEq

/-- The step is recorded. -/
def Shutdown.took (s : Shutdown) (step : ShutdownStep) : Shutdown :=
  { s with steps := s.steps ++ [step] }

/-- One step of a thread of a server with `numOfWorkerThread` workers. -/
def execShutdown (numOfWorkerThread : Nat) :
    ShutdownPc → ShutdownOracle → Shutdown → Option (Shutdown × ShutdownPc)
  -- RIOTestServer.cpp:123
  | .closeListenSocket, _, s => some ({ s with listenOpen := false }, .setServerStop)
  | .setServerStop, _, s => some ({ s with serverStop := true }, .joinWorkers)
  | .joinWorkers, _, s => if s.runningWorkers = 0 then some (s, .closeQueues 0) else none
  | .closeQueues i, _, s =>
    if i < numOfWorkerThread then some (s.took (.closeQueue i), .closeQueues (i + 1))
    else some (s, .deleteCQList)
  | .deleteCQList, _, s => some (s.took .deleteList, .deleteWorkerOnList)
  | .deleteWorkerOnList, _, s => some (s.took .returned, .finished)
  -- RIOTestServer.cpp:273; a closed socket has no clients
  | .accept, o, s =>
    match o.accepted with
    | .client => if s.listenOpen then some (s.took (.accepter false none), .getNewSession) else none
    | .interrupted => some (s.took (.accepter false none), .finished)
    | .failed => some (s.took (.accepter false none), .accept)
  -- RIOTestServer.cpp:539; `rioCQList[threadId]` is passed by reference
  | .getNewSession, o, s =>
    if o.ok then
      if o.threadId < numOfWorkerThread then
        some (s.took (.accepter false none), .initSession o.threadId)
      else none
    else some (s.took (.accepter false none), .closeClient)
  | .initSession threadId, _, s =>
    some (s.took (.accepter true (some threadId)), .registerBuffers threadId)
  | .registerBuffers threadId, o, s =>
    if o.ok then some (s.took (.accepter false none), .createRequestQueue threadId)
    else some (s.took (.accepter false none), .closeClient)
  -- RIOTestSession.cpp:43, where the references are read
  | .createRequestQueue _, o, s =>
    if o.ok then some (s.took (.accepter true none), .emplace)
    else some (s.took (.accepter true none), .closeClient)
  -- a failure releases the session inside the lock that the release waits for
  | .emplace, o, s => if o.ok then some (s.took (.accepter false none), .enter) else none
  | .enter, _, s => some (s.took (.accepter false none), .accept)
  | .closeClient, _, s => some (s.took (.accepter false none), .accept)
  -- RIOTestServer.cpp:306, from the loop on
  | .testServerStop threadId, _, s =>
    if s.serverStop then some (s.took (.worker false), .deregister)
    else some (s.took (.worker false), .dequeue threadId)
  | .dequeue threadId, o, s => some (s.took (.worker true), .handle threadId o.numOfResults)
  | .handle threadId 0, _, s => some (s.took (.worker false), .sleep threadId)
  | .handle threadId (numOfResults + 1), _, s =>
    some (s.took (.worker false), .handle threadId numOfResults)
  | .sleep threadId, _, s => some (s.took (.worker false), .testServerStop threadId)
  | .deregister, _, s =>
    some ({ s.took (.worker false) with runningWorkers := s.runningWorkers - 1 }, .finished)
  | .finished, _, _ => none

/-- The threads are all there from the start. -/
def serverThreads (numOfWorkerThread : Nat) :
    Machine Shutdown ShutdownPc ShutdownOracle Empty :=
  ⟨execShutdown numOfWorkerThread, nofun⟩

/-- A running server, and the call of `StopServer`. -/
def serverThreads.init (numOfWorkerThread : Nat) : Config Shutdown ShutdownPc where
  shared := ⟨true, false, numOfWorkerThread, []⟩
  threads := .closeListenSocket :: .accept ::
    (List.range numOfWorkerThread).map ShutdownPc.testServerStop

/-! ## What may come after what -/

/-- `step` may come later than `earlier`. -/
def ShutdownStep.MayFollow : (earlier step : ShutdownStep) → Prop
  | .closeQueue i, .accepter reads passes => reads = false ∧ passes ≠ some i
  | .deleteList, .accepter reads passes => reads = false ∧ passes = none
  | .closeQueue _, .worker reads | .deleteList, .worker reads => reads = false
  | .returned, .accepter _ _ | .returned, .worker _ => False
  | _, _ => True

instance (earlier step : ShutdownStep) : Decidable (earlier.MayFollow step) := by
  unfold ShutdownStep.MayFollow
  split <;> infer_instance

/-- After a queue was closed, or the list of them deleted, the accepter and the
workers use neither, and after `StopServer` has returned they do nothing. -/
def Shutdown.Orderly (s : Shutdown) : Prop := s.steps.Pairwise ShutdownStep.MayFollow

instance (s : Shutdown) : Decidable s.Orderly :=
  inferInstanceAs (Decidable (s.steps.Pairwise ShutdownStep.MayFollow))

/-- The accepter has a client, and is on its way with it to `rioCQList`. -/
def ShutdownPc.OnItsWay : ShutdownPc → Prop
  | .getNewSession | .initSession _ | .registerBuffers _ | .createRequestQueue _ => True
  | _ => False

/-- The accepter, in its loop. -/
def ShutdownPc.Accepting : ShutdownPc → Prop
  | .accept | .getNewSession | .initSession _ | .registerBuffers _ | .createRequestQueue _
  | .emplace | .enter | .closeClient => True
  | _ => False

instance : DecidablePred ShutdownPc.OnItsWay := fun pc => by
  unfold ShutdownPc.OnItsWay
  split <;> infer_instance

instance : DecidablePred ShutdownPc.Accepting := fun pc => by
  unfold ShutdownPc.Accepting
  split <;> infer_instance

/-- **The exact exceptions**: when `StopServer` closes a queue or deletes their
list, the accepter is not on its way to it with a client, and when it returns,
the accepter has left its loop. -/
def AccepterOut : Guard Shutdown ShutdownPc ShutdownOracle := fun pc _ _ ts =>
  match pc with
  | .closeQueues _ | .deleteCQList => ∀ q ∈ ts, ¬q.OnItsWay
  | .deleteWorkerOnList => ∀ q ∈ ts, ¬q.Accepting
  | _ => True

instance (pc : ShutdownPc) (o : ShutdownOracle) (s : Shutdown) (ts : List ShutdownPc) :
    Decidable (AccepterOut pc o s ts) := by
  unfold AccepterOut
  split <;> infer_instance

/-! ## Every run -/

/-- A worker, until it has deregistered. -/
def ShutdownPc.isWorker : ShutdownPc → Nat
  | .testServerStop _ | .dequeue _ | .handle _ _ | .sleep _ | .deregister => 1
  | _ => 0

/-- `StopServer`, after it has waited for the workers. -/
def ShutdownPc.Joined : ShutdownPc → Prop
  | .closeQueues _ | .deleteCQList | .deleteWorkerOnList => True
  | _ => False

/-- `StopServer`, after it has closed the listening socket. -/
def ShutdownPc.Closed : ShutdownPc → Prop
  | .setServerStop | .joinWorkers | .closeQueues _ | .deleteCQList | .deleteWorkerOnList => True
  | _ => False

/-- A step of `StopServer` after which the queues are out of bounds. -/
def ShutdownStep.TearsDown : ShutdownStep → Prop
  | .closeQueue _ | .deleteList | .returned => True
  | _ => False

/-- What holds in all runs in which the accepter is out. -/
structure TornDown (s : Shutdown) (ts : List ShutdownPc) : Prop where
  orderly : s.Orderly
  workers : s.runningWorkers = load ShutdownPc.isWorker ts
  closed : ∀ pc ∈ ts, pc.Closed → s.listenOpen = false
  joined : ∀ pc ∈ ts, pc.Joined → s.runningWorkers = 0
  torn : (∃ step ∈ s.steps, step.TearsDown) →
    s.listenOpen = false ∧ s.runningWorkers = 0 ∧ ∀ pc ∈ ts, ¬pc.OnItsWay
  returned : .returned ∈ s.steps → ∀ pc ∈ ts, ¬pc.Accepting

variable {n : Nat} {s s' : Shutdown} {pc pc' : ShutdownPc} {l r ts : List ShutdownPc}
  {o : ShutdownOracle}

/-- A recorded step is in order if it may follow all before it. -/
theorem Shutdown.Orderly.took (h : s.Orderly) {step : ShutdownStep}
    (hstep : ∀ earlier ∈ s.steps, earlier.MayFollow step) : (s.took step).Orderly := by
  refine List.pairwise_append.mpr ⟨h, List.pairwise_singleton _ _, ?_⟩
  intro earlier he last hlast
  rw [List.mem_singleton.mp hlast]
  exact hstep earlier he

/-- What a step of `StopServer` does may always be done. -/
theorem mayFollow_of_tearsDown {earlier step : ShutdownStep} (h : step.TearsDown) :
    earlier.MayFollow step := by
  cases step with
  | closeQueue | deleteList | returned => cases earlier <;> trivial
  | accepter | worker => cases h

/-- **A step of the accepter**: it uses the queues only on its way there, and
sets out with a client only while the socket is open. -/
theorem exec_accepter (hpc : pc.Accepting) (h : execShutdown n pc o s = some (s', pc')) :
    (∃ reads passes, s' = s.took (.accepter reads passes) ∧
      (¬pc.OnItsWay → reads = false ∧ passes = none)) ∧
    (pc'.OnItsWay → pc.OnItsWay ∨ s.listenOpen = true) ∧
    pc.isWorker = 0 ∧ pc'.isWorker = 0 ∧ ¬pc'.Closed ∧ ¬pc'.Joined := by
  cases pc with
  | accept =>
    simp only [execShutdown] at h
    split at h
    · split at h <;> cases h
      next hopen =>
        exact ⟨⟨_, _, rfl, fun _ => ⟨rfl, rfl⟩⟩, fun _ => .inr hopen, rfl, rfl, id, id⟩
    · cases h
      exact ⟨⟨_, _, rfl, fun _ => ⟨rfl, rfl⟩⟩, nofun, rfl, rfl, id, id⟩
    · cases h
      exact ⟨⟨_, _, rfl, fun _ => ⟨rfl, rfl⟩⟩, nofun, rfl, rfl, id, id⟩
  | getNewSession =>
    simp only [execShutdown] at h
    split at h
    · split at h <;> cases h
      exact ⟨⟨_, _, rfl, fun hway => absurd trivial hway⟩, fun _ => .inl trivial, rfl, rfl, id, id⟩
    · cases h
      exact ⟨⟨_, _, rfl, fun hway => absurd trivial hway⟩, nofun, rfl, rfl, id, id⟩
  | initSession threadId =>
    cases h
    exact ⟨⟨_, _, rfl, fun hway => absurd trivial hway⟩, fun _ => .inl trivial, rfl, rfl, id, id⟩
  | registerBuffers threadId | createRequestQueue threadId =>
    simp only [execShutdown] at h
    split at h <;> cases h
    · exact ⟨⟨_, _, rfl, fun hway => absurd trivial hway⟩, fun _ => .inl trivial, rfl, rfl, id, id⟩
    · exact ⟨⟨_, _, rfl, fun hway => absurd trivial hway⟩, nofun, rfl, rfl, id, id⟩
  | emplace =>
    simp only [execShutdown] at h
    split at h <;> cases h
    exact ⟨⟨_, _, rfl, fun _ => ⟨rfl, rfl⟩⟩, nofun, rfl, rfl, id, id⟩
  | enter | closeClient =>
    cases h
    exact ⟨⟨_, _, rfl, fun _ => ⟨rfl, rfl⟩⟩, nofun, rfl, rfl, id, id⟩
  | _ => cases hpc

/-- **A step of a worker**: it remains a worker, or leaves one less. -/
theorem exec_worker (hpc : pc.isWorker = 1) (h : execShutdown n pc o s = some (s', pc')) :
    (∃ reads, s'.steps = s.steps ++ [.worker reads]) ∧ s'.listenOpen = s.listenOpen ∧
      s'.runningWorkers = s.runningWorkers - (1 - pc'.isWorker) ∧ pc'.isWorker ≤ 1 ∧
      ¬pc'.Accepting ∧ ¬pc'.OnItsWay ∧ ¬pc'.Closed ∧ ¬pc'.Joined := by
  cases pc with
  | testServerStop threadId =>
    simp only [execShutdown] at h
    split at h <;> cases h <;> exact ⟨⟨_, rfl⟩, rfl, rfl, Nat.le_refl 1, id, id, id, id⟩
  | dequeue threadId | sleep threadId =>
    cases h
    exact ⟨⟨_, rfl⟩, rfl, rfl, Nat.le_refl 1, id, id, id, id⟩
  | handle threadId numOfResults =>
    cases numOfResults <;> cases h <;> exact ⟨⟨_, rfl⟩, rfl, rfl, Nat.le_refl 1, id, id, id, id⟩
  | deregister =>
    cases h
    exact ⟨⟨_, rfl⟩, rfl, rfl, Nat.zero_le 1, id, id, id, id⟩
  | _ => cases hpc

/-- The accepter's step keeps the order: its way to the queues is behind it. -/
theorem TornDown.accepter (hI : TornDown s (l ++ pc :: r)) (hpc : pc.Accepting)
    (h : execShutdown n pc o s = some (s', pc')) : TornDown s' (l ++ pc' :: r) := by
  obtain ⟨⟨reads, passes, rfl, hreads⟩, hway, hworker, hworker', hclosed', hjoined'⟩ :=
    exec_accepter hpc h
  obtain ⟨hclosedl, -, hclosedr⟩ := forall_mem_place.mp hI.closed
  obtain ⟨hjoinedl, -, hjoinedr⟩ := forall_mem_place.mp hI.joined
  have htorn : ∀ step ∈ s.steps, step.TearsDown → s.listenOpen = false ∧
      s.runningWorkers = 0 ∧ ¬pc.OnItsWay := by
    intro step hstep htears
    obtain ⟨hlisten, hrunning, hways⟩ := hI.torn ⟨step, hstep, htears⟩
    exact ⟨hlisten, hrunning, (forall_mem_place.mp hways).2.1⟩
  have hsteps : ∀ step ∈ (s.took (.accepter reads passes)).steps, step.TearsDown →
      step ∈ s.steps := by
    intro step hstep htears
    rcases List.mem_append.mp hstep with hold | hnew
    · exact hold
    · rw [List.mem_singleton.mp hnew] at htears
      cases htears
  refine ⟨hI.orderly.took ?_, ?_, ?_, ?_, ?_, ?_⟩
  · intro earlier he
    cases earlier with
    | closeQueue i =>
      obtain ⟨rfl, rfl⟩ := hreads (htorn _ he trivial).2.2
      exact ⟨rfl, nofun⟩
    | deleteList => exact hreads (htorn _ he trivial).2.2
    | returned => exact absurd hpc ((forall_mem_place.mp (hI.returned he)).2.1)
    | accepter | worker => trivial
  · exact hI.workers.trans (load_place (hworker.trans hworker'.symm) l r)
  · exact forall_mem_place.mpr ⟨hclosedl, fun hc => absurd hc hclosed', hclosedr⟩
  · exact forall_mem_place.mpr ⟨hjoinedl, fun hj => absurd hj hjoined', hjoinedr⟩
  · rintro ⟨step, hstep, htears⟩
    have hold := hsteps step hstep htears
    obtain ⟨hlisten, hrunning, hways⟩ := hI.torn ⟨step, hold, htears⟩
    obtain ⟨hl, hpcway, hr⟩ := forall_mem_place.mp hways
    refine ⟨hlisten, hrunning, forall_mem_place.mpr ⟨hl, fun hw => ?_, hr⟩⟩
    rcases hway hw with hold | hopen
    · exact hpcway hold
    · rw [hlisten] at hopen
      cases hopen
  · intro hreturned
    exact absurd hpc (forall_mem_place.mp (hI.returned (hsteps _ hreturned trivial))).2.1

/-- A worker's step keeps the order: no worker runs when the queues go. -/
theorem TornDown.worker (hI : TornDown s (l ++ pc :: r)) (hpc : pc.isWorker = 1)
    (h : execShutdown n pc o s = some (s', pc')) : TornDown s' (l ++ pc' :: r) := by
  obtain ⟨⟨reads, hsteps⟩, hlisten, hrunning, hle, hacc', hway', hclosed', hjoined'⟩ :=
    exec_worker hpc h
  obtain ⟨hclosedl, -, hclosedr⟩ := forall_mem_place.mp hI.closed
  obtain ⟨hjoinedl, -, hjoinedr⟩ := forall_mem_place.mp hI.joined
  have hworkers := hI.workers
  rw [load_append, load_cons, hpc] at hworkers
  have hnone : ∀ step ∈ s'.steps, ¬step.TearsDown := by
    intro step hstep htears
    rw [hsteps] at hstep
    rcases List.mem_append.mp hstep with hold | hnew
    · have hzero := (hI.torn ⟨step, hold, htears⟩).2.1
      omega
    · rw [List.mem_singleton.mp hnew] at htears
      cases htears
  refine ⟨?_, ?_, ?_, ?_, ?_, ?_⟩
  · rw [Shutdown.Orderly, hsteps]
    refine List.pairwise_append.mpr ⟨hI.orderly, List.pairwise_singleton _ _, ?_⟩
    intro earlier he last hlast
    rw [List.mem_singleton.mp hlast]
    have hearlier := hnone earlier (hsteps ▸ List.mem_append_left _ he)
    cases earlier with
    | closeQueue | deleteList | returned => exact absurd trivial hearlier
    | accepter | worker => trivial
  · rw [load_append, load_cons, hrunning]
    omega
  · rw [hlisten]
    exact forall_mem_place.mpr ⟨hclosedl, fun hc => absurd hc hclosed', hclosedr⟩
  · refine forall_mem_place.mpr ⟨fun q hq hj => ?_, fun hj => absurd hj hjoined', fun q hq hj => ?_⟩
    · have hzero := hjoinedl q hq hj
      omega
    · have hzero := hjoinedr q hq hj
      omega
  · rintro ⟨step, hstep, htears⟩
    exact absurd htears (hnone step hstep)
  · exact fun hreturned => absurd trivial (hnone _ hreturned)

/-- A step of `StopServer` that records nothing. -/
theorem TornDown.quiet (hI : TornDown s (l ++ pc :: r)) (hsteps : s'.steps = s.steps)
    (hlisten : s.listenOpen = false → s'.listenOpen = false)
    (hrunning : s'.runningWorkers = s.runningWorkers) (hworker : pc'.isWorker = pc.isWorker)
    (hclosed : pc'.Closed → s'.listenOpen = false) (hjoined : pc'.Joined → s'.runningWorkers = 0)
    (hacc : ¬pc'.Accepting) (hway : ¬pc'.OnItsWay) : TornDown s' (l ++ pc' :: r) := by
  obtain ⟨hclosedl, -, hclosedr⟩ := forall_mem_place.mp hI.closed
  obtain ⟨hjoinedl, -, hjoinedr⟩ := forall_mem_place.mp hI.joined
  refine ⟨?_, ?_, forall_mem_place.mpr ⟨fun q hq hc => hlisten (hclosedl q hq hc), hclosed,
    fun q hq hc => hlisten (hclosedr q hq hc)⟩, ?_, ?_, ?_⟩
  · rw [Shutdown.Orderly, hsteps]
    exact hI.orderly
  · rw [hrunning, load_place hworker]
    exact hI.workers
  · rw [hrunning] at hjoined ⊢
    exact forall_mem_place.mpr ⟨hjoinedl, hjoined, hjoinedr⟩
  · rw [hsteps, hrunning]
    intro htears
    obtain ⟨hold, hzero, hways⟩ := hI.torn htears
    obtain ⟨hl, -, hr⟩ := forall_mem_place.mp hways
    exact ⟨hlisten hold, hzero, forall_mem_place.mpr ⟨hl, hway, hr⟩⟩
  · rw [hsteps]
    intro hreturned
    obtain ⟨hl, -, hr⟩ := forall_mem_place.mp (hI.returned hreturned)
    exact forall_mem_place.mpr ⟨hl, hacc, hr⟩

/-- A step of `StopServer` that tears something down, once the workers have
ended and the accepter is out. -/
theorem TornDown.tearDown (hI : TornDown s (l ++ pc :: r)) {step : ShutdownStep}
    (htears : step.TearsDown) (hpc : pc.Joined) (hclosed : pc.Closed)
    (hways : ∀ q ∈ l ++ pc :: r, ¬q.OnItsWay)
    (hreturned : step = .returned → ∀ q ∈ l ++ pc :: r, ¬q.Accepting)
    (hworker : pc'.isWorker = pc.isWorker) (hacc : ¬pc'.Accepting) (hway : ¬pc'.OnItsWay) :
    TornDown (s.took step) (l ++ pc' :: r) := by
  obtain ⟨hclosedl, hlisten, hclosedr⟩ := forall_mem_place.mp hI.closed
  obtain ⟨hjoinedl, hzero, hjoinedr⟩ := forall_mem_place.mp hI.joined
  obtain ⟨hl, -, hr⟩ := forall_mem_place.mp hways
  refine ⟨hI.orderly.took fun earlier _ => mayFollow_of_tearsDown htears, ?_,
    forall_mem_place.mpr ⟨hclosedl, fun _ => hlisten hclosed, hclosedr⟩,
    forall_mem_place.mpr ⟨hjoinedl, fun _ => hzero hpc, hjoinedr⟩,
    fun _ => ⟨hlisten hclosed, hzero hpc, forall_mem_place.mpr ⟨hl, hway, hr⟩⟩, fun hret => ?_⟩
  · rw [load_place hworker]
    exact hI.workers
  · have hall : ∀ q ∈ l ++ pc :: r, ¬q.Accepting := by
      rcases List.mem_append.mp hret with hold | hnew
      · exact hI.returned hold
      · exact hreturned (List.mem_singleton.mp hnew).symm
    obtain ⟨hl, -, hr⟩ := forall_mem_place.mp hall
    exact forall_mem_place.mpr ⟨hl, hacc, hr⟩

/-- One who is on its way has not left the loop. -/
theorem ShutdownPc.OnItsWay.accepting (h : pc.OnItsWay) : pc.Accepting := by
  cases pc <;> trivial

theorem exec_tornDown (hI : TornDown s (l ++ pc :: r)) (hG : AccepterOut pc o s (l ++ pc :: r))
    (h : execShutdown n pc o s = some (s', pc')) : TornDown s' (l ++ pc' :: r) := by
  have hlisten := (forall_mem_place.mp hI.closed).2.1
  have hzero := (forall_mem_place.mp hI.joined).2.1
  by_cases hacc : pc.Accepting
  · exact hI.accepter hacc h
  by_cases hworker : pc.isWorker = 1
  · exact hI.worker hworker h
  cases pc with
  | closeListenSocket =>
    cases h
    exact hI.quiet rfl (fun _ => rfl) rfl rfl (fun _ => rfl) nofun id id
  | setServerStop =>
    cases h
    exact hI.quiet rfl id rfl rfl (fun _ => hlisten trivial) nofun id id
  | joinWorkers =>
    simp only [execShutdown] at h
    split at h <;> cases h
    next hrunning =>
      exact hI.quiet rfl id rfl rfl (fun _ => hlisten trivial) (fun _ => hrunning) id id
  | closeQueues i =>
    simp only [execShutdown] at h
    split at h <;> cases h
    · exact hI.tearDown trivial trivial trivial hG nofun rfl id id
    · exact hI.quiet rfl id rfl rfl (fun _ => hlisten trivial) (fun _ => hzero trivial) id id
  | deleteCQList =>
    cases h
    exact hI.tearDown trivial trivial trivial hG nofun rfl id id
  | deleteWorkerOnList =>
    cases h
    exact hI.tearDown trivial trivial trivial (fun q hq hway => hG q hq hway.accepting)
      (fun _ => hG) rfl id id
  | finished => cases h
  | testServerStop | dequeue | handle | sleep | deregister => exact absurd rfl hworker
  | _ => exact absurd trivial hacc

theorem init_tornDown (n : Nat) :
    TornDown (serverThreads.init n).shared (serverThreads.init n).threads := by
  have hpc : ∀ pc ∈ (serverThreads.init n).threads, ¬pc.Closed ∧ ¬pc.Joined := by
    intro pc hpc
    rcases List.mem_cons.mp hpc with rfl | hpc
    · exact ⟨id, id⟩
    rcases List.mem_cons.mp hpc with rfl | hpc
    · exact ⟨id, id⟩
    obtain ⟨threadId, -, rfl⟩ := List.mem_map.mp hpc
    exact ⟨id, id⟩
  refine ⟨List.Pairwise.nil, ?_, fun pc h hc => absurd hc (hpc pc h).1,
    fun pc h hj => absurd hj (hpc pc h).2, ?_, nofun⟩
  · show n = load ShutdownPc.isWorker (.closeListenSocket :: .accept :: (List.range n).map _)
    rw [load_cons, load_cons, load, List.map_map]
    simp [Function.comp_def, ShutdownPc.isWorker]
  · rintro ⟨step, hstep, -⟩
    cases hstep

/-- **The server ends in order, if the accepter is out of it**: not on its way
to the queues when they go, and out of its loop when `StopServer` returns. -/
theorem stopServer_orderly {c : Config Shutdown ShutdownPc}
    (h : (serverThreads n).Run AccepterOut (serverThreads.init n) c) : c.shared.Orderly := by
  have hI : TornDown c.shared c.threads := by
    refine h.induct (I := TornDown) (init_tornDown n) ?_ ?_
    · exact fun _ hI hG hexec => exec_tornDown hI hG hexec
    · exact fun {_ _ e _ _} _ _ _ => e.elim
  exact hI.orderly

/-- One worker; `accept` is interrupted when the socket is closed. -/
theorem stopServer_orderly_one : ∃ c, (serverThreads 1).Run AccepterOut (serverThreads.init 1) c ∧
    .returned ∈ c.shared.steps ∧ c.shared.Orderly := by
  obtain ⟨c, hrun, hreturned⟩ := exists_run (serverThreads 1) AccepterOut (serverThreads.init 1)
    [.run 0 ⟨.failed, 0, true, 0⟩, .run 1 ⟨.interrupted, 0, true, 0⟩, .run 0 ⟨.failed, 0, true, 0⟩,
      .run 2 ⟨.failed, 0, true, 0⟩, .run 2 ⟨.failed, 0, true, 0⟩, .run 0 ⟨.failed, 0, true, 0⟩,
      .run 0 ⟨.failed, 0, true, 0⟩, .run 0 ⟨.failed, 0, true, 0⟩, .run 0 ⟨.failed, 0, true, 0⟩,
      .run 0 ⟨.failed, 0, true, 0⟩]
    (P := fun c => .returned ∈ c.shared.steps) (by decide +kernel)
  exact ⟨c, hrun, hreturned, stopServer_orderly hrun⟩

/-- One worker; the accepter has got a client when the socket is closed. It goes
on after `StopServer` has returned, with the queue that was closed. -/
theorem closed_queue_passed_on : ∃ c, (serverThreads 1).Reachable (serverThreads.init 1) c ∧
    c.shared.steps = [.accepter false none, .worker false, .worker false, .closeQueue 0,
      .deleteList, .returned, .accepter false none, .accepter true (some 0)] ∧
    ¬c.shared.Orderly := by
  obtain ⟨c, hrun, hsteps, horderly⟩ := exists_run (serverThreads 1) unguarded
    (serverThreads.init 1)
    [.run 1 ⟨.client, 0, true, 0⟩, .run 0 ⟨.failed, 0, true, 0⟩, .run 0 ⟨.failed, 0, true, 0⟩,
      .run 2 ⟨.failed, 0, true, 0⟩, .run 2 ⟨.failed, 0, true, 0⟩, .run 0 ⟨.failed, 0, true, 0⟩,
      .run 0 ⟨.failed, 0, true, 0⟩, .run 0 ⟨.failed, 0, true, 0⟩, .run 0 ⟨.failed, 0, true, 0⟩,
      .run 0 ⟨.failed, 0, true, 0⟩, .run 1 ⟨.failed, 0, true, 0⟩, .run 1 ⟨.failed, 0, true, 0⟩]
    (P := fun c => c.shared.steps = [.accepter false none, .worker false, .worker false,
      .closeQueue 0, .deleteList, .returned, .accepter false none, .accepter true (some 0)] ∧
      ¬c.shared.Orderly) (by decide +kernel)
  exact ⟨c, hrun, hsteps, horderly⟩

/-! ## What the exceptions lead to -/

theorem not_orderly_took {earlier step : ShutdownStep} (hmem : earlier ∈ s.steps)
    (h : ¬earlier.MayFollow step) : ¬(s.took step).Orderly := by
  intro horderly
  have hpair := (List.pairwise_append.mp horderly).2.2 earlier hmem step (List.mem_singleton_self _)
  exact h hpair

/-- Once `StopServer` has returned, each step of the accepter is too late. -/
theorem late_step (hreturned : .returned ∈ s.steps) (hpc : pc.Accepting)
    (h : execShutdown n pc o s = some (s', pc')) : ¬s'.Orderly := by
  obtain ⟨⟨reads, passes, rfl, -⟩, -⟩ := exec_accepter hpc h
  exact not_orderly_took hreturned id

/-- Once a queue is closed, a client that the accepter has got hold of before
leads it to `rioCQList`. -/
theorem late_client {c₀ : Config Shutdown ShutdownPc} {i : Nat}
    (hrun : (serverThreads n).Reachable c₀ ⟨s, l ++ .getNewSession :: r⟩)
    (hclosed : .closeQueue i ∈ s.steps) (hn : 0 < n) :
    ∃ c, (serverThreads n).Reachable c₀ c ∧ ¬c.shared.Orderly := by
  have hexec : (serverThreads n).exec .getNewSession ⟨.failed, 0, true, 0⟩ s =
      some (s.took (.accepter false none), .initSession 0) := by
    simp [serverThreads, execShutdown, hn]
  have hnew := hrun.place trivial hexec
  refine ⟨_, hnew.place (o := ⟨.failed, 0, true, 0⟩) trivial rfl, ?_⟩
  refine not_orderly_took (List.mem_append_left _ hclosed) ?_
  rintro ⟨hreads, -⟩
  cases hreads

end RioServer
