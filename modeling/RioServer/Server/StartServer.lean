import RioServer.Lib.Progress
import RioServer.Server.CompletionQueue

/-!
# The start of the server (RIOTestServer.cpp:44, 142, 265, 306, 620)

`StartServer` reads the options, makes the listening socket, and starts the
workers, which make their own completion queues and enter them in `rioCQList`.
`RunThreads` waits until every worker has said so in `workerOnList`, and only then
starts the accepter, which reads the queues. Both lists come from `new` and hold
nothing until somebody writes to them.

So every entry has to be written before another thread reads it, and `start_server`
says that it is, whatever the threads do and whichever call fails, as long as there
is a worker. Without one `StartServer` succeeds all the same, and the first client
is given to worker 0.

A worker enters what `RIOCreateCompletionQueue` returns, a queue or not, and asks it
for results. For `RIO_INVALID_CQ` the answer is `RIO_CORRUPT_CQ`, which is no number
of results but is taken for one: the worker goes through its `rioResults`, all zero,
and past their end.

What happens to a request is in the other modules; here a completion may release a
session, and `StopServer` is not called yet.
-/

namespace RioServer

open Machine WorkerBalance

/-! ## The threads -/

/-- The options that `StartServer` goes on with. -/
def WorkerBalance.ServerOptionFile.options (file : ServerOptionFile) : ServerOptions :=
  (serverOptionParsing file).getD ⟨0, 0⟩

/-- `numOfWorkerThread`. -/
def WorkerBalance.ServerOptionFile.numOfWorkerThread (file : ServerOptionFile) : Nat :=
  file.options.numOfWorkerThread.toNat

/-- `nagleOn`. -/
def WorkerBalance.ServerOptionFile.nagleOn (file : ServerOptionFile) : Bool :=
  file.getValueByte "NAGLE_ON" != some 0

/-- What `RIOCreateCompletionQueue` returns: a queue of a size, or
`RIO_INVALID_CQ`. -/
inductive CompletionQueue where
  | queue (size : UInt32)
  | invalid
  deriving DecidableEq, Repr

/-- `MAX_RIO_RESULT` (DefineType.h:7). -/
def maxRioResult : Nat := 256

/-- `RIO_CORRUPT_CQ`. -/
def rioCorruptCq : Nat := 0xFFFFFFFF

/-- What `RIODequeueCompletion` returns: as many results as there are and
`rioResults` has room for, or `RIO_CORRUPT_CQ`. -/
def CompletionQueue.rioDequeueCompletion (numOfResults : Nat) : CompletionQueue → Nat
  | .queue _ => min numOfResults maxRioResult
  | .invalid => rioCorruptCq

/-- The members that the threads share while the server starts. An entry that
nobody has written is `none`. The last three are records, and no code reads them. -/
structure Startup where
  numOfSessionInWorkerThread : List Nat
  rioCQList : List (Option CompletionQueue)
  workerOnList : List (Option Bool)
  /-- How many threads are in `workerThreads`. -/
  workerThreads : Nat
  /-- `accepterThread` has a thread. -/
  accepterThread : Bool
  /-- A `RIOCreateCompletionQueue` has returned `RIO_INVALID_CQ`. -/
  invalidQueue : Bool
  /-- A thread has read an entry that is not there or was never written. -/
  undefined : Bool
  /-- A worker has read past its `rioResults`. -/
  pastResults : Bool
  deriving DecidableEq, Repr

/-- What a step cannot choose: whether a call succeeds, how many completions are
dequeued, and whose session a completion releases. -/
structure StartupOracle where
  ok : Bool
  numOfResults : Nat
  released : Option Nat

/-- The calls that end `StartServer` when they fail. -/
inductive StartCall where
  | wsaStartup
  | wsaSocket
  | bind
  | listen
  | setNoDelay
  | setLinger
  | wsaIoctl
  deriving DecidableEq, Repr

inductive StartupPc where
  /-- `StartServer`. -/
  | serverOptionParsing
  | call (call : StartCall)
  /-- `InitializeRIO`, with `call .wsaIoctl`. -/
  | emplaceBack (i : Nat)
  | newCQList
  /-- `RunThreads`. -/
  | newWorkerOnList
  | setWorkerOff (i : Nat)
  | startWorker (i : Nat)
  | testWorkerOn (i : Nat)
  | sleep
  | startAccepter
  | returned (result : Bool)
  /-- `Worker`, from its start. -/
  | worker (threadId : Nat)
  | createCompletionQueue (threadId : Nat)
  | setWorkerOn (threadId : Nat)
  | dequeue (threadId : Nat)
  | handle (threadId i numOfResults : Nat)
  /-- A worker that has read past its `rioResults`. -/
  | pastResults (threadId : Nat)
  /-- `Accepter`; from `scan` to `enter` inside `MakeNewSession`. -/
  | accepter
  | accept
  | scan (threadId minimumSessionCount targetThreadId : Nat)
  | getNewSession (threadId : Nat)
  | registerBuffers (threadId : Nat)
  | createRequestQueue (threadId : Nat)
  | incrementNumOfSession (threadId : Nat)
  | emplace
  | enter
  | closeClient
  /-- A thread that has read what is not there. -/
  | finished
  deriving DecidableEq, Repr

/-- What comes after a call that succeeds (RIOTestServer.cpp:52–104, 620–640). -/
def StartCall.next (nagleOn : Bool) : StartCall → StartupPc
  | .wsaStartup => .call .wsaSocket
  | .wsaSocket => .call .bind
  | .bind => .call .listen
  | .listen => if nagleOn then .call .setNoDelay else .call .setLinger
  | .setNoDelay => .call .setLinger
  | .setLinger => .emplaceBack 0
  | .wsaIoctl => .newCQList

/-- `ReleaseSession` for a session of worker `threadId` (RIOTestServer.cpp:590), on
a `UINT`. -/
def Startup.releaseSession (s : Startup) : Option Nat → Startup
  | some threadId =>
    { s with
      numOfSessionInWorkerThread := s.numOfSessionInWorkerThread.modify threadId
        fun count => (count + (2 ^ 32 - 1)) % 2 ^ 32 }
  | none => s

/-- Nobody has written the entry that is read. -/
def Startup.fault (s : Startup) : Startup × StartupPc :=
  ({ s with undefined := true }, .finished)

/-- One step of a thread of a server that is started with `file`. -/
def execStartup (file : ServerOptionFile) :
    StartupPc → StartupOracle → Startup → Option (Startup × StartupPc)
  -- RIOTestServer.cpp:44
  | .serverOptionParsing, _, s =>
    match serverOptionParsing file with
    | some _ => some (s, .call .wsaStartup)
    | none => some (s, .returned false)
  | .call call, o, s =>
    if o.ok then some (s, call.next file.nagleOn) else some (s, .returned false)
  -- RIOTestServer.cpp:620
  | .emplaceBack i, _, s =>
    if i < file.numOfWorkerThread then
      some ({ s with numOfSessionInWorkerThread := s.numOfSessionInWorkerThread ++ [0] },
        .emplaceBack (i + 1))
    else some (s, .call .wsaIoctl)
  | .newCQList, _, s =>
    some ({ s with rioCQList := List.replicate file.numOfWorkerThread none }, .newWorkerOnList)
  -- RIOTestServer.cpp:142
  | .newWorkerOnList, _, s =>
    some ({ s with workerOnList := List.replicate file.numOfWorkerThread none }, .setWorkerOff 0)
  | .setWorkerOff i, _, s =>
    if i < file.numOfWorkerThread then
      some ({ s with workerOnList := s.workerOnList.set i (some false) }, .startWorker i)
    else some (s, .testWorkerOn 0)
  | .startWorker i, _, s => some ({ s with workerThreads := i + 1 }, .setWorkerOff (i + 1))
  | .testWorkerOn i, _, s =>
    if i < file.numOfWorkerThread then
      match s.workerOnList[i]? with
      | some (some true) => some (s, .testWorkerOn (i + 1))
      | some (some false) => some (s, .sleep)
      | _ => some s.fault
    else some (s, .startAccepter)
  | .sleep, _, s => some (s, .testWorkerOn 0)
  | .startAccepter, _, s => some ({ s with accepterThread := true }, .returned true)
  | .returned _, _, _ => none
  -- RIOTestServer.cpp:306
  | .worker i, _, s => if i < s.workerThreads then some (s, .createCompletionQueue i) else none
  | .createCompletionQueue i, o, s =>
    let queue := if o.ok then
        .queue (completionQueueSize file.options.numOfWorkerThread file.options.maxClientCount)
      else .invalid
    some ({ s with
      rioCQList := s.rioCQList.set i (some queue)
      invalidQueue := !o.ok || s.invalidQueue }, .setWorkerOn i)
  | .setWorkerOn i, _, s =>
    some ({ s with workerOnList := s.workerOnList.set i (some true) }, .dequeue i)
  | .dequeue i, o, s =>
    match s.rioCQList[i]? with
    | some (some queue) => some (s, .handle i 0 (queue.rioDequeueCompletion o.numOfResults))
    | _ => some s.fault
  | .handle threadId i numOfResults, o, s =>
    if i < numOfResults then
      if i < maxRioResult then
        -- where there are no results, `RequestContext` is null
        if numOfResults = rioCorruptCq then some (s, .handle threadId (i + 1) numOfResults)
        else some (s.releaseSession o.released, .handle threadId (i + 1) numOfResults)
      else some ({ s with pastResults := true }, .pastResults threadId)
    else some (s, .dequeue threadId)
  | .pastResults _, _, _ => none
  -- RIOTestServer.cpp:265
  | .accepter, _, s => if s.accepterThread then some (s, .accept) else none
  | .accept, o, s =>
    if o.ok then some (s, .scan 0 file.options.maxClientCount.toNat 0) else some (s, .accept)
  -- RIOTestServer.cpp:466, the loop
  | .scan i minimumSessionCount targetThreadId, _, s =>
    match s.numOfSessionInWorkerThread[i]? with
    | some count =>
      if count = 0 then some (s, .getNewSession i)
      else if count < minimumSessionCount then some (s, .scan (i + 1) count i)
      else some (s, .scan (i + 1) minimumSessionCount targetThreadId)
    | none => some (s, .getNewSession targetThreadId)
  -- RIOTestServer.cpp:539
  | .getNewSession i, o, s =>
    if o.ok then some (s, .registerBuffers i) else some (s, .closeClient)
  | .registerBuffers i, o, s =>
    if o.ok then some (s, .createRequestQueue i) else some (s, .closeClient)
  | .createRequestQueue i, o, s =>
    match s.rioCQList[i]? with
    | some (some queue) =>
      if o.ok ∧ queue ≠ .invalid then some (s, .incrementNumOfSession i)
      else some (s, .closeClient)
    | _ => some s.fault
  | .incrementNumOfSession i, _, s =>
    if i < s.numOfSessionInWorkerThread.length then
      some ({ s with
        numOfSessionInWorkerThread := s.numOfSessionInWorkerThread.modify i
          fun count => (count + 1) % 2 ^ 32 }, .emplace)
    else some s.fault
  -- a failure releases the session inside the lock that the release waits for
  | .emplace, o, s => if o.ok then some (s, .enter) else none
  | .enter, _, s => some (s, .accept)
  | .closeClient, _, s => some (s, .accept)
  | .finished, _, _ => none

/-- **The server's threads** at its start. -/
def startup (file : ServerOptionFile) : Machine Startup StartupPc StartupOracle Empty :=
  ⟨execStartup file, nofun⟩

/-- Nothing is there yet. -/
def Startup.empty : Startup := ⟨[], [], [], 0, false, false, false, false⟩

/-- The call of `StartServer`; the other threads wait until it starts them. -/
def startup.init (file : ServerOptionFile) : Config Startup StartupPc where
  shared := .empty
  threads := .serverOptionParsing :: .accepter ::
    (List.range file.numOfWorkerThread).map StartupPc.worker

/-! ## What each thread knows -/

section

variable {s s' s'' : Startup} {i n : Nat}

/-- Somebody has written the entry of `workerOnList`. -/
def Startup.Written (s : Startup) (i : Nat) : Prop :=
  ∃ on, s.workerOnList[i]? = some (some on)

/-- Worker `i` has said that it is on. -/
def Startup.IsOn (s : Startup) (i : Nat) : Prop := s.workerOnList[i]? = some (some true)

/-- Worker `i` has entered its queue. -/
def Startup.HasQueue (s : Startup) (i : Nat) : Prop :=
  ∃ queue, s.rioCQList[i]? = some (some queue)

/-- The lists with entries for `n` workers. -/
structure Lists (n : Nat) (s : Startup) : Prop where
  counts : s.numOfSessionInWorkerThread.length = n
  queues : s.rioCQList.length = n
  flags : s.workerOnList.length = n
  written : ∀ i < s.workerThreads, s.Written i
  on : ∀ i, s.IsOn i → i < s.workerThreads ∧ s.HasQueue i
  ready : s.accepterThread = true → ∀ i < n, s.IsOn i
  defined : s.undefined = true → n = 0 ∧ s.accepterThread = true
  corrupt : s.pastResults = true → s.invalidQueue = true
  invalid : ∀ i : Nat, s.rioCQList[i]? = some (some .invalid) → s.invalidQueue = true

/-- What has gone wrong so far. -/
def Startup.wrong (s : Startup) : Bool × Bool × Bool :=
  (s.invalidQueue, s.undefined, s.pastResults)

/-- No other thread has been started. -/
structure NotStarted (s : Startup) : Prop where
  workerThreads : s.workerThreads = 0
  accepterThread : s.accepterThread = false
  wrong : s.wrong = (false, false, false)
  on : ∀ i, ¬s.IsOn i

/-- Nobody is on before there is a list to say so. -/
theorem NotStarted.new (hthreads : s.workerThreads = 0) (haccepter : s.accepterThread = false)
    (hwrong : s.wrong = (false, false, false)) (hflags : s.workerOnList = []) : NotStarted s := by
  refine ⟨hthreads, haccepter, hwrong, fun i hi => ?_⟩
  rw [Startup.IsOn, hflags] at hi
  cases hi

/-- What `StartServer` has made when it has come to a counter. -/
def Main (n : Nat) (s : Startup) : StartupPc → Prop
  | .emplaceBack i => i ≤ n ∧ s = { Startup.empty with
      numOfSessionInWorkerThread := List.replicate i 0 }
  | .call .wsaIoctl | .newCQList => s = { Startup.empty with
      numOfSessionInWorkerThread := List.replicate n 0 }
  | .newWorkerOnList => s = { Startup.empty with
      numOfSessionInWorkerThread := List.replicate n 0, rioCQList := List.replicate n none }
  | .serverOptionParsing | .call _ => s = .empty
  | .setWorkerOff i => i ≤ n ∧ Lists n s ∧ s.workerThreads = i ∧ s.accepterThread = false
  | .startWorker i =>
    i < n ∧ Lists n s ∧ s.workerThreads = i ∧ s.accepterThread = false ∧ s.Written i
  | .testWorkerOn i => i ≤ n ∧ Lists n s ∧ s.workerThreads = n ∧ s.accepterThread = false ∧
      ∀ j < i, s.IsOn j
  | .sleep => Lists n s ∧ s.workerThreads = n ∧ s.accepterThread = false
  | .startAccepter =>
    Lists n s ∧ s.workerThreads = n ∧ s.accepterThread = false ∧ ∀ j < n, s.IsOn j
  | .returned true => Lists n s ∧ s.workerThreads = n ∧ s.accepterThread = true
  | .returned false => NotStarted s ∧ s.rioCQList = []
  | _ => False

/-- What a worker and the accepter rely on. -/
def Knows (n : Nat) (s : Startup) : StartupPc → Prop
  | .worker i => i < n
  | .createCompletionQueue i => i < s.workerThreads
  | .setWorkerOn i => i < s.workerThreads ∧ s.HasQueue i
  | .dequeue i => s.IsOn i
  | .handle i _ numOfResults =>
    s.IsOn i ∧ (numOfResults ≤ maxRioResult ∨ s.invalidQueue = true)
  | .pastResults i => s.IsOn i ∧ s.pastResults = true
  | .accepter => True
  | .accept | .closeClient => s.accepterThread = true
  | .scan _ _ i | .getNewSession i | .registerBuffers i | .createRequestQueue i =>
    s.accepterThread = true ∧ (i < n ∨ i = 0)
  | .incrementNumOfSession i => s.accepterThread = true ∧ i < n
  | .emplace | .enter => s.accepterThread = true ∧ 0 < n
  | .finished => s.accepterThread = true ∧ s.undefined = true
  | _ => False

/-- Whose step it is: a worker's, or the accepter's. -/
def StartupPc.worker? : StartupPc → Option Nat
  | .worker i | .createCompletionQueue i | .setWorkerOn i | .dequeue i | .handle i _ _
  | .pastResults i => some i
  | _ => none

/-- What the workers and the accepter rely on stays true. -/
structure Grows (s s' : Startup) : Prop where
  workerThreads : s.workerThreads ≤ s'.workerThreads
  accepterThread : s.accepterThread = true → s'.accepterThread = true
  undefined : s.undefined = true → s'.undefined = true
  invalidQueue : s.invalidQueue = true → s'.invalidQueue = true
  pastResults : s.pastResults = true → s'.pastResults = true
  made : ∀ i, s.HasQueue i → s'.HasQueue i
  on : ∀ i, s.IsOn i → s'.IsOn i

theorem Grows.refl (s : Startup) : Grows s s :=
  ⟨Nat.le_refl _, id, id, id, id, fun _ => id, fun _ => id⟩

theorem Grows.trans (h : Grows s s') (h' : Grows s' s'') : Grows s s'' where
  workerThreads := h.workerThreads.trans h'.workerThreads
  accepterThread := h'.accepterThread ∘ h.accepterThread
  undefined := h'.undefined ∘ h.undefined
  invalidQueue := h'.invalidQueue ∘ h.invalidQueue
  pastResults := h'.pastResults ∘ h.pastResults
  made i := h'.made i ∘ h.made i
  on i := h'.on i ∘ h.on i

theorem Knows.grow {pc : StartupPc} (h : Knows n s pc) (hs : Grows s s') : Knows n s' pc := by
  cases pc with
  | worker i => exact h
  | createCompletionQueue i => exact Nat.lt_of_lt_of_le h hs.workerThreads
  | setWorkerOn i => exact ⟨Nat.lt_of_lt_of_le h.1 hs.workerThreads, hs.made i h.2⟩
  | dequeue i => exact hs.on i h
  | handle i _ numOfResults => exact ⟨hs.on i h.1, h.2.imp_right hs.invalidQueue⟩
  | pastResults i => exact ⟨hs.on i h.1, hs.pastResults h.2⟩
  | accepter => trivial
  | accept | closeClient => exact hs.accepterThread h
  | scan _ _ i | getNewSession i | registerBuffers i | createRequestQueue i
  | incrementNumOfSession i | emplace | enter => exact ⟨hs.accepterThread h.1, h.2⟩
  | finished => exact ⟨hs.accepterThread h.1, hs.undefined h.2⟩
  | _ => exact h.elim

/-! ## The steps of `StartServer` -/

/-- Both lists are new. -/
theorem lists_new (n : Nat) :
    Lists n ⟨List.replicate n 0, List.replicate n none, List.replicate n none, 0, false, false,
      false, false⟩ where
  counts := List.length_replicate
  queues := List.length_replicate
  flags := List.length_replicate
  written := by simp
  on := by
    intro i hi
    simp [Startup.IsOn, List.getElem?_replicate] at hi
  ready := by simp
  defined := by simp
  corrupt := by simp
  invalid := by
    intro i hi
    simp [List.getElem?_replicate] at hi

/-- An entry of a worker that does not run yet is written. -/
theorem Lists.setWorkerOff (hs : Lists n s) (hi : s.workerThreads ≤ i) (hn : i < n) :
    Lists n { s with workerOnList := s.workerOnList.set i (some false) } ∧
      Startup.Written { s with workerOnList := s.workerOnList.set i (some false) } i ∧
      Grows s { s with workerOnList := s.workerOnList.set i (some false) } := by
  have hkeep : ∀ j, j ≠ i → (s.workerOnList.set i (some false))[j]? = s.workerOnList[j]? :=
    fun j hj => List.getElem?_set_ne (Ne.symm hj)
  have hset : (s.workerOnList.set i (some false))[i]? = some (some false) :=
    List.getElem?_set_self (by rw [hs.flags]; exact hn)
  have hon : ∀ j, s.IsOn j → j ≠ i := by
    intro j hj
    have hlt := (hs.on j hj).1
    omega
  have hgrows : Grows s { s with workerOnList := s.workerOnList.set i (some false) } :=
    ⟨Nat.le_refl _, id, id, id, id, fun _ => id, fun j hj => (hkeep j (hon j hj)).trans hj⟩
  refine ⟨⟨hs.counts, hs.queues, ?_, ?_, ?_, ?_, hs.defined, hs.corrupt, hs.invalid⟩,
    ⟨false, hset⟩, hgrows⟩
  · show (s.workerOnList.set i (some false)).length = n
    rw [List.length_set]
    exact hs.flags
  · intro j hj
    obtain ⟨on, hon⟩ := hs.written j hj
    have hne : j ≠ i := by
      have hlt : j < s.workerThreads := hj
      omega
    exact ⟨on, (hkeep j hne).trans hon⟩
  · intro j hj
    by_cases hji : j = i
    · subst hji
      have hfalse := hset.symm.trans hj
      cases hfalse
    · exact hs.on j ((hkeep j hji).symm.trans hj)
  · intro haccepter j hj
    exact hgrows.on j (hs.ready haccepter j hj)

/-- **A step of `StartServer`**: it goes on from what it has made, takes nothing away
from the others, and does nothing wrong. -/
theorem Main.exec {file : ServerOptionFile} {pc pc' : StartupPc} {o : StartupOracle}
    (h : Main file.numOfWorkerThread s pc) (hexec : execStartup file pc o s = some (s', pc')) :
    Main file.numOfWorkerThread s' pc' ∧ Grows s s' ∧ s'.wrong = s.wrong := by
  generalize hn : file.numOfWorkerThread = n at *
  cases pc with
  | serverOptionParsing =>
    obtain rfl : s = .empty := h
    simp only [execStartup] at hexec
    split at hexec <;> cases hexec
    · exact ⟨rfl, .refl _, rfl⟩
    · exact ⟨⟨.new rfl rfl rfl rfl, rfl⟩, .refl _, rfl⟩
  | call call =>
    simp only [execStartup] at hexec
    split at hexec <;> cases hexec
    · refine ⟨?_, .refl _, rfl⟩
      cases call with
      | listen =>
        simp only [StartCall.next]
        split <;> exact h
      | setLinger => exact ⟨Nat.zero_le n, h⟩
      | wsaStartup | wsaSocket | bind | setNoDelay | wsaIoctl => exact h
    · refine ⟨?_, .refl _, rfl⟩
      cases call <;> cases h <;> exact ⟨.new rfl rfl rfl rfl, rfl⟩
  | emplaceBack i =>
    obtain ⟨hi, rfl⟩ := h
    simp only [execStartup, hn] at hexec
    split at hexec <;> cases hexec
    · next hlt =>
      refine ⟨⟨hlt, ?_⟩, ⟨Nat.le_refl _, id, id, id, id, fun _ => id, fun _ => id⟩, rfl⟩
      rw [List.replicate_succ']
    · obtain rfl : i = n := by omega
      exact ⟨rfl, .refl _, rfl⟩
  | newCQList =>
    obtain rfl := h
    simp only [execStartup, hn] at hexec
    cases hexec
    exact ⟨rfl, ⟨Nat.le_refl _, id, id, id, id,
      fun _ hi => by simp [Startup.HasQueue, Startup.empty] at hi, fun _ => id⟩, rfl⟩
  | newWorkerOnList =>
    obtain rfl := h
    simp only [execStartup, hn] at hexec
    cases hexec
    exact ⟨⟨Nat.zero_le n, lists_new n, rfl, rfl⟩, ⟨Nat.le_refl _, id, id, id, id, fun _ => id,
      fun _ hi => by simp [Startup.IsOn, Startup.empty] at hi⟩, rfl⟩
  | setWorkerOff i =>
    obtain ⟨hi, hs, hthreads, haccepter⟩ := h
    simp only [execStartup, hn] at hexec
    split at hexec <;> cases hexec
    · next hlt =>
      obtain ⟨hs', hwritten, hgrows⟩ := hs.setWorkerOff hthreads.le hlt
      exact ⟨⟨hlt, hs', hthreads, haccepter, hwritten⟩, hgrows, rfl⟩
    · obtain rfl : i = n := by omega
      exact ⟨⟨Nat.zero_le i, hs, hthreads, haccepter, fun j hj => absurd hj (Nat.not_lt_zero j)⟩,
        .refl _, rfl⟩
  | startWorker i =>
    obtain ⟨hi, hs, hthreads, haccepter, hwritten⟩ := h
    cases hexec
    refine ⟨⟨hi, ⟨hs.counts, hs.queues, hs.flags, ?_, ?_, hs.ready, hs.defined, hs.corrupt,
      hs.invalid⟩, rfl, haccepter⟩, ⟨?_, id, id, id, id, fun _ => id, fun _ => id⟩, rfl⟩
    · intro j hj
      rcases Nat.lt_succ_iff_lt_or_eq.mp hj with hlt | rfl
      · exact hs.written j (hthreads ▸ hlt)
      · exact hwritten
    · intro j hj
      obtain ⟨hlt, hqueue⟩ := hs.on j hj
      exact ⟨show j < i + 1 by omega, hqueue⟩
    · show s.workerThreads ≤ i + 1
      omega
  | testWorkerOn i =>
    obtain ⟨hi, hs, hthreads, haccepter, hon⟩ := h
    simp only [execStartup, hn] at hexec
    split at hexec
    · next hlt =>
      obtain ⟨on, hwritten⟩ := hs.written i (by omega)
      rw [hwritten] at hexec
      cases on with
      | false =>
        cases hexec
        exact ⟨⟨hs, hthreads, haccepter⟩, .refl _, rfl⟩
      | true =>
        cases hexec
        refine ⟨⟨hlt, hs, hthreads, haccepter, fun j hj => ?_⟩, .refl _, rfl⟩
        rcases Nat.lt_succ_iff_lt_or_eq.mp hj with hlt | rfl
        · exact hon j hlt
        · exact hwritten
    · cases hexec
      obtain rfl : i = n := by omega
      exact ⟨⟨hs, hthreads, haccepter, hon⟩, .refl _, rfl⟩
  | sleep =>
    obtain ⟨hs, hthreads, haccepter⟩ := h
    cases hexec
    exact ⟨⟨Nat.zero_le n, hs, hthreads, haccepter, fun j hj => absurd hj (Nat.not_lt_zero j)⟩,
      .refl _, rfl⟩
  | startAccepter =>
    obtain ⟨hs, hthreads, haccepter, hon⟩ := h
    cases hexec
    exact ⟨⟨⟨hs.counts, hs.queues, hs.flags, hs.written, hs.on, fun _ => hon,
      fun h => ⟨(hs.defined h).1, rfl⟩, hs.corrupt, hs.invalid⟩, hthreads, rfl⟩,
      ⟨Nat.le_refl _, fun _ => rfl, id, id, id, fun _ => id, fun _ => id⟩, rfl⟩
  | returned => cases hexec
  | _ => exact h.elim

/-! ## The steps of the workers and the accepter -/

/-- What a step of a worker or of the accepter leaves as it is. -/
structure Keeps (n : Nat) (s s' : Startup) : Prop extends Grows s s' where
  workerThreads_eq : s'.workerThreads = s.workerThreads
  accepterThread_eq : s'.accepterThread = s.accepterThread
  written : ∀ i, s.Written i → s'.Written i
  lists : Lists n s → Lists n s'

theorem Keeps.refl (n : Nat) (s : Startup) : Keeps n s s :=
  ⟨.refl s, rfl, rfl, fun _ => id, id⟩

/-- The sessions of the workers are counted anew. -/
theorem Keeps.counts {counts : List Nat}
    (hlen : counts.length = s.numOfSessionInWorkerThread.length) :
    Keeps n s { s with numOfSessionInWorkerThread := counts } :=
  ⟨⟨Nat.le_refl _, id, id, id, id, fun _ => id, fun _ => id⟩, rfl, rfl, fun _ => id,
    fun hs => ⟨hlen.trans hs.counts, hs.queues, hs.flags, hs.written, hs.on, hs.ready,
      hs.defined, hs.corrupt, hs.invalid⟩⟩

/-- A completion may release a session. -/
theorem Keeps.releaseSession (released : Option Nat) : Keeps n s (s.releaseSession released) := by
  cases released with
  | none => exact .refl n s
  | some threadId => exact .counts (List.length_modify ..)

/-- A worker enters its queue, and it is on record if that is none. -/
theorem Keeps.createCompletionQueue (hs : Lists n s) (hi : i < n) {queue : CompletionQueue}
    {ok : Bool} (hok : queue = .invalid → ok = false) :
    Keeps n s { s with
        rioCQList := s.rioCQList.set i (some queue), invalidQueue := !ok || s.invalidQueue } ∧
      Startup.HasQueue { s with
        rioCQList := s.rioCQList.set i (some queue), invalidQueue := !ok || s.invalidQueue } i := by
  have hset : (s.rioCQList.set i (some queue))[i]? = some (some queue) :=
    List.getElem?_set_self (by rw [hs.queues]; exact hi)
  have hkeep : ∀ j, j ≠ i → (s.rioCQList.set i (some queue))[j]? = s.rioCQList[j]? :=
    fun j hj => List.getElem?_set_ne (Ne.symm hj)
  have hrecord : s.invalidQueue = true → (!ok || s.invalidQueue) = true := by
    intro htrue
    rw [htrue, Bool.or_true]
  have hgrows : Grows s { s with
      rioCQList := s.rioCQList.set i (some queue), invalidQueue := !ok || s.invalidQueue } := by
    refine ⟨Nat.le_refl _, id, id, hrecord, id, fun j hj => ?_, fun _ => id⟩
    obtain ⟨queue', hj⟩ := hj
    by_cases hji : j = i
    · rw [hji]
      exact ⟨queue, hset⟩
    · exact ⟨queue', (hkeep j hji).trans hj⟩
  refine ⟨⟨hgrows, rfl, rfl, fun _ => id, fun hs => ?_⟩, ⟨queue, hset⟩⟩
  refine ⟨hs.counts, List.length_set.trans hs.queues, hs.flags, hs.written, ?_, hs.ready,
    hs.defined, fun h => hrecord (hs.corrupt h), ?_⟩
  · intro j hj
    obtain ⟨hlt, hqueue⟩ := hs.on j hj
    exact ⟨hlt, hgrows.made j hqueue⟩
  · intro j hj
    by_cases hji : j = i
    · rw [hji] at hj
      have hinvalid : queue = .invalid := Option.some.inj (Option.some.inj (hset.symm.trans hj))
      show (!ok || s.invalidQueue) = true
      rw [hok hinvalid]
      rfl
    · exact hrecord (hs.invalid j ((hkeep j hji).symm.trans hj))

/-- A worker that has entered its queue says that it is on. -/
theorem Keeps.setWorkerOn (hs : Lists n s) (hn : i < n) (hi : i < s.workerThreads)
    (hqueue : s.HasQueue i) :
    Keeps n s { s with workerOnList := s.workerOnList.set i (some true) } ∧
      Startup.IsOn { s with workerOnList := s.workerOnList.set i (some true) } i := by
  have hset : (s.workerOnList.set i (some true))[i]? = some (some true) :=
    List.getElem?_set_self (by rw [hs.flags]; exact hn)
  have hkeep : ∀ j, j ≠ i → (s.workerOnList.set i (some true))[j]? = s.workerOnList[j]? :=
    fun j hj => List.getElem?_set_ne (Ne.symm hj)
  have hon : ∀ j, s.IsOn j → (s.workerOnList.set i (some true))[j]? = some (some true) := by
    intro j hj
    by_cases hji : j = i
    · rw [hji]
      exact hset
    · exact (hkeep j hji).trans hj
  have hwritten : ∀ j, s.Written j →
      Startup.Written { s with workerOnList := s.workerOnList.set i (some true) } j := by
    intro j ⟨on, hj⟩
    by_cases hji : j = i
    · rw [hji]
      exact ⟨true, hset⟩
    · exact ⟨on, (hkeep j hji).trans hj⟩
  refine ⟨⟨⟨Nat.le_refl _, id, id, id, id, fun _ => id, hon⟩, rfl, rfl, hwritten, fun hs => ?_⟩,
    hset⟩
  refine ⟨hs.counts, hs.queues, List.length_set.trans hs.flags,
    fun j hj => hwritten j (hs.written j hj), ?_,
    fun haccepter j hj => hon j (hs.ready haccepter j hj), hs.defined, hs.corrupt, hs.invalid⟩
  intro j hj
  by_cases hji : j = i
  · rw [hji]
    exact ⟨hi, hqueue⟩
  · exact hs.on j ((hkeep j hji).symm.trans hj)

/-- Without a worker the accepter reads what is not there. -/
theorem Keeps.fault (hn : n = 0) (haccepter : s.accepterThread = true) :
    Keeps n s { s with undefined := true } :=
  ⟨⟨Nat.le_refl _, id, fun _ => rfl, id, id, fun _ => id, fun _ => id⟩, rfl, rfl, fun _ => id,
    fun hs => ⟨hs.counts, hs.queues, hs.flags, hs.written, hs.on, hs.ready,
      fun _ => ⟨hn, haccepter⟩, hs.corrupt, hs.invalid⟩⟩

/-- A worker without a queue reads past its results. -/
theorem Keeps.ranPast (hinvalid : s.invalidQueue = true) :
    Keeps n s { s with pastResults := true } :=
  ⟨⟨Nat.le_refl _, id, id, id, fun _ => rfl, fun _ => id, fun _ => id⟩, rfl, rfl, fun _ => id,
    fun hs => ⟨hs.counts, hs.queues, hs.flags, hs.written, hs.on, hs.ready, hs.defined,
      fun _ => hinvalid, hs.invalid⟩⟩

/-- There are more results than `rioResults` has room for only without a queue. -/
theorem rioDequeueCompletion_le (hs : Lists n s) {queue : CompletionQueue}
    (hqueue : s.rioCQList[i]? = some (some queue)) (numOfResults : Nat) :
    queue.rioDequeueCompletion numOfResults ≤ maxRioResult ∨ s.invalidQueue = true := by
  cases queue with
  | queue size => exact .inl (Nat.min_le_right _ _)
  | invalid => exact .inr (hs.invalid i hqueue)

/-- Nobody runs before he was started. -/
theorem Knows.blocked {file : ServerOptionFile} {pc : StartupPc} {o : StartupOracle}
    {next : Startup × StartupPc} (h : Knows n s pc) (hs : NotStarted s) :
    execStartup file pc o s ≠ some next := by
  intro hexec
  have hthreads := hs.workerThreads
  have haccepter := hs.accepterThread
  cases pc with
  | worker i => simp [execStartup, hthreads] at hexec
  | accepter => simp [execStartup, haccepter] at hexec
  | createCompletionQueue i =>
    have hlt : i < s.workerThreads := h
    omega
  | setWorkerOn i =>
    have hlt := h.1
    omega
  | dequeue i => exact hs.on i h
  | handle i | pastResults i => exact hs.on i h.1
  | accept | closeClient =>
    have htrue : s.accepterThread = true := h
    rw [haccepter] at htrue
    cases htrue
  | scan | getNewSession | registerBuffers | createRequestQueue | incrementNumOfSession
  | emplace | enter | finished =>
    have htrue := h.1
    rw [haccepter] at htrue
    cases htrue
  | _ => exact h.elim

/-- **A step of a worker or of the accepter**: it finds what it relies on, and
leaves to the others what they rely on. -/
theorem Knows.exec {file : ServerOptionFile} {pc pc' : StartupPc} {o : StartupOracle}
    (hs : Lists file.numOfWorkerThread s) (hthreads : s.workerThreads ≤ file.numOfWorkerThread)
    (h : Knows file.numOfWorkerThread s pc) (hexec : execStartup file pc o s = some (s', pc')) :
    Keeps file.numOfWorkerThread s s' ∧ Knows file.numOfWorkerThread s' pc' ∧
      pc'.worker? = pc.worker? := by
  generalize hn : file.numOfWorkerThread = n at *
  have hmade : s.accepterThread = true → ∀ i < n, s.HasQueue i := fun haccepter i hi =>
    (hs.on i (hs.ready haccepter i hi)).2
  cases pc with
  | worker i =>
    obtain ⟨hlt, hexec⟩ := Option.ite_none_right_eq_some.mp hexec
    cases hexec
    exact ⟨.refl n s, hlt, rfl⟩
  | createCompletionQueue i =>
    cases hexec
    have hlt : i < s.workerThreads := h
    obtain ⟨hkeeps, hqueue⟩ := Keeps.createCompletionQueue hs (show i < n by omega)
      (show (if o.ok then CompletionQueue.queue (completionQueueSize
        file.options.numOfWorkerThread file.options.maxClientCount) else .invalid) = .invalid →
          o.ok = false by cases o.ok <;> simp)
    exact ⟨hkeeps, ⟨hlt, hqueue⟩, rfl⟩
  | setWorkerOn i =>
    cases hexec
    obtain ⟨hlt, hqueue⟩ := h
    obtain ⟨hkeeps, hon⟩ := Keeps.setWorkerOn hs (by omega) hlt hqueue
    exact ⟨hkeeps, hon, rfl⟩
  | dequeue i =>
    obtain ⟨queue, hqueue⟩ := (hs.on i h).2
    simp only [execStartup, hqueue] at hexec
    cases hexec
    exact ⟨.refl n s, ⟨h, rioDequeueCompletion_le hs hqueue _⟩, rfl⟩
  | handle threadId i numOfResults =>
    simp only [execStartup] at hexec
    split at hexec
    · next hlt =>
      split at hexec
      · split at hexec <;> cases hexec
        · exact ⟨.refl n s, h, rfl⟩
        · have hkeeps : Keeps n s (s.releaseSession o.released) := .releaseSession o.released
          exact ⟨hkeeps, ⟨hkeeps.on threadId h.1, h.2.imp_right hkeeps.invalidQueue⟩, rfl⟩
      · next hpast =>
        cases hexec
        have hinvalid : s.invalidQueue = true := h.2.resolve_left (by omega)
        exact ⟨.ranPast hinvalid, ⟨h.1, rfl⟩, rfl⟩
    · cases hexec
      exact ⟨.refl n s, h.1, rfl⟩
  | pastResults => cases hexec
  | accepter =>
    obtain ⟨haccepter, hexec⟩ := Option.ite_none_right_eq_some.mp hexec
    cases hexec
    exact ⟨.refl n s, haccepter, rfl⟩
  | accept =>
    simp only [execStartup] at hexec
    split at hexec <;> cases hexec
    · exact ⟨.refl n s, ⟨h, .inr rfl⟩, rfl⟩
    · exact ⟨.refl n s, h, rfl⟩
  | scan i minimum target =>
    obtain ⟨haccepter, htarget⟩ := h
    simp only [execStartup] at hexec
    split at hexec
    · next count hcount =>
      have hlt : i < n := by
        rw [← hs.counts]
        exact (List.getElem?_eq_some_iff.mp hcount).1
      split at hexec
      · cases hexec
        exact ⟨.refl n s, ⟨haccepter, .inl hlt⟩, rfl⟩
      · split at hexec <;> cases hexec
        · exact ⟨.refl n s, ⟨haccepter, .inl hlt⟩, rfl⟩
        · exact ⟨.refl n s, ⟨haccepter, htarget⟩, rfl⟩
    · cases hexec
      exact ⟨.refl n s, ⟨haccepter, htarget⟩, rfl⟩
  | getNewSession i | registerBuffers i =>
    simp only [execStartup] at hexec
    split at hexec <;> cases hexec
    · exact ⟨.refl n s, h, rfl⟩
    · exact ⟨.refl n s, h.1, rfl⟩
  | createRequestQueue i =>
    obtain ⟨haccepter, hi⟩ := h
    by_cases hlt : i < n
    · obtain ⟨queue, hqueue⟩ := hmade haccepter i hlt
      simp only [execStartup, hqueue] at hexec
      split at hexec <;> cases hexec
      · exact ⟨.refl n s, ⟨haccepter, hlt⟩, rfl⟩
      · exact ⟨.refl n s, haccepter, rfl⟩
    · -- there is no entry at all
      obtain rfl : i = 0 := by omega
      have hzero : n = 0 := by omega
      have hnone : s.rioCQList[0]? = none :=
        List.getElem?_eq_none (by rw [hs.queues, hzero])
      simp only [execStartup, hnone] at hexec
      cases hexec
      exact ⟨.fault hzero haccepter, ⟨haccepter, rfl⟩, rfl⟩
  | incrementNumOfSession i =>
    obtain ⟨haccepter, hlt⟩ := h
    simp only [execStartup, hs.counts, if_pos hlt] at hexec
    cases hexec
    have hpos : 0 < n := by omega
    exact ⟨.counts (List.length_modify ..), ⟨haccepter, hpos⟩, rfl⟩
  | emplace =>
    obtain ⟨-, hexec⟩ := Option.ite_none_right_eq_some.mp hexec
    cases hexec
    exact ⟨.refl n s, h, rfl⟩
  | enter =>
    cases hexec
    exact ⟨.refl n s, h.1, rfl⟩
  | closeClient =>
    cases hexec
    exact ⟨.refl n s, h, rfl⟩
  | finished => cases hexec
  | _ => exact h.elim

/-- Before `StartServer` starts the threads, nothing has happened; from then on the
lists are there, and the other threads do not disturb it. -/
theorem Main.notStarted_or_keep {pc : StartupPc} (h : Main n s pc) :
    NotStarted s ∨ Lists n s ∧ s.workerThreads ≤ n ∧ ∀ s', Keeps n s s' → Main n s' pc := by
  cases pc with
  | setWorkerOff i =>
    obtain ⟨hi, hlists, hthreads, haccepter⟩ := h
    refine .inr ⟨hlists, hthreads.trans_le hi, fun s' hs => ?_⟩
    exact ⟨hi, hs.lists hlists, hs.workerThreads_eq.trans hthreads,
      hs.accepterThread_eq.trans haccepter⟩
  | startWorker i =>
    obtain ⟨hi, hlists, hthreads, haccepter, hwritten⟩ := h
    refine .inr ⟨hlists, hthreads.trans_le hi.le, fun s' hs => ?_⟩
    exact ⟨hi, hs.lists hlists, hs.workerThreads_eq.trans hthreads,
      hs.accepterThread_eq.trans haccepter, hs.written i hwritten⟩
  | testWorkerOn i =>
    obtain ⟨hi, hlists, hthreads, haccepter, hon⟩ := h
    refine .inr ⟨hlists, hthreads.le, fun s' hs => ?_⟩
    exact ⟨hi, hs.lists hlists, hs.workerThreads_eq.trans hthreads,
      hs.accepterThread_eq.trans haccepter, fun j hj => hs.on j (hon j hj)⟩
  | sleep =>
    obtain ⟨hlists, hthreads, haccepter⟩ := h
    refine .inr ⟨hlists, hthreads.le, fun s' hs => ?_⟩
    exact ⟨hs.lists hlists, hs.workerThreads_eq.trans hthreads,
      hs.accepterThread_eq.trans haccepter⟩
  | startAccepter =>
    obtain ⟨hlists, hthreads, haccepter, hon⟩ := h
    refine .inr ⟨hlists, hthreads.le, fun s' hs => ?_⟩
    exact ⟨hs.lists hlists, hs.workerThreads_eq.trans hthreads,
      hs.accepterThread_eq.trans haccepter, fun j hj => hs.on j (hon j hj)⟩
  | returned result =>
    cases result with
    | true =>
      obtain ⟨hlists, hthreads, haccepter⟩ := h
      refine .inr ⟨hlists, hthreads.le, fun s' hs => ?_⟩
      exact ⟨hs.lists hlists, hs.workerThreads_eq.trans hthreads,
        hs.accepterThread_eq.trans haccepter⟩
    | false => exact .inl h.1
  | serverOptionParsing | newCQList | newWorkerOnList =>
    cases h
    exact .inl (.new rfl rfl rfl rfl)
  | emplaceBack i =>
    obtain ⟨-, rfl⟩ := h
    exact .inl (.new rfl rfl rfl rfl)
  | call call =>
    cases call <;> cases h <;> exact .inl (.new rfl rfl rfl rfl)
  | _ => exact h.elim

/-- Only a `StartServer` that has returned `true` has started the accepter. -/
theorem Main.returned_of_accepterThread {pc : StartupPc} (h : Main n s pc)
    (haccepter : s.accepterThread = true) : .returned true = pc := by
  have hno : ∀ {P : Prop}, s.accepterThread = false → P := fun h => by
    rw [h] at haccepter
    cases haccepter
  cases pc with
  | setWorkerOff => exact hno h.2.2.2
  | startWorker | testWorkerOn => exact hno h.2.2.2.1
  | sleep => exact hno h.2.2
  | startAccepter => exact hno h.2.2.1
  | returned result =>
    cases result with
    | true => rfl
    | false => exact hno h.1.accepterThread
  | serverOptionParsing | newCQList | newWorkerOnList =>
    cases h
    cases haccepter
  | emplaceBack i =>
    obtain ⟨-, rfl⟩ := h
    cases haccepter
  | call call => cases call <;> cases h <;> cases haccepter
  | _ => exact h.elim

end

/-! ## All threads -/

section

variable {file : ServerOptionFile} {s s' : Startup} {ts : List StartupPc} {i : Nat}

/-- `StartServer`, the accepter and the workers, each with what it relies on. -/
structure Starting (file : ServerOptionFile) (s : Startup) (main : StartupPc)
    (others : List StartupPc) : Prop where
  main : Main file.numOfWorkerThread s main
  knows : ∀ pc ∈ others, Knows file.numOfWorkerThread s pc
  who : others.map StartupPc.worker? =
    none :: (List.range file.numOfWorkerThread).map some

/-- Nobody else returns from `StartServer`. -/
theorem Starting.main_of_mem {main : StartupPc} {others : List StartupPc} {result : Bool}
    (hI : Starting file s main others) (h : .returned result ∈ main :: others) :
    main = .returned result := by
  rcases List.mem_cons.mp h with h | hmem
  · exact h.symm
  · exact (hI.knows _ hmem).elim

/-- With the accepter, all workers were started. -/
theorem Starting.started {main : StartupPc} {others : List StartupPc}
    (hI : Starting file s main others) (haccepter : s.accepterThread = true) :
    Lists file.numOfWorkerThread s ∧ s.workerThreads = file.numOfWorkerThread := by
  have hmain := hI.main
  rw [← hmain.returned_of_accepterThread haccepter] at hmain
  exact ⟨hmain.1, hmain.2.1⟩

/-- **Every run** keeps the threads as they are, each with what it relies on. -/
theorem starting {c : Config Startup StartupPc}
    (h : (startup file).Reachable (startup.init file) c) :
    ∃ main others, c.threads = main :: others ∧ Starting file c.shared main others := by
  refine Run.induct (I := fun s ts => ∃ main others, ts = main :: others ∧
    Starting file s main others) h ?_ ?_ ?_
  · refine ⟨_, _, rfl, rfl, ?_, ?_⟩
    · intro pc hpc
      rcases List.mem_cons.mp hpc with rfl | hpc
      · trivial
      · obtain ⟨i, hi, rfl⟩ := List.mem_map.mp hpc
        exact List.mem_range.mp hi
    · simp [StartupPc.worker?, Function.comp_def]
  · intro s l pc r o s' pc' _ ⟨main, others, hts, hI⟩ _ hexec
    cases l with
    | nil =>
      -- `StartServer` itself
      obtain ⟨rfl, rfl⟩ := List.cons.inj hts
      obtain ⟨hmain, hgrows, -⟩ := hI.main.exec hexec
      exact ⟨pc', r, rfl, hmain, fun q hq => (hI.knows q hq).grow hgrows, hI.who⟩
    | cons main' l =>
      obtain ⟨rfl, rfl⟩ := List.cons.inj hts
      obtain ⟨hl, hpc, hr⟩ := forall_mem_place.mp hI.knows
      rcases hI.main.notStarted_or_keep with hstart | ⟨hlists, hthreads, hkeep⟩
      · exact absurd hexec (hpc.blocked hstart)
      · obtain ⟨hkeeps, hpc', hwho⟩ := hpc.exec hlists hthreads hexec
        refine ⟨main', l ++ pc' :: r, rfl, hkeep s' hkeeps, ?_, ?_⟩
        · exact forall_mem_place.mpr ⟨fun q hq => (hl q hq).grow hkeeps.toGrows, hpc',
            fun q hq => (hr q hq).grow hkeeps.toGrows⟩
        · have hsame : (l ++ pc' :: r).map StartupPc.worker? =
              (l ++ pc :: r).map StartupPc.worker? := by
            rw [List.map_append, List.map_append, List.map_cons, List.map_cons, hwho]
          exact hsame.trans hI.who
  · intro s ts e s' pc _ _ hspawn
    cases e

/-! ## `StartServer` can always return -/

/-- `StartServer` waits for the workers, or has waited. -/
def StartupPc.Waits : StartupPc → Prop
  | .testWorkerOn _ | .sleep | .startAccepter | .returned _ => True
  | _ => False

/-- What is left to do before it waits. -/
def StartupPc.beforeWait (n : Nat) : StartupPc → Nat
  | .serverOptionParsing => 3 * n + 14
  | .call .wsaStartup => 3 * n + 13
  | .call .wsaSocket => 3 * n + 12
  | .call .bind => 3 * n + 11
  | .call .listen => 3 * n + 10
  | .call .setNoDelay => 3 * n + 9
  | .call .setLinger => 3 * n + 8
  | .emplaceBack i => 2 * n + (n - i) + 7
  | .call .wsaIoctl => 2 * n + 6
  | .newCQList => 2 * n + 5
  | .newWorkerOnList => 2 * n + 4
  | .setWorkerOff i => 2 * (n - i) + 3
  | .startWorker i => 2 * (n - i) + 2
  | _ => 0

/-- A worker that has not said yet that it is on. -/
def StartupPc.OnTheWay : StartupPc → Prop
  | .worker _ | .createCompletionQueue _ | .setWorkerOn _ => True
  | _ => False

variable {n : Nat} {pc : StartupPc}

/-- `StartServer` comes a step nearer to its wait. -/
theorem Main.nearer (h : Main file.numOfWorkerThread s pc) (hpc : ¬pc.Waits) :
    ∃ o s' pc', (startup file).exec pc o s = some (s', pc') ∧
      Main file.numOfWorkerThread s' pc' ∧
      pc'.beforeWait file.numOfWorkerThread < pc.beforeWait file.numOfWorkerThread := by
  have hgo : ∀ s' pc', execStartup file pc ⟨true, 0, none⟩ s = some (s', pc') →
      pc'.beforeWait file.numOfWorkerThread < pc.beforeWait file.numOfWorkerThread →
      ∃ o s' pc', (startup file).exec pc o s = some (s', pc') ∧
        Main file.numOfWorkerThread s' pc' ∧
        pc'.beforeWait file.numOfWorkerThread < pc.beforeWait file.numOfWorkerThread :=
    fun s' pc' hexec hlt => ⟨_, s', pc', hexec, (h.exec hexec).1, hlt⟩
  cases pc with
  | serverOptionParsing =>
    cases hfile : serverOptionParsing file with
    | none =>
      exact hgo s (.returned false) (by simp only [execStartup, hfile])
        (by simp [StartupPc.beforeWait])
    | some options =>
      exact hgo s (.call .wsaStartup) (by simp only [execStartup, hfile])
        (by simp [StartupPc.beforeWait])
  | call call =>
    refine hgo s (call.next file.nagleOn) rfl ?_
    cases call with
    | listen =>
      simp only [StartCall.next]
      split <;> simp [StartupPc.beforeWait]
    | setLinger =>
      simp only [StartCall.next, StartupPc.beforeWait]
      omega
    | _ => simp [StartCall.next, StartupPc.beforeWait]
  | emplaceBack i =>
    by_cases hlt : i < file.numOfWorkerThread
    · refine hgo _ (.emplaceBack (i + 1)) (if_pos hlt) ?_
      simp only [StartupPc.beforeWait]
      omega
    · refine hgo s (.call .wsaIoctl) (if_neg hlt) ?_
      simp only [StartupPc.beforeWait]
      omega
  | newCQList | newWorkerOnList => exact hgo _ _ rfl (by simp [StartupPc.beforeWait])
  | setWorkerOff i =>
    by_cases hlt : i < file.numOfWorkerThread
    · exact hgo _ (.startWorker i) (if_pos hlt) (by simp [StartupPc.beforeWait])
    · exact hgo s (.testWorkerOn 0) (if_neg hlt) (by simp [StartupPc.beforeWait])
  | startWorker i =>
    have hlt := h.1
    refine hgo _ (.setWorkerOff (i + 1)) rfl ?_
    simp only [StartupPc.beforeWait]
    omega
  | testWorkerOn | sleep | startAccepter | returned => exact absurd trivial hpc
  | _ => exact h.elim

/-- It waits, or has waited, and all workers are on. -/
def WaitsForNobody (file : ServerOptionFile) (s : Startup) (pc : StartupPc) : Prop :=
  Main file.numOfWorkerThread s pc ∧ pc.Waits ∧ ∀ i < file.numOfWorkerThread, s.IsOn i

/-- What is left to do once all workers are on. -/
def StartupPc.afterWait (n : Nat) : StartupPc → Nat
  | .sleep => n + 3
  | .testWorkerOn i => n - i + 2
  | .startAccepter => 1
  | _ => 0

/-- With all workers on it returns. -/
theorem WaitsForNobody.returns (h : WaitsForNobody file s pc) :
    ∃ s' result, (startup file).Alone s pc s' (.returned result) := by
  have hstep : ∀ {s : Startup} {pc : StartupPc}, WaitsForNobody file s pc →
      ¬(∃ result, pc = .returned result) →
      ∃ o s' pc', (startup file).exec pc o s = some (s', pc') ∧ WaitsForNobody file s' pc' ∧
        pc'.afterWait file.numOfWorkerThread < pc.afterWait file.numOfWorkerThread := by
    intro s pc ⟨h, hpc, hon⟩ hdone
    have hgo : ∀ s' pc', execStartup file pc ⟨true, 0, none⟩ s = some (s', pc') → pc'.Waits →
        pc'.afterWait file.numOfWorkerThread < pc.afterWait file.numOfWorkerThread →
        ∃ o s' pc', (startup file).exec pc o s = some (s', pc') ∧ WaitsForNobody file s' pc' ∧
          pc'.afterWait file.numOfWorkerThread < pc.afterWait file.numOfWorkerThread := by
      intro s' pc' hexec hwaits hlt
      obtain ⟨hmain, hgrows, -⟩ := h.exec hexec
      exact ⟨_, s', pc', hexec, ⟨hmain, hwaits, fun i hi => hgrows.on i (hon i hi)⟩, hlt⟩
    cases pc with
    | testWorkerOn i =>
      by_cases hlt : i < file.numOfWorkerThread
      · have hi : s.workerOnList[i]? = some (some true) := hon i hlt
        refine hgo s (.testWorkerOn (i + 1)) (by simp only [execStartup, if_pos hlt, hi]) trivial ?_
        show file.numOfWorkerThread - (i + 1) + 2 < file.numOfWorkerThread - i + 2
        omega
      · refine hgo s .startAccepter (if_neg hlt) trivial ?_
        show 1 < file.numOfWorkerThread - i + 2
        omega
    | sleep => exact hgo _ _ rfl trivial (Nat.lt_succ_self _)
    | startAccepter => exact hgo _ _ rfl trivial Nat.one_pos
    | returned result => exact absurd ⟨result, rfl⟩ hdone
    | _ => exact hpc.elim
  obtain ⟨s', pc', halone, -, result, rfl⟩ := Alone.ends (J := WaitsForNobody file)
    (fun _ pc => pc.afterWait file.numOfWorkerThread) hstep h
  exact ⟨s', result, halone⟩

/-- Whatever it does alone, it does nothing wrong. -/
theorem Main.alone {pc' : StartupPc} (h : Main file.numOfWorkerThread s pc)
    (halone : (startup file).Alone s pc s' pc') :
    Main file.numOfWorkerThread s' pc' ∧ Grows s s' ∧ s'.wrong = s.wrong := by
  induction halone with
  | refl s pc => exact ⟨h, .refl s, rfl⟩
  | head hexec _ ih =>
    obtain ⟨hmain, hgrows, hwrong⟩ := h.exec hexec
    obtain ⟨hmain', hgrows', hwrong'⟩ := ih hmain
    exact ⟨hmain', hgrows.trans hgrows', hwrong'.trans hwrong⟩

/-- A worker that was started comes on, if it gets a queue. -/
theorem comes_on {s : Startup} (hpc : pc.OnTheWay)
    (h : Knows file.numOfWorkerThread s pc) (hs : s.workerThreads = file.numOfWorkerThread) :
    ∃ s' pc', (startup file).Alone s pc s' pc' ∧
      (s'.workerThreads = file.numOfWorkerThread ∧ s'.wrong = s.wrong) ∧ ¬pc'.OnTheWay := by
  have hset : ∀ {s : Startup} (i : Nat), s.workerThreads = file.numOfWorkerThread →
      ∃ s' pc', (startup file).Alone s (.setWorkerOn i) s' pc' ∧
        (s'.workerThreads = file.numOfWorkerThread ∧ s'.wrong = s.wrong) ∧ ¬pc'.OnTheWay :=
    fun {s} i hs => ⟨{ s with workerOnList := s.workerOnList.set i (some true) }, .dequeue i,
      .one (o := ⟨true, 0, none⟩) rfl, ⟨hs, rfl⟩, id⟩
  have hmake : ∀ {s : Startup} (i : Nat), s.workerThreads = file.numOfWorkerThread →
      ∃ s' pc', (startup file).Alone s (.createCompletionQueue i) s' pc' ∧
        (s'.workerThreads = file.numOfWorkerThread ∧ s'.wrong = s.wrong) ∧ ¬pc'.OnTheWay := by
    intro s i hs
    obtain ⟨s', pc', halone, hend⟩ := hset (s := { s with rioCQList := s.rioCQList.set i (some
      (.queue (completionQueueSize file.options.numOfWorkerThread
        file.options.maxClientCount))) }) i hs
    exact ⟨s', pc', .head (o := ⟨true, 0, none⟩) rfl halone, hend⟩
  cases pc with
  | worker i =>
    have hlt : i < s.workerThreads := hs ▸ h
    obtain ⟨s', pc', halone, hend⟩ := hmake i hs
    exact ⟨s', pc', .head (o := ⟨true, 0, none⟩) (if_pos hlt) halone, hend⟩
  | createCompletionQueue i => exact hmake i hs
  | setWorkerOn i => exact hset i hs
  | _ => exact hpc.elim

/-- A worker other than those on the way is on. -/
theorem Starting.isOn {main : StartupPc} {others : List StartupPc}
    (h : Starting file s main others) (hpcs : ∀ pc ∈ others, ¬pc.OnTheWay)
    (hi : i < file.numOfWorkerThread) : s.IsOn i := by
  have hmem : some i ∈ others.map StartupPc.worker? := by
    rw [h.who]
    exact List.mem_cons_of_mem _ (List.mem_map.mpr ⟨i, List.mem_range.mpr hi, rfl⟩)
  obtain ⟨pc, hpc, hworker⟩ := List.mem_map.mp hmem
  have hknows := h.knows pc hpc
  have hnot := hpcs pc hpc
  cases pc with
  | dequeue j =>
    obtain rfl : j = i := Option.some.inj hworker
    exact hknows
  | handle j | pastResults j =>
    obtain rfl : j = i := Option.some.inj hworker
    exact hknows.1
  | worker | createCompletionQueue | setWorkerOn => exact absurd trivial hnot
  | _ => cases hworker

/-- From wherever the threads are, `StartServer` can be brought to return, and nothing
has to go wrong for it. -/
theorem can_return {c : Config Startup StartupPc}
    (h : (startup file).Reachable (startup.init file) c) :
    ∃ result d, (startup file).Reachable c d ∧ .returned result ∈ d.threads ∧
      d.shared.wrong = c.shared.wrong := by
  obtain ⟨s, ts⟩ := c
  obtain ⟨main, others, rfl, hI⟩ := starting h
  -- first `StartServer` alone, up to its wait
  obtain ⟨s₁, main₁, halone₁, hmain₁, hwaits₁⟩ :=
    Alone.ends (fun _ pc => pc.beforeWait file.numOfWorkerThread) Main.nearer hI.main
  have hfrom₁ : (startup file).Reachable ⟨s, main :: others⟩ ⟨s₁, main₁ :: others⟩ :=
    halone₁.run (l := []) .refl
  obtain ⟨-, -, hwrong₁⟩ := hI.main.alone halone₁
  by_cases hfalse : main₁ = .returned false
  · subst hfalse
    exact ⟨false, _, hfrom₁, List.mem_cons_self, hwrong₁⟩
  have hthreads₁ : s₁.workerThreads = file.numOfWorkerThread := by
    cases main₁ with
    | testWorkerOn => exact hmain₁.2.2.1
    | sleep | startAccepter => exact hmain₁.2.1
    | returned result =>
      cases result with
      | true => exact hmain₁.2.1
      | false => exact absurd rfl hfalse
    | _ => exact hwaits₁.elim
  -- then the workers, one after the other
  have hends : ∀ {t l pc r}, (startup file).Reachable (startup.init file) ⟨t, l ++ pc :: r⟩ →
      t.workerThreads = file.numOfWorkerThread ∧ t.wrong = s.wrong → True →
      ∃ t' pc', (startup file).Alone t pc t' pc' ∧
        (t'.workerThreads = file.numOfWorkerThread ∧ t'.wrong = s.wrong) ∧ ¬pc'.OnTheWay := by
    intro t l pc r hrun ⟨hthreads, hwrong⟩ _
    by_cases hpc : pc.OnTheWay
    · obtain ⟨main, others, hts, hI⟩ := starting hrun
      have hmem : pc ∈ main :: others := by
        rw [← hts]
        exact List.mem_append_right _ List.mem_cons_self
      rcases List.mem_cons.mp hmem with rfl | hmem
      · cases pc <;> first | exact hpc.elim | exact hI.main.elim
      · obtain ⟨t', pc', halone, ⟨hthreads', hwrong'⟩, hon⟩ :=
          comes_on hpc (hI.knows pc hmem) hthreads
        exact ⟨t', pc', halone, ⟨hthreads', hwrong'.trans hwrong⟩, hon⟩
    · exact ⟨t, pc, .refl t pc, ⟨hthreads, hwrong⟩, hpc⟩
  obtain ⟨s₂, ts₂, hfrom₂, ⟨-, hwrong₂⟩, hsettled⟩ :=
    ends_all hends (h.trans hfrom₁) ⟨hthreads₁, hwrong₁⟩ fun _ _ => trivial
  obtain ⟨main₂, others₂, rfl, hI₂⟩ := starting ((h.trans hfrom₁).trans hfrom₂)
  have hon : ∀ i < file.numOfWorkerThread, s₂.IsOn i := fun i hi =>
    hI₂.isOn (fun pc hpc => hsettled pc (List.mem_cons_of_mem _ hpc)) hi
  -- and `StartServer` again
  obtain ⟨s₃, main₃, halone₃, -, hwaits₃⟩ :=
    Alone.ends (fun _ (pc : StartupPc) => pc.beforeWait file.numOfWorkerThread) Main.nearer
      hI₂.main
  obtain ⟨hmain₃, hgrows₃, -⟩ := hI₂.main.alone halone₃
  obtain ⟨s₄, result, halone₄⟩ :=
    WaitsForNobody.returns ⟨hmain₃, hwaits₃, fun i hi => hgrows₃.on i (hon i hi)⟩
  have halone := halone₃.trans halone₄
  have hfrom₄ : (startup file).Reachable ⟨s₂, main₂ :: others₂⟩
      ⟨s₄, .returned result :: others₂⟩ := halone.run (l := []) .refl
  obtain ⟨-, -, hwrong₄⟩ := hI₂.main.alone halone
  exact ⟨result, _, hfrom₁.trans (hfrom₂.trans hfrom₄), List.mem_cons_self,
    hwrong₄.trans hwrong₂⟩

/-! ## Without a worker -/

/-- What the accepter has left to do before it reads a queue. -/
def StartupPc.beforeRead : StartupPc → Nat
  | .accepter | .closeClient => 7
  | .accept => 6
  | .scan _ _ _ => 5
  | .getNewSession _ => 4
  | .registerBuffers _ => 3
  | .createRequestQueue _ => 2
  | _ => 0

/-- The accepter, with no worker to give a client to. -/
structure Unattended (s : Startup) (pc : StartupPc) : Prop where
  lists : Lists 0 s
  accepterThread : s.accepterThread = true
  knows : Knows 0 s pc
  worker : pc.worker? = none

/-- It reads the queue of worker 0 with the first client. -/
theorem can_fault {c : Config Startup StartupPc}
    (h : (startup file).Reachable (startup.init file) c) (hn : file.numOfWorkerThread = 0)
    (hreturned : .returned true ∈ c.threads) :
    ∃ d, (startup file).Reachable c d ∧ d.shared.undefined = true := by
  obtain ⟨s, ts⟩ := c
  obtain ⟨main, others, rfl, hI⟩ := starting h
  obtain rfl : main = .returned true := hI.main_of_mem hreturned
  obtain ⟨hlists, hthreads, haccepter⟩ := hI.main
  obtain ⟨pc, hothers, hnone⟩ : ∃ pc, others = [pc] ∧ pc.worker? = none := by
    have hwho := hI.who
    rw [hn] at hwho
    obtain ⟨pc, rest, rfl, hpc, hrest⟩ := List.map_eq_cons_iff.mp hwho
    exact ⟨pc, by rw [List.map_eq_nil_iff.mp hrest], hpc⟩
  subst hothers
  have hstep : ∀ {s : Startup} {pc : StartupPc}, Unattended s pc → ¬pc = .finished →
      ∃ o s' pc', (startup file).exec pc o s = some (s', pc') ∧ Unattended s' pc' ∧
        pc'.beforeRead < pc.beforeRead := by
    intro s pc ⟨hlists, haccepter, hknows, hnone⟩ hpc
    have hempty : s.numOfSessionInWorkerThread = [] := List.eq_nil_of_length_eq_zero hlists.counts
    have hqueues : s.rioCQList = [] := List.eq_nil_of_length_eq_zero hlists.queues
    cases pc with
    | accepter =>
      exact ⟨⟨true, 0, none⟩, s, .accept, if_pos haccepter, ⟨hlists, haccepter, haccepter, rfl⟩,
        show 6 < 7 by decide⟩
    | closeClient =>
      exact ⟨⟨true, 0, none⟩, s, .accept, rfl, ⟨hlists, haccepter, haccepter, rfl⟩,
        show 6 < 7 by decide⟩
    | accept =>
      exact ⟨⟨true, 0, none⟩, s, _, rfl, ⟨hlists, haccepter, ⟨haccepter, .inr rfl⟩, rfl⟩,
        show 5 < 6 by decide⟩
    | scan i minimum target =>
      refine ⟨⟨true, 0, none⟩, s, .getNewSession target, ?_, ⟨hlists, haccepter, hknows, rfl⟩,
        show 4 < 5 by decide⟩
      simp [startup, execStartup, hempty]
    | getNewSession i =>
      exact ⟨⟨true, 0, none⟩, s, .registerBuffers i, rfl, ⟨hlists, haccepter, hknows, rfl⟩,
        show 3 < 4 by decide⟩
    | registerBuffers i =>
      exact ⟨⟨true, 0, none⟩, s, .createRequestQueue i, rfl, ⟨hlists, haccepter, hknows, rfl⟩,
        show 2 < 3 by decide⟩
    | createRequestQueue i =>
      have hlists' := (Keeps.fault rfl haccepter).lists hlists
      refine ⟨⟨true, 0, none⟩, { s with undefined := true }, .finished, ?_,
        ⟨hlists', haccepter, ⟨haccepter, rfl⟩, rfl⟩, show 0 < 2 by decide⟩
      simp [startup, execStartup, hqueues, Startup.fault]
    | incrementNumOfSession i => exact absurd hknows.2 (Nat.not_lt_zero i)
    | emplace | enter => exact absurd hknows.2 (Nat.lt_irrefl 0)
    | finished => exact absurd rfl hpc
    | worker | createCompletionQueue | setWorkerOn | dequeue | handle | pastResults => cases hnone
    | _ => exact hknows.elim
  have hknows := hI.knows pc List.mem_cons_self
  rw [hn] at hlists hknows
  obtain ⟨s', pc', halone, ⟨-, -, hknows', -⟩, rfl⟩ :=
    Alone.ends (J := Unattended) (fun _ pc => pc.beforeRead) hstep
      ⟨hlists, haccepter, hknows, hnone⟩
  exact ⟨_, halone.run (l := [.returned true]) (r := []) .refl, hknows'.2⟩

/-! ## The result -/

/-- The loop of the accepter, when no worker counts meanwhile, is
`getMinimumSessionThreadId`. -/
theorem alone_scan (maxClientCount : UInt32) (hlen : s.numOfSessionInWorkerThread.length ≤ 255) :
    (startup file).Alone s (.scan 0 maxClientCount.toNat 0) s
      (.getNewSession
        (getMinimumSessionThreadId maxClientCount s.numOfSessionInWorkerThread).toNat) := by
  -- along the entries that are left
  have hfrom : ∀ (counts seen : List Nat) (threadId : UInt8) (minimum : Nat) (target : UInt8),
      s.numOfSessionInWorkerThread = seen ++ counts → threadId.toNat = seen.length →
      (startup file).Alone s (.scan threadId.toNat minimum target.toNat) s
        (.getNewSession (scan counts threadId minimum target).toNat) := by
    intro counts
    induction counts with
    | nil =>
      intro seen threadId minimum target hcounts hthread
      have hnone : s.numOfSessionInWorkerThread[threadId.toNat]? = none := by
        rw [hcounts, hthread, List.append_nil, List.getElem?_eq_none (Nat.le_refl _)]
      refine .one (o := ⟨true, 0, none⟩) ?_
      simp only [startup, execStartup, hnone, scan]
    | cons count counts ih =>
      intro seen threadId minimum target hcounts hthread
      have hcount : s.numOfSessionInWorkerThread[threadId.toNat]? = some count := by
        rw [hcounts, hthread, List.getElem?_append_right (Nat.le_refl _), Nat.sub_self]
        rfl
      have hnext : (threadId + 1).toNat = threadId.toNat + 1 := by
        rw [hcounts, List.length_append, List.length_cons] at hlen
        rw [UInt8.toNat_add]
        show (threadId.toNat + 1) % 256 = _
        omega
      have hseen : s.numOfSessionInWorkerThread = (seen ++ [count]) ++ counts := by
        rw [hcounts, List.append_cons]
      have hthread' : (threadId + 1).toNat = (seen ++ [count]).length := by
        rw [hnext, hthread, List.length_append]
        rfl
      by_cases hzero : count = 0
      · refine .one (o := ⟨true, 0, none⟩) ?_
        simp [startup, execStartup, hcount, scan, hzero]
      · by_cases hlt : count < minimum
        · have hrest := ih (seen ++ [count]) (threadId + 1) count threadId hseen hthread'
          rw [hnext] at hrest
          rw [scan, if_neg hzero, if_pos hlt]
          refine .head (o := ⟨true, 0, none⟩) ?_ hrest
          simp [startup, execStartup, hcount, hzero, hlt]
        · have hrest := ih (seen ++ [count]) (threadId + 1) minimum target hseen hthread'
          rw [hnext] at hrest
          rw [scan, if_neg hzero, if_neg hlt]
          refine .head (o := ⟨true, 0, none⟩) ?_ hrest
          simp [startup, execStartup, hcount, hzero, hlt]
  exact hfrom _ [] 0 _ 0 rfl rfl

/-- What may be said of a server that is being started. -/
structure StartsWell (file : ServerOptionFile) (c : Config Startup StartupPc) : Prop where
  /-- Every entry that is read was written. -/
  defined : c.shared.undefined = true → file.numOfWorkerThread = 0
  /-- Only a worker that has got no queue reads past its results. -/
  results : c.shared.pastResults = true → c.shared.invalidQueue = true
  /-- Clients are accepted after `StartServer` has succeeded, and only then. -/
  accepter : c.shared.accepterThread = true ↔ .returned true ∈ c.threads
  ready : .returned true ∈ c.threads →
    ∀ i < file.numOfWorkerThread, c.shared.IsOn i ∧ c.shared.HasQueue i
  /-- Nothing runs after it has failed. -/
  failed : .returned false ∈ c.threads →
    ∀ pc ∈ c.threads, ∀ o, execStartup file pc o c.shared = none
  returns : ∃ result d, (startup file).Reachable c d ∧ .returned result ∈ d.threads
  /-- The exception can always come about. -/
  undefined : (∃ d, (startup file).Reachable c d ∧ d.shared.undefined = true) ↔
    file.numOfWorkerThread = 0 ∧ ∃ d, (startup file).Reachable c d ∧ .returned true ∈ d.threads

/-- **The start of the server**: in every run of `StartServer` no thread reads an
entry that nobody has written, unless the options ask for no worker, and no worker
reads past its results unless a queue could not be created. If `StartServer` returns
`true`, every worker has entered its queue and is on, and only then does the
accepter run; if it returns `false`, no thread ever runs. It can always be brought
to return, and an accepter without workers to read what is not there. -/
theorem start_server {c : Config Startup StartupPc}
    (h : (startup file).Reachable (startup.init file) c) : StartsWell file c := by
  have hdefined : ∀ {d}, (startup file).Reachable (startup.init file) d →
      d.shared.undefined = true → file.numOfWorkerThread = 0 ∧ .returned true ∈ d.threads := by
    intro d hd hundefined
    obtain ⟨main, others, hthreads, hI⟩ := starting hd
    rcases hI.main.notStarted_or_keep with hstart | ⟨hlists, -, -⟩
    · have hnever : d.shared.undefined = false := congrArg (fun w => w.2.1) hstart.wrong
      rw [hnever] at hundefined
      cases hundefined
    · obtain ⟨hn, haccepter⟩ := hlists.defined hundefined
      refine ⟨hn, ?_⟩
      rw [hthreads, ← hI.main.returned_of_accepterThread haccepter]
      exact List.mem_cons_self
  obtain ⟨main, others, hthreads, hI⟩ := starting h
  have hmain : ∀ {result}, .returned result ∈ c.threads → main = .returned result :=
    fun hmem => hI.main_of_mem (hthreads ▸ hmem)
  have hresults : c.shared.pastResults = true → c.shared.invalidQueue = true := by
    intro hpast
    rcases hI.main.notStarted_or_keep with hstart | ⟨hlists, -, -⟩
    · have hnever : c.shared.pastResults = false := congrArg (fun w => w.2.2) hstart.wrong
      rw [hnever] at hpast
      cases hpast
    · exact hlists.corrupt hpast
  have hreturns : ∃ result d, (startup file).Reachable c d ∧ .returned result ∈ d.threads := by
    obtain ⟨result, d, hd, hmem, -⟩ := can_return h
    exact ⟨result, d, hd, hmem⟩
  refine ⟨fun hundefined => (hdefined h hundefined).1, hresults,
    ⟨fun haccepter => ?_, fun hmem => ?_⟩,
    fun hmem i hi => ?_, fun hmem pc hpc o => ?_, hreturns, ⟨?_, ?_⟩⟩
  · rw [hthreads, ← hI.main.returned_of_accepterThread haccepter]
    exact List.mem_cons_self
  · have hI := hI.main
    rw [hmain hmem] at hI
    exact hI.2.2
  · have hI := hI.main
    rw [hmain hmem] at hI
    obtain ⟨hlists, -, haccepter⟩ := hI
    have hon := hlists.ready haccepter i hi
    exact ⟨hon, (hlists.on i hon).2⟩
  · have hstart : NotStarted c.shared := by
      have hI := hI.main
      rw [hmain hmem] at hI
      exact hI.1
    rw [hthreads, hmain hmem] at hpc
    rcases List.mem_cons.mp hpc with rfl | hpc
    · rfl
    · exact Option.eq_none_iff_forall_ne_some.mpr fun _ => (hI.knows pc hpc).blocked hstart
  · rintro ⟨d, hd, hundefined⟩
    obtain ⟨hn, hmem⟩ := hdefined (h.trans hd) hundefined
    exact ⟨hn, d, hd, hmem⟩
  · rintro ⟨hn, d, hd, hmem⟩
    obtain ⟨e, he, hundefined⟩ := can_fault (h.trans hd) hn hmem
    exact ⟨e, hd.trans he, hundefined⟩

/-- Two workers, and a client that is given to the first of them. -/
theorem start_server_two :
    ∃ c : Config Startup StartupPc, (startup (ServerOptions.toFile ⟨2, 100⟩)).Reachable
        (startup.init (ServerOptions.toFile ⟨2, 100⟩)) c ∧
      c.threads = [.returned true, .createRequestQueue 0, .dequeue 0, .dequeue 1] ∧
      StartsWell (ServerOptions.toFile ⟨2, 100⟩) c := by
  obtain ⟨c, hrun, hc⟩ := exists_run (startup (ServerOptions.toFile ⟨2, 100⟩)) unguarded
    (startup.init (ServerOptions.toFile ⟨2, 100⟩))
    (([(0, 17), (3, 3), (0, 2), (2, 3), (0, 4), (1, 5)].flatMap fun (i, n) =>
      List.replicate n (.run i ⟨true, 0, none⟩)))
    (P := fun c => c.threads = [.returned true, .createRequestQueue 0, .dequeue 0, .dequeue 1])
    (by decide +kernel)
  exact ⟨c, hrun, hc, start_server hrun⟩

end

end RioServer
