import RioServer.Lib.Simulation
import RioServer.Server.StartServer

/-!
# The program (main.cpp, RIOTestServer.cpp:123, DeadlockChecker.cpp)

`main` starts the server and does not look at what `StartServer` returns. It waits
for the escape key, stops the server and returns, and with that the static objects
are destroyed, the one that was made last first. `process` has these steps around
those of `startup`, whose threads it starts; what it shows of them is a run of
`startup` (`process_shows`).

The end that `main` comes to is decided when `StartServer` returns. If it has failed,
`StopServer` closes the queues of as many workers as the options ask for, in a list
and through a function table that were never filled in. If not, the destructor of a
`std::thread` that was not joined calls `std::terminate`, and there are two of them:
the `checkerThread` of the `DeadlockChecker`, which the first worker makes, and the
`accepterThread` of the server.

Another thread may be faster (`Interruption`). A worker ends the process when it
handles the wrong completion, and reads past its results if it has no queue; the
accepter reads a list without entries, or goes on with queues that `StopServer` has
closed. `running` says that there is nothing else.

Which completions are the wrong ones is in `ReceivePath.lean` and `SendStream.lean`,
and the accepter beside `StopServer` in `StopServer.lean`.
-/

namespace RioServer.Program

open Machine WorkerBalance

/-! ## The threads -/

/-- `numOfWorkerThread`, which is read first and stays when the rest of the options
cannot be. -/
def threadCount (file : ServerOptionFile) : Nat :=
  ((file.getValueByte "THREAD_COUNT").getD 0).toNat

/-- The static objects that have a thread. -/
inductive StaticObject where
  | deadlockChecker
  | server
  deriving DecidableEq, Repr

/-- What ends the process before `main` does. Behind the last three the behaviour is
undefined. -/
inductive Interruption where
  /-- A worker handles a completion, and `OnRecvPacket` throws what nobody catches, or
  `MakeSendStream` calls `g_Dump.Crash()`. -/
  | completion
  /-- The accepter reads an entry that is not there. -/
  | noEntry
  /-- A worker that has `RIO_INVALID_CQ` reads past its results, or `StopServer` closes
  that. -/
  | invalidQueue
  /-- The accepter uses a queue that is closed, or the list when it is deleted. -/
  | closedQueue
  deriving DecidableEq, Repr

/-- How the process ends: `main` returns, the destructor of a static object calls
`std::terminate`, `main` uses a null pointer, or another thread is faster. -/
inductive End where
  | returned
  | terminated (object : StaticObject)
  | crashed
  | interrupted (cause : Interruption)
  deriving DecidableEq, Repr

/-- The server, whether its `listenSocket` is open, `serverStop`, whether there is a
`DeadlockChecker`, the workers a `join` has found at their end, what `StopServer` has
closed and deleted, and how the process has ended. -/
structure Process where
  server : Startup
  listenSocket : Bool
  serverStop : Bool
  deadlockChecker : Bool
  finishedWorkers : Nat
  closedQueues : Nat
  listDeleted : Bool
  ended : Option End
  deriving DecidableEq, Repr

/-- Besides, a step cannot choose whether a completion is one of the wrong ones. -/
structure ProcessOracle extends StartupOracle where
  fatal : Bool

inductive ProcessPc where
  /-- `StartServer`, and the threads it starts. -/
  | server (pc : StartupPc)
  /-- `main`, when `StartServer` has returned. -/
  | waitForEscape
  /-- `StopServer`. -/
  | closeListenSocket
  | setServerStop
  | joinWorkers
  | closeQueues (i : Nat)
  | deleteCQList
  | deleteWorkerOnList
  /-- The destructors of `DeadlockChecker` and `RIOTestServer`. -/
  | destroyDeadlockChecker
  | destroyServer
  | ended
  /-- `Worker`. -/
  | registerCheckThread (threadId : Nat)
  | testServerStop (threadId : Nat)
  | workerReturned (threadId : Nat)
  /-- `Accepter`, behind its loop. -/
  | accepterReturned
  deriving DecidableEq, Repr

/-- A worker that is on registers itself, and it tests `serverStop` before each
`RIODequeueCompletion`. -/
def ProcessPc.behind (pc : StartupPc) : StartupPc → ProcessPc
  | .dequeue i => if pc = .setWorkerOn i then .registerCheckThread i else .testServerStop i
  | pc' => .server pc'

/-- What a step of the server would end the process with. -/
def Process.interruption (s : Process) (o : ProcessOracle) : StartupPc → Option Interruption
  | .handle _ i numOfResults =>
    if o.fatal ∧ i < numOfResults ∧ numOfResults ≠ rioCorruptCq then some .completion else none
  -- a closed queue may be recognised as such
  | .createRequestQueue i =>
    if s.listDeleted ∨ i < s.closedQueues ∧ o.ok then some .closedQueue else none
  | _ => none

/-- What has gone wrong in `startup`. -/
def interruptionOf (s : Startup) : Option Interruption :=
  if s.undefined then some .noEntry else if s.pastResults then some .invalidQueue else none

/-- A step of `startup` in the process. -/
def execStarted (file : ServerOptionFile) (pc : StartupPc) (o : ProcessOracle) (s : Process) :
    Option (Process × ProcessPc) :=
  match s.interruption o pc with
  | some cause => some ({ s with ended := some (.interrupted cause) }, .server pc)
  | none =>
    (execStartup file pc o.toStartupOracle s.server).map fun (server, pc') =>
      ({ s with server := server, ended := (interruptionOf server).map .interrupted },
        .behind pc pc')

/-- One step of a thread of the server. -/
def execServer (file : ServerOptionFile) (pc : StartupPc) (o : ProcessOracle) (s : Process) :
    Option (Process × ProcessPc) :=
  match pc with
  -- main.cpp:17, the result is not used
  | .returned _ => some (s, .waitForEscape)
  -- a closed socket has no clients, and `WSAEINTR` ends the loop
  | .accept =>
    if s.listenSocket then execStarted file .accept o s
    else if o.ok then some (s, .accepterReturned)
    else some (s, .server .accept)
  | pc => execStarted file pc o s

/-- One step of a thread of the process. -/
def execProcess (file : ServerOptionFile) (pc : ProcessPc) (o : ProcessOracle) (s : Process) :
    Option (Process × ProcessPc) :=
  if s.ended = none then
    match pc with
    | .server pc => execServer file pc o s
    -- main.cpp:25
    | .waitForEscape => if o.ok then some (s, .closeListenSocket) else some (s, .waitForEscape)
    -- RIOTestServer.cpp:123
    | .closeListenSocket => some ({ s with listenSocket := false }, .setServerStop)
    | .setServerStop => some ({ s with serverStop := true }, .joinWorkers)
    | .joinWorkers =>
      if s.finishedWorkers = s.server.workerThreads then some (s, .closeQueues 0) else none
    | .closeQueues i =>
      if i < threadCount file then
        match s.server.rioCQList[i]? with
        | some (some queue) =>
          -- what becomes of `RIO_INVALID_CQ` is not documented
          if queue = .invalid ∧ o.ok = false then
            some ({ s with ended := some (.interrupted .invalidQueue) }, .closeQueues i)
          else some ({ s with closedQueues := i + 1 }, .closeQueues (i + 1))
        | _ => some ({ s with ended := some .crashed }, .ended)
      else some (s, .deleteCQList)
    | .deleteCQList => some ({ s with listDeleted := true }, .deleteWorkerOnList)
    | .deleteWorkerOnList => some (s, .destroyDeadlockChecker)
    -- `~thread` of a thread that can still be joined
    | .destroyDeadlockChecker =>
      if s.deadlockChecker then
        some ({ s with ended := some (.terminated .deadlockChecker) }, .ended)
      else some (s, .destroyServer)
    | .destroyServer =>
      let how := if s.server.accepterThread then .terminated .server else .returned
      some ({ s with ended := some how }, .ended)
    | .ended => none
    -- RIOTestServer.cpp:321, the first call of `GetInstance` makes the instance
    | .registerCheckThread i => some ({ s with deadlockChecker := true }, .testServerStop i)
    -- RIOTestServer.cpp:325
    | .testServerStop i =>
      if s.serverStop then
        some ({ s with finishedWorkers := s.finishedWorkers + 1 }, .workerReturned i)
      else some (s, .server (.dequeue i))
    | .workerReturned _ | .accepterReturned => none
  else none

/-- **The process**, started with `file`. -/
def process (file : ServerOptionFile) : Machine Process ProcessPc ProcessOracle Empty :=
  ⟨execProcess file, nofun⟩

/-- The call of `StartServer` in `main`. -/
def process.init (file : ServerOptionFile) : Config Process ProcessPc where
  shared := ⟨.empty, true, false, false, 0, 0, false, none⟩
  threads := (startup.init file).threads.map .server

/-! ## What it shows of `startup` -/

/-- Where a thread is in `startup`: `main` has `StartServer` behind it, a worker that
registers itself, tests `serverStop` or has found it set is in front of its next
`RIODequeueCompletion`, and an accepter that has returned is in front of `accept`. -/
def ProcessPc.StandsFor : ProcessPc → StartupPc → Prop
  | .server pc, q => q = pc
  | .registerCheckThread i, q | .testServerStop i, q | .workerReturned i, q => q = .dequeue i
  | .accepterReturned, q => q = .accept
  | _, q => ∃ result, q = .returned result

/-- The process as a machine that shows `startup`. -/
def view : View Process ProcessPc Startup StartupPc := ⟨Process.server, ProcessPc.StandsFor⟩

variable {file : ServerOptionFile} {s s' : Process} {p p' : ProcessPc} {q q' : StartupPc}
  {o : ProcessOracle} {a : Startup}

theorem behind_setWorkerOn (i : Nat) :
    ProcessPc.behind (.setWorkerOn i) (.dequeue i) = .registerCheckThread i := if_pos rfl

theorem behind_dequeue {i : Nat} (h : q ≠ .setWorkerOn i) :
    ProcessPc.behind q (.dequeue i) = .testServerStop i := if_neg h

theorem standsFor_behind (pc pc' : StartupPc) : (ProcessPc.behind pc pc').StandsFor pc' := by
  cases pc' with
  | dequeue i =>
    simp only [ProcessPc.behind]
    split <;> rfl
  | _ => rfl

/-- **A step of `startup` in the process**: it is stopped, or it goes as in `startup`. -/
theorem execStarted_cases (h : execStarted file q o s = some (s', p')) :
    (∃ cause, s.interruption o q = some cause ∧
      s' = { s with ended := some (.interrupted cause) } ∧ p' = .server q) ∨
    ∃ a q', execStartup file q o.toStartupOracle s.server = some (a, q') ∧
      s' = { s with server := a, ended := (interruptionOf a).map .interrupted } ∧
      p' = .behind q q' := by
  unfold execStarted at h
  split at h
  · next cause hcause =>
    cases h
    exact .inl ⟨cause, hcause, rfl, rfl⟩
  · obtain ⟨⟨a, q'⟩, hexec, hnext⟩ := Option.map_eq_some_iff.mp h
    cases hnext
    exact .inr ⟨a, q', hexec, rfl, rfl⟩

/-- **A step of a thread of the server**: besides, `main` goes on, and an accepter
whose socket is closed may return. -/
theorem execServer_cases (h : execServer file q o s = some (s', p')) :
    (∃ result, q = .returned result ∧ s' = s ∧ p' = .waitForEscape) ∨
    (q = .accept ∧ s.listenSocket = false ∧ s' = s ∧
      (p' = .accepterReturned ∨ p' = .server .accept)) ∨
    execStarted file q o s = some (s', p') := by
  unfold execServer at h
  split at h
  · next result =>
    cases h
    exact .inl ⟨result, rfl, rfl, rfl⟩
  · split at h
    · exact .inr (.inr h)
    · next hclosed =>
      rw [Bool.not_eq_true] at hclosed
      split at h <;> cases h
      · exact .inr (.inl ⟨rfl, hclosed, rfl, .inl rfl⟩)
      · exact .inr (.inl ⟨rfl, hclosed, rfl, .inr rfl⟩)
  · exact .inr (.inr h)

/-- A step of `startup` that nothing stops. -/
theorem exec_server (hended : s.ended = none) (hopen : s.listenSocket = true ∨ q ≠ .accept)
    (hquiet : s.interruption o q = none)
    (h : execStartup file q o.toStartupOracle s.server = some (a, q'))
    (ha : interruptionOf a = none) :
    execProcess file (.server q) o s = some ({ s with server := a }, .behind q q') := by
  have hstarted : execStarted file q o s = some ({ s with server := a }, .behind q q') := by
    unfold execStarted
    simp only [hquiet, h, Option.map_some, ha, Option.map_none, ← hended]
  unfold execProcess
  rw [if_pos hended]
  show execServer file q o s = _
  unfold execServer
  split
  · cases h
  · rw [if_pos (hopen.resolve_right fun hne => hne rfl)]
    exact hstarted
  · exact hstarted

/-- Nothing happens after the end. -/
theorem ended_eq_none (h : execProcess file p o s = some (s', p')) : s.ended = none := by
  unfold execProcess at h
  split at h
  · next hnone => exact hnone
  · cases h

/-- **A step of the process** is one of `startup`, or shows nothing. -/
theorem exec_shown (h : execProcess file p o s = some (s', p')) (hp : p.StandsFor q) :
    s'.server = s.server ∧ p'.StandsFor q ∨
      ∃ o q', execStartup file q o s.server = some (s'.server, q') ∧ p'.StandsFor q' := by
  have hnone := ended_eq_none h
  unfold execProcess at h
  rw [if_pos hnone] at h
  cases p with
  | server pc =>
    obtain rfl : q = pc := hp
    rcases execServer_cases h with ⟨result, rfl, rfl, rfl⟩ | ⟨rfl, -, rfl, rfl | rfl⟩ | h
    · exact .inl ⟨rfl, result, rfl⟩
    · exact .inl ⟨rfl, rfl⟩
    · exact .inl ⟨rfl, rfl⟩
    · rcases execStarted_cases h with ⟨cause, -, rfl, rfl⟩ | ⟨a, q', hexec, rfl, rfl⟩
      · exact .inl ⟨rfl, rfl⟩
      · exact .inr ⟨_, q', hexec, standsFor_behind q q'⟩
  | testServerStop i | destroyDeadlockChecker | waitForEscape =>
    left
    simp only at h
    split at h <;> cases h <;> exact ⟨rfl, hp⟩
  | joinWorkers =>
    left
    obtain ⟨-, h⟩ := Option.ite_none_right_eq_some.mp h
    cases h
    exact ⟨rfl, hp⟩
  | closeQueues i =>
    left
    simp only at h
    repeat' split at h
    all_goals
      cases h
      exact ⟨rfl, hp⟩
  | closeListenSocket | setServerStop | deleteCQList | deleteWorkerOnList | destroyServer
  | registerCheckThread =>
    cases h
    exact .inl ⟨rfl, hp⟩
  | ended | workerReturned | accepterReturned => cases h

/-- **The process shows a run of `startup`.** -/
theorem process_shows {c : Config Process ProcessPc}
    (h : (process file).Reachable (process.init file) c) :
    ∃ d, (startup file).Reachable (startup.init file) d ∧ view.Shows c d := by
  refine Run.shown (M := startup file) h ⟨rfl, ?_⟩ fun hexec hp => exec_shown hexec hp
  show List.Forall₂ ProcessPc.StandsFor ((startup.init file).threads.map .server) _
  rw [List.forall₂_map_left_iff]
  exact List.forall₂_same.mpr fun _ _ => rfl

/-- The threads of the process, and those of `startup` that they stand for. -/
theorem shown_starting {c : Config Process ProcessPc}
    (h : (process file).Reachable (process.init file) c) :
    ∃ main others main' others', c.threads = main :: others ∧ main.StandsFor main' ∧
      List.Forall₂ ProcessPc.StandsFor others others' ∧
      Starting file c.shared.server main' others' := by
  obtain ⟨⟨a, ts⟩, hd, hstate, hthreads⟩ := process_shows h
  obtain ⟨main', others', rfl, hI⟩ := starting hd
  obtain ⟨main, others, hmain, hothers, hts⟩ := List.forall₂_cons_right_iff.mp hthreads
  obtain rfl : c.shared.server = a := hstate
  exact ⟨main, others, main', others', hts, hmain, hothers, hI⟩

/-! ## How `StartServer` has returned -/

/-- Where the options cannot be read, no accepter is ever started. -/
theorem threadCount_of_accepterThread {d : Config Startup StartupPc}
    (h : (startup file).Reachable (startup.init file) d)
    (haccepter : d.shared.accepterThread = true) :
    threadCount file = file.numOfWorkerThread := by
  cases hfile : serverOptionParsing file with
  | some options =>
    have hcount : file.getValueByte "THREAD_COUNT" = some options.numOfWorkerThread := by
      simp only [serverOptionParsing, Option.pure_def, Option.bind_eq_bind,
        Option.bind_eq_some_iff, Option.some.injEq] at hfile
      obtain ⟨numOfWorkerThread, hcount, -, -, -, -, -, -, -, -, -, -, rfl⟩ := hfile
      exact hcount
    simp [threadCount, hcount, ServerOptionFile.numOfWorkerThread, ServerOptionFile.options, hfile]
  | none =>
    -- nobody gets past the options
    have hnever : d.shared = .empty ∧ ∀ pc ∈ d.threads, pc = .serverOptionParsing ∨
        pc = .returned false ∨ pc = .accepter ∨ ∃ i, pc = .worker i := by
      refine Run.induct (I := fun s ts => s = .empty ∧ ∀ pc ∈ ts, pc = .serverOptionParsing ∨
        pc = .returned false ∨ pc = .accepter ∨ ∃ i, pc = .worker i) h ⟨rfl, ?_⟩ ?_ ?_
      · simp [startup.init]
      · rintro s l pc r o s' pc' - ⟨rfl, hts⟩ - hexec
        obtain ⟨hl, hpc, hr⟩ := forall_mem_place.mp hts
        rcases hpc with rfl | rfl | rfl | ⟨i, rfl⟩
        · simp only [startup, execStartup, hfile] at hexec
          cases hexec
          exact ⟨rfl, forall_mem_place.mpr ⟨hl, .inr (.inl rfl), hr⟩⟩
        · cases hexec
        · simp [startup, execStartup, Startup.empty] at hexec
        · simp [startup, execStartup, Startup.empty] at hexec
      · intro s ts e
        exact isEmptyElim e
    rw [hnever.1] at haccepter
    cases haccepter

/-- After `StartServer` the queues are there for all workers, or for none. -/
theorem hasQueue_iff {main : StartupPc} {others : List StartupPc} {result : Bool} {i : Nat}
    (hcount : a.accepterThread = true → threadCount file = file.numOfWorkerThread)
    (hI : Starting file a main others) (hmain : main = .returned result)
    (hi : i < threadCount file) : a.HasQueue i ↔ a.accepterThread = true := by
  subst hmain
  cases result with
  | true =>
    obtain ⟨hlists, -, haccepter⟩ := hI.main
    refine ⟨fun _ => haccepter, fun _ => ?_⟩
    exact (hlists.on i (hlists.ready haccepter i (hcount haccepter ▸ hi))).2
  | false =>
    obtain ⟨hstart, hqueues⟩ := hI.main
    constructor
    · rintro ⟨queue, hqueue⟩
      rw [hqueues] at hqueue
      cases hqueue
    · intro haccepter
      rw [hstart.accepterThread] at haccepter
      cases haccepter

/-! ## Where `main` is -/

/-- The end that `main` comes to, once `StartServer` has returned. The first worker has
made a `DeadlockChecker`, which goes first. -/
def howItEnds (file : ServerOptionFile) (s : Startup) : End :=
  if s.accepterThread then
    .terminated (if 0 < file.numOfWorkerThread then .deadlockChecker else .server)
  else if 0 < threadCount file then .crashed
  else .returned

/-- What has to have happened for the process to be interrupted. -/
def Interruption.Caused (file : ServerOptionFile) (s : Process) : Interruption → Prop
  | .completion => ∃ i, s.server.IsOn i
  | .noEntry => file.numOfWorkerThread = 0 ∧ s.server.accepterThread = true
  | .invalidQueue => s.server.invalidQueue = true
  | .closedQueue =>
    s.server.accepterThread = true ∧ (0 < s.closedQueues ∨ s.listDeleted = true)

/-- `StopServer` has not begun. -/
structure Process.Open (s : Process) : Prop where
  serverStop : s.serverStop = false
  listenSocket : s.listenSocket = true
  closedQueues : s.closedQueues = 0
  listDeleted : s.listDeleted = false

/-- The workers have made a `DeadlockChecker`, if there are any. -/
def Process.Checked (file : ServerOptionFile) (s : Process) : Prop :=
  s.server.accepterThread = true → 0 < file.numOfWorkerThread → s.deadlockChecker = true

/-- What holds where `main` is. -/
def MainAt (file : ServerOptionFile) (s : Process) : ProcessPc → Prop
  | .server _ | .waitForEscape | .closeListenSocket => s.Open
  | .setServerStop => s.serverStop = false
  | .joinWorkers => s.serverStop = true
  | .closeQueues i =>
    s.serverStop = true ∧ s.Checked file ∧ (s.server.accepterThread = true ∨ i = 0)
  | .deleteCQList | .deleteWorkerOnList | .destroyDeadlockChecker => s.serverStop = true ∧
      s.Checked file ∧ (s.server.accepterThread = true ∨ threadCount file = 0)
  | .destroyServer => s.serverStop = true ∧
      (s.server.accepterThread = true → file.numOfWorkerThread = 0) ∧
      (s.server.accepterThread = true ∨ threadCount file = 0)
  | .ended => s.ended ≠ none
  | .registerCheckThread _ | .testServerStop _ | .workerReturned _ | .accepterReturned => False

/-- A worker that has left its loop. -/
def ProcessPc.isReturned : ProcessPc → Nat
  | .workerReturned _ => 1
  | _ => 0

/-- A worker that has called `RegisterCheckThread`. -/
def ProcessPc.Registered : ProcessPc → Prop
  | .server (.dequeue _) | .server (.handle _ _ _) | .server (.pastResults _) | .testServerStop _
  | .workerReturned _ => True
  | _ => False

/-- The end has come as it should, or by something that has happened. -/
def EndsWell (file : ServerOptionFile) (s : Process) : Prop :=
  ∀ how, s.ended = some how → how = howItEnds file s.server ∨
    ∃ cause, how = .interrupted cause ∧ cause.Caused file s

/-- Before the end nothing has gone wrong in `startup`. -/
def Undisturbed (s : Process) : Prop := s.ended = none → interruptionOf s.server = none

/-- `main`, the `DeadlockChecker`, how many workers have returned, and the end. -/
structure Running (file : ServerOptionFile) (s : Process) (main : ProcessPc)
    (others : List ProcessPc) : Prop where
  main : MainAt file s main
  finished : s.finishedWorkers = load ProcessPc.isReturned others
  stopped : s.serverStop = false → load ProcessPc.isReturned others = 0
  accepting : s.listenSocket = true → ∀ p ∈ others, p ≠ .accepterReturned
  registered : ∀ p ∈ others, p.Registered → s.deadlockChecker = true
  checker : s.deadlockChecker = true → ∃ i, s.server.IsOn i
  endsWell : EndsWell file s
  undisturbed : Undisturbed s

/-- What a step of another thread leaves to `main`. -/
structure Beside (s s' : Process) : Prop where
  serverStop : s'.serverStop = s.serverStop
  listenSocket : s'.listenSocket = s.listenSocket
  closedQueues : s'.closedQueues = s.closedQueues
  listDeleted : s'.listDeleted = s.listDeleted
  accepterThread : s'.server.accepterThread = s.server.accepterThread
  deadlockChecker : s.deadlockChecker = true → s'.deadlockChecker = true

theorem Beside.refl (s : Process) : Beside s s := ⟨rfl, rfl, rfl, rfl, rfl, id⟩

/-- The others leave `main` where it is. -/
theorem MainAt.keep {main : ProcessPc} (h : MainAt file s main) (hnone : s.ended = none)
    (hs : Beside s s') : MainAt file s' main := by
  have hchecked : s.Checked file → s'.Checked file := fun h haccepter hpos =>
    hs.deadlockChecker (h (hs.accepterThread.symm.trans haccepter) hpos)
  cases main with
  | server | waitForEscape | closeListenSocket =>
    exact ⟨hs.serverStop.trans h.serverStop, hs.listenSocket.trans h.listenSocket,
      hs.closedQueues.trans h.closedQueues, hs.listDeleted.trans h.listDeleted⟩
  | setServerStop | joinWorkers => exact hs.serverStop.trans h
  | closeQueues | deleteCQList | deleteWorkerOnList | destroyDeadlockChecker =>
    obtain ⟨hstop, hcheck, haccepter⟩ := h
    refine ⟨hs.serverStop.trans hstop, hchecked hcheck, ?_⟩
    rw [hs.accepterThread]
    exact haccepter
  | destroyServer =>
    obtain ⟨hstop, hzero, haccepter⟩ := h
    refine ⟨hs.serverStop.trans hstop, ?_, ?_⟩ <;> rw [hs.accepterThread]
    · exact hzero
    · exact haccepter
  | ended => exact absurd hnone h
  | registerCheckThread | testServerStop | workerReturned | accepterReturned => exact h.elim

/-- A worker or the accepter in `startup` changes nothing that `main` relies on. -/
theorem keeps_of_exec {main : StartupPc} {others : List StartupPc} {o : StartupOracle}
    (hI : Starting file s.server main others) (hq : q ∈ others)
    (hexec : execStartup file q o s.server = some (a, q')) :
    Lists file.numOfWorkerThread a ∧ Keeps file.numOfWorkerThread s.server a ∧
      Knows file.numOfWorkerThread a q' ∧ q'.worker? = q.worker? := by
  rcases hI.main.notStarted_or_keep with hstart | ⟨hlists, hthreads, -⟩
  · exact absurd hexec ((hI.knows q hq).blocked hstart)
  · obtain ⟨hkeeps, hknows, hworker⟩ := (hI.knows q hq).exec hlists hthreads hexec
    exact ⟨hkeeps.lists hlists, hkeeps, hknows, hworker⟩

/-- What goes wrong in `startup` has its cause. -/
theorem caused_of_interruptionOf {cause : Interruption}
    (hlists : Lists file.numOfWorkerThread s.server)
    (h : interruptionOf s.server = some cause) : cause.Caused file s := by
  unfold interruptionOf at h
  split at h
  · next hundefined =>
    cases h
    exact hlists.defined hundefined
  · obtain ⟨hpast, h⟩ := Option.ite_none_right_eq_some.mp h
    cases h
    exact hlists.corrupt hpast

/-- What `main` does in `startup` interrupts nothing. -/
theorem Main.interruption {n : Nat} (h : Main n s.server q) : s.interruption o q = none := by
  cases q with
  | handle | createRequestQueue => exact h.elim
  | _ => rfl

theorem interruptionOf_congr {b : Startup} (h : a.wrong = b.wrong) :
    interruptionOf a = interruptionOf b := by
  have hundefined : a.undefined = b.undefined := congrArg (fun w => w.2.1) h
  have hpast : a.pastResults = b.pastResults := congrArg (fun w => w.2.2) h
  rw [interruptionOf, interruptionOf, hundefined, hpast]

/-- What holds behind a step of `main`. -/
structure MainStep (file : ServerOptionFile) (s s' : Process) (p' : ProcessPc) : Prop where
  main : MainAt file s' p'
  finished : s'.finishedWorkers = s.finishedWorkers
  stopped : s'.serverStop = false → s.serverStop = false
  accepting : s'.listenSocket = true → s.listenSocket = true
  deadlockChecker : s'.deadlockChecker = s.deadlockChecker
  grows : Grows s.server s'.server
  endsWell : EndsWell file s'
  undisturbed : Undisturbed s'

/-- A step of `main` that does not end the process. -/
theorem MainStep.go (hmain : MainAt file s' p') (hfinished : s'.finishedWorkers = s.finishedWorkers)
    (hstop : s'.serverStop = false → s.serverStop = false)
    (haccepting : s'.listenSocket = true → s.listenSocket = true)
    (hchecker : s'.deadlockChecker = s.deadlockChecker) (hserver : s'.server = s.server)
    (hended : s'.ended = none) (hwell : interruptionOf s.server = none) :
    MainStep file s s' p' := by
  refine ⟨hmain, hfinished, hstop, haccepting, hchecker, ?_, ?_, fun _ => ?_⟩
  · rw [hserver]
    exact .refl _
  · intro how hhow
    rw [hended] at hhow
    cases hhow
  · rw [hserver]
    exact hwell

/-- A step of `main` that ends the process. -/
theorem MainStep.stop {how : End} (hmain : MainAt file { s with ended := some how } p')
    (h : how = howItEnds file s.server ∨
      ∃ cause, how = .interrupted cause ∧ cause.Caused file s) :
    MainStep file s { s with ended := some how } p' := by
  refine ⟨hmain, rfl, id, id, rfl, .refl _, ?_, nofun⟩
  intro how' hhow
  cases hhow
  rcases h with h | ⟨cause, h, hcaused⟩
  · exact .inl h
  · refine .inr ⟨cause, h, ?_⟩
    cases cause <;> exact hcaused

/-- A worker that is on was started with all others. -/
theorem accepterThread_of_isOn {main : StartupPc} {others : List StartupPc} {result : Bool}
    {i : Nat} (hI : Starting file a main others) (hmain : main = .returned result)
    (hon : a.IsOn i) : a.accepterThread = true ∧ 0 < file.numOfWorkerThread := by
  subst hmain
  cases result with
  | true =>
    obtain ⟨hlists, hthreads, haccepter⟩ := hI.main
    have hlt := (hlists.on i hon).1
    exact ⟨haccepter, by omega⟩
  | false => exact absurd hon (hI.main.1.on i)

/-- **A step of `main`.** -/
theorem MainAt.exec {main : StartupPc} {others : List StartupPc}
    (hcount : s.server.accepterThread = true → threadCount file = file.numOfWorkerThread)
    (hjoined : s.finishedWorkers = s.server.workerThreads → s.Checked file)
    (hchecker : s.deadlockChecker = true → ∃ i, s.server.IsOn i)
    (hwell : interruptionOf s.server = none)
    (hI : Starting file s.server main others) (hp : p.StandsFor main) (h : MainAt file s p)
    (hexec : execProcess file p o s = some (s', p')) : MainStep file s s' p' := by
  have hnone := ended_eq_none hexec
  unfold execProcess at hexec
  rw [if_pos hnone] at hexec
  cases p with
  | server pc =>
    obtain rfl : main = pc := hp
    rcases execServer_cases hexec with ⟨result, rfl, rfl, rfl⟩ | ⟨rfl, -⟩ | hexec
    · exact .go h rfl id id rfl rfl hnone hwell
    · exact hI.main.elim
    · rcases execStarted_cases hexec with ⟨cause, hcause, -, -⟩ | ⟨a, q', hstartup, rfl, rfl⟩
      · rw [Main.interruption hI.main] at hcause
        cases hcause
      · obtain ⟨hq', hgrows, hwrong⟩ := hI.main.exec hstartup
        have ha : interruptionOf a = none := (interruptionOf_congr hwrong).trans hwell
        have hplace : MainAt file { s with server := a, ended := none } (.behind main q') := by
          cases q' with
          | dequeue => exact hq'.elim
          | _ => exact ⟨h.serverStop, h.listenSocket, h.closedQueues, h.listDeleted⟩
        rw [ha]
        exact ⟨hplace, rfl, id, id, rfl, hgrows, nofun, fun _ => ha⟩
  | waitForEscape =>
    simp only at hexec
    split at hexec <;> cases hexec <;> exact .go h rfl id id rfl rfl hnone hwell
  | closeListenSocket =>
    cases hexec
    exact .go h.serverStop rfl id nofun rfl rfl hnone hwell
  | setServerStop =>
    cases hexec
    exact .go rfl rfl nofun id rfl rfl hnone hwell
  | joinWorkers =>
    obtain ⟨hall, hexec⟩ := Option.ite_none_right_eq_some.mp hexec
    cases hexec
    exact .go ⟨h, hjoined hall, .inr rfl⟩ rfl id id rfl rfl hnone hwell
  | closeQueues i =>
    obtain ⟨hstop, hcheck, haccepter⟩ := h
    obtain ⟨result, hmain⟩ := hp
    simp only at hexec
    by_cases hi : i < threadCount file
    · rw [if_pos hi] at hexec
      have hqueue := hasQueue_iff hcount hI hmain hi
      split at hexec
      · next queue hentry =>
        have haccepter : s.server.accepterThread = true := hqueue.mp ⟨queue, hentry⟩
        split at hexec
        · next hinvalid =>
          cases hexec
          have hlists := (hI.started haccepter).1
          exact .stop ⟨hstop, hcheck, .inl haccepter⟩
            (.inr ⟨.invalidQueue, rfl, hlists.invalid i (hinvalid.1 ▸ hentry)⟩)
        · cases hexec
          exact .go ⟨hstop, hcheck, .inl haccepter⟩ rfl id id rfl rfl hnone hwell
      · next hentry =>
        cases hexec
        have hno : ¬s.server.accepterThread = true := by
          intro haccepter
          obtain ⟨queue, hsome⟩ := hqueue.mpr haccepter
          exact hentry queue hsome
        refine .stop (Option.some_ne_none _) (.inl ?_)
        rw [howItEnds, if_neg hno, if_pos (by omega)]
    · rw [if_neg hi] at hexec
      cases hexec
      refine .go ⟨hstop, hcheck, ?_⟩ rfl id id rfl rfl hnone hwell
      rcases haccepter with haccepter | hzero
      · exact .inl haccepter
      · exact .inr (by omega)
  | deleteCQList | deleteWorkerOnList =>
    cases hexec
    exact .go h rfl id id rfl rfl hnone hwell
  | destroyDeadlockChecker =>
    obtain ⟨hstop, hcheck, haccepter⟩ := h
    obtain ⟨result, hmain⟩ := hp
    simp only at hexec
    split at hexec <;> cases hexec
    · next hmade =>
      -- whoever made it is one of the workers that were started
      obtain ⟨i, hon⟩ := hchecker hmade
      obtain ⟨hstarted, hpos⟩ := accepterThread_of_isOn hI hmain hon
      refine .stop (Option.some_ne_none _) (.inl ?_)
      rw [howItEnds, if_pos hstarted, if_pos hpos]
    · next hmade =>
      refine .go ⟨hstop, fun hstarted => ?_, haccepter⟩ rfl id id rfl rfl hnone hwell
      have hzero : ¬0 < file.numOfWorkerThread := fun hpos => hmade (hcheck hstarted hpos)
      omega
  | destroyServer =>
    obtain ⟨-, hzero, haccepter⟩ := h
    cases hexec
    refine .stop (Option.some_ne_none _) (.inl ?_)
    by_cases hset : s.server.accepterThread = true
    · have hno : ¬0 < file.numOfWorkerThread := by
        rw [hzero hset]
        exact Nat.lt_irrefl 0
      rw [howItEnds, if_pos hset, if_pos hset, if_neg hno]
    · have hno : ¬0 < threadCount file := by
        rw [haccepter.resolve_left hset]
        exact Nat.lt_irrefl 0
      rw [howItEnds, if_neg hset, if_neg hset, if_neg hno]
  | ended => cases hexec
  | registerCheckThread | testServerStop | workerReturned | accepterReturned => exact h.elim

/-- What holds behind a step of a worker or of the accepter. -/
structure OtherStep (file : ServerOptionFile) (s : Process) (p : ProcessPc) (s' : Process)
    (p' : ProcessPc) : Prop where
  beside : Beside s s'
  finished : s'.finishedWorkers + p.isReturned = s.finishedWorkers + p'.isReturned
  stopped : s.serverStop = false → p'.isReturned = p.isReturned
  accepting : s.listenSocket = true → p' ≠ .accepterReturned
  registered : p'.Registered → p.Registered ∨ s'.deadlockChecker = true
  checker : s'.deadlockChecker = true → s.deadlockChecker = true ∨ ∃ i, s'.server.IsOn i
  grows : Grows s.server s'.server
  endsWell : EndsWell file s'
  undisturbed : Undisturbed s'

/-- A step that does nothing to what is shared. -/
theorem OtherStep.go (hnone : s.ended = none) (hwell : interruptionOf s.server = none)
    (hreturned : p'.isReturned = p.isReturned)
    (haccepting : s.listenSocket = true → p' ≠ .accepterReturned)
    (hregistered : p'.Registered → p.Registered) : OtherStep file s p s p' := by
  refine ⟨.refl s, by rw [hreturned], fun _ => hreturned, haccepting,
    fun h => .inl (hregistered h), .inl, .refl _, fun how hhow => ?_, fun _ => hwell⟩
  rw [hnone] at hhow
  cases hhow

/-- Only a worker that has registered itself goes on to its results. -/
theorem registered_of_behind (hworker : q'.worker? = q.worker?)
    {n : Nat} (hknows : Knows n a q) {o : StartupOracle} {b : Startup}
    (hexec : execStartup file q o a = some (b, q'))
    (h : (ProcessPc.behind q q').Registered) : (ProcessPc.server q).Registered := by
  cases q with
  | dequeue | handle | pastResults => trivial
  | worker i =>
    obtain ⟨-, hexec⟩ := Option.ite_none_right_eq_some.mp hexec
    cases hexec
    exact h
  | createCompletionQueue i =>
    cases hexec
    exact h
  | setWorkerOn i =>
    cases hexec
    simp [ProcessPc.behind, ProcessPc.Registered] at h
  | accepter | accept | scan | getNewSession | registerBuffers | createRequestQueue
  | incrementNumOfSession | emplace | enter | closeClient | finished =>
    -- the accepter stays the accepter
    cases q' with
    | dequeue | handle | pastResults => cases hworker
    | _ => exact h
  | _ => exact hknows.elim

/-- A step of the server is no return of a worker. -/
theorem isReturned_behind (pc pc' : StartupPc) : (ProcessPc.behind pc pc').isReturned = 0 := by
  unfold ProcessPc.behind
  split
  · split <;> rfl
  · rfl

theorem behind_ne_accepterReturned (pc pc' : StartupPc) :
    ProcessPc.behind pc pc' ≠ .accepterReturned := by
  unfold ProcessPc.behind
  split
  · split <;> simp
  · simp

/-- What ends the process in the middle of a step has been there before. -/
theorem caused_of_interruption {cause : Interruption}
    (hknows : Knows file.numOfWorkerThread s.server q) (h : s.interruption o q = some cause) :
    cause.Caused file s := by
  unfold Process.interruption at h
  split at h
  · obtain ⟨-, h⟩ := Option.ite_none_right_eq_some.mp h
    cases h
    exact ⟨_, hknows.1⟩
  · obtain ⟨hclosed, h⟩ := Option.ite_none_right_eq_some.mp h
    cases h
    refine ⟨hknows.1, ?_⟩
    rcases hclosed with hdeleted | ⟨hlt, -⟩
    · exact .inr hdeleted
    · exact .inl (Nat.zero_lt_of_lt hlt)
  · cases h

/-- **A step of a worker or of the accepter.** -/
theorem other_exec {main : StartupPc} {others : List StartupPc}
    (hwell : interruptionOf s.server = none)
    (hI : Starting file s.server main others) (hq : q ∈ others) (hp : p.StandsFor q)
    (hexec : execProcess file p o s = some (s', p')) : OtherStep file s p s' p' := by
  have hnone := ended_eq_none hexec
  have hknows := hI.knows q hq
  unfold execProcess at hexec
  rw [if_pos hnone] at hexec
  cases p with
  | server pc =>
    obtain rfl : q = pc := hp
    rcases execServer_cases hexec with ⟨result, rfl, -, -⟩ | ⟨rfl, hclosed, rfl, hp'⟩ | hexec
    · exact hknows.elim
    · rcases hp' with rfl | rfl
      · refine .go hnone hwell rfl (fun hopen => ?_) id
        rw [hclosed] at hopen
        cases hopen
      · exact .go hnone hwell rfl (fun _ => nofun) id
    · rcases execStarted_cases hexec with ⟨cause, hcause, rfl, rfl⟩ | ⟨a, q', hstartup, rfl, rfl⟩
      · refine ⟨⟨rfl, rfl, rfl, rfl, rfl, id⟩, rfl, fun _ => rfl, fun _ => nofun, .inl, .inl,
          .refl _, ?_, nofun⟩
        intro how hhow
        cases hhow
        exact .inr ⟨cause, rfl, caused_of_interruption hknows hcause⟩
      · obtain ⟨hlists, hkeeps, -, hworker⟩ := keeps_of_exec hI hq hstartup
        refine ⟨⟨rfl, rfl, rfl, rfl, hkeeps.accepterThread_eq, id⟩,
          by rw [isReturned_behind]; rfl, fun _ => isReturned_behind q q',
          fun _ => behind_ne_accepterReturned q q',
          fun h => .inl (registered_of_behind hworker hknows hstartup h), .inl, hkeeps.toGrows,
          ?_, ?_⟩
        · intro how hhow
          obtain ⟨cause, hcause, rfl⟩ := Option.map_eq_some_iff.mp hhow
          refine .inr ⟨cause, rfl, ?_⟩
          exact caused_of_interruptionOf hlists hcause
        · exact fun hended => Option.map_eq_none_iff.mp hended
  | registerCheckThread i =>
    cases hexec
    obtain rfl : q = .dequeue i := hp
    refine ⟨⟨rfl, rfl, rfl, rfl, rfl, fun _ => rfl⟩, rfl, fun _ => rfl, fun _ => nofun,
      fun _ => .inr rfl, fun _ => .inr ⟨i, hknows⟩, .refl _, fun how hhow => ?_, fun _ => hwell⟩
    rw [show (_ : Option End) = none from hnone] at hhow
    cases hhow
  | testServerStop i =>
    simp only at hexec
    split at hexec
    · next hstop =>
      cases hexec
      refine ⟨⟨rfl, rfl, rfl, rfl, rfl, id⟩, rfl, fun hfalse => ?_, fun _ => nofun,
        fun _ => .inl trivial, .inl, .refl _, fun how hhow => ?_, fun _ => hwell⟩
      · rw [hfalse] at hstop
        cases hstop
      · rw [show (_ : Option End) = none from hnone] at hhow
        cases hhow
    · cases hexec
      exact .go hnone hwell rfl (fun _ => nofun) id
  | workerReturned | accepterReturned => cases hexec
  | _ =>
    obtain ⟨result, rfl⟩ := hp
    exact hknows.elim

/-- What has happened, has happened. -/
theorem Running.checked {main : ProcessPc} {others : List ProcessPc} {main' : StartupPc}
    {others' : List StartupPc} (hI : Running file s main others)
    (hstarting : Starting file s.server main' others')
    (hall : s.finishedWorkers = s.server.workerThreads) : s.Checked file := by
  intro haccepter hpos
  have hthreads := (hstarting.started haccepter).2
  have hload : load ProcessPc.isReturned others ≠ 0 := by
    rw [← hI.finished, hall, hthreads]
    omega
  obtain ⟨l, p, r, rfl, hreturned⟩ := exists_of_load_ne_zero hload
  refine hI.registered p (List.mem_append_right l List.mem_cons_self) ?_
  cases p with
  | workerReturned => trivial
  | _ => exact absurd rfl hreturned

/-- **Every run** keeps count of the workers, and has `main` end as `StartServer` has
decided, if nobody is faster. -/
theorem running {c : Config Process ProcessPc}
    (h : (process file).Reachable (process.init file) c) :
    ∃ main others, c.threads = main :: others ∧ Running file c.shared main others := by
  refine Run.induct (I := fun s ts => ∃ main others, ts = main :: others ∧
    Running file s main others) h ?_ ?_ ?_
  · refine ⟨_, _, rfl, ⟨rfl, rfl, rfl, rfl⟩, ?_, fun _ => ?_, fun _ => ?_, ?_, nofun, nofun,
      fun _ => rfl⟩
    all_goals simp [process.init, load, Function.comp_def, ProcessPc.isReturned,
      ProcessPc.Registered]
  · rintro s l p r o s' p' hrun ⟨main, others, hts, hI⟩ - hexec
    obtain ⟨main', others', smain, sothers, hts', hmain, hothers, hstarting⟩ := shown_starting hrun
    obtain ⟨rfl, rfl⟩ : main = main' ∧ others = others' := by
      rw [hts] at hts'
      exact List.cons.inj hts'
    have hwell := hI.undisturbed (ended_eq_none hexec)
    have hcount : s.server.accepterThread = true →
        threadCount file = file.numOfWorkerThread := by
      obtain ⟨d, hd, hshows⟩ := process_shows hrun
      intro haccepter
      refine threadCount_of_accepterThread hd ?_
      rw [← hshows.state]
      exact haccepter
    cases l with
    | nil =>
      obtain ⟨rfl, rfl⟩ := List.cons.inj hts
      have hstep :=
        hI.main.exec hcount (hI.checked hstarting) hI.checker hwell hstarting hmain hexec
      refine ⟨p', r, rfl, hstep.main, hstep.finished.trans hI.finished,
        fun h => hI.stopped (hstep.stopped h), fun h => hI.accepting (hstep.accepting h),
        fun q hq hreg => ?_, fun hmade => ?_, hstep.endsWell, hstep.undisturbed⟩
      · exact hstep.deadlockChecker.trans (hI.registered q hq hreg)
      · obtain ⟨i, hon⟩ := hI.checker (hstep.deadlockChecker.symm.trans hmade)
        exact ⟨i, hstep.grows.on i hon⟩
    | cons x l =>
      obtain ⟨rfl, rfl⟩ := List.cons.inj hts
      obtain ⟨l', q, r', rfl, -, hp, -⟩ := forall₂_split hothers
      have hstep :=
        other_exec hwell hstarting (List.mem_append_right l' List.mem_cons_self) hp hexec
      obtain ⟨hrl, hrp, hrr⟩ := forall_mem_place.mp hI.registered
      have hmade : s.deadlockChecker = true → s'.deadlockChecker = true :=
        hstep.beside.deadlockChecker
      refine ⟨x, l ++ p' :: r, rfl, hI.main.keep (ended_eq_none hexec) hstep.beside, ?_,
        fun hfalse => ?_, fun hopen => ?_, ?_, fun hchecker => ?_, hstep.endsWell,
        hstep.undisturbed⟩
      · have hold : s.finishedWorkers = load ProcessPc.isReturned (l ++ p :: r) := hI.finished
        have hfinished := hstep.finished
        simp only [load_append, load_cons] at hold ⊢
        omega
      · rw [hstep.beside.serverStop] at hfalse
        rw [load_place (hstep.stopped hfalse)]
        exact hI.stopped hfalse
      · rw [hstep.beside.listenSocket] at hopen
        obtain ⟨hl, -, hr⟩ := forall_mem_place.mp (hI.accepting hopen)
        exact forall_mem_place.mpr ⟨hl, hstep.accepting hopen, hr⟩
      · refine forall_mem_place.mpr ⟨fun q hq hreg => hmade (hrl q hq hreg), fun hreg => ?_,
          fun q hq hreg => hmade (hrr q hq hreg)⟩
        rcases hstep.registered hreg with hreg | hmade'
        · exact hmade (hrp hreg)
        · exact hmade'
      · rcases hstep.checker hchecker with hchecker | hon
        · obtain ⟨i, hon⟩ := hI.checker hchecker
          exact ⟨i, hstep.grows.on i hon⟩
        · exact hon
  · intro s ts e
    exact isEmptyElim e

/-- The threads of the process with both invariants. -/
theorem running_shown {c : Config Process ProcessPc}
    (h : (process file).Reachable (process.init file) c) :
    ∃ main others main' others', c.threads = main :: others ∧ main.StandsFor main' ∧
      List.Forall₂ ProcessPc.StandsFor others others' ∧
      Starting file c.shared.server main' others' ∧ Running file c.shared main others := by
  obtain ⟨main, others, main', others', hts, hmain, hothers, hstarting⟩ := shown_starting h
  obtain ⟨main₂, others₂, hts₂, hrunning⟩ := running h
  obtain ⟨rfl, rfl⟩ : main₂ = main ∧ others₂ = others := by
    rw [hts₂] at hts
    exact List.cons.inj hts
  exact ⟨main₂, others₂, main', others', hts₂, hmain, hothers, hstarting, hrunning⟩

end RioServer.Program
