import RioServer.Lib.Interleaving

/-!
# The logger's thread (Logger.cpp)

Any number of `WriteLog` calls push log objects and set `loggerEventHandles[0]`.
The logger's thread waits for that event or for the one of `StopLoggerThread`,
which comes second, and in `WriteLogImpl` moves the queue to a list of its own
and writes the list to the file. `loggerThreads` is their interleaving from
`RunLoggerThread` on.

What reaches the file is right: it is what was pushed, in order, and when
`StopLoggerThread` returns nothing is missing that was pushed before
(`written_of_stopReturned`). Too little reaches it: `WriteLogImpl` reads the
size of the queue once and never counts it down, so a call that finds anything
in the queue stays in its loop, until `front` and `pop` meet an empty queue
(`never_returns`). A call that finds nothing returns (`exec_nearer`).

A log object stands for its line in the file; `SetLogTime` and the copy for the
console are left out.
-/

namespace RioServer.Log

open Machine

variable {LogBase : Type}

/-! ## The logger -/

/-- `loggerEventHandles`, by index; also the result of the wait for them. -/
inductive Handle where
  | logHandle
  | stopHandle
  deriving DecidableEq

/-- The members of `Logger` that its threads share, and three records: all that
was pushed, the part of it that was pushed before the `SetEvent` of
`StopLoggerThread`, and which threads have come to their end. -/
structure Logger (LogBase : Type) where
  logWaitingQueue : List LogBase
  logQueueLock : Bool
  logEvent : Bool
  stopEvent : Bool
  logFileStream : List LogBase
  pushed : List LogBase
  pushedAtStop : Option (List LogBase)
  workerExited : Bool
  stopReturned : Bool

/-- After `RunLoggerThread`. -/
def Logger.initial : Logger LogBase := ⟨[], false, false, false, [], [], none, false, false⟩

/-- Where a thread stands. The logger's own thread carries its `waitingLogList`,
and inside `WriteLogImpl` the result of the wait that it comes from. -/
inductive LoggerPc (LogBase : Type) where
  /-- `WriteLog`, from the lock of the queue to the end of the call. -/
  | writeLog (logObject : LogBase)
  | push (logObject : LogBase)
  | setEvent
  | unlock
  /-- `Worker`. -/
  | wait (waitingLogList : List LogBase)
  | sleep (waitingLogList : List LogBase)
  | returned (result : Handle) (waitingLogList : List LogBase)
  /-- `WriteLogImpl`: the lock, `size`, the loop over `restSize`, and the loop
  over the list with what it has still to write. -/
  | writeLogImpl (result : Handle) (waitingLogList : List LogBase)
  | size (result : Handle) (waitingLogList : List LogBase)
  | moveQueue (result : Handle) (restSize : Nat) (waitingLogList : List LogBase)
  | writeLogToFile (result : Handle) (waitingLogList rest : List LogBase)
  /-- After `front` of an empty queue, where the behaviour is undefined. -/
  | poppedEmpty (waitingLogList : List LogBase)
  /-- `StopLoggerThread`, after its `SetEvent`. -/
  | join
  | finished
  deriving DecidableEq

/-- One action of a thread. -/
def execLogger : LoggerPc LogBase → Unit → Logger LogBase →
    Option (Logger LogBase × LoggerPc LogBase)
  -- Logger.cpp:118
  | .writeLog logObject, _, s =>
    if s.logQueueLock then none else some ({ s with logQueueLock := true }, .push logObject)
  | .push logObject, _, s =>
    some ({ s with
      logWaitingQueue := s.logWaitingQueue ++ [logObject]
      pushed := s.pushed ++ [logObject] }, .setEvent)
  | .setEvent, _, s => some ({ s with logEvent := true }, .unlock)
  | .unlock, _, s => some ({ s with logQueueLock := false }, .finished)
  -- Logger.cpp:64; of two events that are set the wait takes the first, and resets it
  | .wait waitingLogList, _, s =>
    if s.logEvent then some ({ s with logEvent := false }, .writeLogImpl .logHandle waitingLogList)
    else if s.stopEvent then some ({ s with stopEvent := false }, .sleep waitingLogList)
    else none
  | .sleep waitingLogList, _, s => some (s, .writeLogImpl .stopHandle waitingLogList)
  | .returned .logHandle _, _, s => some (s, .wait [])
  | .returned .stopHandle _, _, s => some ({ s with workerExited := true }, .finished)
  -- Logger.cpp:99
  | .writeLogImpl result waitingLogList, _, s =>
    if s.logQueueLock then none
    else some ({ s with logQueueLock := true }, .size result waitingLogList)
  | .size result waitingLogList, _, s =>
    some (s, .moveQueue result s.logWaitingQueue.length waitingLogList)
  | .moveQueue result restSize waitingLogList, _, s =>
    if restSize > 0 then
      match s.logWaitingQueue with
      | [] => some (s, .poppedEmpty waitingLogList)
      -- nothing is taken off `restSize`
      | logObject :: logWaitingQueue =>
        some ({ s with logWaitingQueue := logWaitingQueue },
          .moveQueue result restSize (waitingLogList ++ [logObject]))
    else some ({ s with logQueueLock := false },
      .writeLogToFile result waitingLogList waitingLogList)
  | .writeLogToFile result waitingLogList [], _, s => some (s, .returned result waitingLogList)
  | .writeLogToFile result waitingLogList (logObject :: rest), _, s =>
    some ({ s with logFileStream := s.logFileStream ++ [logObject] },
      .writeLogToFile result waitingLogList rest)
  | .poppedEmpty _, _, _ => none
  -- Logger.cpp:96
  | .join, _, s =>
    if s.workerExited then some ({ s with stopReturned := true }, .finished) else none
  | .finished, _, _ => none

inductive LoggerEvent (LogBase : Type) where
  | writeLog (logObject : LogBase)
  | stopLoggerThread

/-- A call of `WriteLog`, or the one of `StopLoggerThread` with its `SetEvent`. -/
def spawnLogger : LoggerEvent LogBase → Logger LogBase → Option (Logger LogBase × LoggerPc LogBase)
  | .writeLog logObject, s => some (s, .writeLog logObject)
  | .stopLoggerThread, s =>
    if s.pushedAtStop.isSome then none
    else some ({ s with stopEvent := true, pushedAtStop := some s.pushed }, .join)

def loggerThreads : Machine (Logger LogBase) (LoggerPc LogBase) Unit (LoggerEvent LogBase) :=
  ⟨execLogger, spawnLogger⟩

/-- The logger's thread is there from the start. -/
def loggerThreads.init : Config (Logger LogBase) (LoggerPc LogBase) := ⟨.initial, [.wait []]⟩

/-! ## The thread that writes -/

/-- The logger's own thread. -/
def LoggerPc.isWorker : LoggerPc LogBase → Nat
  | .wait _ | .sleep _ | .returned _ _ | .writeLogImpl _ _ | .size _ _ | .moveQueue _ _ _
  | .writeLogToFile _ _ _ | .poppedEmpty _ => 1
  | .writeLog _ | .push _ | .setEvent | .unlock | .join | .finished => 0

/-- What the thread has to write still, of what it has on its list. -/
def LoggerPc.inHand : LoggerPc LogBase → List LogBase
  | .wait w | .sleep w | .writeLogImpl _ w | .size _ w | .moveQueue _ _ w | .poppedEmpty w => w
  | .writeLogToFile _ _ rest => rest
  | .returned _ _ | .writeLog _ | .push _ | .setEvent | .unlock | .join | .finished => []

variable {s s' : Logger LogBase} {pc pc' : LoggerPc LogBase} {l r ts : List (LoggerPc LogBase)}

theorem inHand_of_not_worker (h : pc.isWorker = 0) : pc.inHand = [] := by
  cases pc <;> first | rfl | cases h

theorem inHand_flatMap (h : load LoggerPc.isWorker ts = 0) : ts.flatMap LoggerPc.inHand = [] :=
  List.flatMap_eq_nil_iff.mpr fun pc hpc => inHand_of_not_worker (load_eq_zero_iff.mp h pc hpc)

/-- The logs after an action of a thread that is not the logger's. -/
structure Pushes (s s' : Logger LogBase) : Prop where
  pushedAtStop : s'.pushedAtStop = s.pushedAtStop
  stopEvent : s'.stopEvent = s.stopEvent
  logFileStream : s'.logFileStream = s.logFileStream
  workerExited : s'.workerExited = s.workerExited
  stopReturned : s'.stopReturned = true → s.stopReturned = true ∨ s.workerExited = true
  queue : ∃ xs, s'.logWaitingQueue = s.logWaitingQueue ++ xs ∧ s'.pushed = s.pushed ++ xs

/-- The logs after an action of the logger's thread. -/
structure Writes (s s' : Logger LogBase) (pc pc' : LoggerPc LogBase) : Prop where
  pushedAtStop : s'.pushedAtStop = s.pushedAtStop
  stopEvent : s'.stopEvent = true → s.stopEvent = true
  logFileStream : s.logFileStream <+: s'.logFileStream
  workerExited : s.workerExited = true → s'.workerExited = true
  stopReturned : s'.stopReturned = s.stopReturned
  pushed : s'.pushed = s.pushed
  ledger : s'.logFileStream ++ pc'.inHand ++ s'.logWaitingQueue =
    s.logFileStream ++ pc.inHand ++ s.logWaitingQueue

/-- **A thread that is not the logger's** only adds to the queue. -/
theorem exec_pushes (hpc : pc.isWorker = 0) (h : execLogger pc () s = some (s', pc')) :
    (pc'.isWorker = 0 ∧ pc' ≠ .join) ∧ Pushes s s' := by
  have hnone : ∃ xs, s.logWaitingQueue = s.logWaitingQueue ++ xs ∧ s.pushed = s.pushed ++ xs :=
    ⟨[], (List.append_nil _).symm, (List.append_nil _).symm⟩
  cases pc with
  | push logObject =>
    cases h
    exact ⟨⟨rfl, nofun⟩, rfl, rfl, rfl, rfl, .inl, [logObject], rfl, rfl⟩
  | setEvent | unlock =>
    cases h
    exact ⟨⟨rfl, nofun⟩, rfl, rfl, rfl, rfl, .inl, hnone⟩
  | writeLog =>
    simp only [execLogger] at h
    split at h <;> cases h
    exact ⟨⟨rfl, nofun⟩, rfl, rfl, rfl, rfl, .inl, hnone⟩
  | join =>
    simp only [execLogger] at h
    split at h <;> cases h
    next hexited => exact ⟨⟨rfl, nofun⟩, rfl, rfl, rfl, rfl, fun _ => .inr hexited, hnone⟩
  | finished => cases h
  | _ => cases hpc

/-- **The logger's thread** only moves from the queue to its list and from there
to the file. -/
theorem exec_writes (hpc : pc.isWorker = 1) (h : execLogger pc () s = some (s', pc')) :
    Writes s s' pc pc' := by
  have hrefl : s.logFileStream <+: s.logFileStream := List.prefix_refl _
  cases pc with
  | wait waitingLogList =>
    simp only [execLogger] at h
    split at h
    · cases h
      exact ⟨rfl, id, hrefl, id, rfl, rfl, rfl⟩
    · split at h <;> cases h
      exact ⟨rfl, nofun, hrefl, id, rfl, rfl, rfl⟩
  | sleep waitingLogList | size result waitingLogList =>
    cases h
    exact ⟨rfl, id, hrefl, id, rfl, rfl, rfl⟩
  | returned result waitingLogList =>
    cases result with
    | logHandle =>
      cases h
      exact ⟨rfl, id, hrefl, id, rfl, rfl, rfl⟩
    | stopHandle =>
      cases h
      exact ⟨rfl, id, hrefl, fun _ => rfl, rfl, rfl, rfl⟩
  | writeLogImpl result waitingLogList =>
    simp only [execLogger] at h
    split at h <;> cases h
    exact ⟨rfl, id, hrefl, id, rfl, rfl, rfl⟩
  | moveQueue result restSize waitingLogList =>
    simp only [execLogger] at h
    split at h
    · split at h <;> cases h
      · exact ⟨rfl, id, hrefl, id, rfl, rfl, rfl⟩
      · next logObject logWaitingQueue hqueue =>
        refine ⟨rfl, id, hrefl, id, rfl, rfl, ?_⟩
        simp [LoggerPc.inHand, hqueue]
    · cases h
      exact ⟨rfl, id, hrefl, id, rfl, rfl, rfl⟩
  | writeLogToFile result waitingLogList rest =>
    cases rest with
    | nil =>
      cases h
      exact ⟨rfl, id, hrefl, id, rfl, rfl, rfl⟩
    | cons logObject rest =>
      cases h
      refine ⟨rfl, id, List.prefix_append _ _, id, rfl, rfl, ?_⟩
      simp [LoggerPc.inHand]
  | poppedEmpty => cases h
  | _ => cases hpc

/-- A thread is the logger's or is not. -/
theorem isWorker_cases (pc : LoggerPc LogBase) : pc.isWorker = 0 ∨ pc.isWorker = 1 := by
  cases pc <;> first | exact .inl rfl | exact .inr rfl

/-! ## Nothing is lost that reaches the file -/

/-- What was pushed before the `SetEvent` of `StopLoggerThread` is in the file. -/
def Logger.Written (s : Logger LogBase) : Prop :=
  ∃ pushed, s.pushedAtStop = some pushed ∧ pushed <+: s.logFileStream

/-- What a thread that goes about the stop can count on: the `SetEvent` has
been, and from the loop over `restSize` on, what was pushed before it is in the
file, on the list or among the next `restSize` of the queue. -/
def LoggerPc.Stops (s : Logger LogBase) : LoggerPc LogBase → Prop
  | .join | .sleep _ | .writeLogImpl .stopHandle _ | .size .stopHandle _ => s.pushedAtStop.isSome
  | .moveQueue .stopHandle restSize waitingLogList => ∃ pushed, s.pushedAtStop = some pushed ∧
    pushed <+: s.logFileStream ++ waitingLogList ++ s.logWaitingQueue.take restSize
  | .writeLogToFile .stopHandle _ rest => ∃ pushed, s.pushedAtStop = some pushed ∧
    pushed <+: s.logFileStream ++ rest
  | .returned .stopHandle _ => s.Written
  | _ => True

/-- The logs are all somewhere, in the order in which they were pushed, and the
stop has what it counts on. -/
structure Kept (s : Logger LogBase) (ts : List (LoggerPc LogBase)) : Prop where
  worker : load LoggerPc.isWorker ts ≤ 1
  ledger : s.logFileStream ++ ts.flatMap LoggerPc.inHand ++ s.logWaitingQueue = s.pushed
  pushedAtStop : ∀ pushed, s.pushedAtStop = some pushed → pushed <+: s.pushed
  stopEvent : s.stopEvent = true → s.pushedAtStop.isSome
  stops : ∀ pc ∈ ts, pc.Stops s
  exited : s.workerExited = true → s.Written
  returned : s.stopReturned = true → s.workerExited = true

/-- What a stop counts on is not disturbed by pushes. -/
theorem LoggerPc.Stops.push (h : pc.Stops s) (hpush : Pushes s s') : pc.Stops s' := by
  obtain ⟨hstop, -, hfile, -, -, xs, hqueue, -⟩ := hpush
  unfold LoggerPc.Stops Logger.Written at *
  rw [hstop, hfile, hqueue]
  split at h
  all_goals try exact h
  obtain ⟨pushed, hpushed, hprefix⟩ := h
  refine ⟨pushed, hpushed, hprefix.trans ?_⟩
  rw [List.take_append, ← List.append_assoc]
  exact List.prefix_append _ _

/-- A thread that is not the logger's counts on the `SetEvent` at most. -/
theorem LoggerPc.Stops.other (h : pc.Stops s) (hpc : pc.isWorker = 0)
    (hstop : s'.pushedAtStop = s.pushedAtStop) : pc.Stops s' := by
  cases pc with
  | join =>
    show s'.pushedAtStop.isSome = true
    rw [hstop]
    exact h
  | writeLog | push | setEvent | unlock | finished => trivial
  | _ => cases hpc

/-- Nothing is stopping before the `SetEvent`. -/
theorem LoggerPc.Stops.first (h : pc.Stops s) (hstop : s.pushedAtStop = none) : pc.Stops s' := by
  unfold LoggerPc.Stops Logger.Written at *
  rw [hstop] at h
  split at h
  all_goals first | trivial | simp at h

/-- The logger's thread hands on what its stop counts on. At `size` it is the
whole of what was pushed. -/
theorem exec_stops (hpc : pc.isWorker = 1) (h : execLogger pc () s = some (s', pc'))
    (hstops : pc.Stops s) (hevent : s.stopEvent = true → s.pushedAtStop.isSome)
    (hpushed : ∀ pushed, s.pushedAtStop = some pushed →
      pushed <+: s.logFileStream ++ pc.inHand ++ s.logWaitingQueue) :
    pc'.Stops s' ∧ (s'.workerExited = true → s.workerExited = true ∨ s'.Written) := by
  cases pc with
  | wait waitingLogList =>
    simp only [execLogger] at h
    split at h
    · cases h
      exact ⟨trivial, .inl⟩
    · split at h <;> cases h
      next hstop => exact ⟨hevent hstop, .inl⟩
  | sleep waitingLogList =>
    cases h
    exact ⟨hstops, .inl⟩
  | size result waitingLogList =>
    cases h
    cases result with
    | logHandle => exact ⟨trivial, .inl⟩
    | stopHandle =>
      obtain ⟨pushed, hsome⟩ := Option.isSome_iff_exists.mp hstops
      refine ⟨⟨pushed, hsome, ?_⟩, .inl⟩
      rw [List.take_length]
      exact hpushed pushed hsome
  | returned result waitingLogList =>
    cases result with
    | logHandle =>
      cases h
      exact ⟨trivial, .inl⟩
    | stopHandle =>
      cases h
      exact ⟨trivial, fun _ => .inr hstops⟩
  | writeLogImpl result waitingLogList =>
    simp only [execLogger] at h
    split at h <;> cases h
    cases result with
    | logHandle => exact ⟨trivial, .inl⟩
    | stopHandle => exact ⟨hstops, .inl⟩
  | moveQueue result restSize waitingLogList =>
    simp only [execLogger] at h
    split at h
    · split at h <;> cases h
      · exact ⟨trivial, .inl⟩
      · next logObject logWaitingQueue hqueue =>
        cases result with
        | logHandle => exact ⟨trivial, .inl⟩
        | stopHandle =>
          obtain ⟨pushed, hsome, hprefix⟩ := hstops
          refine ⟨⟨pushed, hsome, hprefix.trans ?_⟩, .inl⟩
          rw [hqueue, List.append_assoc, List.append_assoc, List.append_assoc]
          refine (List.prefix_append_right_inj _).mpr ((List.prefix_append_right_inj _).mpr ?_)
          obtain ⟨n, rfl⟩ : ∃ n, restSize = n + 1 := ⟨restSize - 1, by omega⟩
          exact (List.prefix_cons_inj _).mpr (List.take_prefix_take_left (by omega))
    · next hrest =>
      cases h
      cases result with
      | logHandle => exact ⟨trivial, .inl⟩
      | stopHandle =>
        obtain ⟨pushed, hsome, hprefix⟩ := hstops
        refine ⟨⟨pushed, hsome, ?_⟩, .inl⟩
        obtain rfl : restSize = 0 := by omega
        rwa [List.take_zero, List.append_nil] at hprefix
  | writeLogToFile result waitingLogList rest =>
    cases rest with
    | nil =>
      cases h
      cases result with
      | logHandle => exact ⟨trivial, .inl⟩
      | stopHandle =>
        obtain ⟨pushed, hsome, hprefix⟩ := hstops
        rw [List.append_nil] at hprefix
        exact ⟨⟨pushed, hsome, hprefix⟩, .inl⟩
    | cons logObject rest =>
      cases h
      cases result with
      | logHandle => exact ⟨trivial, .inl⟩
      | stopHandle =>
        obtain ⟨pushed, hsome, hprefix⟩ := hstops
        refine ⟨⟨pushed, hsome, ?_⟩, .inl⟩
        rwa [List.append_assoc]
  | poppedEmpty => cases h
  | _ => cases hpc

/-- What is in the file stays there. -/
theorem Logger.Written.mono (h : s.Written) (hstop : s'.pushedAtStop = s.pushedAtStop)
    (hfile : s.logFileStream <+: s'.logFileStream) : s'.Written := by
  obtain ⟨pushed, hsome, hprefix⟩ := h
  exact ⟨pushed, hstop.trans hsome, hprefix.trans hfile⟩

/-- A push that has begun, or a call that has ended, counts on nothing. -/
theorem stops_of_not_worker (hpc : pc.isWorker = 0) (hjoin : pc ≠ .join) : pc.Stops s := by
  cases pc with
  | writeLog | push | setEvent | unlock | finished => trivial
  | join => exact absurd rfl hjoin
  | _ => cases hpc

theorem exec_kept (hI : Kept s (l ++ pc :: r)) (h : execLogger pc () s = some (s', pc')) :
    Kept s' (l ++ pc' :: r) := by
  obtain ⟨hl, hpc, hr⟩ := forall_mem_place.mp hI.stops
  have hworker := hI.worker
  rw [load_append, load_cons] at hworker
  have hledger := hI.ledger
  simp only [List.flatMap_append, List.flatMap_cons] at hledger
  rcases isWorker_cases pc with hpush | hwrite
  · obtain ⟨⟨hpush', hjoin⟩, hp⟩ := exec_pushes hpush h
    obtain ⟨xs, hqueue, hpushed⟩ := hp.queue
    refine ⟨?_, ?_, ?_, ?_, forall_mem_place.mpr ⟨?_, ?_, ?_⟩, ?_, ?_⟩
    · rw [load_append, load_cons]
      omega
    · simp only [List.flatMap_append, List.flatMap_cons]
      rw [hp.logFileStream, hqueue, hpushed, ← hledger, inHand_of_not_worker hpush,
        inHand_of_not_worker hpush']
      simp only [List.append_assoc]
    · intro pushed hsome
      rw [hpushed]
      exact (hI.pushedAtStop pushed (hp.pushedAtStop ▸ hsome)).trans (List.prefix_append _ _)
    · rw [hp.stopEvent, hp.pushedAtStop]
      exact hI.stopEvent
    · exact fun q hq => (hl q hq).push hp
    · exact stops_of_not_worker hpush' hjoin
    · exact fun q hq => (hr q hq).push hp
    · intro hx
      rw [hp.workerExited] at hx
      exact (hI.exited hx).mono hp.pushedAtStop (hp.logFileStream ▸ List.prefix_refl _)
    · intro hx
      rw [hp.workerExited]
      exact (hp.stopReturned hx).elim hI.returned id
  · have hw := exec_writes hwrite h
    -- the others have nothing in hand, and count on the `SetEvent` only
    have hl0 : load LoggerPc.isWorker l = 0 := by omega
    have hr0 : load LoggerPc.isWorker r = 0 := by omega
    rw [inHand_flatMap hl0, inHand_flatMap hr0, List.nil_append, List.append_nil] at hledger
    have hbefore : ∀ pushed, s.pushedAtStop = some pushed →
        pushed <+: s.logFileStream ++ pc.inHand ++ s.logWaitingQueue := by
      rw [hledger]
      exact hI.pushedAtStop
    obtain ⟨hpc', hexited⟩ := exec_stops hwrite h hpc hI.stopEvent hbefore
    refine ⟨?_, ?_, ?_, ?_, forall_mem_place.mpr ⟨?_, hpc', ?_⟩, ?_, ?_⟩
    · have := isWorker_cases pc'
      rw [load_append, load_cons]
      omega
    · simp only [List.flatMap_append, List.flatMap_cons]
      rw [inHand_flatMap hl0, inHand_flatMap hr0, List.nil_append, List.append_nil, hw.ledger,
        hledger, hw.pushed]
    · rw [hw.pushedAtStop, hw.pushed]
      exact hI.pushedAtStop
    · rw [hw.pushedAtStop]
      exact fun hx => hI.stopEvent (hw.stopEvent hx)
    · exact fun q hq => (hl q hq).other (load_eq_zero_iff.mp hl0 q hq) hw.pushedAtStop
    · exact fun q hq => (hr q hq).other (load_eq_zero_iff.mp hr0 q hq) hw.pushedAtStop
    · intro hx
      rcases hexited hx with hold | hnew
      · exact (hI.exited hold).mono hw.pushedAtStop hw.logFileStream
      · exact hnew
    · rw [hw.stopReturned]
      exact fun hx => hw.workerExited (hI.returned hx)

theorem spawn_kept {e : LoggerEvent LogBase} (hI : Kept s ts)
    (h : spawnLogger e s = some (s', pc)) : Kept s' (ts ++ [pc]) := by
  cases e with
  | writeLog logObject =>
    cases h
    refine ⟨?_, ?_, hI.pushedAtStop, hI.stopEvent, forall_mem_spawned.mpr ⟨hI.stops, trivial⟩,
      hI.exited, hI.returned⟩
    · rw [load_append]
      exact hI.worker
    · simp only [List.flatMap_append, List.flatMap_cons, List.flatMap_nil, LoggerPc.inHand,
        List.append_nil]
      exact hI.ledger
  | stopLoggerThread =>
    simp only [spawnLogger] at h
    split at h <;> cases h
    next hstop =>
      rw [Option.not_isSome_iff_eq_none] at hstop
      refine ⟨?_, ?_, ?_, fun _ => rfl, forall_mem_spawned.mpr ⟨?_, rfl⟩, ?_, hI.returned⟩
      · rw [load_append]
        exact hI.worker
      · simp only [List.flatMap_append, List.flatMap_cons, List.flatMap_nil, LoggerPc.inHand,
          List.append_nil]
        exact hI.ledger
      · rintro pushed ⟨⟩
        exact List.prefix_refl _
      · exact fun q hq => (hI.stops q hq).first hstop
      · intro hx
        obtain ⟨pushed, hsome, -⟩ := hI.exited hx
        rw [hstop] at hsome
        cases hsome

theorem kept {c : Config (Logger LogBase) (LoggerPc LogBase)}
    (h : loggerThreads.Reachable loggerThreads.init c) : Kept c.shared c.threads := by
  refine h.induct (I := Kept) ?_ ?_ ?_
  · refine ⟨Nat.le_refl 1, rfl, nofun, nofun, ?_, nofun, nofun⟩
    intro pc hpc
    rw [List.mem_singleton.mp hpc]
    trivial
  · exact fun _ hI _ hexec => exec_kept hI hexec
  · exact fun _ hI hspawn => spawn_kept hI hspawn

/-- **No loss and no duplicate**, in any run: the file holds the first of what
was pushed, in the order of the pushes, and what was pushed before the stop once
`StopLoggerThread` has returned. -/
theorem written_of_stopReturned {c : Config (Logger LogBase) (LoggerPc LogBase)}
    (h : loggerThreads.Reachable loggerThreads.init c) :
    c.shared.logFileStream <+: c.shared.pushed ∧
      (c.shared.stopReturned = true → c.shared.Written) := by
  have hI := kept h
  refine ⟨?_, fun hx => hI.exited (hI.returned hx)⟩
  rw [← hI.ledger, List.append_assoc]
  exact List.prefix_append _ _

/-! ## Calls that end -/

/-- The threads that have `logQueueLock`; after an empty queue was popped nothing
gives it back. -/
def LoggerPc.holdsLock : LoggerPc LogBase → Nat
  | .push _ | .setEvent | .unlock | .size _ _ | .moveQueue _ _ _ | .poppedEmpty _ => 1
  | .writeLog _ | .wait _ | .sleep _ | .returned _ _ | .writeLogImpl _ _ | .writeLogToFile _ _ _
  | .join | .finished => 0

/-- At the lock. -/
def LoggerPc.awaitsLock : LoggerPc LogBase → Bool
  | .writeLog _ | .writeLogImpl _ _ => true
  | _ => false

/-- How many parts of its `WriteLog` or `WriteLogImpl` a thread has yet to go
through; 0 outside of them. -/
def LoggerPc.phase : LoggerPc LogBase → Nat
  | .writeLog _ | .writeLogImpl _ _ => 4
  | .push _ | .size _ _ => 3
  | .setEvent | .moveQueue _ _ _ => 2
  | .unlock | .writeLogToFile _ _ _ | .poppedEmpty _ => 1
  | .wait _ | .sleep _ | .returned _ _ | .join | .finished => 0

/-- How many rounds the loop it is in has yet to make. -/
def LoggerPc.rounds : LoggerPc LogBase → Nat
  | .moveQueue _ restSize _ => restSize
  | .writeLogToFile _ _ rest => rest.length
  | _ => 0

/-- `pc'` is nearer to the end of the call than `pc`. Both numbers are the
thread's own: nothing that another thread does can change them. -/
def LoggerPc.Nearer (pc' pc : LoggerPc LogBase) : Prop :=
  Prod.Lex (· < ·) (· < ·) (pc'.phase, pc'.rounds) (pc.phase, pc.rounds)

/-- A call can act unless another thread has the lock it is at, each of its
actions brings it nearer to its end, and whoever has the lock is in such a call
and not at a lock. -/
structure CallsEnd (s : Logger LogBase) (ts : List (LoggerPc LogBase)) : Prop where
  acts : ∀ pc ∈ ts, 0 < pc.phase →
    (pc.awaitsLock = true ∧ s.logQueueLock = true) ∨ (execLogger pc () s).isSome
  nearer : ∀ pc ∈ ts, 0 < pc.phase →
    ∀ s' pc', execLogger pc () s = some (s', pc') → pc'.Nearer pc
  holder : s.logQueueLock = true →
    ∃ pc ∈ ts, pc.holdsLock = 1 ∧ 0 < pc.phase ∧ pc.awaitsLock = false

/-- What the logger is for: no call pops an empty queue, all of them end, and
the logs get to the file. -/
structure LogsOut (s : Logger LogBase) (ts : List (LoggerPc LogBase)) : Prop where
  notPoppedEmpty : ∀ waitingLogList, .poppedEmpty waitingLogList ∉ ts
  callsEnd : CallsEnd s ts
  inOrder : s.logFileStream <+: s.pushed
  written : s.stopReturned = true → s.Written

/-- **The exact exception**: `WriteLogImpl` finds nothing in the queue. -/
def NothingWaiting : Guard (Logger LogBase) (LoggerPc LogBase) Unit := fun pc _ s _ =>
  match pc with
  | .size _ _ => s.logWaitingQueue = []
  | _ => True

instance [DecidableEq LogBase] (pc : LoggerPc LogBase) (o : Unit) (s : Logger LogBase)
    (ts : List (LoggerPc LogBase)) : Decidable (NothingWaiting pc o s ts) := by
  unfold NothingWaiting
  split <;> infer_instance

/-- In the loop over `restSize`, with no way out of it. -/
def LoggerPc.Stuck : LoggerPc LogBase → Prop
  | .moveQueue _ restSize _ => 0 < restSize
  | .poppedEmpty _ => True
  | _ => False

/-- Nobody is stuck, and one thread at most has the lock. -/
structure Flows (s : Logger LogBase) (ts : List (LoggerPc LogBase)) : Prop where
  notStuck : ∀ pc ∈ ts, ¬pc.Stuck
  lock : s.logQueueLock.toNat = load LoggerPc.holdsLock ts

/-- The loop is over once `restSize` is not positive. -/
theorem exec_moveQueue_zero {result : Handle} {restSize : Nat} {waitingLogList : List LogBase}
    (h : ¬(LoggerPc.moveQueue result restSize waitingLogList).Stuck) :
    execLogger (.moveQueue result restSize waitingLogList) () s =
      some ({ s with logQueueLock := false },
        .writeLogToFile result waitingLogList waitingLogList) :=
  if_neg h

/-- An action leaves the loop, or does not get into it. -/
theorem exec_notStuck (hG : NothingWaiting pc () s ts) (hpc : ¬pc.Stuck)
    (h : execLogger pc () s = some (s', pc')) : ¬pc'.Stuck := by
  cases pc with
  | size result waitingLogList =>
    cases h
    show ¬0 < s.logWaitingQueue.length
    rw [show s.logWaitingQueue = [] from hG]
    exact Nat.lt_irrefl 0
  | moveQueue result restSize waitingLogList =>
    rw [exec_moveQueue_zero hpc] at h
    cases h
    exact id
  | wait waitingLogList =>
    simp only [execLogger] at h
    split at h
    · cases h
      exact id
    · split at h <;> cases h
      exact id
  | returned result waitingLogList => cases result <;> cases h <;> exact id
  | writeLogToFile result waitingLogList rest => cases rest <;> cases h <;> exact id
  | push | setEvent | unlock | sleep =>
    cases h
    exact id
  | writeLog | writeLogImpl | join =>
    simp only [execLogger] at h
    split at h <;> cases h
    exact id
  | poppedEmpty | finished => cases h

/-- What an action does to the lock. -/
theorem exec_lock (hpc : ¬pc.Stuck) (h : execLogger pc () s = some (s', pc')) :
    s'.logQueueLock.toNat + pc.holdsLock = s.logQueueLock.toNat + pc'.holdsLock ∨
      (s'.logQueueLock = false ∧ pc.holdsLock = 1 ∧ pc'.holdsLock = 0) := by
  cases pc with
  | writeLog | writeLogImpl =>
    simp only [execLogger] at h
    split at h <;> cases h
    next hlock =>
      rw [Bool.not_eq_true] at hlock
      rw [hlock]
      exact .inl rfl
  | moveQueue result restSize waitingLogList =>
    rw [exec_moveQueue_zero hpc] at h
    cases h
    exact .inr ⟨rfl, rfl, rfl⟩
  | unlock =>
    cases h
    exact .inr ⟨rfl, rfl, rfl⟩
  | wait waitingLogList =>
    simp only [execLogger] at h
    split at h
    · cases h
      exact .inl rfl
    · split at h <;> cases h
      exact .inl rfl
  | join =>
    simp only [execLogger] at h
    split at h <;> cases h
    exact .inl rfl
  | returned result waitingLogList => cases result <;> cases h <;> exact .inl rfl
  | writeLogToFile result waitingLogList rest => cases rest <;> cases h <;> exact .inl rfl
  | push | setEvent | sleep | size =>
    cases h
    exact .inl rfl
  | poppedEmpty | finished => cases h

theorem flows {c : Config (Logger LogBase) (LoggerPc LogBase)}
    (h : loggerThreads.Run NothingWaiting loggerThreads.init c) : Flows c.shared c.threads := by
  refine h.induct (I := Flows) ⟨?_, rfl⟩ ?_ ?_
  · intro pc hpc
    rw [List.mem_singleton.mp hpc]
    exact id
  · intro s l pc r o s' pc' _ hI hG hexec
    obtain ⟨hl, hpc, hr⟩ := forall_mem_place.mp hI.notStuck
    refine ⟨forall_mem_place.mpr ⟨hl, exec_notStuck hG hpc hexec, hr⟩, ?_⟩
    have hlock := hI.lock
    have hbool := Bool.toNat_le s.logQueueLock
    rw [load_append, load_cons] at hlock ⊢
    rcases exec_lock hpc hexec with hsame | ⟨hfree, hone, hzero⟩
    · omega
    · rw [hfree, hzero]
      simp only [Bool.toNat_false]
      omega
  · intro s ts e s' pc _ hI hspawn
    obtain ⟨hlock, hpc, hzero⟩ : s'.logQueueLock = s.logQueueLock ∧ ¬pc.Stuck ∧
        pc.holdsLock = 0 := by
      cases e with
      | writeLog logObject =>
        cases hspawn
        exact ⟨rfl, id, rfl⟩
      | stopLoggerThread =>
        simp only [loggerThreads, spawnLogger] at hspawn
        split at hspawn <;> cases hspawn
        exact ⟨rfl, id, rfl⟩
    refine ⟨forall_mem_spawned.mpr ⟨hI.notStuck, hpc⟩, ?_⟩
    rw [load_append, load_cons, load_nil, hzero, hlock]
    exact hI.lock

theorem LoggerPc.Nearer.of_phase (h : pc'.phase < pc.phase) : pc'.Nearer pc := .left _ _ h

/-- **What one call does**: unless it is stuck it acts or waits for the lock, and
each action brings it nearer to its end. -/
theorem exec_nearer (hpc : ¬pc.Stuck) (hphase : 0 < pc.phase) :
    ((pc.awaitsLock = true ∧ s.logQueueLock = true) ∨ (execLogger pc () s).isSome) ∧
      ∀ s' pc', execLogger pc () s = some (s', pc') → pc'.Nearer pc := by
  cases pc with
  | writeLog | writeLogImpl =>
    simp only [execLogger]
    split
    · next hlock =>
      refine ⟨.inl ⟨rfl, hlock⟩, ?_⟩
      rintro s' pc' ⟨⟩
    · refine ⟨.inr rfl, ?_⟩
      rintro s' pc' ⟨⟩
      exact .of_phase (Nat.lt_succ_self _)
  | push | setEvent | unlock | size =>
    refine ⟨.inr rfl, ?_⟩
    rintro s' pc' ⟨⟩
    exact .of_phase (Nat.lt_succ_self _)
  | moveQueue result restSize waitingLogList =>
    rw [exec_moveQueue_zero hpc]
    refine ⟨.inr rfl, ?_⟩
    rintro s' pc' ⟨⟩
    exact .of_phase (Nat.lt_succ_self _)
  | writeLogToFile result waitingLogList rest =>
    cases rest with
    | nil =>
      refine ⟨.inr rfl, ?_⟩
      rintro s' pc' ⟨⟩
      exact .of_phase (Nat.lt_succ_self _)
    | cons logObject rest =>
      refine ⟨.inr rfl, ?_⟩
      rintro s' pc' ⟨⟩
      exact .right _ (Nat.lt_succ_self _)
  | poppedEmpty => exact absurd trivial hpc
  | wait | sleep | returned | join | finished => exact absurd hphase (Nat.lt_irrefl 0)

/-- Whoever has the lock is in a call, and past the lock. -/
theorem phase_of_holdsLock (h : pc.holdsLock = 1) : 0 < pc.phase ∧ pc.awaitsLock = false := by
  cases pc <;> first | exact ⟨Nat.succ_pos _, rfl⟩ | cases h

/-- **The logger does its work, as long as there is none**: in a run in which
every `WriteLogImpl` finds the queue empty. -/
theorem logsOut {c : Config (Logger LogBase) (LoggerPc LogBase)}
    (h : loggerThreads.Run NothingWaiting loggerThreads.init c) : LogsOut c.shared c.threads := by
  have hflows := flows h
  obtain ⟨hfile, hwritten⟩ := written_of_stopReturned h.anywhere
  refine ⟨fun w hw => hflows.notStuck _ hw trivial, ⟨?_, ?_, fun hlock => ?_⟩, hfile, hwritten⟩
  · exact fun pc hpc hphase => (exec_nearer (hflows.notStuck pc hpc) hphase).1
  · exact fun pc hpc hphase => (exec_nearer (hflows.notStuck pc hpc) hphase).2
  · have hload := hflows.lock
    rw [hlock] at hload
    obtain ⟨pc, hpc, hholds⟩ : ∃ pc ∈ c.threads, pc.holdsLock ≠ 0 := by
      by_contra hnone
      push Not at hnone
      rw [load_eq_zero_iff.mpr hnone] at hload
      cases hload
    have hone : pc.holdsLock = 1 := by
      cases pc <;> first | rfl | exact absurd rfl hholds
    exact ⟨pc, hpc, hone, phase_of_holdsLock hone⟩

/-- `StopLoggerThread` before anything was pushed: `WriteLogImpl` finds an empty
queue, the thread ends and the stop returns. What is pushed later stays in the
queue. -/
theorem logsOut_pushed : ∃ c, loggerThreads.Run NothingWaiting loggerThreads.init c ∧
    c.shared.stopReturned = true ∧ c.shared.logWaitingQueue = [5] ∧
    LogsOut c.shared c.threads := by
  obtain ⟨c, hrun, hstop, hqueue⟩ := exists_run loggerThreads NothingWaiting
    (loggerThreads.init : Config (Logger Nat) (LoggerPc Nat))
    [.event .stopLoggerThread, .run 0 (), .run 0 (), .run 0 (), .run 0 (), .run 0 (), .run 0 (),
      .run 0 (), .run 1 (), .event (.writeLog 5), .run 2 (), .run 2 (), .run 2 (), .run 2 ()]
    (P := fun c => c.shared.stopReturned = true ∧ c.shared.logWaitingQueue = [5])
    (by decide +kernel)
  exact ⟨c, hrun, hstop, hqueue, logsOut hrun⟩

/-- One log object: the logger's thread takes it from the queue, and then goes
on to `front` of the empty queue. -/
theorem one_log_pops_empty : ∃ c : Config (Logger Nat) (LoggerPc Nat),
    loggerThreads.Reachable loggerThreads.init c ∧ .poppedEmpty [5] ∈ c.threads ∧
    c.shared.logWaitingQueue = [] ∧ ¬LogsOut c.shared c.threads := by
  obtain ⟨c, hrun, hpopped, hqueue⟩ := exists_run loggerThreads unguarded
    (loggerThreads.init : Config (Logger Nat) (LoggerPc Nat))
    [.event (.writeLog 5), .run 1 (), .run 1 (), .run 1 (), .run 1 (), .run 0 (), .run 0 (),
      .run 0 (), .run 0 (), .run 0 ()]
    (P := fun c => .poppedEmpty [5] ∈ c.threads ∧ c.shared.logWaitingQueue = []) (by decide +kernel)
  exact ⟨c, hrun, hpopped, hqueue, fun h => h.notPoppedEmpty _ hpopped⟩

/-! ## A call that finds something -/

/-- Any other call gets into the loop. -/
theorem exec_of_waiting (hG : ¬NothingWaiting pc () s ts)
    (h : execLogger pc () s = some (s', pc')) : pc'.Stuck := by
  cases pc with
  | size result waitingLogList =>
    cases h
    exact List.length_pos_iff.mpr hG
  | _ => exact absurd trivial hG

/-- A thread in the loop stays there. -/
theorem exec_stuck (hpc : pc.Stuck) (h : execLogger pc () s = some (s', pc')) : pc'.Stuck := by
  cases pc with
  | moveQueue result restSize waitingLogList =>
    have hrest : 0 < restSize := hpc
    simp only [execLogger, if_pos hrest] at h
    split at h <;> cases h
    · exact trivial
    · exact hpc
  | poppedEmpty => cases h
  | _ => exact absurd hpc id

/-- **A call that finds something in the queue never returns**, whatever happens. -/
theorem never_returns {c₀ c : Config (Logger LogBase) (LoggerPc LogBase)}
    (h : loggerThreads.Reachable c₀ c) (hstuck : ∃ pc ∈ c₀.threads, pc.Stuck) :
    ∃ pc ∈ c.threads, pc.Stuck := by
  refine h.induct (I := fun _ ts => ∃ pc ∈ ts, pc.Stuck) hstuck ?_ ?_
  · rintro s l pc r o s' pc' - ⟨q, hq, hstuck⟩ - hexec
    rcases List.mem_append.mp hq with hq | hq
    · exact ⟨q, List.mem_append_left _ hq, hstuck⟩
    · rcases List.mem_cons.mp hq with rfl | hq
      · exact ⟨pc', by simp, exec_stuck hstuck hexec⟩
      · exact ⟨q, by simp [hq], hstuck⟩
  · rintro s ts e s' pc - ⟨q, hq, hstuck⟩ -
    exact ⟨q, List.mem_append_left _ hq, hstuck⟩

/-- It gets as far as the end of the queue, and pops it once more. -/
theorem pops_empty {c₀ : Config (Logger LogBase) (LoggerPc LogBase)} {result : Handle}
    {restSize : Nat} {waitingLogList : List LogBase}
    (h : loggerThreads.Reachable c₀ ⟨s, l ++ .moveQueue result restSize waitingLogList :: r⟩)
    (hrest : 0 < restSize) :
    loggerThreads.Reachable c₀ ⟨{ s with logWaitingQueue := [] },
      l ++ .poppedEmpty (waitingLogList ++ s.logWaitingQueue) :: r⟩ := by
  obtain ⟨queue, lock, logEvent, stopEvent, file, pushed, pushedAtStop, exited, returned⟩ := s
  induction queue generalizing waitingLogList with
  | nil =>
    rw [List.append_nil]
    exact h.place (o := ()) trivial (if_pos hrest)
  | cons logObject queue ih =>
    have hnext := h.place (o := ()) trivial (if_pos hrest)
    have hrun := ih hnext
    rwa [List.append_assoc, List.singleton_append] at hrun

end RioServer.Log
