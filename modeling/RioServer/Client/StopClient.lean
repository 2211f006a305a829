import RioServer.Client.Turn
import RioServer.Client.ClientThreads

/-!
# The end of the DB client (MultiLanClient.cpp:123)

`Stop` posts one packet without a session to the completion port and waits for all
workers. The worker that takes it posts another one on its way out, for the next
worker; but that one has no overlapped, and a packet without an overlapped is an
error for `Worker` (MultiLanClient.cpp:323), which brings the process down. So the
client can be stopped with one worker, and with more it cannot: `stop_client` says
this of every run.

`HandedOn` follows the two packets through the threads, and `exec_crashed` says what
a crash is. What can always happen rests on `Pc.returns`: a worker that is left
alone comes back to the port.
-/

namespace RioServer.Client

open Machine

variable {spec : ClientSpec} {options : Db.LanClientOptions} {o : CallResult}
variable {s s' : ClientProcess} {pc pc' : ThreadPc} {l r ts : List ThreadPc} {n : Nat}

/-! ## Who is where -/

namespace ThreadPc

/-- The thread is `Stop`. -/
def isStop : ThreadPc → Nat
  | .shutdownSessions | .postStop | .waitForWorkers | .closeWorkerHandles | .closePort | .cleanup
  | .stopReturned => 1
  | _ => 0

/-- `Stop` has posted its packet. -/
def posted : ThreadPc → Nat
  | .waitForWorkers | .closeWorkerHandles | .closePort | .cleanup | .stopReturned => 1
  | _ => 0

/-- `Stop` has waited. -/
def waited : ThreadPc → Nat
  | .closeWorkerHandles | .closePort | .cleanup | .stopReturned => 1
  | _ => 0

/-- `Stop` has closed the port. -/
def closed : ThreadPc → Nat
  | .cleanup | .stopReturned => 1
  | _ => 0

/-- A worker in its loop. -/
def serving : ThreadPc → Nat
  | .getQueued | .handle _ _ => 1
  | _ => 0

/-- A worker that has taken the packet of `Stop`. -/
def leaving : ThreadPc → Nat
  | .postNull => 1
  | _ => 0

/-- A worker that has posted the next packet. -/
def left : ThreadPc → Nat
  | .freeChunks | .workerReturned => 1
  | _ => 0

/-- A worker that has not returned. -/
def running : ThreadPc → Nat
  | .getQueued | .handle _ _ | .postNull | .freeChunks => 1
  | _ => 0

end ThreadPc

open ThreadPc

/-- `Stop` has returned, and so has every worker. -/
structure Stopped (c : Config ClientProcess ThreadPc) : Prop where
  crashed : c.shared.crashed = none
  stop : .stopReturned ∈ c.threads
  workers : ∀ pc ∈ c.threads, pc.running = 0

/-- What holds until the process crashes: the packet of `Stop` is in the port or
was taken by a worker, and that worker's own packet is in the port. -/
structure HandedOn (n : Nat) (s : ClientProcess) (ts : List ThreadPc) : Prop where
  stop : load isStop ts = s.client.stopClient.toNat
  workers : load serving ts + load leaving ts + load left ts = n
  stops : s.packets.count .stop + load leaving ts + load left ts = load posted ts
  nulls : s.portOpen = true → s.packets.count .null = load left ts
  runningWorkers : s.runningWorkers = load running ts
  returns : load waited ts ≠ 0 → s.waitReturns n = true
  portOpen : s.portOpen = true ↔ load closed ts = 0

theorem ThreadPc.posted_le (pc : ThreadPc) : pc.posted ≤ pc.isStop := by
  cases pc <;> first | exact Nat.zero_le _ | exact Nat.le_refl _

theorem ThreadPc.waited_le (pc : ThreadPc) : pc.waited ≤ pc.posted := by
  cases pc <;> first | exact Nat.zero_le _ | exact Nat.le_refl _

theorem ThreadPc.closed_le (pc : ThreadPc) : pc.closed ≤ pc.waited := by
  cases pc <;> first | exact Nat.zero_le _ | exact Nat.le_refl _

/-- A worker in its loop, or that has the packet of `Stop`, has not returned. -/
theorem ThreadPc.serving_le (pc : ThreadPc) : pc.serving + pc.leaving ≤ pc.running := by
  cases pc <;> first | exact Nat.zero_le _ | exact Nat.le_refl _

theorem ThreadPc.running_le (pc : ThreadPc) : pc.running ≤ pc.serving + pc.leaving + pc.left := by
  cases pc <;> first | exact Nat.zero_le _ | exact Nat.le_refl _

theorem HandedOn.stop_le (hI : HandedOn n s ts) : load isStop ts ≤ 1 := by
  rw [hI.stop]
  exact Bool.toNat_le _

/-- A step that only moves a thread on, and leaves everything to it. -/
theorem HandedOn.move (hI : HandedOn n s (l ++ pc :: r)) (hstop : pc'.isStop = pc.isStop)
    (hposted : pc'.posted = pc.posted) (hserving : pc'.serving = pc.serving)
    (hleaving : pc'.leaving = pc.leaving) (hleft : pc'.left = pc.left)
    (hrunning : pc'.running = pc.running) (hclosed : pc'.closed = pc.closed)
    (hwaited : pc'.waited ≠ pc.waited → s.waitReturns n = true) :
    HandedOn n s (l ++ pc' :: r) where
  stop := by rw [load_place hstop]; exact hI.stop
  workers := by
    rw [load_place hserving, load_place hleaving, load_place hleft]
    exact hI.workers
  stops := by
    rw [load_place hleaving, load_place hleft, load_place hposted]
    exact hI.stops
  nulls := by rw [load_place hleft]; exact hI.nulls
  runningWorkers := by rw [load_place hrunning]; exact hI.runningWorkers
  returns := by
    by_cases hw : pc'.waited = pc.waited
    · rw [load_place hw]
      exact hI.returns
    · exact fun _ => hwaited hw
  portOpen := by rw [load_place hclosed]; exact hI.portOpen

/-- What the sessions do is nothing to it, or the packets of their completions. -/
theorem HandedOn.client (hI : HandedOn n s ts) {g : MultiLanClient} {packets : List Packet}
    (hclient : g.stopClient = s.client.stopClient)
    (hstop : packets.count .stop = s.packets.count .stop)
    (hnull : packets.count .null = s.packets.count .null) :
    HandedOn n { s with client := g, packets := packets } ts :=
  { hI with
    stop := by
      show _ = g.stopClient.toNat
      rw [hclient]
      exact hI.stop
    stops := by
      show packets.count .stop + _ + _ = _
      rw [hstop]
      exact hI.stops
    nulls := fun hopen => by
      show packets.count .null = _
      rw [hnull]
      exact hI.nulls hopen }

/-- A thread starts that is no worker, and `Stop` only if it is the first. -/
theorem HandedOn.spawned (hI : HandedOn n s ts) {g : MultiLanClient}
    (hstop : s.client.stopClient.toNat + pc.isStop = g.stopClient.toNat) (hposted : pc.posted = 0)
    (hworker : pc.running = 0) (hleft : pc.left = 0) :
    HandedOn n { s with client := g } (ts ++ [pc]) := by
  have hwaited := pc.waited_le
  have hclosed := pc.closed_le
  have hserving := pc.serving_le
  constructor <;> simp only [load_append, load_cons, load_nil]
  · rw [hI.stop]
    exact hstop
  · have := hI.workers
    omega
  · have := hI.stops
    omega
  · intro hopen
    have := hI.nulls hopen
    omega
  · have := hI.runningWorkers
    omega
  · intro h
    exact hI.returns (by omega)
  · rw [hI.portOpen]
    omega

/-- `Stop` is alone on its way. -/
theorem HandedOn.alone (hI : HandedOn n s (l ++ pc :: r)) (hpc : pc.isStop = 1) :
    load posted (l ++ pc :: r) = pc.posted ∧ load waited (l ++ pc :: r) = pc.waited ∧
      load closed (l ++ pc :: r) = pc.closed ∧ ∀ pc' : ThreadPc, pc'.isStop = 1 →
      load posted (l ++ pc' :: r) = pc'.posted ∧
        load waited (l ++ pc' :: r) = pc'.waited ∧ load closed (l ++ pc' :: r) = pc'.closed := by
  have hone := hI.stop_le
  have hle : ∀ ts : List ThreadPc, load closed ts ≤ load waited ts ∧
      load waited ts ≤ load posted ts ∧ load posted ts ≤ load isStop ts := fun ts =>
    ⟨load_mono closed_le ts, load_mono waited_le ts, load_mono posted_le ts⟩
  have hl := hle l
  have hr := hle r
  simp only [load_append, load_cons] at hone ⊢
  refine ⟨by omega, by omega, by omega, fun pc' hpc' => ?_⟩
  omega

/-- Its steps are nothing to the workers. -/
theorem workers_place (hpc : pc.isStop = 1) (hpc' : pc'.isStop = 1) :
    load serving (l ++ pc' :: r) = load serving (l ++ pc :: r) ∧
      load leaving (l ++ pc' :: r) = load leaving (l ++ pc :: r) ∧
      load left (l ++ pc' :: r) = load left (l ++ pc :: r) ∧
      load running (l ++ pc' :: r) = load running (l ++ pc :: r) := by
  have hno : ∀ q : ThreadPc, q.isStop = 1 →
      q.serving = 0 ∧ q.leaving = 0 ∧ q.left = 0 ∧ q.running = 0 := by
    intro q hq
    cases q <;> first | exact ⟨rfl, rfl, rfl, rfl⟩ | cases hq
  obtain ⟨h₁, h₂, h₃, h₄⟩ := hno pc hpc
  obtain ⟨h₁', h₂', h₃', h₄'⟩ := hno pc' hpc'
  exact ⟨load_place (h₁'.trans h₁.symm) l r, load_place (h₂'.trans h₂.symm) l r,
    load_place (h₃'.trans h₃.symm) l r, load_place (h₄'.trans h₄.symm) l r⟩

/-- `Stop` posts its packet. -/
theorem HandedOn.postStop (hI : HandedOn n s (l ++ .postStop :: r)) :
    HandedOn n (s.post .stop) (l ++ .waitForWorkers :: r) := by
  obtain ⟨hposted, -, hclosed, halone⟩ := hI.alone rfl
  obtain ⟨hposted', hwaited', hclosed'⟩ := halone .waitForWorkers rfl
  obtain ⟨hserving, hleaving, hleft, hrunning⟩ :=
    workers_place (l := l) (r := r) (show isStop .postStop = 1 from rfl)
      (show isStop .waitForWorkers = 1 from rfl)
  have hopen := hI.portOpen.mpr hclosed
  rw [ClientProcess.post, if_pos hopen]
  have hstops := hI.stops
  constructor
  · rw [load_place (show isStop .waitForWorkers = isStop .postStop from rfl)]
    exact hI.stop
  · rw [hserving, hleaving, hleft]
    exact hI.workers
  · rw [hposted] at hstops
    rw [hposted', hleaving, hleft, List.count_append]
    show s.packets.count .stop + 1 + _ + _ = 1
    have hzero : ThreadPc.postStop.posted = 0 := rfl
    omega
  · intro _
    rw [hleft, List.count_append, ← hI.nulls hopen]
    rfl
  · rw [hrunning]
    exact hI.runningWorkers
  · rw [hwaited']
    exact fun h => absurd rfl h
  · rw [hclosed']
    exact ⟨fun _ => rfl, fun _ => hopen⟩

/-- `Stop` closes the port. -/
theorem HandedOn.closePort (hI : HandedOn n s (l ++ .closePort :: r)) :
    HandedOn n { s with portOpen := false } (l ++ .cleanup :: r) := by
  obtain ⟨hposted, hwaited, -, halone⟩ := hI.alone rfl
  obtain ⟨hposted', hwaited', hclosed'⟩ := halone .cleanup rfl
  obtain ⟨hserving, hleaving, hleft, hrunning⟩ :=
    workers_place (l := l) (r := r) (show isStop .closePort = 1 from rfl)
      (show isStop .cleanup = 1 from rfl)
  constructor
  · rw [load_place (show isStop .cleanup = isStop .closePort from rfl)]
    exact hI.stop
  · rw [hserving, hleaving, hleft]
    exact hI.workers
  · have hstops := hI.stops
    rw [hposted] at hstops
    rw [hleaving, hleft, hposted']
    exact hstops
  · intro h
    cases h
  · rw [hrunning]
    exact hI.runningWorkers
  · intro _
    refine hI.returns ?_
    rw [hwaited]
    decide
  · rw [hclosed']
    refine ⟨fun h => ?_, fun h => ?_⟩
    · cases h
    · cases h

/-- The counts of the workers and their packets, when one of them moves on. -/
theorem HandedOn.worker {packets : List Packet} {runningWorkers : Nat}
    (hI : HandedOn n s (l ++ pc :: r)) (hpc : pc.isStop = 0) (hpc' : pc'.isStop = 0)
    (hworkers : pc'.serving + pc'.leaving + pc'.left = pc.serving + pc.leaving + pc.left)
    (hstops : packets.count .stop + pc'.leaving + pc'.left =
      s.packets.count .stop + pc.leaving + pc.left)
    (hnulls : s.portOpen = true →
      packets.count .null + pc.left = s.packets.count .null + pc'.left)
    (hrunning : runningWorkers + pc.running = s.runningWorkers + pc'.running)
    (hzero : s.runningWorkers = 0 → runningWorkers = 0) :
    HandedOn n { s with packets := packets, runningWorkers := runningWorkers }
      (l ++ pc' :: r) := by
  have hposted := (posted_le pc).trans_eq hpc
  have hwaited := (waited_le pc).trans hposted
  have hclosed := (closed_le pc).trans hwaited
  have hposted' := (posted_le pc').trans_eq hpc'
  have hwaited' := (waited_le pc').trans hposted'
  have hclosed' := (closed_le pc').trans hwaited'
  have hsame : ∀ f : ThreadPc → Nat, f pc ≤ 0 → f pc' ≤ 0 →
      load f (l ++ pc' :: r) = load f (l ++ pc :: r) := fun f h h' =>
    load_place (by omega) l r
  have hone := hI.stop
  have hI₂ := hI.workers
  have hI₃ := hI.stops
  have hI₄ := hI.nulls
  have hI₅ := hI.runningWorkers
  have hI₆ := hI.returns
  have hI₇ := hI.portOpen
  rw [← hsame isStop hpc.le hpc'.le] at hone
  rw [← hsame posted hposted hposted'] at hI₃
  rw [← hsame waited hwaited hwaited'] at hI₆
  rw [← hsame closed hclosed hclosed'] at hI₇
  simp only [load_append, load_cons] at hI₂ hI₃ hI₄ hI₅
  constructor
  · exact hone
  · simp only [load_append, load_cons]
    omega
  · simp only [load_append, load_cons] at hI₃ ⊢
    omega
  · intro hopen
    have hI₄ := hI₄ hopen
    have hnulls := hnulls hopen
    simp only [load_append, load_cons]
    omega
  · simp only [load_append, load_cons]
    omega
  · intro hw
    have hreturns := hI₆ hw
    simp only [ClientProcess.waitReturns, decide_eq_true_eq] at hreturns ⊢
    rcases hreturns with h | h | h
    · exact .inl h
    · exact .inr (.inl h)
    · exact .inr (.inr (hzero h))
  · exact hI₇


/-- The client itself never takes `stopClient` back, nor sets it. -/
theorem exec_stopClient {g g' : MultiLanClient} {q q' : ClientPc}
    (h : MultiLanClient.exec spec options q o g = some (g', q')) :
    g'.stopClient = g.stopClient := by
  rcases MultiLanClient.exec_cases h with ⟨i, pc, conn, s', pc', -, -, -, rfl, -⟩ |
    ⟨i, -, rfl, -⟩ | hquiet
  · rfl
  · rfl
  · cases hquiet <;> rfl

theorem begin_stopClient {g g' : MultiLanClient} {i : Nat} {e : Client.Event} {q : ClientPc}
    (h : g.begin i e = some (g', q)) : g'.stopClient = g.stopClient := by
  obtain ⟨conn, s', pc', -, -, rfl, -⟩ := MultiLanClient.begin_cases h
  rfl

theorem spawn_stopClient {g g' : MultiLanClient} {e : MultiLanClient.Event} {q : ClientPc}
    (he : e ≠ .stop) (h : MultiLanClient.spawn options e g = some (g', q)) :
    g'.stopClient = g.stopClient := by
  cases e with
  | stop => exact absurd rfl he
  | recvCompletion | sendCompletion => exact begin_stopClient h
  | sendPacket | sendPacketFixed =>
    obtain ⟨-, h⟩ := Option.ite_none_right_eq_some.mp h
    have hsame := begin_stopClient h
    exact hsame
  | sendNull =>
    obtain ⟨-, h⟩ := Option.ite_none_right_eq_some.mp h
    cases h
    rfl

/-- **A step hands on what it took.** -/
theorem HandedOn.exec (hI : HandedOn options.numOfWorkerThread.toNat s (l ++ pc :: r))
    (h : execThread spec options pc o s = some (s', pc')) (hcrash : s'.crashed = none) :
    HandedOn options.numOfWorkerThread.toNat s' (l ++ pc' :: r) := by
  obtain ⟨-, hstep⟩ := execThread_cases h
  cases hstep with
  | @client pc pc' g hexec =>
    have hI' : HandedOn _ s (l ++ .client pc' :: r) :=
      hI.move rfl rfl rfl rfl rfl rfl rfl fun h => absurd rfl h
    exact hI'.client (exec_stopClient hexec) rfl rfl
  | @handle i pc pc' g hact =>
    have hI' : HandedOn _ s (l ++ .handle i pc' :: r) :=
      hI.move rfl rfl rfl rfl rfl rfl rfl fun h => absurd rfl h
    exact hI'.client (exec_stopClient (exec_of_act options hact)) rfl rfl
  | shutdownSessions | closeWorkerHandles | cleanup | turnEnded =>
    exact hI.move rfl rfl rfl rfl rfl rfl rfl fun h => absurd rfl h
  | waits hwait => exact hI.move rfl rfl rfl rfl rfl rfl rfl fun _ => hwait
  | postStop => exact hI.postStop
  | closePort => exact hI.closePort
  | takes i q packets _ hpackets =>
    refine hI.worker rfl rfl rfl ?_ (fun _ => ?_) rfl id <;>
      simp [hpackets, leaving, left]
  | takesStop packets _ hpackets =>
    refine hI.worker rfl rfl rfl ?_ (fun _ => ?_) rfl id <;>
      simp [hpackets, leaving, left]
  | postNull =>
    by_cases hopen : s.portOpen = true
    · rw [ClientProcess.post, if_pos hopen]
      refine hI.worker rfl rfl rfl ?_ (fun _ => ?_) rfl id <;> simp [leaving, left]
    · rw [ClientProcess.post, if_neg hopen]
      show HandedOn _ { s with packets := s.packets, runningWorkers := s.runningWorkers } _
      exact hI.worker rfl rfl rfl rfl (fun h => absurd h hopen) rfl id
  | freeChunks =>
    have hrunning := hI.runningWorkers
    simp only [load_append, load_cons, running] at hrunning
    refine hI.worker rfl rfl rfl rfl (fun _ => rfl) ?_ fun h => ?_
    · simp only [running]
      omega
    · omega
  | overlappedNull | portClosed | crash => cases hcrash

/-- **An event hands on what there is**, and `Stop` is called once. -/
theorem HandedOn.event {e : MultiLanClient.Event} (hI : HandedOn n s ts)
    (h : spawnThread options e s = some (s', pc)) (hcrash : s'.crashed = none) :
    HandedOn n s' (ts ++ [pc]) := by
  obtain ⟨-, ⟨g, j, q, he, hspawn, rfl, rfl⟩ | ⟨g, q, rfl, hstop, hspawn, rfl, rfl⟩ |
    ⟨g, q, he, hspawn, rfl, rfl⟩ | ⟨rfl, rfl⟩⟩ := spawnThread_cases h
  · have hstop := spawn_stopClient he hspawn
    have hposted : HandedOn n ({ s with client := g }.post (.completion j q)) ts := by
      rw [ClientProcess.post]
      split
      · exact hI.client hstop (by simp) (by simp)
      · exact hI.client hstop rfl rfl
    exact hposted.spawned rfl rfl rfl rfl
  · obtain ⟨-, hspawn⟩ := Option.ite_none_right_eq_some.mp hspawn
    cases hspawn
    refine hI.spawned ?_ rfl rfl rfl
    simp [hstop, isStop]
  · have hsame := spawn_stopClient he hspawn
    exact hI.spawned (by rw [hsame]; rfl) rfl rfl rfl
  · cases hcrash

/-- **What a crash is**: the process has not ended before, the thread that ends it
does nothing else, and if it has got no overlapped it is a worker in front of a
closed port or of the packet of another worker. -/
theorem exec_crashed (h : execThread spec options pc o s = some (s', pc')) :
    s.crashed = none ∧ (s'.crashed = none ∨ pc' = .finished ∧
      (s'.crashed = some .overlappedNull → pc = .getQueued ∧
        (s.portOpen = true → .null ∈ s.packets))) := by
  obtain ⟨hnone, hstep⟩ := execThread_cases h
  refine ⟨hnone, ?_⟩
  cases hstep with
  | postStop | postNull => exact .inl ((s.post_crashed _).trans hnone)
  | overlappedNull packets _ hpackets =>
    exact .inr ⟨rfl, fun _ => ⟨rfl, fun _ => by simp [hpackets]⟩⟩
  | portClosed hclosed =>
    refine .inr ⟨rfl, fun _ => ⟨rfl, fun hopen => ?_⟩⟩
    rw [hclosed] at hopen
    cases hopen
  | crash pc hcause => exact .inr ⟨rfl, fun hnull => absurd (Option.some.inj hnull) hcause⟩
  | _ => exact .inl hnone

/-- No event crashes the process for want of an overlapped. -/
theorem spawn_crashed {e : MultiLanClient.Event} (h : spawnThread options e s = some (s', pc)) :
    s.crashed = none ∧ (s'.crashed = none ∨ pc = .finished ∧ s'.crashed = some .noChannel) := by
  obtain ⟨hnone, ⟨g, j, q, -, -, rfl, -⟩ | ⟨g, q, -, -, -, rfl, -⟩ | ⟨g, q, -, -, rfl, -⟩ |
    ⟨rfl, rfl⟩⟩ := spawnThread_cases h
  · exact ⟨hnone, .inl (by simpa using hnone)⟩
  · exact ⟨hnone, .inl hnone⟩
  · exact ⟨hnone, .inl hnone⟩
  · exact ⟨hnone, .inr ⟨rfl, rfl⟩⟩

section

variable {c : Config ClientProcess ThreadPc}
variable (h : (clientThreads spec options).Reachable (clientThreads.init options) c)
include h

/-- The packets are handed on in every run, until the process crashes. -/
theorem handedOn (hcrash : c.shared.crashed = none) :
    HandedOn options.numOfWorkerThread.toNat c.shared c.threads := by
  refine Run.induct (I := fun s ts => s.crashed = none →
    HandedOn options.numOfWorkerThread.toNat s ts) h ?_ ?_ ?_ hcrash
  · intro _
    have hload : ∀ (f : ThreadPc → Nat) (n : Nat), load f (List.replicate n .getQueued) =
        n * f .getQueued := fun f n => by simp [load]
    constructor <;>
      simp [clientThreads.init, multiLanClient.init, MultiLanClient.initial, hload, isStop, posted,
        ThreadPc.waited, closed, serving, leaving, left, running]
  · intro s l pc r o s' pc' _ hI _ hexec hcrash'
    exact (hI (exec_crashed hexec).1).exec hexec hcrash'
  · intro s ts e s' pc _ hI hspawn hcrash'
    exact (hI (spawn_crashed hspawn).1).event hspawn hcrash'

/-- What holds of the threads as long as the packets are handed on holds when the
process has crashed as well. -/
theorem always {J : List ThreadPc → Prop}
    (hJ : ∀ s ts, HandedOn options.numOfWorkerThread.toNat s ts → J ts)
    (hcrash : ∀ l pc r, J (l ++ pc :: r) → J (l ++ .finished :: r))
    (hspawn : ∀ ts, J ts → J (ts ++ [.finished])) : J c.threads := by
  refine Run.induct (I := fun _ ts => J ts) h ?_ ?_ ?_
  · have hinit : (clientThreads spec options).Reachable (clientThreads.init options)
        (clientThreads.init options) := .refl
    exact hJ _ _ (handedOn hinit rfl)
  · intro s l pc r o s' pc' hrun hI _ hexec
    rcases (exec_crashed hexec).2 with hnone | ⟨rfl, -⟩
    · exact hJ s' _ (handedOn (hrun.place trivial hexec) hnone)
    · exact hcrash l pc r hI
  · intro s ts e s' pc hrun hI hevent
    rcases (spawn_crashed hevent).2 with hnone | ⟨rfl, -⟩
    · exact hJ s' _ (handedOn (hrun.started hevent) hnone)
    · exact hspawn ts hI

/-- At most one worker leaves its loop. -/
theorem one_leaves : load left c.threads ≤ 1 := by
  refine always h (J := fun ts => load left ts ≤ 1) ?_ ?_ ?_
  · intro s ts hI
    have hposted := load_mono posted_le ts
    have hstops := hI.stops
    have hstop := hI.stop_le
    omega
  · intro l pc r hJ
    simp only [load_append, load_cons] at hJ ⊢
    have hzero : left .finished = 0 := rfl
    omega
  · intro ts hJ
    simpa [left] using hJ

/-- Nobody gets past the wait for more than one worker. -/
theorem never_waited (hn : 2 ≤ options.numOfWorkerThread.toNat)
    (hmax : options.numOfWorkerThread.toNat ≤ maximumWaitObjects) :
    load waited c.threads = 0 := by
  refine always h (J := fun ts => load waited ts = 0) ?_ ?_ ?_
  · intro s ts hI
    by_contra hwaited
    -- some worker is still in its loop, or has the packet
    have hwait := hI.returns hwaited
    have hle := load_mono serving_le ts
    have hposted := load_mono posted_le ts
    have hstop := hI.stop_le
    have hworkers := hI.workers
    have hstops := hI.stops
    have hruns := hI.runningWorkers
    rw [load_add] at hle
    simp only [ClientProcess.waitReturns, decide_eq_true_eq] at hwait
    omega
  · intro l pc r hJ
    simp only [load_append, load_cons] at hJ ⊢
    have hzero : ThreadPc.waited .finished = 0 := rfl
    omega
  · intro ts hJ
    simpa [ThreadPc.waited] using hJ

/-- With one worker or none it never misses an overlapped. -/
theorem never_overlappedNull (hn : options.numOfWorkerThread.toNat ≤ 1) :
    c.shared.crashed ≠ some .overlappedNull := by
  refine Run.induct (I := fun s _ => s.crashed ≠ some .overlappedNull) h (fun h => by cases h) ?_ ?_
  · intro s l pc r o s' pc' hrun _ _ hexec hnull
    obtain ⟨hcrash, hnone | ⟨-, hcause⟩⟩ := exec_crashed hexec
    · rw [hnone] at hnull
      cases hnull
    · obtain ⟨rfl, hmem⟩ := hcause hnull
      have hI := handedOn hrun hcrash
      have hworkers := hI.workers
      have hruns := hI.runningWorkers
      simp only [load_append, load_cons, serving, leaving, left, running] at hworkers hruns
      by_cases hopen : s.portOpen = true
      · -- the one that posts it is not the one that takes it
        have hnulls := hI.nulls hopen
        have hpos := List.count_pos_iff.mpr (hmem hopen)
        simp only [load_append, load_cons, left] at hnulls
        omega
      · have hclosed : load closed (l ++ .getQueued :: r) ≠ 0 := fun hzero =>
          hopen (hI.portOpen.mpr hzero)
        have hle := load_mono closed_le (l ++ .getQueued :: r)
        have hwaited : load waited (l ++ .getQueued :: r) ≠ 0 := by omega
        have hwait := hI.returns hwaited
        have hmax : maximumWaitObjects = 64 := rfl
        simp only [ClientProcess.waitReturns, decide_eq_true_eq] at hwait
        omega
  · intro s ts e s' pc _ _ hspawn hnull
    rcases (spawn_crashed hspawn).2 with hnone | ⟨-, hchannel⟩
    · rw [hnone] at hnull
      cases hnull
    · rw [hchannel] at hnull
      cases hnull

end

/-! ## What can always happen -/

/-- Where a thread of the client has a next action, it is not out of buffers. -/
theorem Pc.outOfBuffers_of_exec {a a' : State} {q q' : Pc} (h : exec spec q o a = some (a', q')) :
    q.outOfBuffers o = false := by
  simp only [Pc.outOfBuffers, Bool.and_eq_false_iff, decide_eq_false_iff_not]
  by_cases ho : o = .wsaEnobufs
  · subst ho
    right
    split
    · next buf caller =>
      simp [exec, execSendPost] at h
    · rfl
  · exact .inl ho

/-- What a thread of the client does when it is left alone, the worker does that
has it in hand. -/
theorem alone_handle (options : Db.LanClientOptions) {a a' : State} {q q' : Pc} {i : Nat}
    {conn : Connection} (halone : (client spec).Alone a q a' q') (hcrash : s.crashed = none)
    (hconn : s.client.sessionList[i]? = some conn) (hview : s.client.view conn = a)
    (hq : q.reconnects = 0) :
    ∃ g, g.sessionList.length = s.client.sessionList.length ∧
      (clientThreads spec options).Alone s (.handle i q) { s with client := g } (.handle i q') := by
  induction halone generalizing s conn with
  | refl => exact ⟨s.client, rfl, .refl _ _⟩
  | @head a a₁ a' q q₁ q' o hexec _ ih =>
    subst hview
    have hpops : q.pops = true →
        s.client.sessionReconnectIdList.head? = some conn.sessionId := by
      intro hpops
      have hself : q.reconnects = 1 := by
        revert hpops
        fun_cases Pc.pops q
        · exact fun _ => rfl
        · exact fun h => by cases h
      omega
    have hne : q ≠ .finished := by
      rintro rfl
      cases hexec
    have hact : (clientThreads spec options).exec (.handle i q) o s =
        some ({ s with client := s.client.commit i conn q a₁ }, .handle i q₁) := by
      have hexec' : exec spec q o (s.client.view conn) = some (a₁, q₁) := hexec
      simp [clientThreads, execThread, hcrash, Pc.outOfBuffers_of_exec hexec', hne,
        MultiLanClient.act, hconn, hexec']
    have hq₁ : q₁.reconnects = 0 := by
      have := exec_reconnects hexec
      omega
    obtain ⟨g, hlength, halone⟩ := ih (s := { s with client := s.client.commit i conn q a₁ })
      hcrash (MultiLanClient.commit_getElem?_self hconn) (MultiLanClient.view_commit hexec hpops)
      hq₁
    exact ⟨g, hlength.trans MultiLanClient.commit_length, .head hact halone⟩

section

variable (spec : ClientSpec) (options : Db.LanClientOptions) (hcrash : s.crashed = none)
include hcrash

/-- A worker with a completion comes back to the port. -/
theorem alone_turn {i : Nat} {q : Pc} (hi : i < s.client.sessionList.length)
    (hq : q.reconnects = 0) :
    ∃ g, g.sessionList.length = s.client.sessionList.length ∧
      (clientThreads spec options).Alone s (.handle i q) { s with client := g } .getQueued := by
  have hreturns : q.Returns spec (s.client.view (s.client.sessionList.get ⟨i, hi⟩)) :=
    Pc.returns hq _
  obtain ⟨a, hreturns⟩ := hreturns
  obtain ⟨g, hlength, halone⟩ :=
    alone_handle options hreturns hcrash (List.getElem?_eq_getElem hi) rfl hq
  refine ⟨g, hlength, halone.trans (.one (o := .success) ?_)⟩
  simp [clientThreads, execThread, hcrash, Pc.outOfBuffers]

/-- A worker in its loop comes back to the port. -/
theorem alone_getQueued (hpc : pc.serving ≠ 0)
    (hknown : ∀ {i q}, pc = .handle i q → i < s.client.sessionList.length ∧ q.reconnects = 0) :
    ∃ g, g.sessionList.length = s.client.sessionList.length ∧
      (clientThreads spec options).Alone s pc { s with client := g } .getQueued := by
  cases pc with
  | getQueued => exact ⟨s.client, rfl, .refl _ _⟩
  | handle i q =>
    obtain ⟨hi, hq⟩ := hknown rfl
    exact alone_turn spec options hcrash hi hq
  | _ => exact absurd rfl hpc

/-- It takes the completions in front of a packet. -/
theorem alone_completions {cs rest : List Packet} (hopen : s.portOpen = true)
    (hpackets : s.packets = cs ++ rest)
    (hcs : ∀ p ∈ cs, ∃ i q, p = .completion i q ∧ i < s.client.sessionList.length ∧
      q.reconnects = 0) :
    ∃ g, (clientThreads spec options).Alone s .getQueued { s with client := g, packets := rest }
      .getQueued := by
  induction cs generalizing s with
  | nil =>
    have hsame : s = { s with client := s.client, packets := rest } := by
      rw [← show s.packets = rest from hpackets]
    refine ⟨s.client, ?_⟩
    rw [← hsame]
    exact .refl _ _
  | cons p cs ih =>
    obtain ⟨i, q, rfl, hi, hq⟩ := hcs p (by simp)
    have htake : (clientThreads spec options).exec .getQueued .success s =
        some ({ s with packets := cs ++ rest }, .handle i q) := by
      simp [clientThreads, execThread, hcrash, hopen, hpackets]
    obtain ⟨g, hlength, hturn⟩ := alone_turn spec options
      (s := { s with packets := cs ++ rest }) hcrash hi hq
    obtain ⟨g', halone⟩ := ih (s := { s with client := g, packets := cs ++ rest }) hcrash hopen rfl
      (by
        intro p hp
        rw [show g.sessionList.length = s.client.sessionList.length from hlength]
        exact hcs p (List.mem_cons_of_mem _ hp))
    exact ⟨g', .head htake (hturn.trans halone)⟩

/-- It comes to the first packet that is none. -/
theorem alone_takes {packet : Packet} (hopen : s.portOpen = true) (hmem : packet ∈ s.packets)
    (hother : ∀ p ∈ s.packets, p ≠ packet → ∃ i q, p = .completion i q)
    (hpackets : ∀ {i q}, .completion i q ∈ s.packets →
      i < s.client.sessionList.length ∧ q.reconnects = 0)
    (hpc : pc.serving ≠ 0)
    (hknown : ∀ {i q}, pc = .handle i q → i < s.client.sessionList.length ∧ q.reconnects = 0) :
    ∃ g rest, (clientThreads spec options).Alone s pc
      { s with client := g, packets := packet :: rest } .getQueued := by
  obtain ⟨cs, rest, hsplit, hcs⟩ := List.eq_append_cons_of_mem hmem
  obtain ⟨g, hlength, hback⟩ := alone_getQueued spec options hcrash hpc hknown
  obtain ⟨g', halone⟩ := alone_completions spec options
    (s := { s with client := g }) hcrash hopen hsplit (by
      intro p hp
      have hp' : p ∈ s.packets := by
        rw [hsplit]
        simp [hp]
      obtain ⟨i, q, rfl⟩ := hother p hp' fun heq => hcs (heq ▸ hp)
      obtain ⟨hi, hq⟩ := hpackets hp'
      exact ⟨i, q, rfl, hi.trans_eq hlength.symm, hq⟩)
  exact ⟨g', rest, hback.trans halone⟩

/-- `Stop` goes on until it has posted its packet. -/
theorem alone_posts (hpc : pc.isStop = 1) :
    ∃ s' pc', (clientThreads spec options).Alone s pc s' pc' ∧ pc'.posted = 1 ∧
      s'.crashed = none ∧ s'.client = s.client := by
  have hpost : ∃ s', (clientThreads spec options).Alone s .postStop s' .waitForWorkers ∧
      s'.crashed = none ∧ s'.client = s.client := by
    refine ⟨s.post .stop, .one (o := .success) ?_, by simpa using hcrash, s.post_client _⟩
    simp [clientThreads, execThread, hcrash]
  cases pc with
  | shutdownSessions =>
    have hshutdown : (clientThreads spec options).exec .shutdownSessions .success s =
        some (s, .postStop) := by
      simp [clientThreads, execThread, hcrash]
    obtain ⟨s', halone, hend⟩ := hpost
    exact ⟨s', _, .head hshutdown halone, rfl, hend⟩
  | postStop =>
    obtain ⟨s', halone, hend⟩ := hpost
    exact ⟨s', _, halone, rfl, hend⟩
  | waitForWorkers | closeWorkerHandles | closePort | cleanup | stopReturned =>
    exact ⟨s, _, .refl _ _, rfl, hcrash, rfl⟩
  | _ => cases hpc

/-- `Stop` returns when the wait does. -/
theorem alone_returns (hpc : pc.posted = 1)
    (hwait : s.waitReturns options.numOfWorkerThread.toNat = true) :
    ∃ s', (clientThreads spec options).Alone s pc s' .stopReturned ∧ s'.crashed = none := by
  have h₄ : ∀ s : ClientProcess, s.crashed = none →
      (clientThreads spec options).Alone s .cleanup s .stopReturned := by
    intro s hcrash
    refine .one (o := .success) ?_
    simp [clientThreads, execThread, hcrash]
  have h₃ : (clientThreads spec options).Alone s .closePort { s with portOpen := false }
      .stopReturned := by
    have hclose : (clientThreads spec options).exec .closePort .success s =
        some ({ s with portOpen := false }, .cleanup) := by
      simp [clientThreads, execThread, hcrash]
    exact .head hclose (h₄ { s with portOpen := false } hcrash)
  have h₂ : (clientThreads spec options).exec .closeWorkerHandles .success s =
      some (s, .closePort) := by
    simp [clientThreads, execThread, hcrash]
  have h₁ : (clientThreads spec options).exec .waitForWorkers .success s =
      some (s, .closeWorkerHandles) := by
    simp [clientThreads, execThread, hcrash, hwait]
  cases pc with
  | waitForWorkers => exact ⟨_, .head h₁ (.head h₂ h₃), hcrash⟩
  | closeWorkerHandles => exact ⟨_, .head h₂ h₃, hcrash⟩
  | closePort => exact ⟨_, h₃, hcrash⟩
  | cleanup => exact ⟨_, h₄ s hcrash, hcrash⟩
  | stopReturned => exact ⟨_, .refl _ _, hcrash⟩
  | _ => cases hpc

end

section

variable {c : Config ClientProcess ThreadPc}
variable (h : (clientThreads spec options).Reachable (clientThreads.init options) c)
variable (hcrash : c.shared.crashed = none)
include h hcrash

/-- When `Start` has returned, `Stop` can be called if it has not been. -/
theorem reaches_called (hstarted : c.shared.client.started = true) :
    ∃ d, (clientThreads spec options).Reachable c d ∧ d.shared.crashed = none ∧
      d.shared.client.stopClient = true := by
  obtain ⟨s, ts⟩ := c
  by_cases hstop : s.client.stopClient = true
  · exact ⟨⟨s, ts⟩, .refl, hcrash, hstop⟩
  · have hspawn : (clientThreads spec options).spawn .stop s =
        some ({ s with client := { s.client with stopClient := true } }, .shutdownSessions) := by
      have hcrash' : s.crashed = none := hcrash
      have hstarted' : s.client.started = true := hstarted
      simp [clientThreads, spawnThread, MultiLanClient.spawn, hcrash', hstop, hstarted']
    exact ⟨_, .started .refl hspawn, hcrash, rfl⟩

/-- `Stop` can be brought to have posted its packet. -/
theorem reaches_posted (hstop : c.shared.client.stopClient = true) :
    ∃ d, (clientThreads spec options).Reachable c d ∧ d.shared.crashed = none ∧
      load posted d.threads = 1 := by
  obtain ⟨s, ts⟩ := c
  have hI := handedOn h hcrash
  have hload : load isStop ts ≠ 0 := by
    rw [hI.stop, hstop]
    decide
  obtain ⟨l, pc, r, rfl, hpc⟩ := exists_of_load_ne_zero hload
  have hone : pc.isStop = 1 := by
    cases pc <;> first | rfl | exact absurd rfl hpc
  obtain ⟨s', pc', halone, hposted, hcrash', -⟩ := alone_posts spec options hcrash hone
  have hd : (clientThreads spec options).Reachable ⟨s, l ++ pc :: r⟩ ⟨s', l ++ pc' :: r⟩ :=
    halone.run .refl
  refine ⟨_, hd, hcrash', ?_⟩
  have hI' := handedOn (h.trans hd) hcrash'
  have hle := load_mono posted_le (l ++ pc' :: r)
  have hstop' := hI'.stop_le
  have hmem : pc'.posted ≤ load posted (l ++ pc' :: r) := le_load_of_mem (by simp)
  show load posted (l ++ pc' :: r) = 1
  simp only at hstop'
  omega

/-- When `Stop` has posted its packet, a worker can be brought to post its own. -/
theorem reaches_left (hn : options.numOfWorkerThread.toNat ≠ 0)
    (hopen : c.shared.portOpen = true) (hposted : load posted c.threads = 1) :
    ∃ d, (clientThreads spec options).Reachable c d ∧ d.shared.crashed = none ∧
      d.shared.portOpen = true ∧ load left d.threads = 1 := by
  obtain ⟨s, ts⟩ := c
  have hI := handedOn h hcrash
  obtain ⟨hhandle, hcompletion⟩ := turns_known h
  have hstops := hI.stops
  have hworkers := hI.workers
  have hnulls := hI.nulls hopen
  simp only at hstops hworkers hnulls hposted hopen hcrash
  rw [hposted] at hstops
  -- from where a worker has taken the packet
  have hpost : ∀ {s : ClientProcess} {l r : List ThreadPc}, s.crashed = none →
      s.portOpen = true → load left (l ++ .postNull :: r) = 0 →
      ∃ d, (clientThreads spec options).Reachable ⟨s, l ++ .postNull :: r⟩ d ∧
        d.shared.crashed = none ∧ d.shared.portOpen = true ∧ load left d.threads = 1 := by
    intro s l r hcrash hopen hleft
    have hexec : (clientThreads spec options).exec .postNull .success s =
        some ({ s with packets := s.packets ++ [.null] }, .freeChunks) := by
      simp [clientThreads, execThread, hcrash, ClientProcess.post, hopen]
    refine ⟨_, (Alone.one hexec).run .refl, hcrash, hopen, ?_⟩
    simp only [load_append, load_cons, left] at hleft ⊢
    omega
  by_cases hleft : load left ts = 1
  · exact ⟨⟨s, ts⟩, .refl, hcrash, hopen, hleft⟩
  · by_cases hleaving : load leaving ts = 0
    · have hserving : load serving ts ≠ 0 := by omega
      obtain ⟨l, pc, r, rfl, hpc⟩ := exists_of_load_ne_zero hserving
      have hmem : Packet.stop ∈ s.packets := List.count_pos_iff.mp (by omega)
      have hother : ∀ p ∈ s.packets, p ≠ .stop → ∃ i q, p = .completion i q := by
        intro p hp hne
        cases p with
        | completion i q => exact ⟨i, q, rfl⟩
        | stop => exact absurd rfl hne
        | null =>
          have := List.count_pos_iff.mpr hp
          omega
      obtain ⟨g, rest, htakes⟩ := alone_takes spec options hcrash hopen
        hmem hother hcompletion hpc fun hq => hhandle (by simp [hq])
      have htake : (clientThreads spec options).exec .getQueued .success
          { s with client := g, packets := .stop :: rest } =
          some ({ s with client := g, packets := rest }, .postNull) := by
        simp [clientThreads, execThread, hcrash, hopen]
      have hzero : load left (l ++ .postNull :: r) = 0 := by
        have hsame : left .postNull = pc.left := by
          cases pc <;> first | rfl | exact absurd rfl hpc
        rw [load_place hsame]
        omega
      obtain ⟨d, hd, hend⟩ :=
        hpost (s := { s with client := g, packets := rest }) hcrash hopen hzero
      exact ⟨d, ((htakes.trans (.one htake)).run .refl).trans hd, hend⟩
    · obtain ⟨l, pc, r, rfl, hpc⟩ := exists_of_load_ne_zero hleaving
      have hpost' : pc = .postNull := by
        cases pc <;> first | rfl | exact absurd rfl hpc
      subst hpost'
      exact hpost hcrash hopen (by omega)

/-- With a worker more than the one that takes the packet of `Stop`, the process
can be brought to crash. -/
theorem reaches_crash (hn : 2 ≤ options.numOfWorkerThread.toNat)
    (hleft : c.shared.portOpen = true → load left c.threads = 1) :
    ∃ d, (clientThreads spec options).Reachable c d ∧
      d.shared.crashed = some .overlappedNull := by
  obtain ⟨s, ts⟩ := c
  have hI := handedOn h hcrash
  obtain ⟨hhandle, hcompletion⟩ := turns_known h
  have hstops := hI.stops
  have hworkers := hI.workers
  have hnulls := hI.nulls
  have hposted := load_mono posted_le ts
  have hstop := hI.stop_le
  simp only at hstops hworkers hnulls hleft hcrash hstop
  have hserving : load serving ts ≠ 0 := by omega
  obtain ⟨l, pc, r, rfl, hpc⟩ := exists_of_load_ne_zero hserving
  have hknown : ∀ {i q}, pc = .handle i q →
      i < s.client.sessionList.length ∧ q.reconnects = 0 := fun hq => hhandle (by simp [hq])
  by_cases hopen : s.portOpen = true
  · have hleft := hleft hopen
    have hnulls := hnulls hopen
    have hmem : Packet.null ∈ s.packets := List.count_pos_iff.mp (by omega)
    have hother : ∀ p ∈ s.packets, p ≠ .null → ∃ i q, p = .completion i q := by
      intro p hp hne
      cases p with
      | completion i q => exact ⟨i, q, rfl⟩
      | null => exact absurd rfl hne
      | stop =>
        have := List.count_pos_iff.mpr hp
        omega
    obtain ⟨g, rest, htakes⟩ := alone_takes spec options hcrash hopen hmem
      hother hcompletion hpc hknown
    have htake : (clientThreads spec options).exec .getQueued .success
        { s with client := g, packets := .null :: rest } =
        some ({ s with client := g, packets := rest, crashed := some .overlappedNull },
          .finished) := by
      simp [clientThreads, execThread, hcrash, hopen, ClientProcess.crash]
    exact ⟨_, (htakes.trans (.one htake)).run .refl, rfl⟩
  · obtain ⟨g, -, hback⟩ :=
      alone_getQueued spec options hcrash hpc hknown
    have htake : (clientThreads spec options).exec .getQueued .success { s with client := g } =
        some ({ s with client := g, crashed := some .overlappedNull }, .finished) := by
      simp [clientThreads, execThread, hcrash, hopen, ClientProcess.crash]
    exact ⟨_, (hback.trans (.one htake)).run .refl, rfl⟩

/-- When the wait for the workers returns and they have, `Stop` can be brought to
return. -/
theorem reaches_returned (hposted : load posted c.threads ≠ 0)
    (hwait : c.shared.waitReturns options.numOfWorkerThread.toNat = true)
    (hrunning : load running c.threads = 0) :
    ∃ d, (clientThreads spec options).Reachable c d ∧ Stopped d := by
  obtain ⟨s, ts⟩ := c
  obtain ⟨l, pc, r, rfl, hpc⟩ := exists_of_load_ne_zero hposted
  have hone : pc.posted = 1 := by
    cases pc <;> first | rfl | exact absurd rfl hpc
  obtain ⟨s', halone, hcrash'⟩ :=
    alone_returns spec options hcrash hone hwait
  refine ⟨_, halone.run .refl, ⟨hcrash', by simp, ?_⟩⟩
  have hplace : (ThreadPc.stopReturned).running = pc.running := by
    cases pc <;> first | rfl | exact absurd rfl hpc
  exact load_eq_zero_iff.mp ((load_place hplace l r).trans hrunning)

/-- The only worker returns when it has posted its packet. -/
theorem reaches_worker_returned (hone : options.numOfWorkerThread.toNat = 1)
    (hleft : load left c.threads = 1) :
    ∃ d, (clientThreads spec options).Reachable c d ∧ d.shared.crashed = none ∧
      load running d.threads = 0 := by
  obtain ⟨s, ts⟩ := c
  by_cases hrunning : load running ts = 0
  · exact ⟨⟨s, ts⟩, .refl, hcrash, hrunning⟩
  · obtain ⟨l, pc, r, rfl, hpc⟩ := exists_of_load_ne_zero hrunning
    have hworkers := (handedOn h hcrash).workers
    simp only [load_append, load_cons] at hworkers hleft
    have hfree : pc = .freeChunks := by
      cases pc with
      | freeChunks => rfl
      | getQueued | handle | postNull => simp only [serving, leaving, left] at *; omega
      | _ => exact absurd rfl hpc
    subst hfree
    have hexec : (clientThreads spec options).exec .freeChunks .success s =
        some ({ s with runningWorkers := s.runningWorkers - 1 }, .workerReturned) := by
      have hcrash' : s.crashed = none := hcrash
      simp [clientThreads, execThread, hcrash']
    refine ⟨_, (Alone.one hexec).run .refl, hcrash, ?_⟩
    have hlel := load_mono running_le l
    have hler := load_mono running_le r
    rw [load_add, load_add] at hlel hler
    simp only [serving, leaving, left] at hworkers hleft
    simp only [load_append, load_cons, running]
    omega

/-- With one worker or none, all can be brought to return. -/
theorem reaches_stopped (hn : options.numOfWorkerThread.toNat ≤ 1)
    (hstarted : c.shared.client.started = true) :
    ∃ d, (clientThreads spec options).Reachable c d ∧ Stopped d := by
  obtain ⟨b, hb, hbcrash, hstop⟩ := reaches_called h hcrash hstarted
  obtain ⟨d, hd, hdcrash, hposted⟩ := reaches_posted (h.trans hb) hbcrash hstop
  have hcd := hb.trans hd
  have hdI := handedOn (h.trans hcd) hdcrash
  by_cases hwait : d.shared.waitReturns options.numOfWorkerThread.toNat = true
  · -- the wait returns only when the workers have returned
    have hrunning : load running d.threads = 0 := by
      have hle := load_mono running_le d.threads
      rw [load_add, load_add, hdI.workers] at hle
      have hruns := hdI.runningWorkers
      have hmax : maximumWaitObjects = 64 := rfl
      simp only [ClientProcess.waitReturns, decide_eq_true_eq] at hwait
      omega
    obtain ⟨f, hf, hstopped⟩ :=
      reaches_returned (h.trans hcd) hdcrash (by omega) hwait hrunning
    exact ⟨f, hcd.trans hf, hstopped⟩
  · have hone : options.numOfWorkerThread.toNat = 1 := by
      simp only [ClientProcess.waitReturns, decide_eq_true_eq] at hwait
      omega
    have hopen : d.shared.portOpen = true := by
      refine hdI.portOpen.mpr ?_
      by_contra hclosed
      have hle := load_mono closed_le d.threads
      exact hwait (hdI.returns (by omega))
    obtain ⟨e, he, hecrash, -, hleft⟩ :=
      reaches_left (h.trans hcd) hdcrash (by omega) hopen hposted
    have hce := hcd.trans he
    obtain ⟨f, hf, hfcrash, hrunning⟩ :=
      reaches_worker_returned (h.trans hce) hecrash hone hleft
    have hcf := hce.trans hf
    have hfI := handedOn (h.trans hcf) hfcrash
    have hfposted : load posted f.threads ≠ 0 := by
      have hle := load_mono serving_le f.threads
      rw [load_add] at hle
      have hworkers := hfI.workers
      have hstops := hfI.stops
      omega
    have hfwait : f.shared.waitReturns options.numOfWorkerThread.toNat = true := by
      have hruns := hfI.runningWorkers
      simp only [ClientProcess.waitReturns, decide_eq_true_eq]
      omega
    obtain ⟨g, hg, hstopped⟩ := reaches_returned (h.trans hcf) hfcrash hfposted hfwait hrunning
    exact ⟨g, hcf.trans hg, hstopped⟩

/-- With two workers or more, the process can be brought to crash. -/
theorem reaches_overlappedNull (hn : 2 ≤ options.numOfWorkerThread.toNat)
    (hstarted : c.shared.client.started = true) :
    ∃ d, (clientThreads spec options).Reachable c d ∧
      d.shared.crashed = some .overlappedNull := by
  obtain ⟨b, hb, hbcrash, hstop⟩ := reaches_called h hcrash hstarted
  obtain ⟨d, hd, hdcrash, hposted⟩ := reaches_posted (h.trans hb) hbcrash hstop
  have hcd := hb.trans hd
  by_cases hopen : d.shared.portOpen = true
  · obtain ⟨e, he, hecrash, -, hleft⟩ :=
      reaches_left (h.trans hcd) hdcrash (by omega) hopen hposted
    obtain ⟨f, hf, hfcrash⟩ :=
      reaches_crash (h.trans (hcd.trans he)) hecrash hn fun _ => hleft
    exact ⟨f, hcd.trans (he.trans hf), hfcrash⟩
  · obtain ⟨f, hf, hfcrash⟩ := reaches_crash (h.trans hcd) hdcrash hn fun h => absurd h hopen
    exact ⟨f, hcd.trans hf, hfcrash⟩

end

/-- `Start` sets up two sessions, a receive of the first completes and a worker takes
it, and `Stop` is called and posts its packet. -/
def clientThreads.stopping (stop : Nat) : List (Act CallResult MultiLanClient.Event) :=
  List.replicate 13 (.run 0 .success) ++
    [.event (.recvCompletion 0 0 [2, 0, 7, 7]), .run 2 .success, .event .stop,
      .run stop .success, .run stop .success]

end RioServer.Client
