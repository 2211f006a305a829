import Mathlib.Data.List.Induction
import RioServer.Db.DbJob

/-!
# Who frees the buffers of the DB senders (DBJob.h, DBJob.cpp, DBClient.cpp, DBHelper.cpp)

`CSerializationBuf::Alloc` is called in two places, by the constructor of
`DBJob` and by `MakeProcedurePacket`; `Free` is called by `~DBJob` and by the
send path. `run` performs any sequence of constructions, executions and
destructions of jobs, of sends in both overloads, and of turns of the send path,
and keeps the identity of every buffer. A call touches only the job and the
buffer that it was given, and the queue once, so it is taken as a whole.

Neither place hands its buffer on. The constructor leaves `jobSPBuffer` null, and
`auto` makes a copy of what `MakeProcedurePacket` refers to, whose address goes
into the queue and is no address of an allocated buffer. So no buffer is ever
freed (`freed_run`), and the senders are right about their buffers exactly if
they never get one (`owned_run_iff`).
-/

namespace RioServer.Db.Buffers

/-- What a `CSerializationBuf*` can point to: nothing, an object of `Alloc`, by
the number of the call, or a variable of a function, by the number of its call. -/
inductive BufferPointer where
  | null
  | allocated (buffer : Nat)
  | automatic (call : Nat)
  deriving DecidableEq, Repr

/-- The pointers of a `DBJob`. -/
structure JobPointers where
  jobSPBuffer : BufferPointer
  jobKeyPosition : BufferPointer
  deriving DecidableEq, Repr

/-- How many buffers were allocated, which were freed, in order, what stands in
the clients' `SendQ`s, the jobs that there are, and the number of calls of
`SendPacketToFixedChannel` for a packet. -/
structure Senders where
  allocated : Nat
  freed : List Nat
  sendQ : List BufferPointer
  jobs : List JobPointers
  calls : Nat
  deriving DecidableEq, Repr

def Senders.initial : Senders := ⟨0, [], [], [], 0⟩

/-- `CSerializationBuf::Alloc`. -/
def Senders.alloc (s : Senders) : BufferPointer × Senders :=
  (.allocated s.allocated, { s with allocated := s.allocated + 1 })

/-- `CSerializationBuf::Free`; only a buffer of `Alloc` can be given back. -/
def Senders.free (s : Senders) : BufferPointer → Senders
  | .allocated buffer => { s with freed := s.freed ++ [buffer] }
  | .null | .automatic _ => s

/-- `SendPacketImpl` (MultiLanClient.cpp:510): a null pointer is refused. -/
def Senders.sendPacket (s : Senders) : BufferPointer → Senders
  | .null => s
  | pointer => { s with sendQ := s.sendQ ++ [pointer] }

/-- The constructor of `DBJob` (DBJob.h:22): the buffer is written, and of the
members only `jobKeyPosition` is set. -/
def Senders.newJob (s : Senders) : JobPointers × Senders :=
  let (buffer, s) := s.alloc
  ({ jobSPBuffer := .null, jobKeyPosition := buffer }, s)

/-- `SendPacketToFixedChannel` for a job (DBClient.cpp:92). -/
def Senders.sendJob (s : Senders) (job : JobPointers) : Senders := s.sendPacket job.jobSPBuffer

/-- `ExecuteJob` (DBJob.cpp:16). -/
def Senders.executeJob (s : Senders) (job : JobPointers) : Bool × Senders :=
  if job.jobSPBuffer = .null ∨ job.jobKeyPosition = .null then (false, s)
  else (true, s.sendJob job)

/-- `~DBJob` (DBJob.cpp:11). -/
def Senders.destroyJob (s : Senders) (job : JobPointers) : Senders := s.free job.jobSPBuffer

/-- `MakeProcedurePacket` (DBHelper.cpp:6) returns a reference. -/
def Senders.makeProcedurePacket (s : Senders) : BufferPointer × Senders := s.alloc

/-- `SendPacketToFixedChannel` for a packet (DBClient.cpp:84): `buffer` is a
variable of its own, and what is sent is its address. -/
def Senders.sendPacketToFixedChannel (s : Senders) : Senders :=
  let (_, s) := s.makeProcedurePacket
  let buffer := BufferPointer.automatic s.calls
  { s with calls := s.calls + 1 }.sendPacket buffer

/-- A call of the senders, or a turn of the send path. Jobs and queued buffers
are named by their places. -/
inductive SenderCall where
  | newJob
  | executeJob (job : Nat)
  | sendJob (job : Nat)
  | destroyJob (job : Nat)
  | sendPacketToFixedChannel
  | sent (i : Nat)
  deriving DecidableEq, Repr

/-- One call; nothing happens for a job or a buffer that there is not. -/
def Senders.step (s : Senders) : SenderCall → Senders
  | .newJob =>
    let (job, s) := s.newJob
    { s with jobs := s.jobs ++ [job] }
  | .executeJob job => s.jobs[job]?.elim s fun j => (s.executeJob j).2
  | .sendJob job => s.jobs[job]?.elim s s.sendJob
  | .destroyJob job =>
    s.jobs[job]?.elim s fun j => { s.destroyJob j with jobs := s.jobs.eraseIdx job }
  | .sendPacketToFixedChannel => s.sendPacketToFixedChannel
  | .sent i => s.sendQ[i]?.elim s fun p => { s.free p with sendQ := s.sendQ.eraseIdx i }

/-- The calls, in order. -/
def run (calls : List SenderCall) : Senders := calls.foldl Senders.step .initial

/-- In the end every job is destroyed, and the send path frees what is queued. -/
def Senders.finish (s : Senders) : Senders :=
  (s.jobs.map JobPointers.jobSPBuffer ++ s.sendQ).foldl Senders.free s

/-- The calls that get a buffer from `Alloc`. -/
def SenderCall.allocates : SenderCall → Bool
  | .newJob | .sendPacketToFixedChannel => true
  | _ => false

/-! ## What becomes of the buffers -/

/-- What is queued are buffers of `Alloc` that have not been freed, none is freed
twice, and in the end all are freed. -/
structure Owned (s : Senders) : Prop where
  queued : ∀ p ∈ s.sendQ, ∃ buffer, p = .allocated buffer ∧ buffer < s.allocated ∧ buffer ∉ s.freed
  once : ∀ buffer, s.freed.count buffer ≤ 1
  inTheEnd : ∀ buffer < s.allocated, s.finish.freed.count buffer = 1

/-- Nobody has a pointer to a buffer that was allocated, and none was freed; each
pointer that is queued stands for one that was lost. -/
structure Lost (s : Senders) : Prop where
  jobs : ∀ job ∈ s.jobs, job.jobSPBuffer = .null
  sendQ : ∀ p ∈ s.sendQ, ∀ buffer, p ≠ .allocated buffer
  freed : s.freed = []
  lost : s.sendQ.length ≤ s.allocated

variable {s : Senders}

/-- Freeing what is not a buffer of `Alloc` does nothing. -/
theorem free_eq {p : BufferPointer} (h : ∀ buffer, p ≠ .allocated buffer) : s.free p = s := by
  cases p with
  | allocated buffer => exact absurd rfl (h buffer)
  | null | automatic => rfl

/-- Sending a job, or executing it, sends nothing. -/
theorem sendJob_eq {job : JobPointers} (h : job.jobSPBuffer = .null) : s.sendJob job = s := by
  rw [Senders.sendJob, h]
  rfl

theorem executeJob_eq {job : JobPointers} (h : job.jobSPBuffer = .null) :
    s.executeJob job = (false, s) :=
  if_pos (.inl h)

/-- **No call finds a buffer again.** -/
theorem Lost.step (hI : Lost s) (call : SenderCall) :
    Lost (s.step call) ∧ (s.step call).allocated = s.allocated + call.allocates.toNat := by
  cases call with
  | newJob =>
    refine ⟨⟨fun job hjob => ?_, hI.sendQ, hI.freed, Nat.le_succ_of_le hI.lost⟩, rfl⟩
    rcases List.mem_append.mp hjob with hold | hnew
    · exact hI.jobs job hold
    · rw [List.mem_singleton.mp hnew]
  | executeJob job =>
    rw [Senders.step]
    cases hjob : s.jobs[job]? with
    | none => exact ⟨hI, rfl⟩
    | some j =>
      rw [Option.elim_some, executeJob_eq (hI.jobs j (List.mem_of_getElem? hjob))]
      exact ⟨hI, rfl⟩
  | sendJob job =>
    rw [Senders.step]
    cases hjob : s.jobs[job]? with
    | none => exact ⟨hI, rfl⟩
    | some j =>
      rw [Option.elim_some, sendJob_eq (hI.jobs j (List.mem_of_getElem? hjob))]
      exact ⟨hI, rfl⟩
  | destroyJob job =>
    rw [Senders.step]
    cases hjob : s.jobs[job]? with
    | none => exact ⟨hI, rfl⟩
    | some j =>
      rw [Option.elim_some, Senders.destroyJob, hI.jobs j (List.mem_of_getElem? hjob)]
      exact ⟨⟨fun q hq => hI.jobs q (List.mem_of_mem_eraseIdx hq), hI.sendQ, hI.freed, hI.lost⟩,
        rfl⟩
  | sendPacketToFixedChannel =>
    refine ⟨⟨hI.jobs, fun p hp => ?_, hI.freed, ?_⟩, rfl⟩
    · rcases List.mem_append.mp hp with hold | hnew
      · exact hI.sendQ p hold
      · rw [List.mem_singleton.mp hnew]
        exact nofun
    · show (s.sendQ ++ [BufferPointer.automatic s.calls]).length ≤ s.allocated + 1
      rw [List.length_append]
      exact Nat.succ_le_succ hI.lost
  | sent i =>
    rw [Senders.step]
    cases hp : s.sendQ[i]? with
    | none => exact ⟨hI, rfl⟩
    | some p =>
      rw [Option.elim_some, free_eq (hI.sendQ p (List.mem_of_getElem? hp))]
      exact ⟨⟨hI.jobs, fun q hq => hI.sendQ q (List.mem_of_mem_eraseIdx hq), hI.freed,
        (List.length_eraseIdx_le s.sendQ i).trans hI.lost⟩, rfl⟩

/-- **The ledger of a run**: as many buffers as calls that allocate one. -/
theorem lost_run (calls : List SenderCall) :
    Lost (run calls) ∧ (run calls).allocated = calls.countP SenderCall.allocates := by
  induction calls using List.reverseRecOn with
  | nil => exact ⟨⟨nofun, nofun, rfl, Nat.le_refl 0⟩, rfl⟩
  | append_singleton calls call ih =>
    obtain ⟨hI, hcount⟩ := ih
    obtain ⟨hstep, hallocated⟩ := hI.step call
    have hrun : run (calls ++ [call]) = (run calls).step call := List.foldl_append
    rw [hrun]
    refine ⟨hstep, ?_⟩
    rw [hallocated, hcount, List.countP_append, List.countP_singleton]
    cases call.allocates <;> rfl

/-- Freeing no buffers of `Alloc` frees nothing. -/
theorem foldl_free {pointers : List BufferPointer}
    (h : ∀ p ∈ pointers, ∀ buffer, p ≠ .allocated buffer) : pointers.foldl Senders.free s = s := by
  induction pointers with
  | nil => rfl
  | cons p pointers ih =>
    obtain ⟨hp, hrest⟩ := List.forall_mem_cons.mp h
    rw [List.foldl_cons, free_eq hp]
    exact ih hrest

/-- **No buffer is ever freed**, not in the end either. -/
theorem freed_run (calls : List SenderCall) : (run calls).finish.freed = [] := by
  obtain ⟨⟨hjobs, hsendQ, hfreed, -⟩, -⟩ := lost_run calls
  rw [Senders.finish, foldl_free]
  · exact hfreed
  · intro p hp
    rcases List.mem_append.mp hp with hp | hp
    · obtain ⟨job, hjob, rfl⟩ := List.mem_map.mp hp
      rw [hjobs job hjob]
      exact nofun
    · exact hsendQ p hp

/-- **The senders are right about their buffers exactly if they never get one**:
no job is constructed and no single packet is sent. -/
theorem owned_run_iff (calls : List SenderCall) :
    Owned (run calls) ↔ ∀ call ∈ calls, call.allocates = false := by
  obtain ⟨⟨-, -, hfreed, hlost⟩, hcount⟩ := lost_run calls
  constructor
  · intro h
    have hzero : calls.countP SenderCall.allocates = 0 := by
      by_contra hne
      -- the first buffer is not freed
      have hone := h.inTheEnd 0 (by omega)
      rw [freed_run] at hone
      cases hone
    intro call hcall
    exact Bool.eq_false_iff.mpr (List.countP_eq_zero.mp hzero call hcall)
  · intro hnone
    have hzero : (run calls).allocated = 0 := by
      rw [hcount, List.countP_eq_zero]
      exact fun call hcall => Bool.eq_false_iff.mp (hnone call hcall)
    refine ⟨fun p hp => ?_, fun buffer => ?_, fun buffer hlt => ?_⟩
    · rw [hzero] at hlost
      rw [List.length_eq_zero_iff.mp (Nat.le_zero.mp hlost)] at hp
      cases hp
    · rw [hfreed]
      exact Nat.zero_le 1
    · rw [hzero] at hlt
      cases hlt

/-- A job is executed and destroyed, and a single packet is sent: two buffers are
lost, and the address of a variable is queued. -/
theorem two_buffers_lost :
    let s := run [.newJob, .executeJob 0, .destroyJob 0, .sendPacketToFixedChannel]
    s.allocated = 2 ∧ s.jobs = [] ∧ s.sendQ = [.automatic 0] ∧ s.finish.freed = [] ∧ ¬Owned s := by
  refine ⟨rfl, rfl, rfl, rfl, fun h => ?_⟩
  have hone := h.inTheEnd 0 (by decide)
  cases hone

/-! ## The calls that write the buffers -/

variable {codec : Packets.Codec} {w w' : DbClient} {P : Packets.PacketClass}
  {packet rollbackPacket : Packets.Fields P.fields} {unwritten : UInt64} {job : DbJob}

/-- A pointer of the DB client's heap. -/
def toPointer : Option Nat → BufferPointer
  | none => .null
  | some buffer => .allocated buffer

/-- Constructing a job here is constructing it with its contents: the same
pointer, and the same number of buffers. -/
theorem newJob_refines (hnew : DbJob.new codec P packet rollbackPacket unwritten w = some (job, w'))
    (hs : s.allocated = w.buffers.length) :
    s.newJob.1.jobSPBuffer = toPointer job.jobSPBuffer ∧
      s.newJob.1.jobKeyPosition = toPointer (job.jobKeyPosition.map Prod.fst) ∧
      s.newJob.2.allocated = w'.buffers.length := by
  rw [DbJob.new_run] at hnew
  cases hnew
  refine ⟨rfl, ?_, ?_⟩
  · show BufferPointer.allocated s.allocated = _
    rw [hs]
    rfl
  · show s.allocated + 1 = (w.buffers ++ [_]).length
    rw [hs, List.length_append]
    rfl

/-- A pointer is queued here exactly if `SendPacketImpl` enqueues its buffer. -/
theorem sendPacket_refines {pointer : Option Nat} {channelId : Nat} {result : Bool}
    (hsend : sendPacketImpl pointer channelId w = some (result, w')) :
    ((s.sendPacket (toPointer pointer)).sendQ = s.sendQ ↔ w'.enqueued = w.enqueued) := by
  cases pointer with
  | none =>
    cases hsend
    exact iff_of_true rfl rfl
  | some buffer =>
    refine iff_of_false (fun h => ?_) (fun h => ?_)
    · exact absurd (List.append_right_eq_self.mp h) (List.cons_ne_nil _ _)
    · rw [sendPacketImpl] at hsend
      simp only at hsend
      split at hsend
      · cases hsend
      · split at hsend <;> cases hsend
        exact absurd (List.append_right_eq_self.mp h) (List.cons_ne_nil _ _)

end RioServer.Db.Buffers
