import RioServer.Db.DbJobManager
import RioServer.Packets.Protocol

/-!
# How a batch ends (ProcedureReplyHandler.cpp:70–89, DBJob.cpp:84–98)

The DB server answers a batch with a `DBJobReply`. `AssemblePacket` looks the
batch up in the registry and runs its `OnCommit` or `OnRollback`, and these
call every job of the batch.

Nothing takes the batch out of the registry afterwards: `DeregisterDBJob` is
called by the batch's destructor alone, which the registry's own pointer keeps
from running. So the next reply with the same key finds the batch again, and
runs it again, whatever it says (`ran_assemblePackets`). By `endsOnce_iff` a
sequence of replies keeps to one outcome a batch, and to batches that leave the
registry with it, exactly if none of them finds a batch.
-/

namespace RioServer.Db

/-- `DBJobReply` (Protocol.h:190). -/
structure DbJobReply where
  jobKey : UInt64
  isSuccessed : Bool
  deriving DecidableEq, Repr

/-- The object that `SPReplyHandle` hands on. -/
def DbJobReply.ofFields : Packets.Fields Packets.dbJobReply.fields → DbJobReply
  | (jobKey, isSuccessed, ()) => ⟨jobKey, isSuccessed⟩

/-- The two ways a batch can end. -/
inductive Outcome where
  | onCommit
  | onRollback
  deriving DecidableEq, Repr

variable {Job : Type}

/-- The registry, and what the replies have done: the batches whose `OnCommit`
or `OnRollback` ran, the jobs these called, and the lines on the console. -/
structure ReplyState (Job : Type) extends DbJobManager where
  ran : List (BatchedDbJob × Outcome)
  jobCalls : List (Job × Outcome)
  console : List String

/-- Some batches are registered, and no reply has come. -/
def ReplyState.registered (jobMap : UnorderedMap UInt64 BatchedDbJob) : ReplyState Job where
  jobKey := 1
  jobMap := jobMap
  jobMapLock := false
  ran := []
  jobCalls := []
  console := []

/-- `DBJobManager::GetRegistedDBJob` (DBJob.cpp:116). -/
def DbJobManager.getRegistedDbJob (m : DbJobManager) (jobKey : UInt64) : Option BatchedDbJob :=
  m.jobMap.find jobKey

section

variable (jobList : BatchedDbJob → List Job)

/-- `BatchedDBJob::OnCommit` and `BatchedDBJob::OnRollback` (DBJob.cpp:84): the
same loop over the jobs, with either of their functions. -/
def onOutcome (outcome : Outcome) (batchJob : BatchedDbJob) (s : ReplyState Job) :
    ReplyState Job :=
  { s with
    ran := s.ran ++ [(batchJob, outcome)]
    jobCalls := s.jobCalls ++ (jobList batchJob).map fun job => (job, outcome) }

/-- `BatchedDBJob::OnCommit`. -/
def onCommit : BatchedDbJob → ReplyState Job → ReplyState Job := onOutcome jobList .onCommit

/-- `BatchedDBJob::OnRollback`. -/
def onRollback : BatchedDbJob → ReplyState Job → ReplyState Job := onOutcome jobList .onRollback

/-- `AssemblePacket(DBJobReply&)` (ProcedureReplyHandler.cpp:70). -/
def assemblePacket (packet : DbJobReply) (s : ReplyState Job) : Bool × ReplyState Job :=
  match s.getRegistedDbJob packet.jobKey with
  | none => (true, { s with console := s.console ++ ["AssemblePacket() : Invalid jobkey"] })
  | some batchJob =>
    if packet.isSuccessed = false then
      (true, onRollback jobList batchJob
        { s with console := s.console ++ ["AssemblePacket() : DB job was failed"] })
    else (true, onCommit jobList batchJob s)

/-- One reply after another. -/
def assemblePackets (packets : List DbJobReply) (s : ReplyState Job) :
    ReplyState Job :=
  packets.foldl (fun s packet => (assemblePacket jobList packet s).2) s

/-- What a reply makes of the batch it finds. -/
def replyOutcome (m : DbJobManager) (packet : DbJobReply) :
    Option (BatchedDbJob × Outcome) :=
  (m.getRegistedDbJob packet.jobKey).map fun batchJob =>
    (batchJob, if packet.isSuccessed = false then .onRollback else .onCommit)

/-- **A reply leaves the registry alone**, and runs what it finds. -/
theorem assemblePacket_effect (packet : DbJobReply) (s : ReplyState Job) :
    (assemblePacket jobList packet s).1 = true ∧
      (assemblePacket jobList packet s).2.toDbJobManager = s.toDbJobManager ∧
      (assemblePacket jobList packet s).2.ran =
        s.ran ++ (replyOutcome s.toDbJobManager packet).toList ∧
      (assemblePacket jobList packet s).2.jobCalls = s.jobCalls ++
        ((replyOutcome s.toDbJobManager packet).toList.flatMap fun e =>
          (jobList e.1).map fun job => (job, e.2)) := by
  obtain ⟨jobKey, isSuccessed⟩ := packet
  simp only [assemblePacket, replyOutcome]
  cases s.getRegistedDbJob jobKey with
  | none => exact ⟨rfl, rfl, (List.append_nil _).symm, (List.append_nil _).symm⟩
  | some batchJob =>
    cases isSuccessed <;> simp [onCommit, onRollback, onOutcome]

/-- **What a sequence of replies runs**: for each of them, in order, the outcome
it names of the batch that was registered at the start. -/
theorem ran_assemblePackets (packets : List DbJobReply) :
    ∀ s : ReplyState Job,
      (assemblePackets jobList packets s).toDbJobManager = s.toDbJobManager ∧
        (assemblePackets jobList packets s).ran =
          s.ran ++ packets.filterMap (replyOutcome s.toDbJobManager) := by
  induction packets with
  | nil => exact fun s => ⟨rfl, (List.append_nil _).symm⟩
  | cons packet packets ih =>
    intro s
    obtain ⟨-, hmanager, hran, -⟩ := assemblePacket_effect jobList packet s
    obtain ⟨hmanager', hran'⟩ := ih (assemblePacket jobList packet s).2
    refine ⟨hmanager'.trans hmanager, hran'.trans ?_⟩
    rw [hran, hmanager, List.append_assoc, List.filterMap_cons]
    cases replyOutcome s.toDbJobManager packet <;> rfl

end

/-! ## One outcome a batch -/

/-- No batch has ended more than once, and a batch that has ended is registered
no longer. -/
structure EndsOnce (s : ReplyState Job) : Prop where
  once : (s.ran.map fun e => e.1.id).Nodup
  deregistered : ∀ e ∈ s.ran, ∀ batchJob ∈ s.jobMap.values, batchJob.id ≠ e.1.id

/-- **One outcome a batch, exactly if no reply finds one.** -/
theorem endsOnce_iff (jobList : BatchedDbJob → List Job)
    (jobMap : UnorderedMap UInt64 BatchedDbJob) (packets : List DbJobReply) :
    EndsOnce (assemblePackets jobList packets (.registered jobMap)) ↔
      ∀ packet ∈ packets, jobMap.find packet.jobKey = none := by
  obtain ⟨hmanager, hran⟩ := ran_assemblePackets jobList packets (.registered jobMap)
  have hjobMap : (assemblePackets jobList packets (.registered jobMap)).jobMap = jobMap :=
    congrArg DbJobManager.jobMap hmanager
  rw [show (ReplyState.registered jobMap : ReplyState Job).ran = [] from rfl,
    List.nil_append] at hran
  constructor
  · intro h packet hpacket
    rw [Option.eq_none_iff_forall_ne_some]
    intro batchJob hfind
    -- the batch that is found has ended and is still registered
    have hreply : replyOutcome
        (ReplyState.registered jobMap : ReplyState Job).toDbJobManager packet =
          some (batchJob, if packet.isSuccessed = false then .onRollback else .onCommit) :=
      congrArg (Option.map _) hfind
    have hended := List.mem_filterMap.mpr ⟨packet, hpacket, hreply⟩
    rw [← hran] at hended
    refine h.deregistered _ hended batchJob ?_ rfl
    rw [hjobMap]
    exact UnorderedMap.mem_values.mpr ⟨packet.jobKey, hfind⟩
  · intro hnone
    have hempty : packets.filterMap
        (replyOutcome (ReplyState.registered jobMap : ReplyState Job).toDbJobManager) = [] := by
      rw [List.filterMap_eq_nil_iff]
      exact fun packet hpacket => congrArg (Option.map _) (hnone packet hpacket)
    rw [hempty] at hran
    refine ⟨?_, fun e he => ?_⟩
    · rw [hran]
      exact List.nodup_nil
    · rw [hran] at he
      cases he

/-- Two replies to one batch, the first that it succeeded and the second that it
failed: it is committed, then rolled back, and still registered. -/
theorem committed_and_rolledBack :
    let batchJob : BatchedDbJob := ⟨0, 1⟩
    let s : ReplyState Unit := assemblePackets (fun _ => [()])
      [⟨1, true⟩, ⟨1, false⟩]
      (.registered (UnorderedMap.empty.insert 1 batchJob))
    s.ran = [(batchJob, .onCommit), (batchJob, .onRollback)] ∧
      s.jobCalls = [((), .onCommit), ((), .onRollback)] ∧ s.jobMap.find 1 = some batchJob ∧
      ¬EndsOnce s := by
  refine ⟨rfl, rfl, rfl, fun h => ?_⟩
  exact absurd h.once (by decide)

end RioServer.Db
