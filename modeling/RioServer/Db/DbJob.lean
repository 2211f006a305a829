import RioServer.Packets.Protocol

/-!
# Batched DB jobs and what they send (DBJob.h, DBJob.cpp, DBClient.cpp, MultiLanClient.cpp)

A `DBJob` writes its packet into a buffer when it is constructed, with a slot of
eight bytes for the key of the batch; `ExecuteJob` is to fill the slot in and to
send the buffer; `ExecuteBatchJob` is to send a `DBJobStart` and then every job.

The constructor never stores the buffer it has written: `jobSPBuffer` stays
null (`DbJob.new_run`). So `ExecuteJob` returns before it does anything, the start
packet is sent as a null pointer, and `ExecuteBatchJob` returns `SUCCESS` with
nothing enqueued (`executeBatchJob_null`). The same `SendPacket` enqueues what
it is given where the buffer is passed on, in the call for single packets
(`sendProcedure_enqueues`).

`CSerializationBuf` is not part of the repository. Its objects are byte lists
here, `<<` is the `Codec` of the fields, and `Free` is a parameter.
-/

namespace RioServer.Db

open Packets

/-! ## The DB client -/

/-- An object of `CSerializationBuf`: the length at its head, which
`SendPacketImpl` writes, and the bytes behind it. -/
structure SerializationBuf where
  payloadSize : UInt16
  payload : List UInt8
  deriving DecidableEq, Repr

/-- `SERVER_ERR`, as far as sending reports one. -/
inductive ServerErr where
  | serializeBufNullErr
  deriving DecidableEq, Repr

/-- The DB client (MultiLanClient.h:26) and the heap of buffers. A pointer is a
place in `buffers`. `enqueued` is what went into the sessions' `SendQ`, in
order, and `errors` what `OnError` was called with. -/
structure DbClient where
  numOfWorkerThread : UInt8
  numOfUsingWorkerThread : UInt8
  sessionListSize : Nat
  channelSelector : UInt64
  buffers : List SerializationBuf
  enqueued : List (Nat × SerializationBuf)
  errors : List ServerErr
  deriving DecidableEq, Repr

/-- Calls that act on the client; `none` where the process is stopped, by a
division by zero or an access to what is not there. -/
abbrev DbM := StateT DbClient Option

/-- `CSerializationBuf::Alloc`. -/
def alloc : DbM Nat := fun w =>
  some (w.buffers.length, { w with buffers := w.buffers ++ [⟨0, []⟩] })

/-- Write bytes behind those that a buffer holds. -/
def write (pointer : Nat) (bytes : List UInt8) : DbM Unit := fun w =>
  some ((), { w with
    buffers := w.buffers.modify pointer fun b => { b with payload := b.payload ++ bytes } })

/-- `GetWriteBufferPtr`: the place behind the bytes that a buffer holds. -/
def writePosition (pointer : Nat) : DbM (Nat × Nat) := fun w =>
  w.buffers[pointer]?.map fun b => ((pointer, b.payload.length), w)

/-- Write eight bytes at a place that was taken by `GetWriteBufferPtr`. -/
def patch (place : Nat × Nat) (value : UInt64) : DbM Unit := fun w =>
  some ((), { w with
    buffers := w.buffers.modify place.1 fun b =>
      { b with payload := b.payload.take place.2 ++ Wire.putNat 8 value.toNat ++
                          b.payload.drop (place.2 + 8) } })

/-- `GetChannelId` (MultiLanClient.cpp:490). -/
def getChannelId : DbM Nat := fun w =>
  if w.numOfWorkerThread = 0 then none
  else some ((w.channelSelector + 1).toNat % w.numOfWorkerThread.toNat,
    { w with channelSelector := w.channelSelector + 1 })

/-- `GetFixedChannelId` (MultiLanClient.cpp:495). -/
def getFixedChannelId (fixedId : UInt64) : DbM Nat := fun w =>
  if w.numOfUsingWorkerThread = 0 then none
  else some (fixedId.toNat % w.numOfUsingWorkerThread.toNat, w)

/-- `SendPacketImpl` (MultiLanClient.cpp:510). `SendPost`, which takes from the
queue, is left out. -/
def sendPacketImpl (serializeBuf : Option Nat) (channelId : Nat) : DbM Bool := fun w =>
  match serializeBuf with
  | none => some (false, { w with errors := w.errors ++ [.serializeBufNullErr] })
  | some pointer =>
    match w.buffers[pointer]? with
    | none => none
    | some buffer =>
      if channelId < w.sessionListSize then
        let buffer := { buffer with payloadSize := .ofNat buffer.payload.length }
        some (true, { w with buffers := w.buffers.set pointer buffer,
                             enqueued := w.enqueued ++ [(channelId, buffer)] })
      else none

/-- `SendPacket` (MultiLanClient.cpp:500). -/
def sendPacket (serializeBuf : Option Nat) : DbM Bool := do
  let channelId ← getChannelId
  sendPacketImpl serializeBuf channelId

/-- `SendPacket` with a fixed channel (MultiLanClient.cpp:505). -/
def sendPacketFixed (serializeBuf : Option Nat) (fixedId : UInt64) : DbM Bool := do
  let channelId ← getFixedChannelId fixedId
  sendPacketImpl serializeBuf channelId

/-! ## Single packets -/

/-- A packet for the DB server (`IGameAndDBPacket`): an object of some class. -/
structure DbPacket where
  type : PacketClass
  values : Fields type.fields

variable (codec : Codec)

/-- `DBHelper::MakeProcedurePacket` (DBHelper.cpp:6). -/
def makeProcedurePacket (packetId : PacketId) : DbM Nat := do
  let buffer ← alloc
  write buffer ((codec .uint32).put packetId)
  write buffer ((codec .uint64).put (0 : UInt64))
  return buffer

/-- `SendPacketToFixedChannel` for a packet (DBClient.cpp:84). -/
def sendPacketToFixedChannel (packet : DbPacket) (sessionId : UInt64) : DbM Unit := do
  let buffer ← makeProcedurePacket codec packet.type.packetId.toPacketId
  write buffer (packet.type.packetToBuffer codec packet.values)
  discard (sendPacketFixed (some buffer) sessionId)

/-- What `MakeProcedurePacket` and `PacketToBuffer` write for a packet. -/
def procedureLayout (packet : DbPacket) : List UInt8 :=
  (codec .uint32).put packet.type.packetId.toPacketId ++ (codec .uint64).put (0 : UInt64) ++
    packet.type.packetToBuffer codec packet.values

/-! ## Jobs -/

/-- `DBJob` (DBJob.h:15). -/
structure DbJob where
  jobSPBuffer : Option Nat
  jobKeyPosition : Option (Nat × Nat)
  forRollback : DbPacket

/-- The constructor (DBJob.h:22); `unwritten` is what the key slot of the buffer
happens to hold. The member initializer leaves `jobSPBuffer` null, and no line
of the body sets it. -/
def DbJob.new (P : PacketClass) (packet rollbackPacket : Fields P.fields) (unwritten : UInt64) :
    DbM DbJob := do
  let buffer ← alloc
  write buffer ((codec .uint32).put P.packetId.toPacketId)
  let jobKeyPosition ← writePosition buffer
  write buffer (Wire.putNat 8 unwritten.toNat)
  write buffer (P.packetToBuffer codec packet)
  return { jobSPBuffer := none
           jobKeyPosition := some jobKeyPosition
           forRollback := ⟨P, rollbackPacket⟩ }

/-- `SendPacketToFixedChannel` for a job (DBClient.cpp:92). -/
def sendJobToFixedChannel (dbJob : DbJob) : DbM Unit := discard (sendPacket dbJob.jobSPBuffer)

/-- `ExecuteJob` (DBJob.cpp:16). The key is dereferenced as an address; `memory`
is what the process has there. -/
def DbJob.executeJob (job : DbJob) (memory : UInt64 → Option UInt64) (batchDbJobKey : UInt64) :
    DbM Bool :=
  match job.jobSPBuffer, job.jobKeyPosition with
  | some _, some jobKeyPosition => do
    let key ← (memory batchDbJobKey : DbM UInt64)
    patch jobKeyPosition key
    sendJobToFixedChannel job
    return true
  | _, _ => return false

/-! ## Batches -/

/-- `ERROR_CODE` (EnumType.h:51). -/
inductive ErrorCode where
  | success
  | batchedDbJobSizeOverflowed
  deriving DecidableEq, Repr

/-- `MAXIMUM_BATCHED_DB_JOB_SIZE` (DefineType.h:10). -/
def maximumBatchedDbJobSize : Nat := 16

/-- `BatchedDBJob` (DBJob.h:57); of the owner, its session id. -/
structure JobBatch where
  ownerSessionId : UInt64
  dbJobKey : UInt64
  jobList : List DbJob

/-- `AddDBJob` (DBJob.cpp:54). -/
def JobBatch.addDbJob (batch : JobBatch) (job : DbJob) : JobBatch × ErrorCode :=
  if batch.jobList.length ≥ maximumBatchedDbJobSize then (batch, .batchedDbJobSizeOverflowed)
  else ({ batch with jobList := batch.jobList ++ [job] }, .success)

/-- The fields of a batch's start packet (DBJob.cpp:67). -/
def JobBatch.dbJobStartValues (batch : JobBatch) : Fields dbJobStart.fields :=
  (batch.ownerSessionId, UInt32.ofNat batch.jobList.length, ())

def JobBatch.dbJobStartPacket (batch : JobBatch) : DbPacket := ⟨dbJobStart, batch.dbJobStartValues⟩

/-- `ExecuteBatchJob` (DBJob.cpp:65). `free` is `CSerializationBuf::Free`, which
the destructor of the start job calls. -/
def JobBatch.executeBatchJob (free : Option Nat → DbM Unit) (memory : UInt64 → Option UInt64)
    (unwritten : UInt64) (batch : JobBatch) : DbM ErrorCode := do
  let batchStartJob ← DbJob.new codec dbJobStart batch.dbJobStartValues
    (Fields.zero dbJobStart.fields) unwritten
  sendJobToFixedChannel batchStartJob
  batch.jobList.forM fun job => discard (job.executeJob memory batch.dbJobKey)
  free batchStartJob.jobSPBuffer
  return .success

/-- The batches that `AddDBJob` builds out of constructed jobs, with the packets
of the jobs it accepted. The jobs may be constructed at any time. -/
inductive Accepted (ownerSessionId dbJobKey : UInt64) : JobBatch → List DbPacket → Prop where
  | empty : Accepted ownerSessionId dbJobKey ⟨ownerSessionId, dbJobKey, []⟩ []
  | add {batch batch' : JobBatch} {packets : List DbPacket} {P : PacketClass}
      {packet rollbackPacket : Fields P.fields} {unwritten : UInt64} {w w' : DbClient}
      {job : DbJob} :
      Accepted ownerSessionId dbJobKey batch packets →
      DbJob.new codec P packet rollbackPacket unwritten w = some (job, w') →
      batch.addDbJob job = (batch', .success) →
      Accepted ownerSessionId dbJobKey batch' (packets ++ [⟨P, packet⟩])

/-! ## What a batch is to send -/

/-- The id, the batch's key, then the packet's fields. -/
def jobLayout (dbJobKey : UInt64) (packet : DbPacket) : List UInt8 :=
  (codec .uint32).put packet.type.packetId.toPacketId ++ (codec .uint64).put dbJobKey ++
    (codec.parameters packet.type.fields).put packet.values

/-- The start packet and the jobs were enqueued, in this order, and nothing
else; outside the key slot each is what a single packet looks like. -/
structure BatchEnqueued (batch : JobBatch) (packets : List DbPacket) (before after : DbClient) :
    Prop where
  enqueued : (after.enqueued.drop before.enqueued.length).map (fun e => e.2.payload) =
    (batch.dbJobStartPacket :: packets).map (jobLayout codec batch.dbJobKey)
  kept : after.enqueued.take before.enqueued.length = before.enqueued
  slot : ∀ packet ∈ batch.dbJobStartPacket :: packets, ∃ fields,
    jobLayout codec batch.dbJobKey packet =
        (codec .uint32).put packet.type.packetId.toPacketId ++
          (codec .uint64).put batch.dbJobKey ++ fields ∧
      procedureLayout codec packet =
        (codec .uint32).put packet.type.packetId.toPacketId ++
          (codec .uint64).put (0 : UInt64) ++ fields

/-! ## Buffers -/

variable {codec} {w w' : DbClient}

theorem run_bind {α β : Type} (x : DbM α) (f : α → DbM β) (w : DbClient) :
    (x >>= f) w = (x w).bind fun r => f r.1 r.2 :=
  rfl

/-- A call whose result is not looked at. -/
theorem run_discard {α : Type} (x : DbM α) (w : DbClient) :
    (discard x : DbM Unit) w = (x w).map fun r => ((), r.2) := by
  show (x w).bind (fun r => some ((), r.2)) = _
  cases x w <;> rfl

theorem modify_length_append {α : Type} (f : α → α) (as : List α) (a : α) :
    (as ++ [a]).modify as.length f = as ++ [f a] := by
  induction as with
  | nil => rfl
  | cons b as ih => exact congrArg (b :: ·) ih

/-- Writing to the buffer that was allocated last. -/
theorem write_last (bytes : List UInt8) (b : SerializationBuf) :
    write w.buffers.length bytes { w with buffers := w.buffers ++ [b] } =
      some ((), { w with
        buffers := w.buffers ++ [{ b with payload := b.payload ++ bytes }] }) := by
  rw [write, modify_length_append]

theorem writePosition_last (b : SerializationBuf) :
    writePosition w.buffers.length { w with buffers := w.buffers ++ [b] } =
      some ((w.buffers.length, b.payload.length), { w with buffers := w.buffers ++ [b] }) := by
  rw [writePosition, List.getElem?_concat_length]
  rfl

/-! ## A single packet -/

theorem makeProcedurePacket_run (packetId : PacketId) :
    makeProcedurePacket codec packetId w = some (w.buffers.length, { w with
      buffers := w.buffers ++
        [⟨0, (codec .uint32).put packetId ++ (codec .uint64).put (0 : UInt64)⟩] }) := by
  simp only [makeProcedurePacket, run_bind, alloc, Option.bind_some, write_last]
  rfl

/-- **A single packet is enqueued** in its layout, with its length in front, on
the channel of its session. -/
theorem sendProcedure_enqueues (packet : DbPacket) (sessionId : UInt64)
    (h : sendPacketToFixedChannel codec packet sessionId w = some ((), w')) :
    w'.enqueued = w.enqueued ++ [(sessionId.toNat % w.numOfUsingWorkerThread.toNat,
      ⟨.ofNat (procedureLayout codec packet).length, procedureLayout codec packet⟩)] := by
  simp only [sendPacketToFixedChannel, run_bind, makeProcedurePacket_run, Option.bind_some,
    write_last, run_discard, sendPacketFixed, getFixedChannelId] at h
  split at h
  · cases h
  · simp only [Option.bind_some, sendPacketImpl, List.getElem?_concat_length] at h
    split at h
    · cases h
      rfl
    · cases h

/-! ## Jobs have no buffer -/

variable {P : PacketClass} {packet rollbackPacket : Fields P.fields}
variable {unwritten ownerSessionId dbJobKey : UInt64} {memory : UInt64 → Option UInt64}

/-- **A constructed job has no buffer**: the one it wrote, with the slot for the
key and the packet behind it, is known to nothing but the heap. -/
theorem DbJob.new_run :
    DbJob.new codec P packet rollbackPacket unwritten w =
      some (⟨none, some (w.buffers.length, ((codec .uint32).put P.packetId.toPacketId).length),
          ⟨P, rollbackPacket⟩⟩,
        { w with buffers := w.buffers ++ [⟨0, (codec .uint32).put P.packetId.toPacketId ++
          Wire.putNat 8 unwritten.toNat ++ P.packetToBuffer codec packet⟩] }) := by
  simp only [DbJob.new, run_bind, alloc, Option.bind_some, write_last, writePosition_last]
  rfl

/-- Sending a job without a buffer takes a channel and reports an error. -/
theorem sendJob_null {job : DbJob} (h : job.jobSPBuffer = none) :
    sendJobToFixedChannel job w =
      if w.numOfWorkerThread = 0 then none
      else some ((), { w with channelSelector := w.channelSelector + 1,
                              errors := w.errors ++ [.serializeBufNullErr] }) := by
  rw [sendJobToFixedChannel, run_discard, h, sendPacket, run_bind, getChannelId]
  by_cases hw : w.numOfWorkerThread = 0
  · rw [if_pos hw, if_pos hw]
    rfl
  · rw [if_neg hw, if_neg hw]
    rfl

/-- Executing a job without a buffer does nothing. -/
theorem executeJob_null {job : DbJob} (h : job.jobSPBuffer = none) :
    job.executeJob memory dbJobKey w = some (false, w) := by
  rw [DbJob.executeJob, h]
  rfl

theorem executeJobs_null {jobs : List DbJob} (h : ∀ job ∈ jobs, job.jobSPBuffer = none) :
    jobs.forM (fun job => discard (job.executeJob memory dbJobKey)) w = some ((), w) := by
  induction jobs with
  | nil => rfl
  | cons job jobs ih =>
    have hjob : job.executeJob memory dbJobKey w = some (false, w) :=
      executeJob_null (h job List.mem_cons_self)
    have hrest := ih fun job' hmem => h job' (List.mem_cons_of_mem _ hmem)
    show ((discard (job.executeJob memory dbJobKey) : DbM Unit) >>= fun _ => jobs.forM _) w = _
    rw [run_bind, run_discard, hjob]
    exact hrest

/-! ## A batch sends nothing -/

/-- The jobs of a batch come from the constructor. -/
theorem Accepted.jobs_null {batch : JobBatch} {packets : List DbPacket}
    (h : Accepted codec ownerSessionId dbJobKey batch packets) :
    ∀ job ∈ batch.jobList, job.jobSPBuffer = none := by
  induction h with
  | empty =>
    intro job hjob
    cases hjob
  | @add batch batch' packets P packet rollbackPacket unwritten w w' job _ hnew hadd ih =>
    rw [DbJob.new_run] at hnew
    cases hnew
    rw [JobBatch.addDbJob] at hadd
    split at hadd
    · cases hadd
    · cases hadd
      intro job hjob
      rcases List.mem_append.mp hjob with hjob | hjob
      · exact ih job hjob
      · rw [List.mem_singleton.mp hjob]

/-- `CSerializationBuf::Free` does nothing with a null pointer. -/
def FreesNull (free : Option Nat → DbM Unit) : Prop := ∀ w, free none w = some ((), w)

variable {free : Option Nat → DbM Unit} {batch : JobBatch} {packets : List DbPacket}

/-- **`ExecuteBatchJob` takes one channel, reports one error and returns
`SUCCESS`**; the start packet stays on the heap. -/
theorem executeBatchJob_null (hfree : FreesNull free)
    (h : ∀ job ∈ batch.jobList, job.jobSPBuffer = none) :
    batch.executeBatchJob codec free memory unwritten w =
      if w.numOfWorkerThread = 0 then none
      else some (.success, { w with
        channelSelector := w.channelSelector + 1
        buffers := w.buffers ++ [⟨0, (codec .uint32).put dbJobStart.packetId.toPacketId ++
          Wire.putNat 8 unwritten.toNat⟩]
        errors := w.errors ++ [.serializeBufNullErr] }) := by
  -- `DBJobStart` inherits the `PacketToBuffer` that writes nothing
  have hstart : dbJobStart.packetToBuffer codec batch.dbJobStartValues = [] := rfl
  rw [JobBatch.executeBatchJob, run_bind, DbJob.new_run, Option.bind_some, run_bind,
    sendJob_null rfl, hstart, List.append_nil]
  by_cases hw : w.numOfWorkerThread = 0
  · rw [if_pos hw, if_pos hw]
    rfl
  · rw [if_neg hw, if_neg hw, Option.bind_some, run_bind, executeJobs_null h, Option.bind_some,
      run_bind, hfree, Option.bind_some]
    rfl

/-- **A batch is enqueued exactly if the client has no worker thread**: then
`ExecuteBatchJob` divides by zero, and otherwise it returns `SUCCESS` without
having sent anything. -/
theorem executeBatchJob_enqueues_iff (hfree : FreesNull free)
    (hbatch : Accepted codec ownerSessionId dbJobKey batch packets) (w : DbClient) :
    (∀ w', batch.executeBatchJob codec free memory unwritten w = some (.success, w') →
        BatchEnqueued codec batch packets w w') ↔
      w.numOfWorkerThread = 0 := by
  rw [executeBatchJob_null hfree hbatch.jobs_null]
  constructor
  · intro h
    by_contra hw
    have hsent := (h _ (if_neg hw)).enqueued
    simp at hsent
  · intro hw w' h
    rw [if_pos hw] at h
    cases h

/-- The client before its first packet, with one worker thread and one session. -/
def DbClient.started (numOfWorkerThread : UInt8) : DbClient where
  numOfWorkerThread := numOfWorkerThread
  numOfUsingWorkerThread := 1
  sessionListSize := 1
  channelSelector := 0
  buffers := []
  enqueued := []
  errors := []

/-- What `HandlePacket(TestProcedurePacket)` keeps for a rollback
(PacketHandler.cpp:40). -/
def testRollback : Fields test.fields :=
  ((-1 : Int32), "rollbackString".toList.map fun c => UInt16.ofNat c.toNat, ())

/-- Its job for an empty string. -/
def testJob : DbJob := ⟨none, some (0, 4), ⟨test, testRollback⟩⟩

/-- The batch of `HandlePacket(TestProcedurePacket)`. -/
theorem accepted_testJob :
    Accepted plainCodec 7 1 ⟨7, 1, [testJob]⟩
      [⟨test, ((3 : Int32), ([] : List UInt16), ())⟩] := by
  have hnew := @DbJob.new_run plainCodec (.started 1) test ((3 : Int32), ([] : List UInt16), ())
    testRollback 0
  exact .add .empty hnew rfl

/-- Without a worker thread the batch meets what it is for, by never returning;
with one it does not. -/
theorem executeBatchJob_enqueues_testJob :
    (∀ w', JobBatch.executeBatchJob plainCodec (fun _ => pure ()) (fun _ => none) 0
        ⟨7, 1, [testJob]⟩ (.started 0) = some (.success, w') →
      BatchEnqueued plainCodec ⟨7, 1, [testJob]⟩
        [⟨test, ((3 : Int32), ([] : List UInt16), ())⟩] (.started 0) w') ∧
    ¬∀ w', JobBatch.executeBatchJob plainCodec (fun _ => pure ()) (fun _ => none) 0
        ⟨7, 1, [testJob]⟩ (.started 1) = some (.success, w') →
      BatchEnqueued plainCodec ⟨7, 1, [testJob]⟩
        [⟨test, ((3 : Int32), ([] : List UInt16), ())⟩] (.started 1) w' := by
  constructor
  · exact (executeBatchJob_enqueues_iff (fun _ => rfl) accepted_testJob (.started 0)).mpr rfl
  · intro h
    have hw := (executeBatchJob_enqueues_iff (fun _ => rfl) accepted_testJob (.started 1)).mp h
    exact absurd hw (by decide)

/-- A batch of one job returns `SUCCESS` with an empty queue. -/
theorem executeBatchJob_sends_nothing : ∃ w',
    JobBatch.executeBatchJob plainCodec (fun _ => pure ()) (fun _ => none) 0
        ⟨7, 1, [testJob]⟩ (.started 1) = some (.success, w') ∧
      w'.enqueued = [] ∧
      ¬BatchEnqueued plainCodec ⟨7, 1, [testJob]⟩
        [⟨test, ((3 : Int32), ([] : List UInt16), ())⟩] (.started 1) w' := by
  refine ⟨_, rfl, rfl, fun h => ?_⟩
  have hsent := congrArg List.length h.enqueued
  cases hsent

end RioServer.Db
