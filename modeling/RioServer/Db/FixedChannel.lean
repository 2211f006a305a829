import RioServer.Lib.Interleaving
import RioServer.Db.DbJob

/-!
# The channel of a batch (DBClient.cpp:92, MultiLanClient.cpp:490–532)

Any number of threads execute their batches and send other packets through one
DB client. `SendPacketToFixedChannel` for a job is two accesses to the client,
the draw of a channel from the shared counter (`getChannelId`) and the entry
into that session's `SendQ` (`sendPacketImpl`), and other threads may come in
between.

The call for a single packet takes the channel from the session's id. The call
for a job takes the next one of the counter, so the jobs of a batch are on one
session only if the counter comes round to the batch's channel at each of its
draws: `ChannelGuard`. With one worker thread it always does
(`one_worker_one_channel`); with two, a batch that nobody disturbs is already
split (`batch_split`).

`SendPost`, which takes from the front of a session's `SendQ`, is left out.
-/

namespace RioServer.Db

open Machine

namespace FixedChannel

/-! ## The machine -/

/-- A buffer that went into a session's `SendQ`: its batch, if it is a job's. -/
structure Sent where
  batch : Option Nat
  buffer : Nat
  channelId : Nat
  deriving DecidableEq, Repr

/-- The client, the jobs of all batches in the order of the calls for them, and
what was sent. -/
structure State where
  client : DbClient
  batches : List (List Nat)
  sent : List Sent
  deriving Repr

/-- Where a thread stands: in front of the call for the first of the jobs that
remain, in `SendPacketImpl` for a job, or in a `SendPacket` for something
else. -/
inductive Pc where
  | executeBatchJob (batch : Nat) (jobs : List Nat)
  | jobSendPacketImpl (batch job : Nat) (jobs : List Nat) (channelId : Nat)
  | sendPacket (serializeBuf : Option Nat)
  | sendPacketFixed (serializeBuf : Option Nat) (fixedId : UInt64)
  | sendPacketImpl (serializeBuf : Option Nat) (channelId : Nat)
  | finished
  deriving DecidableEq, Repr

/-- One access to the client. -/
def exec : Pc → Unit → State → Option (State × Pc)
  | .executeBatchJob _ [], _, s => some (s, .finished)
  | .executeBatchJob batch (job :: jobs), _, s =>
    (getChannelId s.client).map fun r =>
      ({ s with client := r.2 }, .jobSendPacketImpl batch job jobs r.1)
  | .jobSendPacketImpl batch job jobs channelId, _, s =>
    (Db.sendPacketImpl (some job) channelId s.client).map fun r =>
      ({ s with client := r.2, sent := s.sent ++ [⟨some batch, job, channelId⟩] },
        .executeBatchJob batch jobs)
  | .sendPacket serializeBuf, _, s =>
    (getChannelId s.client).map fun r =>
      ({ s with client := r.2 }, .sendPacketImpl serializeBuf r.1)
  | .sendPacketFixed serializeBuf fixedId, _, s =>
    (getFixedChannelId fixedId s.client).map fun r =>
      ({ s with client := r.2 }, .sendPacketImpl serializeBuf r.1)
  | .sendPacketImpl serializeBuf channelId, _, s =>
    (Db.sendPacketImpl serializeBuf channelId s.client).map fun r =>
      ({ s with client := r.2,
                sent := s.sent ++ serializeBuf.toList.map fun p => ⟨none, p, channelId⟩ },
        .finished)
  | .finished, _, _ => none

/-- A thread begins to execute a batch, given by the buffers of its start job
and of its member jobs, or to send something else. -/
inductive Event where
  | executeBatchJob (jobs : List Nat)
  | sendPacket (serializeBuf : Option Nat)
  | sendPacketFixed (serializeBuf : Option Nat) (fixedId : UInt64)
  deriving DecidableEq, Repr

def spawn : Event → State → Option (State × Pc)
  | .executeBatchJob jobs, s =>
    some ({ s with batches := s.batches ++ [jobs] }, .executeBatchJob s.batches.length jobs)
  | .sendPacket serializeBuf, s => some (s, .sendPacket serializeBuf)
  | .sendPacketFixed serializeBuf fixedId, s => some (s, .sendPacketFixed serializeBuf fixedId)

/-- All senders of one DB client. -/
def senders : Machine State Pc Unit Event := ⟨exec, spawn⟩

/-- The client as some options make it (MultiLanClient.cpp:166–182), before
anything is sent; the buffers are there already. -/
def senders.init (numOfWorkerThread numOfUsingWorkerThread numOfSession : UInt8)
    (channelSelector : UInt64) (buffers : List SerializationBuf) : Config State Pc :=
  ⟨⟨⟨numOfWorkerThread, numOfUsingWorkerThread, numOfSession.toNat, channelSelector, buffers,
    [], []⟩, [], []⟩, []⟩

/-! ## What a batch relies on -/

/-- What was sent of a batch. -/
def State.sentOf (s : State) (batch : Nat) : List Sent := s.sent.filter (·.batch = some batch)

/-- One for the thread that executes a batch. -/
def Pc.executes (batch : Nat) : Pc → Nat
  | .executeBatchJob b _ | .jobSendPacketImpl b _ _ _ => if b = batch then 1 else 0
  | _ => 0

/-- All jobs of a batch are on one session, in the order of the calls, and all
of them are there once the calls have returned. -/
structure OneChannel (c : Config State Pc) : Prop where
  sameSession : ∀ batch, ∃ channelId, ∀ e ∈ c.shared.sentOf batch, e.channelId = channelId
  inOrder : ∀ batch jobs, c.shared.batches[batch]? = some jobs →
    (c.shared.sentOf batch).map Sent.buffer <+: jobs
  complete : ∀ batch jobs, c.shared.batches[batch]? = some jobs →
    (∀ pc ∈ c.threads, pc.executes batch = 0) → (c.shared.sentOf batch).map Sent.buffer = jobs
  enqueued : c.shared.client.enqueued.map Prod.fst = c.shared.sent.map Sent.channelId

/-- **The exception**: whenever a batch draws a channel after its first,
the shared counter has come round to it, modulo the number of worker threads. -/
def ChannelGuard : Guard State Pc Unit := fun pc _ s _ =>
  match pc with
  | .executeBatchJob batch (_ :: _) => ∀ e ∈ s.sentOf batch,
    (s.client.channelSelector + 1).toNat % s.client.numOfWorkerThread.toNat = e.channelId
  | _ => True

instance (pc : Pc) (o : Unit) (s : State) (ts : List Pc) : Decidable (ChannelGuard pc o s ts) :=
  decidable_of_iff
    ((match pc with
      | .executeBatchJob batch (_ :: _) => decide (∀ e ∈ s.sentOf batch,
        (s.client.channelSelector + 1).toNat % s.client.numOfWorkerThread.toNat = e.channelId)
      | _ => true) = true)
    (by unfold ChannelGuard; split <;> simp)

/-! ## The invariant -/

variable {s s' : State} {pc pc' : Pc} {l r ts : List Pc}

/-- What a thread has still to send of a batch. -/
def Pc.pending (batch : Nat) : Pc → List Nat
  | .executeBatchJob b jobs => if b = batch then jobs else []
  | .jobSendPacketImpl b job jobs _ => if b = batch then job :: jobs else []
  | _ => []

/-- The channel a job is about to be sent on. -/
def Pc.drawn (batch : Nat) : Pc → Option Nat
  | .jobSendPacketImpl b _ _ channelId => if b = batch then some channelId else none
  | _ => none

/-- What all threads have still to send of a batch. -/
def pending (ts : List Pc) (batch : Nat) : List Nat := (ts.map (Pc.pending batch)).flatten

theorem pending_place (batch : Nat) :
    pending (l ++ pc :: r) batch = pending l batch ++ pc.pending batch ++ pending r batch := by
  simp [pending]

theorem pending_eq_nil {batch : Nat} (h : load (Pc.executes batch) ts = 0) :
    pending ts batch = [] := by
  rw [pending, List.flatten_eq_nil_iff]
  intro jobs hjobs
  obtain ⟨pc, hmem, rfl⟩ := List.mem_map.mp hjobs
  have hpc := load_eq_zero_iff.mp h pc hmem
  revert hpc
  cases pc <;> simp +contextual [Pc.executes, Pc.pending]

/-- One thread a batch; what was sent and what is pending are the batch's jobs,
and all is on the channel that a pending job has drawn. -/
structure BatchInv (s : State) (ts : List Pc) : Prop where
  once : ∀ batch, load (Pc.executes batch) ts ≤ 1
  known : ∀ batch, s.batches.length ≤ batch →
    load (Pc.executes batch) ts = 0 ∧ s.sentOf batch = []
  jobs : ∀ batch jobs, s.batches[batch]? = some jobs →
    (s.sentOf batch).map Sent.buffer ++ pending ts batch = jobs
  same : ∀ batch, ∀ e ∈ s.sentOf batch, ∀ e' ∈ s.sentOf batch, e.channelId = e'.channelId
  drawn : ∀ batch, ∀ q ∈ ts, ∀ channelId, q.drawn batch = some channelId →
    ∀ e ∈ s.sentOf batch, e.channelId = channelId
  enqueued : s.client.enqueued.map Prod.fst = s.sent.map Sent.channelId

/-- The invariant is more than `OneChannel`. -/
theorem BatchInv.oneChannel {c : Config State Pc} (h : BatchInv c.shared c.threads) :
    OneChannel c where
  sameSession batch := by
    cases hsent : c.shared.sentOf batch with
    | nil => exact ⟨0, fun e he => absurd he List.not_mem_nil⟩
    | cons e sent =>
      refine ⟨e.channelId, fun e' he' => h.same batch e' (hsent ▸ he') e ?_⟩
      rw [hsent]
      exact List.mem_cons_self
  inOrder batch jobs hjobs := ⟨_, h.jobs batch jobs hjobs⟩
  complete batch jobs hjobs hnone := by
    have hall := h.jobs batch jobs hjobs
    rwa [pending_eq_nil (load_eq_zero_iff.mpr hnone), List.append_nil] at hall
  enqueued := h.enqueued

/-! ## One action -/

/-- Drawing a channel changes nothing but the counter. -/
theorem getChannelId_run {w w' : DbClient} {channelId : Nat}
    (h : getChannelId w = some (channelId, w')) :
    channelId = (w.channelSelector + 1).toNat % w.numOfWorkerThread.toNat ∧
      w'.enqueued = w.enqueued ∧ w'.numOfWorkerThread = w.numOfWorkerThread := by
  rw [getChannelId] at h
  split at h <;> cases h
  exact ⟨rfl, rfl, rfl⟩

theorem getFixedChannelId_run {w w' : DbClient} {fixedId : UInt64} {channelId : Nat}
    (h : getFixedChannelId fixedId w = some (channelId, w')) : w'.enqueued = w.enqueued := by
  rw [getFixedChannelId] at h
  split at h <;> cases h
  rfl

/-- `SendPacketImpl` enqueues what it is given, unless that is null. -/
theorem sendPacketImpl_run {w w' : DbClient} {serializeBuf : Option Nat} {channelId : Nat}
    {sent : Bool} (h : Db.sendPacketImpl serializeBuf channelId w = some (sent, w')) :
    w'.enqueued.map Prod.fst =
      w.enqueued.map Prod.fst ++ serializeBuf.toList.map fun _ => channelId := by
  cases serializeBuf with
  | none =>
    cases h
    exact (List.append_nil _).symm
  | some p =>
    simp only [Db.sendPacketImpl] at h
    split at h
    · cases h
    · split at h <;> cases h
      exact List.map_append

/-- An action that sends nothing of a batch, and takes nothing off a batch. -/
theorem BatchInv.keep (hI : BatchInv s (l ++ pc :: r)) (hbatches : s'.batches = s.batches)
    (hsent : ∀ batch, s'.sentOf batch = s.sentOf batch)
    (henqueued : s'.client.enqueued.map Prod.fst = s'.sent.map Sent.channelId)
    (hexecutes : ∀ batch, pc'.executes batch ≤ pc.executes batch)
    (hpending : ∀ batch, pc'.pending batch = pc.pending batch)
    (hdrawn : ∀ batch channelId, pc'.drawn batch = some channelId →
      ∀ e ∈ s.sentOf batch, e.channelId = channelId) : BatchInv s' (l ++ pc' :: r) := by
  have hload : ∀ batch,
      load (Pc.executes batch) (l ++ pc' :: r) ≤ load (Pc.executes batch) (l ++ pc :: r) := by
    intro batch
    have := hexecutes batch
    simp only [load_append, load_cons]
    omega
  refine ⟨fun batch => (hload batch).trans (hI.once batch), fun batch hle => ?_,
    fun batch jobs hjobs => ?_, fun batch => ?_, fun batch => ?_, henqueued⟩
  · rw [hbatches] at hle
    obtain ⟨hnone, hnil⟩ := hI.known batch hle
    exact ⟨Nat.le_zero.mp (hnone ▸ hload batch), (hsent batch).trans hnil⟩
  · rw [hbatches] at hjobs
    have hall := hI.jobs batch jobs hjobs
    rw [pending_place] at hall
    rw [hsent, pending_place, hpending]
    exact hall
  · rw [hsent]
    exact hI.same batch
  · obtain ⟨hl, -, hr⟩ := forall_mem_place.mp (hI.drawn batch)
    rw [hsent]
    exact forall_mem_place.mpr ⟨hl, hdrawn batch, hr⟩

/-- Whoever executes a batch is alone with it. -/
theorem BatchInv.alone (hI : BatchInv s (l ++ pc :: r)) (batch : Nat)
    (hpc : pc.executes batch = 1) :
    load (Pc.executes batch) l = 0 ∧ load (Pc.executes batch) r = 0 := by
  have hone := hI.once batch
  simp only [load_append, load_cons] at hone
  omega

theorem sentOf_append (sent : List Sent) (client : DbClient) (batch : Nat) :
    State.sentOf { s with client := client, sent := s.sent ++ sent } batch =
      s.sentOf batch ++ sent.filter (·.batch = some batch) :=
  List.filter_append ..

/-- Sending a job moves it from the pending ones to the sent ones. -/
theorem BatchInv.send {batch job channelId : Nat} {jobs : List Nat} {client : DbClient}
    (hI : BatchInv s (l ++ .jobSendPacketImpl batch job jobs channelId :: r))
    (henqueued : client.enqueued.map Prod.fst = s.client.enqueued.map Prod.fst ++ [channelId]) :
    BatchInv { s with client := client, sent := s.sent ++ [⟨some batch, job, channelId⟩] }
      (l ++ .executeBatchJob batch jobs :: r) := by
  have hself : ∀ b, [(⟨some batch, job, channelId⟩ : Sent)].filter (·.batch = some b) =
      if batch = b then [⟨some batch, job, channelId⟩] else [] := by
    intro b
    by_cases hb : batch = b <;> simp [hb]
  have hchannel : ∀ e ∈ s.sentOf batch, e.channelId = channelId :=
    (forall_mem_place.mp (hI.drawn batch)).2.1 channelId (if_pos rfl)
  have hload : ∀ b, load (Pc.executes b) (l ++ .executeBatchJob batch jobs :: r) =
      load (Pc.executes b) (l ++ .jobSendPacketImpl batch job jobs channelId :: r) := by
    intro b
    rw [load_append, load_append]
    rfl
  refine ⟨fun b => (hload b).trans_le (hI.once b), fun b hle => ?_, fun b jobs' hjobs => ?_,
    fun b => ?_, fun b => ?_, ?_⟩
  · -- the batch in question is known
    obtain ⟨hnone, hnil⟩ := hI.known b hle
    refine ⟨(hload b).trans hnone, ?_⟩
    have hb : batch ≠ b := by
      rintro rfl
      simp [Pc.executes] at hnone
    rw [sentOf_append, hself, if_neg hb, hnil]
    rfl
  · have hall := hI.jobs b jobs' hjobs
    rw [pending_place] at hall
    rw [sentOf_append, hself, pending_place]
    by_cases hb : batch = b
    · subst hb
      -- nobody else has pending jobs of this batch
      have halone := hI.alone batch (if_pos rfl)
      rw [pending_eq_nil halone.1, pending_eq_nil halone.2] at hall ⊢
      simp only [Pc.pending, if_true, List.nil_append, List.append_nil, List.map_append,
        List.map_cons, List.map_nil, List.append_assoc, List.singleton_append] at hall ⊢
      exact hall
    · rw [if_neg hb, List.append_nil]
      simp only [Pc.pending, if_neg hb] at hall ⊢
      exact hall
  · rw [sentOf_append, hself]
    by_cases hb : batch = b
    · subst hb
      rw [if_pos rfl]
      have hboth : ∀ e ∈ s.sentOf batch ++ [⟨some batch, job, channelId⟩],
          e.channelId = channelId :=
        forall_mem_spawned.mpr ⟨hchannel, rfl⟩
      exact fun e he e' he' => (hboth e he).trans (hboth e' he').symm
    · rw [if_neg hb, List.append_nil]
      exact hI.same b
  · obtain ⟨hl, -, hr⟩ := forall_mem_place.mp (hI.drawn b)
    have halone : batch = b → ∀ q, q ∈ l ∨ q ∈ r → q.drawn b = none := by
      rintro rfl q hq
      have hnot := hI.alone batch (if_pos rfl)
      have hq0 : q.executes batch = 0 :=
        hq.elim (load_eq_zero_iff.mp hnot.1 q) (load_eq_zero_iff.mp hnot.2 q)
      revert hq0
      cases q <;> simp +contextual [Pc.executes, Pc.drawn]
    rw [sentOf_append, hself]
    by_cases hb : batch = b
    · refine forall_mem_place.mpr ⟨fun q hq ch hch => ?_, fun ch hch => (by cases hch),
        fun q hq ch hch => ?_⟩
      · rw [halone hb q (.inl hq)] at hch
        cases hch
      · rw [halone hb q (.inr hq)] at hch
        cases hch
    · rw [if_neg hb, List.append_nil]
      exact forall_mem_place.mpr ⟨hl, fun ch hch => (by cases hch), hr⟩
  · show client.enqueued.map Prod.fst = (s.sent ++ [_]).map Sent.channelId
    rw [henqueued, hI.enqueued, List.map_append]
    rfl

/-- **One guarded action keeps every batch on its channel.** -/
theorem exec_batchInv {o : Unit} (hG : ChannelGuard pc o s (l ++ pc :: r))
    (hI : BatchInv s (l ++ pc :: r)) (h : exec pc o s = some (s', pc')) :
    BatchInv s' (l ++ pc' :: r) := by
  cases pc with
  | executeBatchJob batch jobs =>
    cases jobs with
    | nil =>
      cases h
      refine hI.keep rfl (fun _ => rfl) hI.enqueued (fun b => Nat.zero_le _) (fun b => ?_)
        (fun b ch hch => (by cases hch))
      show [] = if batch = b then [] else []
      rw [ite_self]
    | cons job jobs =>
      obtain ⟨⟨channelId, client⟩, hdraw, hs⟩ := Option.map_eq_some_iff.mp h
      cases hs
      obtain ⟨hch, henqueued, -⟩ := getChannelId_run hdraw
      refine hI.keep rfl (fun _ => rfl) ?_ (fun b => Nat.le_refl _) (fun b => rfl) ?_
      · show client.enqueued.map Prod.fst = _
        rw [henqueued]
        exact hI.enqueued
      · -- the guard: what was sent of the batch is on the channel just drawn
        intro b ch hdrawn e he
        rw [Pc.drawn] at hdrawn
        split at hdrawn
        · next hb =>
          cases hdrawn
          subst hb
          rw [hch]
          exact (hG e he).symm
        · cases hdrawn
  | jobSendPacketImpl batch job jobs channelId =>
    obtain ⟨⟨sent, client⟩, hrun, hs⟩ := Option.map_eq_some_iff.mp h
    cases hs
    exact hI.send (sendPacketImpl_run hrun)
  | sendPacket serializeBuf =>
    obtain ⟨⟨channelId, client⟩, hdraw, hs⟩ := Option.map_eq_some_iff.mp h
    cases hs
    obtain ⟨-, henqueued, -⟩ := getChannelId_run hdraw
    refine hI.keep rfl (fun _ => rfl) ?_ (fun b => Nat.le_refl _) (fun b => rfl)
      (fun b ch hch => (by cases hch))
    show client.enqueued.map Prod.fst = _
    rw [henqueued]
    exact hI.enqueued
  | sendPacketFixed serializeBuf fixedId =>
    obtain ⟨⟨channelId, client⟩, hdraw, hs⟩ := Option.map_eq_some_iff.mp h
    cases hs
    refine hI.keep rfl (fun _ => rfl) ?_ (fun b => Nat.le_refl _) (fun b => rfl)
      (fun b ch hch => (by cases hch))
    show client.enqueued.map Prod.fst = _
    rw [getFixedChannelId_run hdraw]
    exact hI.enqueued
  | sendPacketImpl serializeBuf channelId =>
    obtain ⟨⟨sent, client⟩, hrun, hs⟩ := Option.map_eq_some_iff.mp h
    cases hs
    refine hI.keep rfl (fun b => ?_) ?_ (fun b => Nat.le_refl _) (fun b => rfl)
      (fun b ch hch => (by cases hch))
    · rw [sentOf_append]
      cases serializeBuf <;> simp
    · show client.enqueued.map Prod.fst = (s.sent ++ _).map Sent.channelId
      rw [sendPacketImpl_run hrun, hI.enqueued, List.map_append, List.map_map]
      rfl
  | finished => cases h

/-- A new batch has sent nothing, and all its jobs are pending. -/
theorem spawn_batchInv {e : Event} (hI : BatchInv s ts) (h : spawn e s = some (s', pc)) :
    BatchInv s' (ts ++ [pc]) := by
  cases e with
  | executeBatchJob jobs =>
    cases h
    obtain ⟨hnone, hnil⟩ := hI.known s.batches.length (Nat.le_refl _)
    refine ⟨fun b => ?_, fun b hle => ?_, fun b jobs' hjobs => ?_, hI.same, fun b => ?_,
      hI.enqueued⟩
    · rw [load_append, load_cons, load_nil, Pc.executes]
      have := hI.once b
      split
      · next hb =>
        subst hb
        omega
      · omega
    · rw [List.length_append, List.length_singleton] at hle
      obtain ⟨hnone', hnil'⟩ := hI.known b (by omega)
      refine ⟨?_, hnil'⟩
      rw [load_append, load_cons, load_nil, hnone', Pc.executes, if_neg (by omega)]
    · have hpending : pending (ts ++ [.executeBatchJob s.batches.length jobs]) b =
          pending ts b ++ if s.batches.length = b then jobs else [] := by
        simp [pending, Pc.pending]
      show (s.sentOf b).map Sent.buffer ++ pending (ts ++ [_]) b = jobs'
      rw [hpending]
      by_cases hb : s.batches.length = b
      · subst hb
        rw [if_pos rfl, hnil, pending_eq_nil hnone]
        rw [List.getElem?_concat_length] at hjobs
        exact Option.some.inj hjobs
      · rw [if_neg hb, List.append_nil]
        refine hI.jobs b jobs' ?_
        have hlt : b < s.batches.length := by
          have hb' := (List.getElem?_eq_some_iff.mp hjobs).1
          rw [List.length_append, List.length_singleton] at hb'
          omega
        rwa [List.getElem?_append_left hlt] at hjobs
    · exact forall_mem_spawned.mpr ⟨hI.drawn b, fun ch hch => (by cases hch)⟩
  | sendPacket serializeBuf | sendPacketFixed serializeBuf fixedId =>
    cases h
    refine ⟨fun b => ?_, fun b hle => ?_, fun b jobs' hjobs => ?_, hI.same, fun b => ?_,
      hI.enqueued⟩
    · rw [load_append]
      exact hI.once b
    · rw [load_append]
      exact hI.known b hle
    · rw [← hI.jobs b jobs' hjobs]
      simp [pending, Pc.pending]
    · exact forall_mem_spawned.mpr ⟨hI.drawn b, fun ch hch => (by cases hch)⟩

/-! ## Every guarded run -/

section

variable {numOfWorkerThread numOfUsingWorkerThread numOfSession : UInt8}
variable {channelSelector : UInt64} {buffers : List SerializationBuf} {c : Config State Pc}

/-- **One session for each batch**, for all options, in every run that keeps to
`ChannelGuard`. -/
theorem one_channel
    (h : senders.Run ChannelGuard (senders.init numOfWorkerThread numOfUsingWorkerThread
      numOfSession channelSelector buffers) c) : OneChannel c := by
  have hI : BatchInv c.shared c.threads := Run.induct h
    ⟨fun b => Nat.zero_le _, fun b _ => ⟨rfl, rfl⟩, fun b jobs hjobs => (by cases hjobs),
      fun b e he => (by cases he), fun b q hq => (by cases hq), rfl⟩
    (fun _ hI hG hexec => exec_batchInv hG hI hexec)
    (fun _ hI hspawn => spawn_batchInv hI hspawn)
  exact hI.oneChannel

end

/-! ## One worker thread -/

/-- With one worker thread every draw gives channel 0. -/
structure OneWorker (s : State) (ts : List Pc) : Prop where
  workers : s.client.numOfWorkerThread = 1
  sent : ∀ batch, ∀ e ∈ s.sentOf batch, e.channelId = 0
  drawn : ∀ batch, ∀ q ∈ ts, ∀ channelId, q.drawn batch = some channelId → channelId = 0

theorem OneWorker.channelGuard {o : Unit} (h : OneWorker s ts) : ChannelGuard pc o s ts := by
  unfold ChannelGuard
  split
  · intro e he
    rw [h.workers, h.sent _ e he]
    exact Nat.mod_one _
  · trivial

theorem sendPacketImpl_workers {w w' : DbClient} {serializeBuf : Option Nat} {channelId : Nat}
    {sent : Bool} (h : Db.sendPacketImpl serializeBuf channelId w = some (sent, w')) :
    w'.numOfWorkerThread = w.numOfWorkerThread := by
  simp only [Db.sendPacketImpl] at h
  repeat' split at h
  all_goals cases h
  all_goals rfl

/-- Drawing and sending keep every batch on channel 0. -/
theorem exec_oneWorker {o : Unit} (hI : OneWorker s (l ++ pc :: r))
    (h : exec pc o s = some (s', pc')) : OneWorker s' (l ++ pc' :: r) := by
  obtain ⟨hworkers, hsent, hdrawn⟩ := hI
  have hother : ∀ {q : Pc}, (∀ b ch, q.drawn b = some ch → ch = 0) →
      ∀ b, ∀ q' ∈ l ++ q :: r, ∀ ch, q'.drawn b = some ch → ch = 0 := by
    intro q hq b
    obtain ⟨hl, -, hr⟩ := forall_mem_place.mp (hdrawn b)
    exact forall_mem_place.mpr ⟨hl, hq b, hr⟩
  have hnone : ∀ {q : Pc}, (∀ b, q.drawn b = none) → ∀ b ch, q.drawn b = some ch → ch = 0 := by
    intro q hq b ch hch
    rw [hq b] at hch
    cases hch
  cases pc with
  | executeBatchJob batch jobs =>
    cases jobs with
    | nil =>
      cases h
      exact ⟨hworkers, hsent, hother (hnone fun _ => rfl)⟩
    | cons job jobs =>
      obtain ⟨⟨channelId, client⟩, hdraw, hs⟩ := Option.map_eq_some_iff.mp h
      cases hs
      obtain ⟨hch, -, hsame⟩ := getChannelId_run hdraw
      have hzero : channelId = 0 := by
        rw [hch, hworkers]
        exact Nat.mod_one _
      refine ⟨hsame.trans hworkers, hsent, hother fun b ch hch => ?_⟩
      rw [Pc.drawn] at hch
      split at hch <;> cases hch
      exact hzero
  | jobSendPacketImpl batch job jobs channelId =>
    obtain ⟨⟨sent, client⟩, hrun, hs⟩ := Option.map_eq_some_iff.mp h
    cases hs
    have hzero : channelId = 0 :=
      (forall_mem_place.mp (hdrawn batch)).2.1 channelId (if_pos rfl)
    refine ⟨(sendPacketImpl_workers hrun).trans hworkers, fun b e he => ?_,
      hother (hnone fun _ => rfl)⟩
    rw [sentOf_append] at he
    rcases List.mem_append.mp he with hold | hnew
    · exact hsent b e hold
    · rw [List.mem_singleton.mp (List.mem_filter.mp hnew).1]
      exact hzero
  | sendPacket serializeBuf =>
    obtain ⟨⟨channelId, client⟩, hdraw, hs⟩ := Option.map_eq_some_iff.mp h
    cases hs
    obtain ⟨-, -, hsame⟩ := getChannelId_run hdraw
    exact ⟨hsame.trans hworkers, hsent, hother (hnone fun _ => rfl)⟩
  | sendPacketFixed serializeBuf fixedId =>
    obtain ⟨⟨channelId, client⟩, hdraw, hs⟩ := Option.map_eq_some_iff.mp h
    cases hs
    rw [getFixedChannelId] at hdraw
    split at hdraw <;> cases hdraw
    exact ⟨hworkers, hsent, hother (hnone fun _ => rfl)⟩
  | sendPacketImpl serializeBuf channelId =>
    obtain ⟨⟨sent, client⟩, hrun, hs⟩ := Option.map_eq_some_iff.mp h
    cases hs
    refine ⟨(sendPacketImpl_workers hrun).trans hworkers, fun b e he => ?_,
      hother (hnone fun _ => rfl)⟩
    rw [sentOf_append] at he
    rcases List.mem_append.mp he with hold | hnew
    · exact hsent b e hold
    · cases serializeBuf <;> simp at hnew
  | finished => cases h

/-- **One worker thread is enough**: then every run keeps every batch on one
session. -/
theorem one_worker_one_channel {numOfUsingWorkerThread numOfSession : UInt8}
    {channelSelector : UInt64} {buffers : List SerializationBuf} {c : Config State Pc}
    (h : senders.Reachable
      (senders.init 1 numOfUsingWorkerThread numOfSession channelSelector buffers) c) :
    OneChannel c := by
  have hI : BatchInv c.shared c.threads ∧ OneWorker c.shared c.threads := by
    refine Run.induct (I := fun s ts => BatchInv s ts ∧ OneWorker s ts) h ⟨⟨fun b => Nat.zero_le _,
      fun b _ => ⟨rfl, rfl⟩, fun b jobs hjobs => (by cases hjobs), fun b e he => (by cases he),
      fun b q hq => (by cases hq), rfl⟩, rfl, fun b e he => (by cases he),
      fun b q hq => (by cases hq)⟩ ?_ ?_
    · intro s l pc r o s' pc' _ hI _ hexec
      exact ⟨exec_batchInv hI.2.channelGuard hI.1 hexec, exec_oneWorker hI.2 hexec⟩
    · intro s ts e s' pc _ hI hspawn
      refine ⟨spawn_batchInv hI.1 hspawn, ?_⟩
      obtain ⟨hworkers, hsent, hdrawn⟩ := hI.2
      cases e <;> cases hspawn <;> exact ⟨hworkers, hsent, fun b =>
        forall_mem_spawned.mpr ⟨hdrawn b, fun ch hch => (by cases hch)⟩⟩
  exact hI.1.oneChannel

/-- Two sessions and two worker threads: a batch of a start job and one member,
and another packet that is sent between the two. -/
theorem one_channel_two_workers :
    ∃ c, (c.shared.sentOf 0).length = 2 ∧
      senders.Run ChannelGuard (senders.init 2 2 2 0 [⟨0, []⟩, ⟨0, []⟩, ⟨0, []⟩]) c ∧
      OneChannel c := by
  obtain ⟨c, hrun, hc⟩ := exists_run senders ChannelGuard
    (senders.init 2 2 2 0 [⟨0, []⟩, ⟨0, []⟩, ⟨0, []⟩])
    (.event (.executeBatchJob [0, 1]) :: .event (.sendPacket (some 2)) ::
      [.run 0 (), .run 0 (), .run 1 (), .run 0 (), .run 0 ()])
    (P := fun c => (c.shared.sentOf 0).length = 2) (by decide +kernel)
  exact ⟨c, hc, hrun, one_channel hrun⟩

/-- The same batch, nobody in between: the start job is on session 1, the member
on session 0. -/
theorem batch_split :
    ∃ c, senders.Reachable (senders.init 2 2 2 0 [⟨0, []⟩, ⟨0, []⟩]) c ∧
      (c.shared.sentOf 0).map (fun e => (e.buffer, e.channelId)) = [(0, 1), (1, 0)] ∧
      ¬OneChannel c := by
  obtain ⟨c, hrun, hc⟩ := exists_run senders unguarded
    (senders.init 2 2 2 0 [⟨0, []⟩, ⟨0, []⟩])
    (.event (.executeBatchJob [0, 1]) :: List.replicate 4 (.run 0 ()))
    (P := fun c => (c.shared.sentOf 0) = [⟨some 0, 0, 1⟩, ⟨some 0, 1, 0⟩]) (by decide +kernel)
  refine ⟨c, hrun, by rw [hc]; rfl, fun hone => ?_⟩
  obtain ⟨channelId, hall⟩ := hone.sameSession 0
  rw [hc] at hall
  have hstart := hall ⟨some 0, 0, 1⟩ (by simp)
  have hmember := hall ⟨some 0, 1, 0⟩ (by simp)
  exact absurd (hstart.trans hmember.symm) (by decide)

end FixedChannel

end RioServer.Db
