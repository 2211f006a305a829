import RioServer.Server.SendExclusive

/-!
# The bytes on the wire

The bytes of the posted sends, followed by the reserved packet and the queue,
should be the queued packets' bytes in order (`StreamExact`). `MakeSendStream`
keeps to that as long as the queue it finds fits into one buffer in the sense
of `StreamFits`: then it packs the whole queue and reserves nothing. A queue
that does not fit either loses a packet to `memcpy_s`, which refuses a
destination that is too small, or posts stale bytes in the place of the packet
it puts aside, because the running total counts that packet already.

`stream_exact` follows the bytes through the owner's three actions: packed,
counted, posted. That there is one owner comes from `SendInv`.
-/

namespace RioServer

open Machine

variable {spec : NetBufferSpec} {o : Oracle} {s s' : State} {pc pc' : Pc} {l r : List Pc}

/-- Every encoded packet is below `MAX_SEND_BUFFER_SIZE` and every `RIOSend`
succeeds: what callers and the system have to provide. -/
def SmallPackets : Guard State Pc Oracle := fun pc o _ _ =>
  match pc with
  | .sendPacket .enqueue _ packet => packet.getAllUseSize < maxSendBufferSize
  | .sendPost (.rioSend _) _ => o.ok = true
  | _ => True

instance (pc : Pc) (o : Oracle) (s : State) (ts : List Pc) :
    Decidable (SmallPackets pc o s ts) :=
  decidable_of_iff
    ((match pc with
      | .sendPacket .enqueue _ packet => decide (packet.getAllUseSize < maxSendBufferSize)
      | .sendPost (.rioSend _) _ => o.ok
      | _ => true) = true)
    (by unfold SmallPackets; split <;> simp)

/-- **The exception**: besides that, every queue `MakeSendStream` packs
fits into the buffer. -/
def StreamGuard : Guard State Pc Oracle := fun pc o s ts =>
  SmallPackets pc o s ts ∧
    match pc with
    | .sendPost .makeSendStream _ => StreamFits 0 s.sendQueue
    | _ => True

instance (pc : Pc) (o : Oracle) (s : State) (ts : List Pc) :
    Decidable (StreamGuard pc o s ts) :=
  decidable_of_iff
    (SmallPackets pc o s ts ∧
      (match pc with
      | .sendPost .makeSendStream _ => decide (StreamFits 0 s.sendQueue)
      | _ => true) = true)
    (by unfold StreamGuard; split <;> simp)

/-- The bytes a thread has packed and not yet posted. -/
def Pc.assembled (rioSendBuffer : List UInt8) : Pc → List UInt8
  | .sendPost (.incrementIoCount context) _ | .sendPost (.rioSend context) _ =>
    rioSendBuffer.take context.length
  | _ => []

/-- Between `MakeSendStream` and `RIOSend`. -/
def Pc.assembles : Pc → Bool
  | .sendPost (.incrementIoCount _) _ | .sendPost (.rioSend _) _ => true
  | _ => false

/-- No byte is lost, duplicated, reordered or stale: whenever no thread is
between `MakeSendStream` and `RIOSend`, what was posted and what is waiting are
the packets in the order they were queued. -/
def StreamExact (c : Config State Pc) : Prop :=
  (∀ pc ∈ c.threads, pc.assembles = false) →
    c.shared.posted ++ frameBytes c.shared.waiting = frameBytes c.shared.enqueued

/-- The packed bytes of all threads; the owner's, if there is one. -/
def assembly (s : State) (ts : List Pc) : List UInt8 :=
  (ts.map (Pc.assembled s.rioSendBuffer)).flatten

theorem assembly_place : assembly s (l ++ pc :: r) =
    assembly s l ++ pc.assembled s.rioSendBuffer ++ assembly s r := by
  simp [assembly]

/-- Only between `MakeSendStream` and `RIOSend` are there packed bytes. -/
theorem assembled_of_not_assembles (buffer : List UInt8) (hpc : pc.assembles = false) :
    pc.assembled buffer = [] := by
  revert hpc
  fun_cases Pc.assembled buffer pc <;> first | exact fun _ => rfl | (intro h; cases h)

theorem assembly_eq_nil {ts : List Pc} (h : ∀ pc ∈ ts, pc.assembles = false) :
    assembly s ts = [] := by
  rw [assembly, List.flatten_eq_nil_iff]
  intro bytes hbytes
  obtain ⟨pc, hmem, rfl⟩ := List.mem_map.mp hbytes
  exact assembled_of_not_assembles _ (h pc hmem)

/-- Nobody but an owner has packed bytes. -/
theorem assembly_eq_nil_of_load {ts : List Pc} (h : load Pc.sending ts = 0) :
    assembly s ts = [] := by
  refine assembly_eq_nil fun pc hmem => ?_
  have hpc := load_eq_zero_iff.mp h pc hmem
  revert hpc
  fun_cases Pc.assembles pc <;> first | exact fun _ => rfl | (intro h; cases h)

/-- The invariant: nothing is reserved, the buffer keeps its size, and the
bytes are somewhere on their way. -/
structure ByteInv (s : State) (ts : List Pc) : Prop where
  reservedBuffer : s.reservedBuffer = none
  length : s.rioSendBuffer.length = maxSendBufferSize
  bytes : s.posted ++ assembly s ts ++ frameBytes s.sendQueue = frameBytes s.enqueued

/-- The invariant gives the equation, and more. -/
theorem ByteInv.streamExact {c : Config State Pc} (hI : ByteInv c.shared c.threads) :
    StreamExact c := by
  intro hidle
  have hbytes := hI.bytes
  rw [assembly_eq_nil hidle, List.append_nil] at hbytes
  rw [SendItem.waiting, hI.reservedBuffer]
  exact hbytes

/-! ## One action -/

/-- An action that neither packs, posts nor queues. -/
theorem ByteInv.keep (hI : ByteInv s (l ++ pc :: r)) (hitem : s'.sendQueue = s.sendQueue)
    (hbuffer : s'.rioSendBuffer = s.rioSendBuffer)
    (hreserved : s'.reservedBuffer = s.reservedBuffer) (hposted : s'.posted = s.posted)
    (henqueued : s'.enqueued = s.enqueued)
    (hpc : pc'.assembled s.rioSendBuffer = pc.assembled s.rioSendBuffer) :
    ByteInv s' (l ++ pc' :: r) := by
  obtain ⟨hres, hlen, hbytes⟩ := hI
  refine ⟨hreserved.trans hres, by rw [hbuffer]; exact hlen, ?_⟩
  rw [assembly_place] at hbytes ⊢
  simp only [assembly, hbuffer, hpc, hposted, hitem, henqueued] at hbytes ⊢
  exact hbytes

theorem assembled_of_offSendPath (buffer : List UInt8) (hpc : pc.onSendPath = false) :
    pc.assembled buffer = [] := by
  refine assembled_of_not_assembles buffer ?_
  revert hpc
  fun_cases Pc.assembles pc <;> first | exact fun _ => rfl | (intro h; cases h)

/-- The owner packs the whole queue, and posts what it packed. -/
theorem execSendPost_byteInv {pc : SendPostPc} {caller : SendPostCaller}
    (hsend : SendInv s (l ++ .sendPost pc caller :: r))
    (hG : StreamGuard (.sendPost pc caller) o s (l ++ .sendPost pc caller :: r))
    (hI : ByteInv s (l ++ .sendPost pc caller :: r))
    (h : execSendPost o s caller pc = some (s', pc')) : ByteInv s' (l ++ pc' :: r) := by
  have hnext : ∀ result, (caller.next result).assembled s.rioSendBuffer = [] :=
    fun result => assembled_of_offSendPath _ (caller.next_onSendPath result)
  -- while this thread owns the buffers, no other has packed anything
  have halone : (Pc.sendPost pc caller).sending = 1 →
      ∀ t : State, assembly t l = [] ∧ assembly t r = [] := by
    intro hself t
    have hone := hsend.exclusive.1
    simp only [load_append, load_cons] at hone
    exact ⟨assembly_eq_nil_of_load (by omega), assembly_eq_nil_of_load (by omega)⟩
  cases pc with
  | makeSendStream =>
    obtain ⟨hres, hlen, hbytes⟩ := hI
    simp only [execSendPost] at h
    repeat' split at h
    · cases h
    · cases h
    · next stream hstream =>
      cases h
      -- the queue fits, so the stream is the whole of it and nothing is put aside
      obtain ⟨stream', hstream', hres', hqueue', -, -, hlen', htake⟩ :=
        streamQueue_fits hG.2 (show 0 < maxSendBufferSize by decide) hlen
      rw [makeSendStream, hres, hstream'] at hstream
      cases hstream
      refine ⟨hres', hlen', ?_⟩
      rw [assembly_place, (halone rfl _).1, (halone rfl _).2] at hbytes ⊢
      simp only [Pc.assembled, List.nil_append, List.append_nil, hqueue', htake,
        List.take_zero, frameBytes_nil] at hbytes ⊢
      exact hbytes
  | rioSend context =>
    -- what was assembled becomes what was posted
    have hok : o.ok = true := hG.1
    simp only [execSendPost, if_pos hok] at h
    cases h
    obtain ⟨hres, hlen, hbytes⟩ := hI
    refine ⟨hres, hlen, ?_⟩
    rw [assembly_place, (halone rfl _).1, (halone rfl _).2] at hbytes ⊢
    simpa only [Pc.assembled, List.nil_append, List.append_nil] using hbytes
  | _ =>
    revert h
    simp only [execSendPost]
    repeat' split
    all_goals rintro ⟨⟩
    all_goals
      first
      | exact hI.keep rfl rfl rfl rfl rfl rfl
      | exact hI.keep rfl rfl rfl rfl rfl (hnext _)

/-- **One guarded action keeps the bytes.** -/
theorem exec_byteInv (hreach : (server spec).Reachable server.init ⟨s, l ++ pc :: r⟩)
    (hG : StreamGuard pc o s (l ++ pc :: r)) (hI : ByteInv s (l ++ pc :: r))
    (h : exec spec pc o s = some (s', pc')) : ByteInv s' (l ++ pc' :: r) := by
  cases pc with
  | sendPacket pc isEncoded packet =>
    cases pc with
    | enqueue =>
      -- the queue and the history grow by the same packet
      cases h
      obtain ⟨hres, hlen, hbytes⟩ := hI
      refine ⟨hres, hlen, ?_⟩
      rw [assembly_place] at hbytes ⊢
      simp only [frameBytes_append, ← hbytes]
      simp only [assembly, Pc.assembled, List.append_assoc]
    | _ =>
      revert h
      simp only [exec, execSendPacket]
      repeat' split
      all_goals rintro ⟨⟩
      all_goals exact hI.keep rfl rfl rfl rfl rfl rfl
  | sendPost pc caller => exact execSendPost_byteInv (sendInv hreach) hG hI h
  | worker pc =>
    revert h
    simp only [exec]
    fun_cases execWorker spec s pc <;> rintro ⟨⟩ <;> exact hI.keep rfl rfl rfl rfl rfl rfl
  | _ =>
    obtain ⟨hs, hpc'⟩ := exec_sendFrame rfl h
    exact hI.keep (congrArg SendItem.sendQueue hs.sendItem)
      (congrArg SendItem.rioSendBuffer hs.sendItem)
      (congrArg SendItem.reservedBuffer hs.sendItem)
      (congrArg SendHistory.posted hs.sendHistory)
      (congrArg SendHistory.enqueued hs.sendHistory) (assembled_of_offSendPath _ hpc')

theorem spawn_byteInv {ts : List Pc} {e : Event} (hI : ByteInv s ts)
    (h : spawn e s = some (s', pc)) : ByteInv s' (ts ++ [pc]) := by
  obtain ⟨hres, hlen, hbytes⟩ := hI
  cases e with
  | completion i bytes =>
    obtain ⟨context, -, -, -, rfl, rfl⟩ := spawn_completion h
    refine ⟨hres, hlen, ?_⟩
    simpa [assembly, Pc.assembled] using hbytes
  | _ =>
    obtain ⟨-, rfl, rfl⟩ := Option.ite_none_right_eq_some.mp h
    refine ⟨hres, hlen, ?_⟩
    simpa [assembly, Pc.assembled] using hbytes

/-! ## Every guarded run -/

/-- **The stream is exact** in every run that keeps to `StreamGuard`. -/
theorem stream_exact {c : Config State Pc}
    (h : (server spec).Run StreamGuard server.init c) : StreamExact c := by
  have hI : ByteInv c.shared c.threads := Run.induct h
    ⟨rfl, List.length_replicate, rfl⟩
    (fun hrun hI hG hexec => exec_byteInv hrun.anywhere hG hI hexec)
    (fun _ hI hspawn => spawn_byteInv hI hspawn)
  exact hI.streamExact

/-- Two packets, posted one after the other. -/
theorem stream_exact_two_packets :
    ∃ c, c.shared.enqueued.length = 2 ∧ c.shared.sendQueue = [] ∧
      (server plainSpec).Run StreamGuard server.init c ∧ StreamExact c := by
  obtain ⟨c, hrun, hc⟩ := exists_run (server plainSpec) StreamGuard server.init
    (server.accept ++ .event (.sendPacket true [119, 1, 0, 0, 0, 7]) ::
      .event (.sendPacket true [119, 1, 0, 0, 0, 8]) ::
      List.replicate 2 (.run 1 ⟨true, 1⟩) ++ List.replicate 2 (.run 2 ⟨true, 1⟩) ++
      List.replicate 6 (.run 2 ⟨true, 1⟩))
    (P := fun c => c.shared.enqueued.length = 2 ∧ c.shared.sendQueue = []) (by decide +kernel)
  obtain ⟨htwo, hempty⟩ := hc
  exact ⟨c, htwo, hempty, hrun, stream_exact hrun⟩

/-- One packet of 6000 bytes: the destination size `memcpy_s` gets is 4384, so
the packet is not copied, and what is posted is the cleared buffer. -/
theorem stream_lost_packet :
    ∃ c, (server plainSpec).Run SmallPackets server.init c ∧ ¬ StreamExact c := by
  obtain ⟨c, hrun, hc⟩ := exists_run (server plainSpec) SmallPackets server.init
    (server.accept ++ .event (.sendPacket true (119 :: List.replicate 5999 1)) ::
      List.replicate 7 (.run 1 ⟨true, 1⟩))
    (P := fun c => (∀ pc ∈ c.threads, pc.assembles = false) ∧
      (c.shared.posted ++ frameBytes c.shared.waiting).head? = some 0 ∧
      (frameBytes c.shared.enqueued).head? = some 119) (by decide +kernel)
  obtain ⟨hidle, hposted, henqueued⟩ := hc
  refine ⟨c, hrun, fun hexact => ?_⟩
  rw [hexact hidle, henqueued] at hposted
  exact absurd hposted (by decide)

end RioServer
