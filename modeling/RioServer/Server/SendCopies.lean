import RioServer.Server.Session

/-!
# The copies of `MakeSendStream` (RIOTestServer.cpp:724–769)

`streamQueueCalls` lists the calls of `memcpy_s` that one `MakeSendStream` makes,
with the offset, the destination size and the source of each; `makeSendStream_buffer`
says that performing them is what the function does to `rioSendBuffer`.

`CopiesInside` is what keeps them inside the registered buffer. The destination
size of a queued packet takes the packet off twice, so the packet gets through
with a truthful size only if three times its size is left, and a packet that is
put aside is counted in the returned length. `RoomForEach` says so in terms of
the sizes alone, and `copiesInside_iff` that nothing else matters.
-/

namespace RioServer

/-- `memcpy_s(&rioSendBuffer[offset], destSize, src.data, src.length)`. -/
structure MemcpyCall where
  offset : Nat
  destSize : Nat
  src : List UInt8
  deriving DecidableEq, Repr

/-- What a call does to the buffer. -/
def MemcpyCall.perform (buffer : List UInt8) (call : MemcpyCall) : List UInt8 :=
  memcpyS buffer call.offset call.destSize call.src

/-- The calls of the loop over the queue. -/
def streamQueueCalls (totalSendSize : Nat) : List NetBuffer → List MemcpyCall
  | [] => []
  | p :: queue =>
    if isValidPacketSize p.getAllUseSize then
      let total := totalSendSize + p.getAllUseSize
      if maxSendBufferSize ≤ total then []
      else
        ⟨total - p.getAllUseSize, queueDestSize total p.getAllUseSize, p.bytes⟩ ::
          streamQueueCalls total queue
    else []

/-- The calls of `MakeSendStream`. -/
def makeSendStreamCalls (s : SendItem) : List MemcpyCall :=
  match s.reservedBuffer with
  | none => streamQueueCalls 0 s.sendQueue
  | some p =>
    if isValidPacketSize p.getAllUseSize then
      ⟨0, maxSendBufferSize, p.bytes⟩ :: streamQueueCalls p.getAllUseSize s.sendQueue
    else []

theorem streamQueue_buffer {queue : List NetBuffer} :
    ∀ {total : Nat} {buffer : List UInt8} {r : SendStream},
      streamQueue total buffer queue = some r →
      r.buffer = (streamQueueCalls total queue).foldl MemcpyCall.perform buffer := by
  induction queue with
  | nil =>
    intro total buffer r hr
    cases hr
    rfl
  | cons p queue ih =>
    intro total buffer r hr
    rw [streamQueue] at hr
    rw [streamQueueCalls]
    split at hr
    · next hvalid =>
      rw [if_pos hvalid]
      simp only at hr ⊢
      split at hr
      · next hfull =>
        cases hr
        rw [if_pos hfull]
        rfl
      · next hroom =>
        obtain ⟨r', hr', rfl⟩ := Option.map_eq_some_iff.mp hr
        have hbuffer := ih hr'
        rw [if_neg hroom, List.foldl_cons]
        split <;> exact hbuffer
    · cases hr

/-- **The listed calls are the ones that are made.** -/
theorem makeSendStream_buffer {s : SendItem} {r : SendStream} (hr : makeSendStream s = some r) :
    r.buffer = (makeSendStreamCalls s).foldl MemcpyCall.perform s.rioSendBuffer := by
  rw [makeSendStream] at hr
  rw [makeSendStreamCalls]
  cases hres : s.reservedBuffer with
  | none =>
    rw [hres] at hr
    exact streamQueue_buffer hr
  | some p =>
    simp only [hres] at hr ⊢
    split at hr
    · next hvalid =>
      obtain ⟨r', hr', rfl⟩ := Option.map_eq_some_iff.mp hr
      have hbuffer := streamQueue_buffer hr'
      rw [if_pos hvalid, List.foldl_cons]
      exact hbuffer
    · cases hr

/-! ## What is to hold of the calls -/

/-- The copied bytes fit the destination size, and the destination size fits
the buffer. -/
def MemcpyCall.Inside (call : MemcpyCall) : Prop :=
  call.src.length ≤ call.destSize ∧ call.offset + call.destSize ≤ maxSendBufferSize

instance (call : MemcpyCall) : Decidable call.Inside := inferInstanceAs (Decidable (_ ∧ _))

/-- Every copy of a call of `MakeSendStream` stays inside `rioSendBuffer`, and
so does the `RIO_BUF` of the returned length, which is posted at offset 0. -/
structure CopiesInside (s : SendItem) : Prop where
  calls : ∀ call ∈ makeSendStreamCalls s, call.Inside
  length : ∃ r, makeSendStream s = some r ∧ r.length ≤ maxSendBufferSize

/-- A packet of `useSize` bytes behind `total` bytes: if it is copied, three
times its size is left; if it is put aside, it fills the buffer exactly. -/
def RoomAt (total useSize : Nat) : Prop :=
  (total + useSize < maxSendBufferSize → total + 3 * useSize ≤ maxSendBufferSize) ∧
    (total < maxSendBufferSize → total + useSize ≤ maxSendBufferSize)

/-- There is room for every packet of a queue behind the bytes in front of it. -/
def RoomForEach (total : Nat) (queue : List NetBuffer) : Prop :=
  ∀ ps p qs, queue = ps ++ p :: qs → RoomAt (total + (frameBytes ps).length) p.getAllUseSize

theorem roomForEach_cons {total : Nat} {p : NetBuffer} {queue : List NetBuffer} :
    RoomForEach total (p :: queue) ↔
      RoomAt total p.getAllUseSize ∧ RoomForEach (total + p.getAllUseSize) queue := by
  constructor
  · intro h
    refine ⟨h [] p queue rfl, fun ps q qs hqueue => ?_⟩
    have hroom := h (p :: ps) q qs (by rw [hqueue, List.cons_append])
    rwa [frameBytes_cons, List.length_append, ← Nat.add_assoc] at hroom
  · rintro ⟨hhead, htail⟩ ps q qs hqueue
    cases ps with
    | nil =>
      obtain ⟨rfl, rfl⟩ := List.cons.inj hqueue
      exact hhead
    | cons p' ps =>
      obtain ⟨rfl, htl⟩ := List.cons.inj hqueue
      rw [frameBytes_cons, List.length_append, ← Nat.add_assoc]
      exact htail ps q qs htl

/-- Behind a full buffer nothing is copied any more. -/
theorem roomForEach_of_full {total : Nat} (h : maxSendBufferSize ≤ total)
    (queue : List NetBuffer) : RoomForEach total queue := by
  intro ps p qs _
  constructor <;> intro hlt <;> omega

/-- The destination size is truthful exactly if three times the packet is left. -/
theorem queueDestSize_inside_iff {total useSize : Nat}
    (h : total + useSize < maxSendBufferSize) :
    useSize ≤ queueDestSize (total + useSize) useSize ∧
        total + queueDestSize (total + useSize) useSize ≤ maxSendBufferSize ↔
      total + 3 * useSize ≤ maxSendBufferSize := by
  unfold queueDestSize toRsize maxSendBufferSize at *
  omega

theorem streamQueue_inside_iff {queue : List NetBuffer} :
    ∀ {total : Nat} (buffer : List UInt8),
      (∀ p ∈ queue, p.getAllUseSize < maxSendBufferSize) → total < maxSendBufferSize →
      ((∀ call ∈ streamQueueCalls total queue, call.Inside) ∧
          (∃ r, streamQueue total buffer queue = some r ∧ r.length ≤ maxSendBufferSize) ↔
        RoomForEach total queue) := by
  induction queue with
  | nil =>
    intro total buffer _ htotal
    refine iff_of_true ⟨fun call hcall => absurd hcall List.not_mem_nil, _, rfl, ?_⟩ ?_
    · exact Nat.le_of_lt htotal
    · intro ps p qs hqueue
      exact absurd hqueue.symm (List.append_ne_nil_of_right_ne_nil ps (List.cons_ne_nil p qs))
  | cons p queue ih =>
    intro total buffer hsmall htotal
    obtain ⟨hp, hqueue⟩ := List.forall_mem_cons.mp hsmall
    have hvalid : isValidPacketSize p.getAllUseSize = true := isValidPacketSize_iff.mpr hp
    rw [roomForEach_cons, streamQueueCalls, streamQueue, if_pos hvalid, if_pos hvalid]
    simp only
    by_cases hfull : maxSendBufferSize ≤ total + p.getAllUseSize
    · -- the packet is put aside, with its size in the returned length
      rw [if_pos hfull, if_pos hfull]
      constructor
      · rintro ⟨-, r, hr, hlen⟩
        cases hr
        exact ⟨⟨fun hlt => absurd hfull (by omega), fun _ => hlen⟩,
          roomForEach_of_full hfull queue⟩
      · rintro ⟨⟨-, hroom⟩, -⟩
        exact ⟨fun call hcall => absurd hcall List.not_mem_nil, _, rfl, hroom htotal⟩
    · rw [if_neg hfull, if_neg hfull]
      have hlt : total + p.getAllUseSize < maxSendBufferSize := by omega
      have hrest := ih (memcpyS buffer (total + p.getAllUseSize - p.getAllUseSize)
        (queueDestSize (total + p.getAllUseSize) p.getAllUseSize) p.bytes) hqueue hlt
      have hhead : MemcpyCall.Inside ⟨total + p.getAllUseSize - p.getAllUseSize,
          queueDestSize (total + p.getAllUseSize) p.getAllUseSize, p.bytes⟩ ↔
            RoomAt total p.getAllUseSize := by
        rw [MemcpyCall.Inside, Nat.add_sub_cancel]
        refine (queueDestSize_inside_iff hlt).trans ⟨fun h => ⟨fun _ => h, fun _ => ?_⟩, ?_⟩
        · exact Nat.le_of_lt hlt
        · exact fun h => h.1 hlt
      rw [List.forall_mem_cons, hhead, ← hrest]
      constructor
      · rintro ⟨⟨hroom, hcalls⟩, r, hr, hlen⟩
        obtain ⟨r', hr', rfl⟩ := Option.map_eq_some_iff.mp hr
        refine ⟨hroom, hcalls, r', hr', ?_⟩
        split at hlen <;> exact hlen
      · rintro ⟨hroom, hcalls, r', hr', hlen⟩
        refine ⟨⟨hroom, hcalls⟩, _, by rw [hr']; rfl, ?_⟩
        split <;> exact hlen

/-- The bytes that `reservedBuffer` puts in front of the queue. -/
def SendItem.reservedSize (s : SendItem) : Nat := (frameBytes s.reservedBuffer.toList).length

/-- **The copies stay inside the buffer exactly if there is room for each
packet.** -/
theorem copiesInside_iff (s : SendItem)
    (hsmall : ∀ p ∈ s.waiting, p.getAllUseSize < maxSendBufferSize) :
    CopiesInside s ↔ RoomForEach s.reservedSize s.sendQueue := by
  have hqueue : ∀ p ∈ s.sendQueue, p.getAllUseSize < maxSendBufferSize :=
    fun p hp => hsmall p (List.mem_append_right _ hp)
  rw [SendItem.reservedSize]
  cases hres : s.reservedBuffer with
  | none =>
    have hzero : (frameBytes (none : Option NetBuffer).toList).length = 0 := rfl
    rw [hzero, ← streamQueue_inside_iff s.rioSendBuffer hqueue (by decide)]
    constructor
    · rintro ⟨hcalls, hlength⟩
      rw [makeSendStreamCalls, hres] at hcalls
      rw [makeSendStream, hres] at hlength
      exact ⟨hcalls, hlength⟩
    · rintro ⟨hcalls, hlength⟩
      refine ⟨?_, ?_⟩
      · rw [makeSendStreamCalls, hres]
        exact hcalls
      · rw [makeSendStream, hres]
        exact hlength
  | some p =>
    have hp : p.getAllUseSize < maxSendBufferSize :=
      hsmall p (List.mem_append_left _ (by rw [hres]; exact List.mem_singleton.mpr rfl))
    have hvalid : isValidPacketSize p.getAllUseSize = true := isValidPacketSize_iff.mpr hp
    have hsize : (frameBytes (some p).toList).length = p.getAllUseSize := by
      rw [Option.toList_some, frameBytes_cons, frameBytes_nil, List.append_nil]
      rfl
    -- the reserved packet is copied with the size of the whole buffer
    have hinside : MemcpyCall.Inside ⟨0, maxSendBufferSize, p.bytes⟩ :=
      ⟨Nat.le_of_lt hp, by rw [Nat.zero_add]⟩
    rw [hsize, ← streamQueue_inside_iff (memcpyS s.rioSendBuffer 0 maxSendBufferSize
      p.bytes) hqueue hp]
    constructor
    · rintro ⟨hcalls, r, hr, hlen⟩
      simp only [makeSendStreamCalls, hres, if_pos hvalid] at hcalls
      simp only [makeSendStream, hres, if_pos hvalid] at hr
      obtain ⟨r', hr', rfl⟩ := Option.map_eq_some_iff.mp hr
      exact ⟨(List.forall_mem_cons.mp hcalls).2, r', hr', hlen⟩
    · rintro ⟨hcalls, r', hr', hlen⟩
      refine ⟨?_, { r' with copied := p :: r'.copied }, ?_, hlen⟩
      · simp only [makeSendStreamCalls, hres, if_pos hvalid]
        exact List.forall_mem_cons.mpr ⟨hinside, hcalls⟩
      · simp only [makeSendStream, hres, if_pos hvalid, hr', Option.map_some]

/-- What `SendPost` then posts lies inside the registered buffer. -/
theorem CopiesInside.posted {s s' : State} {o : Oracle} {caller : SendPostCaller} {pc' : Pc}
    (h : CopiesInside s.toSendItem)
    (hexec : execSendPost o s caller .makeSendStream = some (s', pc')) :
    ∃ context, pc' = .sendPost (.incrementIoCount context) caller ∧
      context.offset + context.length ≤ maxSendBufferSize := by
  obtain ⟨r, hr, hlen⟩ := h.length
  simp only [execSendPost, hr] at hexec
  split at hexec <;> cases hexec
  exact ⟨_, rfl, by rwa [Nat.zero_add]⟩

/-- A send buffer with some packets queued. -/
def SendItem.queued (queue : List NetBuffer) : SendItem where
  sendQueue := queue
  rioSendBuffer := List.replicate maxSendBufferSize 0
  reservedBuffer := none
  ioMode := .ioSending

/-- Of two packets, the small one goes in and the large one does not. -/
theorem copiesInside_iff_small :
    CopiesInside (.queued [⟨0, List.replicate 100 1⟩]) ∧
      ¬CopiesInside (.queued [⟨0, List.replicate 6000 1⟩]) := by
  have hone : ∀ n, n < maxSendBufferSize →
      (CopiesInside (.queued [⟨0, List.replicate n 1⟩]) ↔ RoomAt 0 n) := by
    intro n hn
    have hsize : (⟨0, List.replicate n 1⟩ : NetBuffer).getAllUseSize = n := List.length_replicate
    rw [copiesInside_iff _ fun p hp => by rwa [List.mem_singleton.mp hp, hsize]]
    refine roomForEach_cons.trans ?_
    rw [hsize]
    refine and_iff_left fun ps p qs h => ?_
    exact absurd h.symm (List.append_ne_nil_of_right_ne_nil ps (List.cons_ne_nil p qs))
  rw [hone 100 (by decide), hone 6000 (by decide)]
  unfold RoomAt maxSendBufferSize
  omega

/-- A packet of 6000 bytes on an idle session is handed to `memcpy_s` with the
destination size 4384. -/
theorem destSize_too_small :
    (∀ p ∈ (SendItem.queued [⟨0, List.replicate 6000 1⟩]).waiting,
        p.getAllUseSize < maxSendBufferSize) ∧
      makeSendStreamCalls (.queued [⟨0, List.replicate 6000 1⟩]) =
        [⟨0, 4384, List.replicate 6000 1⟩] ∧
      ¬CopiesInside (.queued [⟨0, List.replicate 6000 1⟩]) := by
  have hsize : (⟨0, List.replicate 6000 1⟩ : NetBuffer).getAllUseSize = 6000 :=
    List.length_replicate
  have hcalls : makeSendStreamCalls (.queued [⟨0, List.replicate 6000 1⟩]) =
      [⟨0, 4384, List.replicate 6000 1⟩] := by
    simp only [makeSendStreamCalls, SendItem.queued, streamQueueCalls, hsize]
    rw [if_pos (by decide), if_neg (by decide)]
    rfl
  refine ⟨fun p hp => ?_, hcalls, fun h => ?_⟩
  · obtain rfl := List.mem_singleton.mp hp
    rw [hsize]
    decide
  · have hinside := h.calls
    rw [hcalls, List.forall_mem_singleton] at hinside
    have hle : (List.replicate 6000 (1 : UInt8)).length ≤ 4384 := hinside.1
    rw [List.length_replicate] at hle
    omega

end RioServer
