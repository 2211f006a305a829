import RioServer.Server.Types

/-!
# `MakeSendStream` (RIOTestServer.cpp:724–785)

One call packs the reserved packet and the queued packets into `rioSendBuffer`
and returns the number of bytes to post. The packet that would fill the buffer
is put aside in `reservedBuffer` for the next call.

Two details of the source matter and are kept: the running total already
counts the packet that is put aside, and the destination size given to
`memcpy_s` subtracts the packet's size from a total that counts it too. The
destination size is an `int` expression converted to the unsigned `rsize_t`.

`StreamFits` is the arithmetic condition under which neither does harm, and
`streamQueue_fits` is what the call then does: it packs every packet.
-/

namespace RioServer

/-- A packet in the send queue: the encoded frame behind `GetBufferPtr`, and
the number of the `SendPacket` call that handed it over, which no code reads. -/
structure NetBuffer where
  serial : Nat
  bytes : List UInt8
  deriving DecidableEq, Repr

/-- `GetAllUseSize` of an encoded packet. -/
def NetBuffer.getAllUseSize (p : NetBuffer) : Nat := p.bytes.length

/-- The frames of a list of packets, one after the other. -/
def frameBytes (ps : List NetBuffer) : List UInt8 := (ps.map NetBuffer.bytes).flatten

@[simp] theorem frameBytes_nil : frameBytes [] = [] := rfl

@[simp] theorem frameBytes_cons (p : NetBuffer) (ps : List NetBuffer) :
    frameBytes (p :: ps) = p.bytes ++ frameBytes ps := rfl

@[simp] theorem frameBytes_append (ps qs : List NetBuffer) :
    frameBytes (ps ++ qs) = frameBytes ps ++ frameBytes qs := by
  simp [frameBytes]

/-- `SendItem` (RIOTestSession.h:33). -/
structure SendItem where
  sendQueue : List NetBuffer
  rioSendBuffer : List UInt8
  reservedBuffer : Option NetBuffer
  ioMode : IoMode
  deriving DecidableEq, Repr

/-- `reservedBuffer` followed by `sendQueue`: what still has to be sent. -/
def SendItem.waiting (s : SendItem) : List NetBuffer :=
  s.reservedBuffer.toList ++ s.sendQueue

/-! ## `memcpy_s` -/

/-- An `int` expression passed as an `rsize_t`. -/
def toRsize (n : Int) : Nat := (n % 2 ^ 64).toNat

/-- Write `src` at `offset`. -/
def overwrite (buffer : List UInt8) (offset : Nat) (src : List UInt8) : List UInt8 :=
  buffer.take offset ++ src ++ buffer.drop (offset + src.length)

/-- `memcpy_s(&buffer[offset], destSize, src, count)`: a destination that is
too small is zeroed instead. -/
def memcpyS (buffer : List UInt8) (offset destSize : Nat) (src : List UInt8) : List UInt8 :=
  if src.length ≤ destSize then overwrite buffer offset src
  else overwrite buffer offset (List.replicate destSize 0)

theorem length_overwrite {buffer src : List UInt8} {offset : Nat}
    (h : offset + src.length ≤ buffer.length) :
    (overwrite buffer offset src).length = buffer.length := by
  simp only [overwrite, List.length_append, List.length_take, List.length_drop]
  omega

/-- The bytes up to the end of what was written. -/
theorem take_overwrite {buffer src : List UInt8} {offset : Nat} (h : offset ≤ buffer.length) :
    (overwrite buffer offset src).take (offset + src.length) = buffer.take offset ++ src := by
  have hlen : (buffer.take offset ++ src).length = offset + src.length := by
    rw [List.length_append, List.length_take, Nat.min_eq_left h]
  rw [overwrite, ← hlen, List.take_left]

/-! ## The packing loop -/

/-- `IsValidPacketSize` (RIOTestServer.cpp:771); where it fails the process is
brought down by `g_Dump.Crash()`. -/
def isValidPacketSize (bufferSize : Nat) : Bool := decide (bufferSize < maxSendBufferSize)

/-- What one call of `MakeSendStream` leaves: the returned length, the buffer,
the packet put aside, the queue, and the packets that were really copied. -/
structure SendStream where
  length : Nat
  buffer : List UInt8
  reserved : Option NetBuffer
  queue : List NetBuffer
  copied : List NetBuffer
  deriving DecidableEq, Repr

/-- The destination size of the second `memcpy_s`, with `totalSendSize` already
counting `useSize`. -/
def queueDestSize (totalSendSize useSize : Nat) : Nat :=
  toRsize (maxSendBufferSize - totalSendSize - useSize)

/-- The loop over the queue (RIOTestServer.cpp:747–766), `none` for a crash.
The number of rounds is the queue length read before, and senders only append,
so the loop runs over the queue as it was then. -/
def streamQueue (totalSendSize : Nat) (buffer : List UInt8) :
    List NetBuffer → Option SendStream
  | [] => some ⟨totalSendSize, buffer, none, [], []⟩
  | p :: queue =>
    if isValidPacketSize p.getAllUseSize then
      let total := totalSendSize + p.getAllUseSize
      if maxSendBufferSize ≤ total then some ⟨total, buffer, some p, queue, []⟩
      else
        let destSize := queueDestSize total p.getAllUseSize
        (streamQueue total (memcpyS buffer (total - p.getAllUseSize) destSize p.bytes) queue).map
          fun r => if p.getAllUseSize ≤ destSize then { r with copied := p :: r.copied } else r
    else none

/-- `MakeSendStream`. -/
def makeSendStream (s : SendItem) : Option SendStream :=
  match s.reservedBuffer with
  | none => streamQueue 0 s.rioSendBuffer s.sendQueue
  | some p =>
    if isValidPacketSize p.getAllUseSize then
      (streamQueue p.getAllUseSize (memcpyS s.rioSendBuffer 0 maxSendBufferSize p.bytes)
        s.sendQueue).map fun r => { r with copied := p :: r.copied }
    else none

/-- The packet of `useSize` bytes that brings the total to `total` reaches the
buffer: the destination size, wrapped or not, is large enough. -/
def CopyFits (total useSize : Nat) : Prop :=
  total + 2 * useSize ≤ maxSendBufferSize ∨ maxSendBufferSize < total + useSize

instance (total useSize : Nat) : Decidable (CopyFits total useSize) :=
  inferInstanceAs (Decidable (_ ∨ _))

/-- A list of packets goes into the buffer behind `total` bytes: no running
total reaches `MAX_SEND_BUFFER_SIZE` and every copy fits. -/
def StreamFits : Nat → List NetBuffer → Prop
  | _, [] => True
  | total, p :: ps =>
    total + p.getAllUseSize < maxSendBufferSize ∧
      CopyFits (total + p.getAllUseSize) p.getAllUseSize ∧
      StreamFits (total + p.getAllUseSize) ps

instance StreamFits.decidable : ∀ (total : Nat) (ps : List NetBuffer),
    Decidable (StreamFits total ps)
  | _, [] => .isTrue trivial
  | total, p :: ps =>
    have := StreamFits.decidable (total + p.getAllUseSize) ps
    inferInstanceAs (Decidable (_ ∧ _ ∧ _))

/-- The destination size is large enough exactly when the arithmetic says so. -/
theorem le_queueDestSize_iff {total useSize : Nat} (hu : useSize ≤ total)
    (ht : total < maxSendBufferSize) :
    useSize ≤ queueDestSize total useSize ↔ CopyFits total useSize := by
  unfold queueDestSize toRsize CopyFits maxSendBufferSize at *
  omega

theorem isValidPacketSize_iff {n : Nat} : isValidPacketSize n ↔ n < maxSendBufferSize :=
  decide_eq_true_iff

/-- One round of the loop for a packet that fits. -/
theorem streamQueue_cons_fits {total : Nat} {p : NetBuffer}
    (hlt : total + p.getAllUseSize < maxSendBufferSize)
    (hcopy : CopyFits (total + p.getAllUseSize) p.getAllUseSize)
    (buffer : List UInt8) (queue : List NetBuffer) :
    streamQueue total buffer (p :: queue) =
      (streamQueue (total + p.getAllUseSize) (overwrite buffer total p.bytes) queue).map
        fun r => { r with copied := p :: r.copied } := by
  -- the loop counts the packet before it computes the destination size
  have hdest := (le_queueDestSize_iff (Nat.le_add_left _ _) hlt).mpr hcopy
  have hbuf : memcpyS buffer total
      (queueDestSize (total + p.getAllUseSize) p.getAllUseSize) p.bytes =
        overwrite buffer total p.bytes := if_pos hdest
  rw [streamQueue, if_pos (isValidPacketSize_iff.mpr (by omega))]
  simp only [Nat.add_sub_cancel]
  rw [if_neg (by omega), hbuf]
  simp only [if_pos hdest]

/-- **A queue that fits is packed whole**: the length is the sum of the sizes,
the buffer holds the frames in order, and nothing is put aside. -/
theorem streamQueue_fits {queue : List NetBuffer} :
    ∀ {total : Nat} {buffer : List UInt8}, StreamFits total queue →
      total < maxSendBufferSize → buffer.length = maxSendBufferSize →
      ∃ r, streamQueue total buffer queue = some r ∧ r.reserved = none ∧ r.queue = [] ∧
        r.copied = queue ∧ r.length < maxSendBufferSize ∧
        r.buffer.length = maxSendBufferSize ∧
        r.buffer.take r.length = buffer.take total ++ frameBytes queue := by
  induction queue with
  | nil =>
    intro total buffer _ ht hb
    exact ⟨_, rfl, rfl, rfl, rfl, ht, hb, (List.append_nil _).symm⟩
  | cons p queue ih =>
    intro total buffer hfits ht hb
    obtain ⟨hlt, hcopy, hrest⟩ := hfits
    have hin : total + p.bytes.length ≤ buffer.length := by
      rw [hb]
      exact Nat.le_of_lt hlt
    obtain ⟨r, hr, hres, hq, hcop, hlen, hblen, htake⟩ :=
      ih hrest hlt ((length_overwrite hin).trans hb)
    refine ⟨{ r with copied := p :: r.copied }, ?_, hres, hq, ?_, hlen, hblen, ?_⟩
    · rw [streamQueue_cons_fits hlt hcopy, hr]
      rfl
    · rw [hcop]
    · show r.buffer.take r.length = _
      rw [htake, NetBuffer.getAllUseSize, take_overwrite (by omega), List.append_assoc,
        frameBytes_cons]

/-- Packets that fit are copied even when packets behind them do not. -/
theorem streamQueue_copies_fitting {ps : List NetBuffer} :
    ∀ {total : Nat} {buffer : List UInt8} {queue : List NetBuffer} {r : SendStream},
      StreamFits total ps → streamQueue total buffer (ps ++ queue) = some r →
      ∀ p ∈ ps, p ∈ r.copied := by
  induction ps with
  | nil => exact fun _ _ p hp => absurd hp List.not_mem_nil
  | cons q ps ih =>
    intro total buffer queue r hfits hr p hp
    obtain ⟨hlt, hcopy, hrest⟩ := hfits
    rw [List.cons_append, streamQueue_cons_fits hlt hcopy] at hr
    obtain ⟨r', hr', rfl⟩ := Option.map_eq_some_iff.mp hr
    rcases List.mem_cons.mp hp with rfl | hp
    · exact List.mem_cons_self
    · exact List.mem_cons_of_mem _ (ih hrest hr' p hp)

/-- Whatever a call copies was waiting. -/
theorem streamQueue_copied_subset {queue : List NetBuffer} :
    ∀ {total : Nat} {buffer : List UInt8} {r : SendStream},
      streamQueue total buffer queue = some r → ∀ p ∈ r.copied, p ∈ queue := by
  induction queue with
  | nil =>
    intro total buffer r hr p hp
    cases hr
    cases hp
  | cons q queue ih =>
    intro total buffer r hr p hp
    rw [streamQueue] at hr
    split at hr
    · simp only at hr
      split at hr
      · -- the packet is put aside, not copied
        cases hr
        cases hp
      · obtain ⟨r', hr', rfl⟩ := Option.map_eq_some_iff.mp hr
        split at hp
        · rcases List.mem_cons.mp hp with rfl | hp
          · exact List.mem_cons_self
          · exact List.mem_cons_of_mem _ (ih hr' p hp)
        · exact List.mem_cons_of_mem _ (ih hr' p hp)
    · cases hr

end RioServer
