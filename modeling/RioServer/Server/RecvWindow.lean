import RioServer.Server.Session

/-!
# The window that `RecvPost` posts (RIOTestServer.cpp:659–679)

`RecvPost` posts a receive into the free part of the ring behind the write
index. Its length is what `GetNotBrokenPutSize` says is free there, less what
`GetNotBrokenGetSize` says is unread before the end of the array: two numbers
that have nothing to do with each other. With a partial packet in the ring the
difference may be zero or negative, and a negative one becomes a length of
almost 2^32 in the `RIO_BUF`. `recvWindowFits_iff` says when that happens.

Its offset is a counter of its own, of 32 bits. It stands at the write index
exactly if the ring's size divides what the counter has lost
(`offset_eq_writePos_iff`), and past 2^32 received bytes it may stand anywhere.
The window is shorter than the free space by what is unread, so it still lies
there if the counter is ahead of the write index by no more than that.
`recvWindowFree_iff` says exactly when it does.
-/

namespace RioServer

open Machine

variable {spec : NetBufferSpec} {o : Oracle} {s s' : State} {pc pc' : Pc}

/-! ## Two cursors for one position -/

/-- All bytes that were ever written to the ring. -/
def Ringbuffer.received (ring : Ringbuffer) : Nat := ring.removed + ring.data.length

@[simp] theorem Ringbuffer.received_moveWritePos (ring : Ringbuffer) (bytes : List UInt8) :
    (ring.moveWritePos bytes).received = ring.received + bytes.length := by
  simp only [received, moveWritePos, List.length_append]
  omega

@[simp] theorem Ringbuffer.received_removeData (ring : Ringbuffer) (n : Nat) :
    (ring.removeData n).received = ring.received := by
  simp only [received, removeData, List.length_drop]
  omega

/-- The parse loop takes bytes out and puts none in. -/
theorem recvLoop_received (ring : Ringbuffer) :
    (recvLoop spec ring).ring.received = ring.received := by
  refine Loop.Returns.induct (I := fun st => st.ring.received = ring.received)
    (J := fun r => r.ring.received = ring.received)
    (Loop.returns_eval (recvTurn_decreases spec) ⟨ring, ring.getUseSize, []⟩) rfl ?_ ?_
  · intro st st' hst hturn
    simp only [recvTurn, Ringbuffer.dequeue] at hturn
    repeat' split at hturn
    all_goals cases hturn
    rw [Ringbuffer.received_removeData, Ringbuffer.received_removeData, hst]
  · intro st r hst hturn
    simp only [recvTurn, Ringbuffer.dequeue] at hturn
    repeat' split at hturn
    all_goals cases hturn
    all_goals first | exact hst | skip
    rw [Ringbuffer.received_removeData, Ringbuffer.received_removeData, hst]

/-- `rioRecvOffset` counts the received bytes, in 32 bits. -/
def CountsReceived (s : State) : Prop := s.rioRecvOffset = s.recvRingBuffer.received % 2 ^ 32

/-- Only `RecvCompleted` moves the cursors, and it moves both. -/
theorem exec_countsReceived (hI : CountsReceived s) (h : exec spec pc o s = some (s', pc')) :
    CountsReceived s' := by
  revert h
  cases pc with
  | makeNewSession pc =>
    simp only [exec, Option.some.injEq]
    fun_cases execMakeNewSession o s pc <;> rintro ⟨⟩ <;> exact hI
  | sendPacket pc isEncoded packet =>
    simp only [exec]
    fun_cases execSendPacket spec s isEncoded packet pc <;> rintro ⟨⟩ <;> exact hI
  | sendPost pc caller =>
    simp only [exec]
    fun_cases execSendPost o s caller pc <;> rintro ⟨⟩ <;> exact hI
  | recvPost pc caller =>
    simp only [exec]
    fun_cases execRecvPost spec o s caller pc <;> rintro ⟨⟩ <;> exact hI
  | release pc caller =>
    simp only [exec]
    fun_cases execRelease s caller pc <;> rintro ⟨⟩ <;> exact hI
  | worker pc =>
    cases pc with
    | recvCompleted context bytes =>
      rintro ⟨⟩
      show (s.rioRecvOffset + bytes.length) % 2 ^ 32 = _ % 2 ^ 32
      rw [recvLoop_received, Ringbuffer.received_moveWritePos, hI, Nat.mod_add_mod]
    | _ =>
      simp only [exec, execWorker]
      repeat' split
      all_goals rintro ⟨⟩
      all_goals exact hI
  | finished => rintro ⟨⟩

/-- **The counter**, along every run. -/
theorem countsReceived {c : Config State Pc} (h : (server spec).Reachable server.init c) :
    CountsReceived c.shared := by
  refine Run.induct (I := fun s _ => CountsReceived s) h rfl
    (fun _ hI _ hexec => exec_countsReceived hI hexec) ?_
  intro s ts e s' pc _ hI hspawn
  rw [CountsReceived, (spawn_frame hspawn).1]
  exact hI

/-- Reducing twice gives the same as reducing once exactly if the second modulus
divides what the first took away. -/
theorem mod_mod_eq_iff (N M W : Nat) : N % W % M = N % M ↔ M ∣ W * (N / W) := by
  have hsplit : N % W + W * (N / W) = N := Nat.mod_add_div N W
  calc N % W % M = N % M
      ↔ N % W ≡ N % W + W * (N / W) [MOD M] := by rw [hsplit]; rfl
    _ ↔ M ∣ N % W + W * (N / W) - N % W := Nat.modEq_iff_dvd' (Nat.le_add_right _ _)
    _ ↔ M ∣ W * (N / W) := by rw [Nat.add_sub_cancel_left]

/-- The offset that `RecvPost` posts. -/
theorem recvContext_offset (hI : CountsReceived s) (context : Nat) :
    (recvContext spec context s).offset =
      s.recvRingBuffer.received % 2 ^ 32 % spec.defaultRingbufferMax :=
  congrArg (· % spec.defaultRingbufferMax) hI

/-- It is the ring's write index exactly if the ring's size divides what the
32-bit counter has lost. -/
theorem offset_eq_writePos_iff (hI : CountsReceived s) (context : Nat) :
    (recvContext spec context s).offset =
        s.recvRingBuffer.writePos spec.defaultRingbufferMax ↔
      spec.defaultRingbufferMax ∣ 2 ^ 32 * (s.recvRingBuffer.received / 2 ^ 32) := by
  rw [recvContext_offset hI]
  exact mod_mod_eq_iff _ _ _

/-! ## The window -/

/-- `GetNotBrokenPutSize` of the session's ring. -/
def State.notBrokenPutSize (spec : NetBufferSpec) (s : State) : Nat :=
  s.recvRingBuffer.getNotBrokenPutSize spec.defaultRingbufferMax

/-- `GetNotBrokenGetSize` of the session's ring. -/
def State.notBrokenGetSize (spec : NetBufferSpec) (s : State) : Nat :=
  s.recvRingBuffer.getNotBrokenGetSize spec.defaultRingbufferMax

/-- A window is not empty and not longer than the free space. -/
structure RecvWindowFits (spec : NetBufferSpec) (s : State) (context : IoContext) : Prop where
  length_pos : 1 ≤ context.length
  length_le : context.length ≤ s.notBrokenPutSize spec

/-- A window lies in the registered buffer, and on no byte that is unread. -/
structure RecvWindowFree (spec : NetBufferSpec) (s : State) (context : IoContext) : Prop where
  inside : context.offset + context.length ≤ spec.defaultRingbufferMax
  unread : ∀ i < s.recvRingBuffer.data.length,
    let cell := (s.recvRingBuffer.removed + i) % spec.defaultRingbufferMax
    cell < context.offset ∨ context.offset + context.length ≤ cell

/-- The window is good exactly if less is unread than free, up to the end of
the array. -/
theorem recvWindowFits_iff (hM : spec.defaultRingbufferMax < 2 ^ 32) (context : Nat)
    (hput : 0 < s.notBrokenPutSize spec) :
    RecvWindowFits spec s (recvContext spec context s) ↔
      s.notBrokenGetSize spec < s.notBrokenPutSize spec := by
  have hgetle : s.notBrokenGetSize spec ≤ spec.defaultRingbufferMax :=
    (Nat.min_le_right _ _).trans (Nat.sub_le _ _)
  have hputle : s.notBrokenPutSize spec ≤ spec.defaultRingbufferMax :=
    (Nat.min_le_left _ _).trans (Nat.sub_le _ _)
  have hlength : (recvContext spec context s).length =
      (((s.notBrokenPutSize spec : Int) - s.notBrokenGetSize spec) % 2 ^ 32).toNat := rfl
  constructor
  · rintro ⟨hpos, hle⟩
    rw [hlength] at hpos hle
    omega
  · intro hlt
    refine ⟨?_, ?_⟩ <;> rw [hlength] <;> omega

/-- The `i`-th unread byte, before or behind the end of the array. -/
theorem Ringbuffer.cell_eq (ring : Ringbuffer) {size i : Nat} (hi : i < size) :
    (ring.removed + i) % size =
      if ring.readPos size + i < size then ring.readPos size + i
      else ring.readPos size + i - size := by
  have hread : ring.readPos size < size := Nat.mod_lt _ (Nat.zero_lt_of_lt hi)
  rw [Nat.add_mod, ← Ringbuffer.readPos, Nat.mod_eq_of_lt hi]
  split
  · exact Nat.mod_eq_of_lt ‹_›
  · rw [Nat.mod_eq_sub_mod (by omega), Nat.mod_eq_of_lt (by omega)]

/-- Where the offset may stand. What is unread takes its bytes off the window's
length, so the offset may be ahead of the write index by as many. Behind the
write index it must not be, unless nothing is unread, or what is unread does not
go round the end of the array and begins behind the window. -/
def OffsetFree (spec : NetBufferSpec) (s : State) : Prop :=
  let size := spec.defaultRingbufferMax
  let offset := s.recvRingBuffer.received % 2 ^ 32 % size
  offset ≤ s.recvRingBuffer.writePos size + s.notBrokenGetSize spec ∧
    (s.recvRingBuffer.writePos size ≤ offset ∨
      s.notBrokenGetSize spec = s.recvRingBuffer.data.length ∧
        (s.recvRingBuffer.data.length = 0 ∨
          offset + (s.notBrokenPutSize spec - s.notBrokenGetSize spec) ≤
            s.recvRingBuffer.readPos size))

instance (spec : NetBufferSpec) (s : State) : Decidable (OffsetFree spec s) :=
  inferInstanceAs (Decidable (_ ∧ _))

/-- A window that fits is as long as what is free less what is unread. -/
theorem recvContext_length (hM : spec.defaultRingbufferMax < 2 ^ 32) (context : Nat)
    (hlt : s.notBrokenGetSize spec < s.notBrokenPutSize spec) :
    (recvContext spec context s).length = s.notBrokenPutSize spec - s.notBrokenGetSize spec := by
  have hputle : s.notBrokenPutSize spec ≤ spec.defaultRingbufferMax :=
    (Nat.min_le_left _ _).trans (Nat.sub_le _ _)
  show (((s.notBrokenPutSize spec : Int) - s.notBrokenGetSize spec) % 2 ^ 32).toNat = _
  omega

/-- In a ring whose write index is behind its unread bytes, a window of the free
bytes up to the end of the array less the unread ones lies on free bytes exactly
if its offset is in one of two places. -/
theorem window_free_iff {size read unread write put get offset : Nat} (hread : read < size)
    (hoffset : offset < size)
    (hwrite : write = if read + unread < size then read + unread else read + unread - size)
    (hput : put = min (size - unread) (size - write)) (hget : get = min unread (size - read))
    (hlt : get < put) :
    (offset + (put - get) ≤ size ∧ ∀ i < unread,
        (if read + i < size then read + i else read + i - size) < offset ∨
          offset + (put - get) ≤ if read + i < size then read + i else read + i - size) ↔
      offset ≤ write + get ∧
        (write ≤ offset ∨ get = unread ∧ (unread = 0 ∨ offset + (put - get) ≤ read)) := by
  constructor
  · rintro ⟨hinside, hfree⟩
    -- an offset at or behind the first unread byte would be at an unread byte
    have hfirst := hfree 0
    have hahead := hfree (offset - read)
    have hbehind := hfree (offset + size - read)
    split at hwrite
    · split at hahead <;> omega
    · split at hahead <;> split at hbehind <;> omega
  · rintro ⟨hle, hplace⟩
    refine ⟨by split at hwrite <;> omega, fun i hi => ?_⟩
    split at hwrite <;> split <;> omega

/-- Where a window that fits lies on free bytes only. -/
theorem recvWindowFree_iff (hM : spec.defaultRingbufferMax < 2 ^ 32) (hI : CountsReceived s)
    (context : Nat) (hlt : s.notBrokenGetSize spec < s.notBrokenPutSize spec) :
    RecvWindowFree spec s (recvContext spec context s) ↔ OffsetFree spec s := by
  have hsize := spec.defaultRingbufferMax_pos
  have hdata : s.recvRingBuffer.data.length < spec.defaultRingbufferMax := by
    have hput : s.notBrokenPutSize spec ≤
        spec.defaultRingbufferMax - s.recvRingBuffer.data.length := Nat.min_le_left _ _
    omega
  refine Iff.trans ?_ (window_free_iff (Nat.mod_lt _ hsize) (Nat.mod_lt _ hsize)
    (s.recvRingBuffer.cell_eq hdata) rfl rfl hlt)
  rw [← recvContext_length hM context hlt, ← recvContext_offset hI context]
  constructor
  · rintro ⟨hinside, hunread⟩
    refine ⟨hinside, fun i hi => ?_⟩
    rw [← s.recvRingBuffer.cell_eq (hi.trans hdata)]
    exact hunread i hi
  · rintro ⟨hinside, hunread⟩
    refine ⟨hinside, fun i hi => ?_⟩
    rw [s.recvRingBuffer.cell_eq (hi.trans hdata)]
    exact hunread i hi

/-- **The posted window, in every reachable state**: it fits exactly if less is
unread than free, and it is as it should be exactly if its offset is free as
well, which it is while the ring's size divides what the counter has lost. -/
theorem recvPost_window (hM : spec.defaultRingbufferMax < 2 ^ 32) {c : Config State Pc}
    (h : (server spec).Reachable server.init c) (context : Nat)
    (hput : 0 < c.shared.notBrokenPutSize spec) :
    (RecvWindowFits spec c.shared (recvContext spec context c.shared) ↔
        c.shared.notBrokenGetSize spec < c.shared.notBrokenPutSize spec) ∧
      (RecvWindowFits spec c.shared (recvContext spec context c.shared) ∧
          RecvWindowFree spec c.shared (recvContext spec context c.shared) ↔
        c.shared.notBrokenGetSize spec < c.shared.notBrokenPutSize spec ∧
          OffsetFree spec c.shared) ∧
      (c.shared.notBrokenGetSize spec < c.shared.notBrokenPutSize spec →
        spec.defaultRingbufferMax ∣ 2 ^ 32 * (c.shared.recvRingBuffer.received / 2 ^ 32) →
        OffsetFree spec c.shared) := by
  have hI := countsReceived h
  have hfits := recvWindowFits_iff hM context hput
  refine ⟨hfits, ?_, fun hlt hdvd => ?_⟩
  · rw [hfits]
    exact and_congr_right (recvWindowFree_iff hM hI context)
  · have hwrite := (offset_eq_writePos_iff hI context).mpr hdvd
    rw [recvContext_offset hI] at hwrite
    exact ⟨hwrite.trans_le (Nat.le_add_right _ _), .inl hwrite.ge⟩

/-- A frame with a payload of 1024 bytes. -/
def fullFrame : List UInt8 := plainSpec.encode (List.replicate 1024 7)

/-- Two frames arrive in one piece with the first 400 bytes of a third: 1638
bytes are free up to the end of the array and 400 are unread, and the next
receive is posted for 1238 bytes at the write index. -/
theorem recvPost_window_partial : ∃ c, (server plainSpec).Reachable server.init c ∧
    c.shared.notBrokenPutSize plainSpec = 1638 ∧ c.shared.notBrokenGetSize plainSpec = 400 ∧
    RecvWindowFits plainSpec c.shared (recvContext plainSpec 0 c.shared) ∧
    RecvWindowFree plainSpec c.shared (recvContext plainSpec 0 c.shared) := by
  have hM : plainSpec.defaultRingbufferMax < 2 ^ 32 := by decide
  obtain ⟨c, hc, hput, hget, hfree⟩ := exists_run (server plainSpec) unguarded server.init
    (server.accept ++
      [.event (.completion 0 (fullFrame ++ fullFrame ++ fullFrame.take 400)),
        .run 1 ⟨true, 1⟩, .run 1 ⟨true, 1⟩, .run 1 ⟨true, 1⟩])
    (P := fun c => c.shared.notBrokenPutSize plainSpec = 1638 ∧
      c.shared.notBrokenGetSize plainSpec = 400 ∧ OffsetFree plainSpec c.shared)
    (by decide +kernel)
  obtain ⟨-, hwindow, -⟩ := recvPost_window hM hc 0 (by omega)
  obtain ⟨hfits, hunread⟩ := hwindow.mpr ⟨by omega, hfree⟩
  exact ⟨c, hc, hput, hget, hfits, hunread⟩

/-- Three frames arrive in one piece with the first 600 bytes of a fourth. Up to
the end of the array 409 bytes are free and 600 are unread. -/
theorem recvWindow_too_long : ∃ c, (server plainSpec).Reachable server.init c ∧
    c.shared.ioCount = 1 ∧ c.shared.releases = 0 ∧
    c.shared.notBrokenPutSize plainSpec = 409 ∧
    (recvContext plainSpec 0 c.shared).length = 2 ^ 32 - 191 ∧
    ¬RecvWindowFits plainSpec c.shared (recvContext plainSpec 0 c.shared) := by
  obtain ⟨c, hc, hP⟩ := exists_run (server plainSpec) unguarded server.init
    (server.accept ++
      [.event (.completion 0 (fullFrame ++ fullFrame ++ fullFrame ++ fullFrame.take 600)),
        .run 1 ⟨true, 1⟩, .run 1 ⟨true, 1⟩, .run 1 ⟨true, 1⟩])
    (P := fun c => c.shared.ioCount = 1 ∧ c.shared.releases = 0 ∧
      c.shared.notBrokenPutSize plainSpec = 409 ∧
      (recvContext plainSpec 0 c.shared).length = 2 ^ 32 - 191) (by decide +kernel)
  refine ⟨c, hc, hP.1, hP.2.1, hP.2.2.1, hP.2.2.2, fun hfits => ?_⟩
  have hle := hfits.length_le
  rw [hP.2.2.1, hP.2.2.2] at hle
  omega

end RioServer
