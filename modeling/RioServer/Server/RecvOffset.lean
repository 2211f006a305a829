import RioServer.Server.RecvWindow

/-!
# The offset of a posted receive (RIOTestServer.cpp:377, 418, 668)

The position for the next received bytes is kept twice: as the ring's write
index, which `MoveWritePos` reduces modulo `DEFAULT_RINGBUFFER_MAX` every time,
and as `rioRecvOffset`, which counts in 32 bits and is reduced where `RecvPost`
uses it. With `N` received bytes the one is `N` modulo the ring's size, the
other loses a multiple of `2 ^ 32` first, and that is visible unless the size
divides what was lost (`recvOffset_iff`).

No number of received bytes is out of reach: a session whose client sends one
frame after another goes round through the same state (`echoing_succ`), and so
comes past `2 ^ 32` (`recvOffset_wrapped`).
-/

namespace RioServer

open Machine

variable {spec : NetBufferSpec} {s : State}

/-- What `RecvPost` posts. -/
theorem exec_rioReceive {o : Oracle} {caller : RecvPostCaller} {s' : State} {pc' : Pc}
    (h : exec spec (.recvPost .rioReceive caller) o s = some (s', pc')) :
    s'.outstanding =
      if o.ok then s.outstanding ++ [recvContext spec o.context s] else s.outstanding := by
  simp only [exec, execRecvPost] at h
  split at h
  · cases h
  · split at h <;> cases h <;> simp_all

/-- **The posted offset, in every reachable state**: the ring's write index is
the number of received bytes modulo its size, and the offset of the receive
that `RecvPost` posts is the same exactly if the size divides the multiple of
`2 ^ 32` that the counter has lost. -/
theorem recvOffset_iff {c : Config State Pc} (h : (server spec).Reachable server.init c)
    {caller : RecvPostCaller} {o : Oracle} {s' : State} {pc' : Pc}
    (hpost : exec spec (.recvPost .rioReceive caller) o c.shared = some (s', pc'))
    (hok : o.ok = true) :
    ∃ context, s'.outstanding = c.shared.outstanding ++ [context] ∧
      c.shared.recvRingBuffer.writePos spec.defaultRingbufferMax =
        c.shared.recvRingBuffer.received % spec.defaultRingbufferMax ∧
      (context.offset = c.shared.recvRingBuffer.received % spec.defaultRingbufferMax ↔
        spec.defaultRingbufferMax ∣ 2 ^ 32 * (c.shared.recvRingBuffer.received / 2 ^ 32)) := by
  refine ⟨recvContext spec o.context c.shared, ?_, rfl, ?_⟩
  · rw [exec_rioReceive hpost, if_pos hok]
  · show c.shared.rioRecvOffset % spec.defaultRingbufferMax = _ ↔ _
    rw [countsReceived h]
    exact mod_mod_eq_iff _ _ _

/-! ## A ring whose size does not divide `2 ^ 32` -/

/-- A ring of 3000 bytes. -/
def oddRingSpec : NetBufferSpec where
  dfHeaderSize := plainSpec.dfHeaderSize
  dfDefaultSize := plainSpec.dfDefaultSize
  defaultRingbufferMax := 3000
  headerCode := plainSpec.headerCode
  decode := plainSpec.decode
  encode := plainSpec.encode
  three_le_dfHeaderSize := plainSpec.three_le_dfHeaderSize
  defaultRingbufferMax_pos := by decide

/-- A frame of six bytes. -/
def byteFrame : List UInt8 := [119, 1, 0, 0, 0, 7]

/-- The receive that is posted after `n` such frames. -/
def echoingContext (n : Nat) : IoContext :=
  ⟨n, .opRecv, 3000 - 6 * n % 3000, 6 * n % 2 ^ 32 % 3000, []⟩

/-- The session between two completions, after `n` frames. -/
def echoing (n : Nat) : State :=
  { State.initial with
    recvBufferId := true
    sendBufferId := true
    rioRQ := true
    recvRingBuffer := ⟨[], 6 * n⟩
    rioRecvOffset := 6 * n % 2 ^ 32
    inSessionMap := true
    inSessionIdSet := true
    sessionCount := 1
    numOfSessionInWorkerThread := 1
    contextPool := [n]
    published := true
    delivered := List.replicate n [7]
    outstanding := [echoingContext n] }

/-- The accepter leaves the session in that state. -/
theorem echoing_zero :
    (server oddRingSpec).Reachable server.init ⟨echoing 0, [.finished]⟩ := by
  have hacts : (server oddRingSpec).runActs unguarded server.init server.accept =
      some ⟨echoing 0, [.finished]⟩ := rfl
  exact run_of_runActs .refl hacts

/-- The parse loop on such a frame, in an empty ring. -/
theorem recvLoop_byteFrame (removed : Nat) :
    recvLoop oddRingSpec ⟨byteFrame, removed⟩ = ⟨⟨[], removed + 6⟩, [[7]], false⟩ := by
  have hframe : recvTurn oddRingSpec ⟨⟨byteFrame, removed⟩, 6, []⟩ =
      .inl ⟨⟨[], removed + 6⟩, 0, [[7]]⟩ := rfl
  have hstop : recvTurn oddRingSpec ⟨⟨[], removed + 6⟩, 0, [[7]]⟩ =
      .inr ⟨⟨[], removed + 6⟩, [[7]], false⟩ := rfl
  exact (Loop.eval_inl (recvTurn_decreases oddRingSpec) hframe).trans
    (Loop.eval_inr (recvTurn_decreases oddRingSpec) hstop)

/-- `RecvPost` after `n` frames. -/
theorem recvContext_echoing {n : Nat} (hring : s.recvRingBuffer = ⟨[], 6 * n⟩)
    (hoffset : s.rioRecvOffset = 6 * n % 2 ^ 32) :
    recvContext oddRingSpec n s = echoingContext n := by
  rw [recvContext, hring, hoffset]
  have hlt := Nat.mod_lt (6 * n) (show 0 < 3000 by decide)
  have hlength : (((Ringbuffer.getNotBrokenPutSize 3000 ⟨[], 6 * n⟩ : Nat) : Int) -
      (Ringbuffer.getNotBrokenGetSize 3000 ⟨[], 6 * n⟩ : Nat)) = (3000 - 6 * n % 3000 : Nat) := by
    simp only [Ringbuffer.getNotBrokenPutSize, Ringbuffer.getNotBrokenGetSize,
      Ringbuffer.writePos, List.length_nil]
    omega
  have hulong : (((3000 - 6 * n % 3000 : Nat) : Int) % 2 ^ 32).toNat = 3000 - 6 * n % 3000 := by
    omega
  rw [show oddRingSpec.defaultRingbufferMax = 3000 from rfl, hlength, hulong]
  rfl

/-- The session while its worker handles the next frame: before the parse loop,
and behind it. -/
def handling (n : Nat) : State := { echoing n with outstanding := [], workerBusy := true }

def parsed (n : Nat) : State :=
  { handling n with
    recvRingBuffer := ⟨[], 6 * (n + 1)⟩
    rioRecvOffset := 6 * (n + 1) % 2 ^ 32
    delivered := List.replicate (n + 1) [7] }

/-- The worker takes the completion: the window has room for the frame. -/
theorem spawn_byteFrame (n : Nat) :
    spawn (.completion 0 byteFrame) (echoing n) =
      some (handling n, .worker (.getIoCompletedContext (echoingContext n) byteFrame)) := by
  have hlength : ¬(echoingContext n).length < byteFrame.length := by
    show ¬3000 - 6 * n % 3000 < 6
    omega
  show (if (echoingContext n).length < byteFrame.length then none else _) = _
  rw [if_neg hlength]
  rfl

/-- `RecvCompleted` up to its `RecvPost`. -/
theorem exec_byteFrame (n : Nat) (o : Oracle) :
    exec oddRingSpec (.worker (.recvCompleted (echoingContext n) byteFrame)) o (handling n) =
      some (parsed n, .recvPost .rioReceive (.recvCompleted (echoingContext n) false)) := by
  have hoffset : (6 * n % 2 ^ 32 + 6) % 2 ^ 32 = 6 * (n + 1) % 2 ^ 32 := by omega
  have hparsed : recvLoop oddRingSpec ((handling n).recvRingBuffer.moveWritePos byteFrame) =
      ⟨⟨[], 6 * (n + 1)⟩, [[7]], false⟩ := recvLoop_byteFrame (6 * n)
  have hdelivered : List.replicate n [7] ++ [[7]] = List.replicate (n + 1) ([7] : List UInt8) :=
    List.replicate_succ'.symm
  simp only [exec, execWorker, hparsed]
  rw [parsed, ← hoffset, ← hdelivered]
  rfl

/-- `RecvPost` posts the next receive. -/
theorem exec_rioReceive_parsed (n : Nat) :
    exec oddRingSpec (.recvPost .rioReceive (.recvCompleted (echoingContext n) false))
        ⟨true, n + 1⟩ (parsed n) =
      some ({ parsed n with contextPool := [n + 1, n], outstanding := [echoingContext (n + 1)] },
        .recvPost .incrementIoCount (.recvCompleted (echoingContext n) false)) := by
  have hfree : n + 1 ∉ (parsed n).contextPool := by
    show n + 1 ∉ [n]
    simp
  have hcontext : recvContext oddRingSpec (n + 1) (parsed n) = echoingContext (n + 1) :=
    recvContext_echoing rfl rfl
  simp only [exec, execRecvPost, if_neg hfree, hcontext]
  rfl

/-- One more frame, up to its `RecvPost`. -/
theorem parsed_of_echoing {n : Nat} {ts : List Pc}
    (h : (server oddRingSpec).Reachable server.init ⟨echoing n, ts⟩) :
    (server oddRingSpec).Reachable server.init ⟨parsed n, ts ++
      [.recvPost .rioReceive (.recvCompleted (echoingContext n) false)]⟩ := by
  have hspawned : (server oddRingSpec).Reachable server.init ⟨handling n, ts ++
      [.worker (.getIoCompletedContext (echoingContext n) byteFrame)]⟩ :=
    h.started (e := .completion 0 byteFrame) (spawn_byteFrame n)
  have hfound : (server oddRingSpec).Reachable server.init ⟨handling n, ts ++
      [.worker (.testTransferred (echoingContext n) byteFrame)]⟩ :=
    hspawned.last (o := ⟨true, 0⟩) rfl
  have htested : (server oddRingSpec).Reachable server.init ⟨handling n, ts ++
      [.worker (.recvCompleted (echoingContext n) byteFrame)]⟩ :=
    hfound.last (o := ⟨true, 0⟩) rfl
  exact htested.last (o := ⟨true, 0⟩) (exec_byteFrame n ⟨true, 0⟩)

/-- One more frame: the worker posts the next receive and is done with the
completion. -/
theorem echoing_succ {n : Nat} {ts : List Pc}
    (h : (server oddRingSpec).Reachable server.init ⟨echoing n, ts⟩) :
    (server oddRingSpec).Reachable server.init ⟨echoing (n + 1), ts ++ [.finished]⟩ := by
  have hparsed := parsed_of_echoing h
  have hposted : (server oddRingSpec).Reachable server.init
      ⟨{ parsed n with contextPool := [n + 1, n], outstanding := [echoingContext (n + 1)] }, ts ++
        [.recvPost .incrementIoCount (.recvCompleted (echoingContext n) false)]⟩ :=
    hparsed.last (o := ⟨true, n + 1⟩) (exec_rioReceive_parsed n)
  have hcounted : (server oddRingSpec).Reachable server.init
      ⟨{ parsed n with
          contextPool := [n + 1, n]
          outstanding := [echoingContext (n + 1)]
          ioCount := 2 }, ts ++ [.worker (.freeContext (echoingContext n) .success)]⟩ :=
    hposted.last (o := ⟨true, 0⟩) rfl
  have hfreed : (server oddRingSpec).Reachable server.init
      ⟨{ parsed n with
          contextPool := [n + 1]
          outstanding := [echoingContext (n + 1)]
          ioCount := 2 }, ts ++ [.release .ioCountDecrement .worker]⟩ := by
    refine hcounted.last (o := ⟨true, 0⟩) ?_
    have herase : [n + 1, n].erase n = [n + 1] := by simp
    show some (State.mk _ ⟨_, _, _, _, _, [n + 1, n].erase n⟩ _ _ _ _, _) = _
    rw [herase]
  have hended : (server oddRingSpec).Reachable server.init
      ⟨{ parsed n with
          contextPool := [n + 1]
          outstanding := [echoingContext (n + 1)] }, ts ++ [.worker .endCompletion]⟩ :=
    hfreed.last (o := ⟨true, 0⟩) rfl
  exact hended.last (o := ⟨true, 0⟩) rfl

/-- Any number of frames. -/
theorem exists_echoing (n : Nat) :
    ∃ ts, (server oddRingSpec).Reachable server.init ⟨echoing n, ts⟩ := by
  induction n with
  | zero => exact ⟨_, echoing_zero⟩
  | succ n ih =>
    obtain ⟨ts, hts⟩ := ih
    exact ⟨_, echoing_succ hts⟩

/-- The second receive of a session, behind a first frame. -/
theorem recvOffset_iff_second : ∃ context,
    (parsed 0).recvRingBuffer.received = 6 ∧ context.offset = 6 ∧
      ∃ s' pc', exec oddRingSpec (.recvPost .rioReceive
        (.recvCompleted (echoingContext 0) false)) ⟨true, 1⟩ (parsed 0) = some (s', pc') ∧
        s'.outstanding = (parsed 0).outstanding ++ [context] := by
  obtain ⟨context, hout, -, hoffset⟩ :=
    recvOffset_iff (parsed_of_echoing echoing_zero) (exec_rioReceive_parsed 0) rfl
  exact ⟨context, rfl, hoffset.mpr (Nat.dvd_zero 3000), _, _, exec_rioReceive_parsed 0, hout⟩

/-- Past `2 ^ 32` bytes the counter is at 2, while the write index of a ring of
3000 bytes is at 2298: the next bytes land where nobody reads them. -/
theorem recvOffset_wrapped : ∃ c, (server oddRingSpec).Reachable server.init c ∧
    c.shared.recvRingBuffer.received = 2 ^ 32 + 2 ∧
    c.shared.recvRingBuffer.writePos oddRingSpec.defaultRingbufferMax = 2298 ∧
    ∃ context ∈ c.shared.outstanding, context.ioType = .opRecv ∧ context.offset = 2 := by
  obtain ⟨ts, hts⟩ := exists_echoing 715827883
  have hwrite : (6 * 715827883 + 0) % 3000 = 2298 := by decide
  exact ⟨_, hts, rfl, hwrite, echoingContext 715827883, List.mem_singleton_self _, rfl, rfl⟩

end RioServer
