import RioServer.Lib.Progress
import RioServer.Server.Requests

/-!
# The server can always be emptied (RIOTestServer.cpp:327–349, 582–606, 681–785)

Whatever the threads of the server have done so far, there is a way on to a state
in which every thread is at its end, nothing is outstanding and `sessionMap` is
empty (`can_be_emptied`): no order of steps leads to a session that is never
released, to threads that wait for each other, or to a `SendPost` that cannot
leave its loop.

On that way every post fails and every completion comes without bytes, as when
all clients have gone. `Pc.stepsLeft` bounds the steps of a thread then
(`exec_nearer`); the completions that remain are taken one after the other, and
`never_stranded` says that no session is left when there are none.

A packet as long as `MAX_SEND_BUFFER_SIZE` brings the process down in
`MakeSendStream`, so no such packet may be underway.
-/

namespace RioServer

open Machine

variable {spec : NetBufferSpec} {o : Oracle} {s s' : State} {pc pc' : Pc}

/-! ## Packets that do not bring the process down -/

/-- `MakeSendStream` takes the packet. -/
def NetBuffer.Valid (packet : NetBuffer) : Prop := isValidPacketSize packet.getAllUseSize

instance (packet : NetBuffer) : Decidable packet.Valid :=
  inferInstanceAs (Decidable (_ = true))

/-- The packet of a sender that has not enqueued it, as it will be enqueued. -/
def Pc.PacketValid (spec : NetBufferSpec) : Pc → Prop
  | .sendPacket .enqueue _ packet => packet.Valid
  | .sendPacket _ isEncoded packet =>
    (if isEncoded then packet else { packet with bytes := spec.encode packet.bytes }).Valid
  | _ => True

instance (spec : NetBufferSpec) (pc : Pc) : Decidable (pc.PacketValid spec) :=
  decidable_of_iff
    ((match pc with
      | .sendPacket .enqueue _ packet => decide packet.Valid
      | .sendPacket _ isEncoded packet =>
        decide (if isEncoded then packet
          else { packet with bytes := spec.encode packet.bytes }).Valid
      | _ => true) = true)
    (by unfold Pc.PacketValid; split <;> simp)

/-- The packets that wait to be sent. -/
def State.PacketsValid (s : State) : Prop := ∀ packet ∈ s.toSendItem.waiting, packet.Valid

instance (s : State) : Decidable s.PacketsValid :=
  inferInstanceAs (Decidable (∀ packet ∈ s.toSendItem.waiting, packet.Valid))

/-- The loop takes a queue of valid packets, and what it leaves was in it. -/
theorem streamQueue_valid {queue : List NetBuffer} :
    ∀ {total : Nat} {buffer : List UInt8}, (∀ packet ∈ queue, packet.Valid) →
      ∃ r, streamQueue total buffer queue = some r ∧
        ∀ packet ∈ r.reserved.toList ++ r.queue, packet.Valid := by
  induction queue with
  | nil => exact fun _ => ⟨_, rfl, by simp⟩
  | cons p queue ih =>
    intro total buffer hvalid
    have hp : isValidPacketSize p.getAllUseSize = true := hvalid p List.mem_cons_self
    have hqueue : ∀ packet ∈ queue, packet.Valid := fun packet h =>
      hvalid packet (List.mem_cons_of_mem _ h)
    rw [streamQueue, if_pos hp]
    by_cases hfull : maxSendBufferSize ≤ total + p.getAllUseSize
    · rw [if_pos hfull]
      refine ⟨_, rfl, fun packet h => ?_⟩
      rcases List.mem_cons.mp h with rfl | h
      · exact hp
      · exact hqueue packet h
    · rw [if_neg hfull]
      obtain ⟨r, hr, hrest⟩ := ih hqueue
      refine ⟨_, congrArg (Option.map _) hr, fun packet h => hrest packet ?_⟩
      dsimp only at h
      split at h <;> exact h

/-- `MakeSendStream` takes packets that are valid and leaves only such. -/
theorem makeSendStream_valid (h : s.PacketsValid) :
    ∃ r, makeSendStream s.toSendItem = some r ∧
      ∀ packet ∈ r.reserved.toList ++ r.queue, packet.Valid := by
  cases hreserved : s.reservedBuffer with
  | none =>
    have hqueue : ∀ packet ∈ s.sendQueue, packet.Valid := fun packet hp =>
      h packet (List.mem_append_right _ hp)
    simp only [makeSendStream, hreserved]
    exact streamQueue_valid hqueue
  | some p =>
    have hp : isValidPacketSize p.getAllUseSize = true :=
      h p (List.mem_append_left _ (by rw [hreserved]; exact List.mem_singleton_self p))
    have hqueue : ∀ packet ∈ s.sendQueue, packet.Valid := fun packet hp =>
      h packet (List.mem_append_right _ hp)
    simp only [makeSendStream, hreserved, if_pos hp]
    obtain ⟨r, hr, hrest⟩ := streamQueue_valid hqueue
    exact ⟨_, congrArg (Option.map _) hr, hrest⟩

/-! ## The steps of one thread -/

/-- The steps behind the return of `SendPost`. -/
def SendPostCaller.stepsLeft : SendPostCaller → Nat
  | .sendPacket => 0
  | .sendCompleted _ => 12

/-- The steps behind the return of `IOCountDecrement` or `ReleaseSession`. -/
def ReleaseCaller.stepsLeft : ReleaseCaller → Nat
  | .sendPost caller => caller.stepsLeft
  | .recvCompleted _ _ => 12
  | .emplaceFailed => 10
  | .makeNewSession | .invalidIoCompleted _ => 2
  | .worker | .makeNewSessionFailed => 1

def ReleasePc.stepsLeft : ReleasePc → Nat
  | .ioCountDecrement => 8
  | .onSessionLeaved => 7
  | .releaseSession => 6
  | .decrementNumOfSession => 5
  | .decrementSessionCount => 4
  | .eraseSession => 3
  | .onSessionReleased => 2
  | .invalidateSocket => 1

/-- With packets in the queue the next exchange leads to a post, which fails;
without, there may be one more round. -/
def SendPostPc.stepsLeft (sendQueue : List NetBuffer) : SendPostPc → Nat
  | .rioSend _ => 9
  | .incrementIoCount _ => 10
  | .makeSendStream => 11
  | .testSendQueue => if sendQueue.isEmpty then 17 else 12
  | .compareExchange => if sendQueue.isEmpty then 18 else 13
  | .retestSendQueue => 14
  | .resetIoMode => 15
  | .testReservedBuffer => 16

def SendPacketPc.stepsLeft : SendPacketPc → Nat
  | .enqueue => 20
  | .encode => 21
  | .isReleasedSession | .setSendDisconnect => 22
  | .getSession => 23

def MakeNewSessionPc.stepsLeft : MakeNewSessionPc → Nat
  | .incrementSessionCount | .closeEnteredSocket => 1
  | .onSessionEntered => 2
  | .leaveEmplace => 10
  | .emplace => 21
  | .incrementNumOfSession => 22
  | .createRequestQueue => 23
  | .registerSendBuffer => 24
  | .registerRecvBuffer => 25

def WorkerPc.stepsLeft : WorkerPc → Nat
  | .endCompletion => 1
  | .freeInvalidContext _ => 2
  | .freeContext _ _ => 12
  | .disconnect _ => 13
  | .invalidIoCompleted _ => 14
  | .recvCompleted _ _ => 21
  | .sendCompleted _ => 31
  | .sendIoCompleted _ => 32
  | .testTransferred _ _ => 33
  | .getIoCompletedContext _ _ => 34

/-- A bound for the steps that a thread has left when its posts fail and no other
thread acts. -/
def Pc.stepsLeft (sendQueue : List NetBuffer) : Pc → Nat
  | .makeNewSession pc => pc.stepsLeft
  | .sendPacket pc _ _ => pc.stepsLeft
  | .sendPost pc caller => pc.stepsLeft sendQueue + caller.stepsLeft
  | .recvPost _ _ => 20
  | .release pc caller => pc.stepsLeft + caller.stepsLeft
  | .worker pc => pc.stepsLeft
  | .finished => 0

theorem SendPostCaller.next_stepsLeft (caller : SendPostCaller) (result : IoPostError)
    (sendQueue : List NetBuffer) :
    (caller.next result).stepsLeft sendQueue = caller.stepsLeft := by
  cases caller <;> rfl

theorem RecvPostCaller.next_stepsLeft (caller : RecvPostCaller) (result : IoPostError)
    (sendQueue : List NetBuffer) : (caller.next result).stepsLeft sendQueue < 20 := by
  rcases caller with _ | ⟨_, _ | _⟩
  · show 8 + 2 < 20
    decide
  · show 12 < 20
    decide
  · show 6 + 12 < 20
    decide

theorem ReleaseCaller.next_stepsLeft (caller : ReleaseCaller) (sendQueue : List NetBuffer) :
    caller.next.stepsLeft sendQueue = caller.stepsLeft := by
  cases caller with
  | sendPost caller => exact caller.next_stepsLeft _ _
  | _ => rfl

/-- A thread can take a step that brings it nearer to its end, posts nothing and
does no harm. -/
structure Nearer (spec : NetBufferSpec) (s : State) (pc : Pc) (o : Oracle) (s' : State)
    (pc' : Pc) : Prop where
  exec : exec spec pc o s = some (s', pc')
  stepsLeft : pc'.stepsLeft s'.sendQueue < pc.stepsLeft s.sendQueue
  unlocked : s'.sessionMapLocked = false
  packets : s'.PacketsValid
  packet : pc'.PacketValid spec
  outstanding : s'.outstanding = s.outstanding

theorem SendPostCaller.next_packetValid (caller : SendPostCaller) (result : IoPostError) :
    (caller.next result).PacketValid spec := by
  cases caller <;> trivial

theorem RecvPostCaller.next_packetValid (caller : RecvPostCaller) (result : IoPostError) :
    (caller.next result).PacketValid spec := by
  rcases caller with _ | ⟨_, _ | _⟩ <;> trivial

theorem ReleaseCaller.next_packetValid (caller : ReleaseCaller) :
    caller.next.PacketValid spec := by
  cases caller with
  | sendPost caller => exact caller.next_packetValid _
  | _ => trivial

/-- `contextPool` always has an object to hand out. -/
theorem exists_free (pool : List Nat) : ∃ context, context ∉ pool := by
  obtain ⟨context, hfree⟩ := Infinite.exists_notMem_finset pool.toFinset
  exact ⟨context, by simpa using hfree⟩

/-- `SendPost` leaves its loop when its post fails. -/
theorem execSendPost_nearer {pc : SendPostPc} {caller : SendPostCaller}
    (hlock : s.sessionMapLocked = false) (hs : s.PacketsValid) :
    ∃ o s' pc', Nearer spec s (.sendPost pc caller) o s' pc' := by
  have hnext : ∀ (result : IoPostError) (q : SendPostPc) (o : Oracle),
      exec spec (.sendPost q caller) o s = some (s, caller.next result) →
      Nearer spec s (.sendPost q caller) o s (caller.next result) := by
    intro result q o hexec
    refine ⟨hexec, ?_, hlock, hs, caller.next_packetValid result, rfl⟩
    rw [caller.next_stepsLeft]
    show caller.stepsLeft < q.stepsLeft s.sendQueue + caller.stepsLeft
    have hpos : 0 < q.stepsLeft s.sendQueue := by
      cases q <;> simp only [SendPostPc.stepsLeft] <;> first | omega | (split <;> omega)
    omega
  have hgo : ∀ {t : State} (q q' : SendPostPc) (o : Oracle), t.toSendItem.sendQueue = s.sendQueue →
      t.sessionMapLocked = false → t.PacketsValid → t.outstanding = s.outstanding →
      exec spec (.sendPost q caller) o s = some (t, .sendPost q' caller) →
      q'.stepsLeft s.sendQueue < q.stepsLeft s.sendQueue →
      Nearer spec s (.sendPost q caller) o t (.sendPost q' caller) := by
    intro t q q' o hqueue htlock ht hout hexec hlt
    refine ⟨hexec, ?_, htlock, ht, trivial, hout⟩
    show q'.stepsLeft t.sendQueue + _ < q.stepsLeft s.sendQueue + _
    rw [hqueue]
    omega
  cases pc with
  | compareExchange =>
    cases hmode : s.ioMode with
    | ioSending =>
      exact ⟨⟨true, 0⟩, _, _, hnext .success _ _ (by simp only [exec, execSendPost, hmode])⟩
    | ioNoneSending =>
      refine ⟨⟨true, 0⟩, { s with ioMode := .ioSending }, .sendPost .testSendQueue caller,
        hgo _ _ _ rfl hlock hs rfl (by simp only [exec, execSendPost, hmode]) ?_⟩
      simp only [SendPostPc.stepsLeft]
      split <;> decide
  | testSendQueue =>
    by_cases hempty : s.sendQueue.isEmpty = true
    · refine ⟨⟨true, 0⟩, s, .sendPost .testReservedBuffer caller,
        hgo _ _ _ rfl hlock hs rfl (by simp only [exec, execSendPost, if_pos hempty]) ?_⟩
      simp only [SendPostPc.stepsLeft, if_pos hempty]
      decide
    · refine ⟨⟨true, 0⟩, s, .sendPost .makeSendStream caller,
        hgo _ _ _ rfl hlock hs rfl (by simp only [exec, execSendPost, if_neg hempty]) ?_⟩
      simp only [SendPostPc.stepsLeft, if_neg hempty]
      decide
  | testReservedBuffer =>
    by_cases hnone : s.reservedBuffer.isNone = true
    · exact ⟨⟨true, 0⟩, s, .sendPost .resetIoMode caller, hgo _ _ _ rfl hlock hs rfl
        (by simp only [exec, execSendPost, if_pos hnone]) (show 15 < 16 by decide)⟩
    · exact ⟨⟨true, 0⟩, s, .sendPost .makeSendStream caller, hgo _ _ _ rfl hlock hs rfl
        (by simp only [exec, execSendPost, if_neg hnone]) (show 11 < 16 by decide)⟩
  | resetIoMode =>
    exact ⟨⟨true, 0⟩, { s with ioMode := .ioNoneSending }, .sendPost .retestSendQueue caller,
      hgo _ _ _ rfl hlock hs rfl rfl (show 14 < 15 by decide)⟩
  | retestSendQueue =>
    by_cases hempty : s.sendQueue.isEmpty = true
    · exact ⟨⟨true, 0⟩, _, _,
        hnext .success _ _ (by simp only [exec, execSendPost, if_pos hempty])⟩
    · refine ⟨⟨true, 0⟩, s, .sendPost .compareExchange caller,
        hgo _ _ _ rfl hlock hs rfl (by simp only [exec, execSendPost, if_neg hempty]) ?_⟩
      simp only [SendPostPc.stepsLeft, if_neg hempty]
      decide
  | makeSendStream =>
    obtain ⟨context, hfree⟩ := exists_free s.contextPool
    obtain ⟨r, hr, hrest⟩ := makeSendStream_valid hs
    refine ⟨⟨true, context⟩, { s with
      contextPool := context :: s.contextPool
      sendQueue := r.queue
      rioSendBuffer := r.buffer
      reservedBuffer := r.reserved },
      .sendPost (.incrementIoCount ⟨context, .opSend, r.length, 0, r.copied⟩) caller,
      ⟨by simp only [exec, execSendPost, if_neg hfree, hr], ?_, hlock, hrest, trivial, rfl⟩⟩
    show 10 + caller.stepsLeft < 11 + caller.stepsLeft
    omega
  | incrementIoCount context =>
    exact ⟨⟨true, 0⟩, { s with ioCount := s.ioCount + 1 }, .sendPost (.rioSend context) caller,
      hgo _ _ _ rfl hlock hs rfl rfl (show 9 < 10 by decide)⟩
  | rioSend context =>
    exact ⟨⟨false, 0⟩, s, .release .ioCountDecrement (.sendPost caller),
      ⟨rfl, show 8 + caller.stepsLeft < 9 + caller.stepsLeft by omega, hlock, hs, trivial, rfl⟩⟩

/-- `IOCountDecrement` and `ReleaseSession` go straight on while the map's lock is
free. -/
theorem execRelease_nearer {pc : ReleasePc} {caller : ReleaseCaller}
    (hlock : s.sessionMapLocked = false) (hs : s.PacketsValid) :
    ∃ o s' pc', Nearer spec s (.release pc caller) o s' pc' := by
  have hnext : ∀ {t : State} {q : ReleasePc}, 0 < q.stepsLeft →
      caller.next.stepsLeft t.sendQueue < (Pc.release q caller).stepsLeft s.sendQueue := by
    intro t q hq
    rw [caller.next_stepsLeft]
    show caller.stepsLeft < q.stepsLeft + caller.stepsLeft
    omega
  have hgo : ∀ {n : Nat} {q : ReleasePc}, n < q.stepsLeft →
      n + caller.stepsLeft < (Pc.release q caller).stepsLeft s.sendQueue := by
    intro n q hq
    show n + caller.stepsLeft < q.stepsLeft + caller.stepsLeft
    omega
  cases pc with
  | ioCountDecrement =>
    by_cases hzero : s.ioCount - 1 = 0
    · exact ⟨⟨true, 0⟩, { s with ioCount := s.ioCount - 1 }, .release .onSessionLeaved caller,
        ⟨by simp only [exec, execRelease, if_pos hzero],
          hgo (n := 7) (by decide), hlock, hs, trivial, rfl⟩⟩
    · exact ⟨⟨true, 0⟩, { s with ioCount := s.ioCount - 1 }, caller.next,
        ⟨by simp only [exec, execRelease, if_neg hzero],
          hnext (by decide), hlock, hs, caller.next_packetValid, rfl⟩⟩
  | onSessionLeaved =>
    exact ⟨⟨true, 0⟩, _, _, ⟨rfl, hgo (n := 6) (by decide), hlock, hs, trivial, rfl⟩⟩
  | releaseSession =>
    exact ⟨⟨true, 0⟩, _, _, ⟨rfl, hgo (n := 5) (by decide), hlock, hs, trivial, rfl⟩⟩
  | decrementNumOfSession =>
    exact ⟨⟨true, 0⟩, _, _, ⟨rfl, hgo (n := 4) (by decide), hlock, hs, trivial, rfl⟩⟩
  | decrementSessionCount =>
    exact ⟨⟨true, 0⟩, _, _, ⟨rfl, hgo (n := 3) (by decide), hlock, hs, trivial, rfl⟩⟩
  | eraseSession =>
    exact ⟨⟨true, 0⟩, { s with inSessionMap := false }, .release .onSessionReleased caller,
      ⟨by simp [exec, execRelease, hlock],
        hgo (n := 2) (by decide), hlock, hs, trivial, rfl⟩⟩
  | onSessionReleased =>
    exact ⟨⟨true, 0⟩, _, _, ⟨rfl, hgo (n := 1) (by decide), hlock, hs, trivial, rfl⟩⟩
  | invalidateSocket =>
    exact ⟨⟨true, 0⟩, _, _,
      ⟨rfl, hnext (by decide), hlock, hs, caller.next_packetValid, rfl⟩⟩

/-- The worker goes on with its completion, found or not. -/
theorem execWorker_nearer {pc : WorkerPc} (hlock : s.sessionMapLocked = false)
    (hs : s.PacketsValid) : ∃ o s' pc', Nearer spec s (.worker pc) o s' pc' := by
  cases pc with
  | getIoCompletedContext context bytes =>
    by_cases hmap : s.inSessionMap = true
    · exact ⟨⟨true, 0⟩, s, .worker (.testTransferred context bytes),
        ⟨by simp [exec, execWorker, hlock, hmap], show 33 < 34 by decide, hlock, hs,
          trivial, rfl⟩⟩
    · exact ⟨⟨true, 0⟩, { s with contextPool := s.contextPool.erase context.id },
        .worker .endCompletion,
        ⟨by simp [exec, execWorker, hlock, hmap], show 1 < 34 by decide, hlock, hs,
          trivial, rfl⟩⟩
  | testTransferred context bytes =>
    by_cases hbytes : (bytes.isEmpty || s.ioCancle) = true
    · exact ⟨⟨true, 0⟩, { s with contextPool := s.contextPool.erase context.id },
        .release .ioCountDecrement .worker,
        ⟨by simp only [exec, execWorker, if_pos hbytes], show 8 + 1 < 33 by decide, hlock, hs,
          trivial, rfl⟩⟩
    · have hgo : ∀ q : WorkerPc, exec spec (.worker (.testTransferred context bytes)) ⟨true, 0⟩ s =
          some (s, .worker q) → q.stepsLeft < 33 →
          ∃ o s' pc', Nearer spec s (.worker (.testTransferred context bytes)) o s' pc' :=
        fun q hexec hlt => ⟨_, _, _, ⟨hexec, hlt, hlock, hs, trivial, rfl⟩⟩
      cases htype : context.ioType with
      | opRecv =>
        exact hgo (.recvCompleted context bytes)
          (by simp only [exec, execWorker, if_neg hbytes, htype]) (show 21 < 33 by decide)
      | opSend =>
        exact hgo (.sendIoCompleted context)
          (by simp only [exec, execWorker, if_neg hbytes, htype]) (show 32 < 33 by decide)
      | opError | opSendRequest =>
        exact hgo (.invalidIoCompleted context)
          (by simp only [exec, execWorker, if_neg hbytes, htype]) (show 14 < 33 by decide)
  | recvCompleted context bytes =>
    exact ⟨⟨true, 0⟩, _, _, ⟨rfl, show 20 < 21 by decide, hlock, hs, trivial, rfl⟩⟩
  | sendIoCompleted context =>
    exact ⟨⟨true, 0⟩, _, _, ⟨rfl, show 31 < 32 by decide, hlock, hs, trivial, rfl⟩⟩
  | sendCompleted context =>
    by_cases hdisconnect : s.sendDisconnect = true
    · exact ⟨⟨true, 0⟩, s, .worker (.disconnect context),
        ⟨by simp only [exec, execWorker, if_pos hdisconnect], show 13 < 31 by decide, hlock, hs,
          trivial, rfl⟩⟩
    · refine ⟨⟨true, 0⟩, s, .sendPost .compareExchange (.sendCompleted context),
        ⟨by simp only [exec, execWorker, if_neg hdisconnect], ?_, hlock, hs, trivial, rfl⟩⟩
      show SendPostPc.stepsLeft s.sendQueue .compareExchange + 12 < 31
      simp only [SendPostPc.stepsLeft]
      split <;> decide
  | disconnect context =>
    exact ⟨⟨true, 0⟩, s, .worker (.freeContext context .success),
      ⟨by simp [exec, execWorker, hlock], show 12 < 13 by decide, hlock, hs, trivial, rfl⟩⟩
  | invalidIoCompleted context =>
    by_cases hmap : s.inSessionMap = true
    · exact ⟨⟨true, 0⟩, s, .release .ioCountDecrement (.invalidIoCompleted context),
        ⟨by simp [exec, execWorker, hlock, hmap], show 8 + 2 < 14 by decide, hlock, hs,
          trivial, rfl⟩⟩
    · exact ⟨⟨true, 0⟩, s, .worker (.freeInvalidContext context),
        ⟨by simp [exec, execWorker, hlock, hmap], show 2 < 14 by decide, hlock, hs,
          trivial, rfl⟩⟩
  | freeInvalidContext context =>
    exact ⟨⟨true, 0⟩, _, _, ⟨rfl, show 1 < 2 by decide, hlock, hs, trivial, rfl⟩⟩
  | freeContext context result =>
    by_cases hdeleted : result = .isDeletedSession
    · exact ⟨⟨true, 0⟩, { s with contextPool := s.contextPool.erase context.id },
        .worker .endCompletion,
        ⟨by simp only [exec, execWorker, if_pos hdeleted], show 1 < 12 by decide, hlock, hs,
          trivial, rfl⟩⟩
    · exact ⟨⟨true, 0⟩, { s with contextPool := s.contextPool.erase context.id },
        .release .ioCountDecrement .worker,
        ⟨by simp only [exec, execWorker, if_neg hdeleted], show 8 + 1 < 12 by decide, hlock, hs,
          trivial, rfl⟩⟩
  | endCompletion =>
    exact ⟨⟨true, 0⟩, _, _, ⟨rfl, show 0 < 1 by decide, hlock, hs, trivial, rfl⟩⟩

/-- A sender goes on to `SendPost`, or finds no session. -/
theorem execSendPacket_nearer {pc : SendPacketPc} {isEncoded : Bool} {packet : NetBuffer}
    (hlock : s.sessionMapLocked = false) (hs : s.PacketsValid)
    (hpacket : (Pc.sendPacket pc isEncoded packet).PacketValid spec) :
    ∃ o s' pc', Nearer spec s (.sendPacket pc isEncoded packet) o s' pc' := by
  cases pc with
  | setSendDisconnect =>
    exact ⟨⟨true, 0⟩, _, _, ⟨rfl, show 21 < 22 by decide, hlock, hs, hpacket, rfl⟩⟩
  | getSession =>
    by_cases hmap : s.inSessionMap = true
    · exact ⟨⟨true, 0⟩, s, .sendPacket .isReleasedSession isEncoded packet,
        ⟨by simp [exec, execSendPacket, hlock, hmap], show 22 < 23 by decide, hlock, hs,
          hpacket, rfl⟩⟩
    · exact ⟨⟨true, 0⟩, s, .finished,
        ⟨by simp [exec, execSendPacket, hlock, hmap], show 0 < 23 by decide, hlock, hs,
          trivial, rfl⟩⟩
  | isReleasedSession =>
    by_cases hreleased : s.isReleasedSession = true
    · exact ⟨⟨true, 0⟩, s, .finished,
        ⟨by simp only [exec, execSendPacket, if_pos hreleased], show 0 < 22 by decide, hlock, hs,
          trivial, rfl⟩⟩
    · exact ⟨⟨true, 0⟩, s, .sendPacket .encode isEncoded packet,
        ⟨by simp only [exec, execSendPacket, if_neg hreleased], show 21 < 22 by decide, hlock, hs,
          hpacket, rfl⟩⟩
  | encode =>
    cases isEncoded with
    | true =>
      exact ⟨⟨true, 0⟩, _, _, ⟨rfl, show 20 < 21 by decide, hlock, hs, hpacket, rfl⟩⟩
    | false =>
      exact ⟨⟨true, 0⟩, _, _, ⟨rfl, show 20 < 21 by decide, hlock, hs, hpacket, rfl⟩⟩
  | enqueue =>
    refine ⟨⟨true, 0⟩, _, _, ⟨rfl, ?_, hlock, fun p hp => ?_, trivial, rfl⟩⟩
    · show SendPostPc.stepsLeft (s.sendQueue ++ [packet]) .compareExchange + 0 < 20
      simp only [SendPostPc.stepsLeft]
      split <;> decide
    · rcases List.mem_append.mp hp with hp | hp
      · exact hs p (List.mem_append_left _ hp)
      · rcases List.mem_append.mp hp with hp | hp
        · exact hs p (List.mem_append_right _ hp)
        · cases List.mem_singleton.mp hp
          exact hpacket

/-- **Every thread can get nearer to its end** as long as the map's lock is free
and the packets are valid. The accepter's insertion succeeds on this way if the id
is new. -/
theorem exec_nearer (hlock : s.sessionMapLocked = false) (hs : s.PacketsValid)
    (hpacket : pc.PacketValid spec) (hpc : pc ≠ .finished) :
    ∃ o s' pc', Nearer spec s pc o s' pc' ∧ (pc = .makeNewSession .emplace → o.ok = true) := by
  cases pc with
  | makeNewSession pc =>
    cases pc with
    | registerRecvBuffer =>
      exact ⟨⟨false, 0⟩, _, _, ⟨rfl, show 1 < 25 by decide, hlock, hs, trivial, rfl⟩, by rintro ⟨⟩⟩
    | registerSendBuffer =>
      exact ⟨⟨false, 0⟩, _, _, ⟨rfl, show 1 < 24 by decide, hlock, hs, trivial, rfl⟩, by rintro ⟨⟩⟩
    | createRequestQueue =>
      exact ⟨⟨false, 0⟩, _, _, ⟨rfl, show 1 < 23 by decide, hlock, hs, trivial, rfl⟩, by rintro ⟨⟩⟩
    | emplace =>
      exact ⟨⟨true, 0⟩, { s with inSessionMap := true, published := true },
        .recvPost .rioReceive .makeNewSession,
        ⟨rfl, show 20 < 21 by decide, hlock, hs, trivial, rfl⟩, fun _ => rfl⟩
    | leaveEmplace =>
      exact ⟨⟨true, 0⟩, _, _, ⟨rfl, show 6 + 1 < 10 by decide, rfl, hs, trivial, rfl⟩, by rintro ⟨⟩⟩
    | incrementNumOfSession =>
      exact ⟨⟨true, 0⟩, _, _, ⟨rfl, show 21 < 22 by decide, hlock, hs, trivial, rfl⟩, by rintro ⟨⟩⟩
    | onSessionEntered =>
      exact ⟨⟨true, 0⟩, _, _, ⟨rfl, show 1 < 2 by decide, hlock, hs, trivial, rfl⟩, by rintro ⟨⟩⟩
    | incrementSessionCount | closeEnteredSocket =>
      exact ⟨⟨true, 0⟩, _, _, ⟨rfl, show 0 < 1 by decide, hlock, hs, trivial, rfl⟩, by rintro ⟨⟩⟩
  | sendPacket pc isEncoded packet =>
    obtain ⟨o, s', pc', hnear⟩ := execSendPacket_nearer hlock hs hpacket
    exact ⟨o, s', pc', hnear, by rintro ⟨⟩⟩
  | sendPost pc caller =>
    obtain ⟨o, s', pc', hnear⟩ := execSendPost_nearer hlock hs
    exact ⟨o, s', pc', hnear, by rintro ⟨⟩⟩
  | recvPost pc caller =>
    cases pc with
    | rioReceive =>
      obtain ⟨context, hfree⟩ := exists_free s.contextPool
      exact ⟨⟨false, context⟩, { s with contextPool := context :: s.contextPool },
        caller.next .failedRecvPost,
        ⟨by simp [exec, execRecvPost, hfree], caller.next_stepsLeft _ _, hlock, hs,
          caller.next_packetValid _, rfl⟩, by rintro ⟨⟩⟩
    | incrementIoCount =>
      exact ⟨⟨true, 0⟩, { s with ioCount := s.ioCount + 1 }, caller.next .success,
        ⟨rfl, caller.next_stepsLeft _ _, hlock, hs, caller.next_packetValid _, rfl⟩, by rintro ⟨⟩⟩
  | release pc caller =>
    obtain ⟨o, s', pc', hnear⟩ := execRelease_nearer hlock hs
    exact ⟨o, s', pc', hnear, by rintro ⟨⟩⟩
  | worker pc =>
    obtain ⟨o, s', pc', hnear⟩ := execWorker_nearer hlock hs
    exact ⟨o, s', pc', hnear, by rintro ⟨⟩⟩
  | finished => exact absurd rfl hpc

namespace RioTestServer

variable {numOfWorkerThread n : Nat} {g g' : RioTestServer} {t t' : Thread} {l r ts : List Thread}
  {c d : Config RioTestServer Thread} {i : Nat} {e : Entry}

/-! ## All threads -/

/-- On the way to the empty server: `n` requests are outstanding at most. -/
structure Emptying (n : Nat) (g : RioTestServer) : Prop where
  accepted : g.accepted < 2 ^ 64 - 2
  packets : ∀ (i : Nat) (e : Entry), g.sessions[i]? = some e → e.state.PacketsValid
  outstanding : g.outstandingCount ≤ n

/-- The place of a session in the number of requests. -/
theorem outstandingCount_commit (he : g.sessions[i]? = some e) (s s' : State) :
    (g.commit i e s s').outstandingCount + e.state.outstanding.length =
      g.outstandingCount + s'.outstanding.length := by
  obtain ⟨l, r, hsplit, -, hset⟩ := split_of_getElem? he
  simp only [outstandingCount, commit, hset]
  rw [hsplit]
  simp only [List.map_append, List.map_cons, List.sum_append, List.sum_cons]
  omega

/-- A session that keeps its packets valid and gets no request. -/
theorem Emptying.commit (hK : Emptying n g) (he : g.sessions[i]? = some e) {s s' : State}
    {m : Nat} (hs' : s'.PacketsValid)
    (hout : s'.outstanding.length + n = e.state.outstanding.length + m) :
    Emptying m (g.commit i e s s') := by
  refine ⟨hK.accepted, fun j d hd => ?_, ?_⟩
  · by_cases hij : i = j
    · subst hij
      have hself : (g.commit i e s s').sessions[i]? = some _ :=
        List.getElem?_set_self (lt_length he)
      rw [hself] at hd
      cases hd
      exact hs'
    · have hother : (g.commit i e s s').sessions[j]? = g.sessions[j]? :=
        List.getElem?_set_ne hij
      rw [hother] at hd
      exact hK.packets j d hd
  · have hcount := outstandingCount_commit he s s'
    have hle := hK.outstanding
    omega

/-- The bound for a thread of the server. -/
def stepsLeft (g : RioTestServer) (t : Thread) : Nat :=
  (g.sessions[t.origin]?).elim 0 fun e => t.pc.stepsLeft e.state.sendQueue

/-- What a thread rereads makes no difference to how far it has to go. -/
theorem stepsLeft_reread (g : RioTestServer) (sendQueue : List NetBuffer) (pc : Pc) :
    (g.reread pc).stepsLeft sendQueue = pc.stepsLeft sendQueue := by
  cases pc with
  | worker pc => cases pc <;> rfl
  | _ => rfl

theorem packetValid_reread (g : RioTestServer) {pc : Pc} (h : pc.PacketValid spec) :
    (g.reread pc).PacketValid spec := by
  cases pc with
  | worker pc => cases pc <;> trivial
  | _ => exact h

theorem reread_ne_finished (g : RioTestServer) {pc : Pc} (h : pc ≠ .finished) :
    g.reread pc ≠ .finished := by
  cases pc with
  | worker pc => cases pc <;> nofun
  | _ => exact h

/-- Every thread of the server can get nearer to its end. -/
theorem thread_nearer
    (hrun : (server spec numOfWorkerThread).Reachable server.init ⟨g, l ++ t :: r⟩)
    (hK : Emptying n g) (hpacket : t.pc.PacketValid spec) (hpc : t.pc ≠ .finished) :
    ∃ o g' t', (server spec numOfWorkerThread).exec t o g = some (g', t') ∧ Emptying n g' ∧
      t'.pc.PacketValid spec ∧ g'.stepsLeft t' < g.stepsLeft t := by
  have hI := each_session_of_reachable hrun hK.accepted
  have hthread := hI.threads t (by simp)
  obtain ⟨e, he⟩ : ∃ e, g.sessions[t.origin]? = some e :=
    ⟨_, List.getElem?_eq_getElem hthread.origin⟩
  have htarget : target t = t.origin := by
    unfold target
    split
    · rfl
    · exact hthread.session
  have hs : (g.view e (g.lookedUp e t.pc)).PacketsValid := hK.packets _ e he
  obtain ⟨o, s', pc', hnear, hemplace⟩ := exec_nearer (s := g.view e (g.lookedUp e t.pc))
    hI.unlocked hs (packetValid_reread g hpacket) (reread_ne_finished g hpc)
  have ho : emplaceResult (g.view e (g.lookedUp e t.pc)) o t.pc = o := by
    unfold emplaceResult
    split
    · next hat =>
      -- the accepter's session is not in the map yet
      have hmap : (g.project e).inSessionMap = false :=
        inSessionMap_of_emplace (hI.runs _ e he).anywhere
          (mem_pcsOf.mpr ⟨t, by simp, rfl, hat⟩)
      have hok : o.ok = true := hemplace (by rw [hat]; rfl)
      have hview : (g.view e (g.lookedUp e t.pc)).inSessionMap = false := by
        rw [hat]
        exact hmap
      rw [hat] at hview ⊢
      rw [hview, show (!false) = o.ok from hok.symm]
    · rfl
  have hexec : exec spec t o g = some
      ({ g.commit (target t) e (g.view e (g.lookedUp e t.pc)) s' with
          contexts := initContext g.contexts e o t.pc
          leaked := g.leaked ++ lost o t.pc
          accepterBusy := g.accepterBusy && !endsAccept t.pc },
        ⟨g.found e t, t.origin, pc'⟩) := by
    simp only [exec, htarget, he, ho, hnear.exec]
    rfl
  have hgo := hK.commit he (s := g.view e (g.lookedUp e t.pc)) (m := n) hnear.packets
    (by rw [hnear.outstanding]; rfl)
  refine ⟨o, _, _, hexec, ?_, hnear.packet, ?_⟩
  · rw [htarget]
    exact ⟨hgo.accepted, hgo.packets, hgo.outstanding⟩
  · obtain ⟨d, hself, hstate⟩ :
        ∃ d, (g.commit (target t) e (g.view e (g.lookedUp e t.pc)) s').sessions[t.origin]? =
          some d ∧ d.state = s' := by
      rw [htarget]
      exact ⟨_, List.getElem?_set_self (lt_length he), rfl⟩
    have hlt := hnear.stepsLeft
    rw [stepsLeft_reread, ← hstate] at hlt
    simp only [stepsLeft, hself, he, Option.elim]
    exact hlt

/-- All threads can be brought to their end. -/
theorem all_finish (hrun : (server spec numOfWorkerThread).Reachable server.init c)
    (hK : Emptying n c.shared) (hpackets : ∀ t ∈ c.threads, t.pc.PacketValid spec) :
    ∃ d, (server spec numOfWorkerThread).Reachable c d ∧ Emptying n d.shared ∧
      ∀ t ∈ d.threads, t.pc = .finished := by
  have hends : ∀ {g : RioTestServer} {l : List Thread} {t : Thread} {r : List Thread},
      (server spec numOfWorkerThread).Reachable server.init ⟨g, l ++ t :: r⟩ → Emptying n g →
      t.pc.PacketValid spec → ∃ g' t', (server spec numOfWorkerThread).Alone g t g' t' ∧
        Emptying n g' ∧ t'.pc = .finished := by
    intro g l t r hrun hK hQ
    have hstep : ∀ {g : RioTestServer} {t : Thread},
        ((server spec numOfWorkerThread).Reachable server.init ⟨g, l ++ t :: r⟩ ∧
          Emptying n g ∧ t.pc.PacketValid spec) → ¬t.pc = .finished →
        ∃ o g' t', (server spec numOfWorkerThread).exec t o g = some (g', t') ∧
          ((server spec numOfWorkerThread).Reachable server.init ⟨g', l ++ t' :: r⟩ ∧
            Emptying n g' ∧ t'.pc.PacketValid spec) ∧ g'.stepsLeft t' < g.stepsLeft t := by
      rintro g t ⟨hrun, hK, hQ⟩ hpc
      obtain ⟨o, g', t', hexec, hK', hQ', hlt⟩ := thread_nearer hrun hK hQ hpc
      exact ⟨o, g', t', hexec, ⟨hrun.place trivial hexec, hK', hQ'⟩, hlt⟩
    obtain ⟨g', t', halone, ⟨-, hK', -⟩, hdone⟩ := Alone.ends
      (J := fun g t => (server spec numOfWorkerThread).Reachable server.init ⟨g, l ++ t :: r⟩ ∧
        Emptying n g ∧ t.pc.PacketValid spec) stepsLeft hstep ⟨hrun, hK, hQ⟩
    exact ⟨g', t', halone, hK', hdone⟩
  obtain ⟨g', ts', hreach, hK', hdone⟩ := ends_all hends hrun hK hpackets
  exact ⟨⟨g', ts'⟩, hreach, hK', hdone⟩

/-! ## All completions -/

/-- When all threads are at their end and something is outstanding, its
completion comes, without bytes. -/
theorem next_completion (hrun : (server spec numOfWorkerThread).Reachable server.init c)
    (hK : Emptying (n + 1) c.shared) (hdone : ∀ t ∈ c.threads, t.pc = .finished)
    (he : c.shared.sessions[i]? = some e) (hout : e.state.outstanding ≠ []) :
    ∃ d, (server spec numOfWorkerThread).Reachable c d ∧ Emptying n d.shared ∧
      ∀ t ∈ d.threads, t.pc.PacketValid spec := by
  obtain ⟨g, ts⟩ := c
  have hfree : ∀ (j : Nat) (d : Entry), g.sessions[j]? = some d →
      d.state.workerBusy = false := by
    intro j d hd
    have hone := one_worker ((each_session_of_reachable hrun hK.accepted).runs j d hd).anywhere
    have hzero : load Pc.handles (pcsOf j ts) = 0 := by
      refine load_eq_zero_iff.mpr fun pc hpc => ?_
      obtain ⟨t, ht, -, rfl⟩ := mem_pcsOf.mp hpc
      rw [hdone t ht]
      rfl
    have hbusy : (if d.state.workerBusy then 1 else 0) = 0 := hone.symm.trans hzero
    cases hw : d.state.workerBusy with
    | false => rfl
    | true =>
      rw [hw] at hbusy
      cases hbusy
  have hcan : g.canHappen e (.completion 0 []) = true := by
    refine List.all_eq_true.mpr fun d hd => ?_
    obtain ⟨j, hj⟩ := List.getElem?_of_mem hd
    rw [hfree j d hj]
    simp
  obtain ⟨context, rest, hcons⟩ := List.exists_cons_of_ne_nil hout
  obtain ⟨s', pc, hspawn, hlen, hsend, hpc⟩ : ∃ s' pc,
      RioServer.spawn (.completion 0 []) (g.view e e.sessionId) = some (s', pc) ∧
        s'.outstanding.length + 1 = e.state.outstanding.length ∧
        s'.toSendItem = e.state.toSendItem ∧ pc.PacketValid spec := by
    have hbusy : (g.view e e.sessionId).workerBusy = false := hfree i e he
    have hfirst : (g.view e e.sessionId).outstanding = context :: rest := hcons
    refine ⟨{ g.view e e.sessionId with outstanding := rest, workerBusy := true },
      .worker (.getIoCompletedContext context []),
      by simp [RioServer.spawn, hbusy, hfirst], ?_, rfl, trivial⟩
    rw [hcons]
    rfl
  have hevent : (server spec numOfWorkerThread).spawn (.session i (.completion 0 [])) g =
      some (g.commit i e (g.view e e.sessionId) s', ⟨i, i, pc⟩) := by
    simp only [server, spawn, he, hcan, if_true, hspawn]
    rfl
  have hvalid : s'.PacketsValid := by
    intro packet hp
    rw [hsend] at hp
    exact hK.packets i e he packet hp
  refine ⟨⟨_, ts ++ [⟨i, i, pc⟩]⟩, Run.refl.started hevent,
    hK.commit he hvalid (by omega), forall_mem_spawned.mpr ⟨fun t ht => ?_, hpc⟩⟩
  rw [hdone t ht]
  trivial

/-- Nobody is at work, nothing is outstanding, and no session is in the map. -/
structure Emptied (c : Config RioTestServer Thread) : Prop where
  finished : ∀ t ∈ c.threads, t.pc = .finished
  outstanding : ∀ e ∈ c.shared.sessions, e.state.outstanding = []
  sessionMap : ∀ id, c.shared.sessionMap.find id = none

/-- With all completions taken there is no session left. -/
theorem emptied (hrun : (server spec numOfWorkerThread).Reachable server.init c)
    (hK : Emptying 0 c.shared) (hdone : ∀ t ∈ c.threads, t.pc = .finished) : Emptied c := by
  have hout : ∀ e ∈ c.shared.sessions, e.state.outstanding = [] := by
    intro e he
    have hzero : c.shared.outstandingCount = 0 := Nat.le_zero.mp hK.outstanding
    have hlen := List.sum_eq_zero_iff.mp hzero _ (List.mem_map_of_mem he)
    exact List.length_eq_zero_iff.mp hlen
  refine ⟨hdone, hout, fun id => ?_⟩
  cases hfind : c.shared.sessionMap.find id with
  | none => rfl
  | some i =>
    obtain ⟨e, he, rfl⟩ :=
      (each_session_of_reachable hrun hK.accepted).mapped id i hfind
    have hmap : (c.shared.sessionMap.find e.sessionId).isSome = true := by rw [hfind]; rfl
    obtain ⟨-, -, hnext⟩ := never_stranded hrun hK.accepted he hmap
    exact absurd (hout e (List.mem_of_getElem? he)) (hnext fun t ht _ => hdone t ht)

/-- By the number of requests that are outstanding. -/
theorem reaches_emptied (hrun : (server spec numOfWorkerThread).Reachable server.init c)
    (hK : Emptying n c.shared) (hpackets : ∀ t ∈ c.threads, t.pc.PacketValid spec) :
    ∃ d, (server spec numOfWorkerThread).Reachable c d ∧ Emptied d := by
  induction n generalizing c with
  | zero =>
    obtain ⟨d, hd, hKd, hdone⟩ := all_finish hrun hK hpackets
    exact ⟨d, hd, emptied (hrun.trans hd) hKd hdone⟩
  | succ n ih =>
    obtain ⟨d, hd, hKd, hdone⟩ := all_finish hrun hK hpackets
    have hrund := hrun.trans hd
    by_cases hle : d.shared.outstandingCount ≤ n
    · have hvalid : ∀ t ∈ d.threads, t.pc.PacketValid spec := by
        intro t ht
        rw [hdone t ht]
        trivial
      obtain ⟨f, hf, hend⟩ := ih hrund ⟨hKd.accepted, hKd.packets, hle⟩ hvalid
      exact ⟨f, hd.trans hf, hend⟩
    · obtain ⟨e, hmem, hout⟩ : ∃ e ∈ d.shared.sessions, e.state.outstanding ≠ [] := by
        by_contra hnone
        refine hle (Nat.le_trans (Nat.le_of_eq ?_) (Nat.zero_le n))
        refine List.sum_eq_zero_iff.mpr fun m hm => ?_
        obtain ⟨e, he, rfl⟩ := List.mem_map.mp hm
        by_contra hne
        exact hnone ⟨e, he, fun hnil => hne (by rw [hnil]; rfl)⟩
      obtain ⟨i, he⟩ := List.getElem?_of_mem hmem
      obtain ⟨f, hf, hKf, hpf⟩ := next_completion hrund hKd hdone he hout
      obtain ⟨k, hk, hend⟩ := ih (hrund.trans hf) hKf hpf
      exact ⟨k, hd.trans (hf.trans hk), hend⟩

end RioTestServer

end RioServer
