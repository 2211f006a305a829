import RioServer.Client.ReconnectList
import RioServer.Lib.Progress

/-!
# The turns of the client's threads come to an end

A worker with a completion, a sender with its packet and `Start` with its receive
go through loops: over the buffers of a send, over what a released session has
queued, over what is to be sent next. None of them waits for another thread, so
each can be left alone until it is done with the session, whatever the others have
left behind (`Pc.returns`). Where a call is in its way we let it fail. Only the
`Reconnecter` waits.
-/

namespace RioServer.Client

open Machine

variable {spec : ClientSpec} {options : Db.LanClientOptions} {o : CallResult}
variable {s s' : State} {pc pc' : Pc}

/-- A thread left alone comes to be done with the session. -/
def Pc.Returns (spec : ClientSpec) (pc : Pc) (s : State) : Prop :=
  ∃ s', (client spec).Alone s pc s' .finished

namespace Pc.Returns

theorem finished (s : State) : Pc.finished.Returns spec s :=
  ⟨s, .refl s _⟩

/-- It does if it does behind its next action. -/
theorem step (o : CallResult) (h : exec spec pc o s = some (s', pc'))
    (h' : pc'.Returns spec s') : pc.Returns spec s := by
  obtain ⟨s'', halone⟩ := h'
  exact ⟨s'', .head h halone⟩

/-! ## Giving a reference back -/

section

variable (site : DecrementSite) (hreleased : ∀ s, site.released.Returns spec s)
include hreleased

theorem closeSocket (s : State) : (Pc.release .closeSocket site).Returns spec s := by
  by_cases hreconnect : spec.isReconnect = true
  · have hclose : exec spec (.release .closeSocket site) .success s =
        some ({ s with sock := .closed }, .release .invalidateSocket site) := by
      simp [exec, execRelease, hreconnect]
    exact .step .success hclose (.step .success rfl (.step .success rfl (hreleased _)))
  · have hclose : exec spec (.release .closeSocket site) .success s =
        some ({ s with sock := .closed }, site.released) := by
      simp [exec, execRelease, hreconnect]
    exact .step .success hclose (hreleased _)

/-- The loop over what is queued, by what is left of `Rest`. -/
theorem freeQueue (s : State) (rest : Int) (deleteBuf : Option Nat) :
    (Pc.release (.freeQueue rest deleteBuf) site).Returns spec s := by
  induction hn : rest.toNat generalizing s rest deleteBuf with
  | zero =>
    have hdone : exec spec (.release (.freeQueue rest deleteBuf) site) .success s =
        some (s, .release .closeSocket site) := by
      have hrest : ¬0 < rest := by omega
      simp [exec, execRelease, hrest]
    exact .step .success hdone (closeSocket site hreleased s)
  | succ n ih =>
    have hrest : 0 < rest := by omega
    have hn' : (rest - 1).toNat = n := by omega
    cases hqueue : s.sendQ with
    | nil =>
      have hnext : exec spec (.release (.freeQueue rest deleteBuf) site) .success s =
          some ({ s with freed := s.freed ++ deleteBuf.toList },
            .release (.freeQueue (rest - 1) deleteBuf) site) := by
        simp [exec, execRelease, hrest, hqueue]
      exact .step .success hnext (ih _ _ _ hn')
    | cons buf sendQ =>
      have hnext : exec spec (.release (.freeQueue rest deleteBuf) site) .success s =
          some ({ s with sendQ := sendQ, freed := s.freed ++ [buf] },
            .release (.freeQueue (rest - 1) (some buf)) site) := by
        simp [exec, execRelease, hrest, hqueue]
      exact .step .success hnext (ih _ _ _ hn')

/-- The loop over the store, by what is left of `SendBufferRestSize`. -/
theorem freeStore (s : State) (i : Nat) (sendBufferRestSize rest : Int) :
    (Pc.release (.freeStore i sendBufferRestSize rest) site).Returns spec s := by
  induction hn : (sendBufferRestSize - i).toNat generalizing s i with
  | zero =>
    have hdone : exec spec (.release (.freeStore i sendBufferRestSize rest) site) .success s =
        some ({ s with storeReleased := true }, .release (.freeQueue rest none) site) := by
      have hi : ¬(i : Int) < sendBufferRestSize := by omega
      simp [exec, execRelease, hi]
    exact .step .success hdone (freeQueue site hreleased _ _ _)
  | succ n ih =>
    have hnext : exec spec (.release (.freeStore i sendBufferRestSize rest) site) .success s =
        some (s.freeStore i, .release (.freeStore (i + 1) sendBufferRestSize rest) site) := by
      have hi : (i : Int) < sendBufferRestSize := by omega
      simp [exec, execRelease, hi]
    exact .step .success hnext (ih _ _ (by omega))

/-- `ReleaseSession` returns. -/
theorem release (s : State) (pc : ReleasePc) : (Pc.release pc site).Returns spec s := by
  have hread : ∀ s, (Pc.release .readBufferCount site).Returns spec s := fun s =>
    .step .success rfl (.step .success rfl (freeStore site hreleased _ _ _ _))
  cases pc with
  | onDisconnect => exact .step .success rfl (hread _)
  | readBufferCount => exact hread s
  | getRestSize => exact .step .success rfl (freeStore site hreleased _ _ _ _)
  | freeStore => exact freeStore site hreleased _ _ _ _
  | freeQueue => exact freeQueue site hreleased _ _ _
  | closeSocket => exact closeSocket site hreleased s
  | invalidateSocket => exact .step .success rfl (.step .success rfl (hreleased _))
  | emplaceBack => exact .step .success rfl (hreleased _)

/-- A reference is given back, and perhaps the session released. -/
theorem decrement (hotherwise : ∀ s, site.otherwise.Returns spec s) (s : State) :
    (Pc.ioCountDecrement site).Returns spec s := by
  by_cases hzero : s.ioCount - 1 = 0
  · refine .step .success ?_ (release site hreleased { s with
      ioCount := s.ioCount - 1
      releases := s.releases + 1
      quiet := true
      reposted := false } .onDisconnect)
    simp [exec, execDecrement, hzero]
  · refine .step .success ?_ (hotherwise { s with ioCount := s.ioCount - 1 })
    simp [exec, execDecrement, hzero]

end

/-- The end of a turn of `Worker`. -/
theorem workerNext (retval : PostRetval) (s : State) : (workerNext retval).Returns spec s := by
  have hend : ∀ s, (Pc.ioCountDecrement .workerEnd).Returns spec s :=
    decrement .workerEnd finished finished
  cases retval with
  | errSessionDeleted => exact finished s
  | err | complete => exact hend s

/-! ## The turns -/

section

variable (caller : RecvPostCaller) (hcaller : caller ≠ .reconnecter)
include hcaller

theorem recvPostNext (retval : PostRetval) (s : State) : (caller.next retval).Returns spec s := by
  cases caller with
  | start => exact finished s
  | worker => exact workerNext retval s
  | reconnecter => exact absurd rfl hcaller

/-- `RecvPost` returns. -/
theorem recvPost (s : State) (pc : RecvPostPc) : (Pc.recvPost pc caller).Returns spec s := by
  have hnext : ∀ retval s, (caller.next retval).Returns spec s := recvPostNext caller hcaller
  have hfailed : ∀ s length, (Pc.recvPost (.wsaRecv length) caller).Returns spec s := by
    intro s length
    refine .step .failure ?_ (decrement (.recvFailed caller) (hnext _) (hnext _) s)
    simp [exec, execRecvPost]
  have hcount : ∀ s, (Pc.recvPost .ioCountIncrement caller).Returns spec s := fun s =>
    .step .success rfl (hfailed _ _)
  cases pc with
  | isFull =>
    by_cases hfull : spec.ringbufferMax ≤ s.ringBuffer.getUseSize
    · refine .step .success ?_ (decrement (.ringFull caller) (hnext _) (hnext _) s)
      simp [exec, execRecvPost, hfull]
    · refine .step .success ?_ (hcount s)
      simp [exec, execRecvPost, hfull]
  | ioCountIncrement => exact hcount s
  | wsaRecv length => exact hfailed s length

end

section

variable (caller : SendPostCaller)

theorem sendPostNext (retval : PostRetval) (s : State) : (caller.next retval).Returns spec s := by
  cases caller with
  | sendPacketImpl => exact finished s
  | worker => exact workerNext retval s

theorem wsaSend (s : State) (wsaSendBuf : List Nat) :
    (Pc.sendPost (.wsaSend wsaSendBuf) caller).Returns spec s := by
  have hnext : ∀ retval s, (caller.next retval).Returns spec s := sendPostNext caller
  refine .step .failure ?_ (decrement (.sendFailed caller) (hnext _) (hnext _) s)
  simp [exec, execSendPost]

/-- The loop that takes buffers off the queue, by what is left of `UseSize`. -/
theorem dequeue (s : State) (i useSize : Nat) (wsaSendBuf : List Nat) :
    (Pc.sendPost (.dequeue i useSize wsaSendBuf) caller).Returns spec s := by
  induction hn : useSize - i generalizing s i wsaSendBuf with
  | zero =>
    have hdone : exec spec (.sendPost (.dequeue i useSize wsaSendBuf) caller) .success s =
        some ({ s with lBufferCount := useSize, storeReleased := false },
          .sendPost (.ioCountIncrement wsaSendBuf) caller) := by
      have hi : ¬i < useSize := by omega
      simp [exec, execSendPost, hi]
    exact .step .success hdone (.step .success rfl (wsaSend caller _ _))
  | succ n ih =>
    have hi : i < useSize := by omega
    cases hqueue : s.sendQ with
    | nil =>
      have hnext : exec spec (.sendPost (.dequeue i useSize wsaSendBuf) caller) .success s =
          some (s, .sendPost (.dequeue (i + 1) useSize
            (wsaSendBuf ++ (s.pSeirializeBufStore.getD i none).toList)) caller) := by
        simp [exec, execSendPost, hi, hqueue]
      exact .step .success hnext (ih _ _ _ (by omega))
    | cons buf sendQ =>
      have hnext : exec spec (.sendPost (.dequeue i useSize wsaSendBuf) caller) .success s =
          some ({ s with
            sendQ := sendQ
            pSeirializeBufStore := s.pSeirializeBufStore.set i (some buf) },
            .sendPost (.dequeue (i + 1) useSize (wsaSendBuf ++ [buf])) caller) := by
        simp [exec, execSendPost, hi, hqueue]
      exact .step .success hnext (ih _ _ _ (by omega))

theorem resetNegative (s : State) : (Pc.sendPost .resetNegative caller).Returns spec s :=
  .step .success rfl (sendPostNext caller _ _)

theorem sendRestSize (s : State) : (Pc.sendPost .getRestSize caller).Returns spec s := by
  cases hqueue : s.sendQ with
  | nil =>
    have hrest : s.getRestSize = 0 := by simp [State.getRestSize, hqueue]
    -- nobody can have queued anything before the second look
    have hreset : exec spec (.sendPost .getRestSize caller) .success s =
        some (s, .sendPost .resetIoMode caller) := by
      simp [exec, execSendPost, hrest]
    have hretest : exec spec (.sendPost .retestRestSize caller) .success
        { s with ioMode := .nonSending } =
        some ({ s with ioMode := .nonSending }, caller.next .complete) := by
      have hrest' : State.getRestSize { s with ioMode := .nonSending } = 0 := hrest
      simp [exec, execSendPost, hrest']
    exact .step .success hreset (.step .success rfl
      (.step .success hretest (sendPostNext caller _ _)))
  | cons buf sendQ =>
    have hdequeue : exec spec (.sendPost .getRestSize caller) .success s =
        some (s, .sendPost (.dequeue 0 (min iocpOneSendWsabufMax s.getRestSize.toNat) [])
          caller) := by
      have hne : s.getRestSize ≠ 0 := by
        simp only [State.getRestSize, hqueue, List.length_cons]
        omega
      have hnonneg : ¬s.getRestSize < 0 := by
        simp only [State.getRestSize]
        omega
      simp [exec, execSendPost, hne, hnonneg]
    exact .step .success hdequeue (dequeue caller _ _ _ _)

/-- The loop of `SendPost`. -/
theorem compareExchange (s : State) : (Pc.sendPost .compareExchange caller).Returns spec s := by
  cases hmode : s.ioMode with
  | sending =>
    refine .step .success ?_ (sendPostNext caller .complete s)
    simp [exec, execSendPost, hmode]
  | nonSending =>
    refine .step .success ?_ (sendRestSize caller { s with ioMode := .sending })
    simp [exec, execSendPost, hmode]

/-- `SendPost` returns. -/
theorem sendPost (s : State) (pc : SendPostPc) : (Pc.sendPost pc caller).Returns spec s := by
  have hretest : ∀ s, (Pc.sendPost .retestRestSize caller).Returns spec s := by
    intro s
    by_cases hrest : 0 < s.getRestSize
    · refine .step .success ?_ (compareExchange caller s)
      simp [exec, execSendPost, hrest]
    · refine .step .success ?_ (sendPostNext caller .complete s)
      simp [exec, execSendPost, hrest]
  cases pc with
  | compareExchange => exact compareExchange caller s
  | getRestSize => exact sendRestSize caller s
  | resetIoMode => exact .step .success rfl (hretest _)
  | retestRestSize => exact hretest s
  | resetNegative => exact resetNegative caller s
  | dequeue => exact dequeue caller _ _ _ _
  | ioCountIncrement => exact .step .success rfl (wsaSend caller _ _)
  | wsaSend => exact wsaSend caller _ _

end

/-- The loop over the buffers of a completed send, by what is left of it. -/
theorem freeSent (s : State) (i : Nat) (bufferCount : Int) :
    (Pc.worker (.freeSent i bufferCount)).Returns spec s := by
  induction hn : (bufferCount - i).toNat generalizing s i with
  | zero =>
    have hdone : exec spec (.worker (.freeSent i bufferCount)) .success s =
        some ({ s with lBufferCount := s.lBufferCount - bufferCount }, .worker .resetIoMode) := by
      have hi : ¬(i : Int) < bufferCount := by omega
      simp [exec, execWorker, hi]
    exact .step .success hdone (.step .success rfl (compareExchange _ _))
  | succ n ih =>
    have hnext : exec spec (.worker (.freeSent i bufferCount)) .success s =
        some (s.freeStore i, .worker (.freeSent (i + 1) bufferCount)) := by
      have hi : (i : Int) < bufferCount := by omega
      simp [exec, execWorker, hi]
    exact .step .success hnext (ih _ _ (by omega))

/-- `Worker` is done with a completion. -/
theorem worker (s : State) (pc : WorkerPc) : (Pc.worker pc).Returns spec s := by
  cases pc with
  | recvCompleted bytes =>
    by_cases hzero : bytes.isEmpty = true
    · refine .step .success ?_ (decrement .recvZero finished finished s)
      simp [exec, execWorker, hzero]
    · refine .step .success ?_ (recvPost .worker (by decide) { s with
        ringBuffer := (recvLoop spec (s.ringBuffer.moveWritePos bytes)).ring
        received := s.received ++ (recvLoop spec (s.ringBuffer.moveWritePos bytes)).received }
        .isFull)
      simp [exec, execWorker, hzero]
  | sendCompleted => exact .step .success rfl (freeSent _ _ _)
  | freeSent => exact freeSent _ _ _
  | resetIoMode => exact .step .success rfl (compareExchange _ _)

end Pc.Returns

open Pc.Returns

/-- Where a thread that is not the `Reconnecter` goes behind a decrement. -/
theorem DecrementSite.returns (site : DecrementSite)
    (h : (Pc.ioCountDecrement site).reconnects = 0) :
    (∀ s, site.otherwise.Returns spec s) ∧ ∀ s, site.released.Returns spec s := by
  cases site with
  | recvZero | workerEnd => exact ⟨finished, finished⟩
  | ringFull caller | recvFailed caller =>
    have hcaller : caller ≠ .reconnecter := by
      rintro rfl
      cases h
    exact ⟨recvPostNext caller hcaller _, recvPostNext caller hcaller _⟩
  | restNegative caller => exact ⟨resetNegative caller, sendPostNext caller _⟩
  | sendFailed caller => exact ⟨sendPostNext caller _, sendPostNext caller _⟩

/-- **Each thread can be left alone until it is done**, unless it is the
`Reconnecter`. -/
theorem Pc.returns (h : pc.reconnects = 0) (s : State) : pc.Returns spec s := by
  cases pc with
  | recvPost pc caller =>
    refine .recvPost caller ?_ s pc
    rintro rfl
    cases pc <;> cases h
  | sendPost pc caller => exact .sendPost caller s pc
  | ioCountDecrement site =>
    obtain ⟨hotherwise, hreleased⟩ := site.returns h
    exact decrement site hreleased hotherwise s
  | release pc site =>
    have hsite : (Pc.ioCountDecrement site).reconnects = 0 := by
      cases site with
      | ringFull caller | recvFailed caller => cases caller <;> first | rfl | cases h
      | _ => rfl
    exact .release site (site.returns hsite).2 s pc
  | worker pc => exact .worker s pc
  | sendPacketImpl buf => exact .step .success rfl (compareExchange _ _)
  | reconnecter pc => cases pc <;> cases h
  | finished => exact .finished s

end RioServer.Client
