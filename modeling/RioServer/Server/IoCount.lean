import RioServer.Server.Session

/-!
# What `ioCount` counts

Every outstanding request and every thread that still has an `IOCountDecrement`
in front of it holds a reference to the session. `Pc.holds` is the number of
references a counter stands for, and `exec_holds` says that no action lets the
references grow faster than `ioCount`: `ioCount_ge` bounds them along every
run. `RecvPost` raises the count only after its request is posted, so between
the two the thread's own reference is what covers the request.

The other direction is false: a completion that finds no session, or a session
whose `InitSession` failed, leaves a count that nothing holds.
-/

namespace RioServer

open Machine

/-! ## References held by a thread -/

/-- Worker completions hold one until `SendPost` has returned to them. -/
def SendPostCaller.holds : SendPostCaller → Nat
  | .sendPacket => 0
  | .sendCompleted _ => 1

/-- What is left to be given back after the decrement or release returns. -/
def ReleaseCaller.holds : ReleaseCaller → Nat
  | .sendPost caller => caller.holds
  | .recvCompleted _ _ => 1
  | .worker | .makeNewSession | .emplaceFailed | .makeNewSessionFailed
  | .invalidIoCompleted _ => 0

/-- The reference the session is made with. -/
def MakeNewSessionPc.holds : MakeNewSessionPc → Nat
  | .registerRecvBuffer | .registerSendBuffer | .createRequestQueue
  | .incrementNumOfSession | .emplace => 1
  | .leaveEmplace | .onSessionEntered | .incrementSessionCount | .closeEnteredSocket => 0

/-- The reference for the send that is about to be posted. -/
def SendPostPc.holds : SendPostPc → Nat
  | .rioSend _ => 1
  | _ => 0

/-- The caller's reference, lent to the posted request until the increment. -/
def RecvPostPc.holds : RecvPostPc → Nat
  | .rioReceive => 1
  | .incrementIoCount => 0

def ReleasePc.holds : ReleasePc → Nat
  | .ioCountDecrement => 1
  | _ => 0

/-- The completion's reference. -/
def WorkerPc.holds : WorkerPc → Nat
  | .freeInvalidContext _ | .endCompletion => 0
  | _ => 1

/-- The references that the thread at a counter holds. -/
def Pc.holds : Pc → Nat
  | .makeNewSession pc => pc.holds
  | .sendPost pc caller => pc.holds + caller.holds
  | .recvPost pc _ => pc.holds
  | .release pc caller => pc.holds + caller.holds
  | .worker pc => pc.holds
  | .sendPacket _ _ _ | .finished => 0

@[simp] theorem Pc.holds_makeNewSession (pc : MakeNewSessionPc) :
    (Pc.makeNewSession pc).holds = pc.holds := rfl

@[simp] theorem Pc.holds_sendPacket (pc : SendPacketPc) (isEncoded : Bool) (p : NetBuffer) :
    (Pc.sendPacket pc isEncoded p).holds = 0 := rfl

@[simp] theorem Pc.holds_sendPost (pc : SendPostPc) (caller : SendPostCaller) :
    (Pc.sendPost pc caller).holds = pc.holds + caller.holds := rfl

@[simp] theorem Pc.holds_recvPost (pc : RecvPostPc) (caller : RecvPostCaller) :
    (Pc.recvPost pc caller).holds = pc.holds := rfl

@[simp] theorem Pc.holds_release (pc : ReleasePc) (caller : ReleaseCaller) :
    (Pc.release pc caller).holds = pc.holds + caller.holds := rfl

@[simp] theorem Pc.holds_worker (pc : WorkerPc) : (Pc.worker pc).holds = pc.holds := rfl

@[simp] theorem Pc.holds_finished : Pc.finished.holds = 0 := rfl

/-- Returning neither takes nor gives back a reference. -/
@[simp] theorem SendPostCaller.holds_next (caller : SendPostCaller) (result : IoPostError) :
    (caller.next result).holds = caller.holds := by
  cases caller <;> rfl

@[simp] theorem RecvPostCaller.holds_next (caller : RecvPostCaller) (result : IoPostError) :
    (caller.next result).holds = 1 := by
  rcases caller with _ | ⟨_, _ | _⟩ <;> rfl

@[simp] theorem ReleaseCaller.holds_next (caller : ReleaseCaller) :
    caller.next.holds = caller.holds := by
  cases caller with
  | sendPost caller => exact caller.holds_next _
  | _ => rfl

/-! ## One action -/

variable {spec : NetBufferSpec} {o : Oracle} {s s' : State} {pc' : Pc}

/-- The references outside the other threads: those of the outstanding requests
and those of the acting thread grow at most as `ioCount` does. -/
def HoldsLe (s : State) (holds : Nat) (s' : State) (holds' : Nat) : Prop :=
  s'.outstanding.length + holds' + s.ioCount ≤ s.outstanding.length + holds + s'.ioCount

theorem execMakeNewSession_holds {pc : MakeNewSessionPc}
    (h : execMakeNewSession o s pc = (s', pc')) : HoldsLe s pc.holds s' pc'.holds := by
  revert h
  fun_cases execMakeNewSession o s pc <;> rintro ⟨⟩ <;>
    simp [HoldsLe, MakeNewSessionPc.holds, RecvPostPc.holds, ReleasePc.holds,
      ReleaseCaller.holds]

theorem execSendPacket_holds {pc : SendPacketPc} {isEncoded : Bool} {packet : NetBuffer}
    (h : execSendPacket spec s isEncoded packet pc = some (s', pc')) :
    HoldsLe s 0 s' pc'.holds := by
  revert h
  fun_cases execSendPacket spec s isEncoded packet pc <;> rintro ⟨⟩ <;>
    simp [HoldsLe, SendPostPc.holds, SendPostCaller.holds]

/-- `SendPost` raises the count before it posts. -/
theorem execSendPost_holds {pc : SendPostPc} {caller : SendPostCaller}
    (h : execSendPost o s caller pc = some (s', pc')) :
    HoldsLe s (pc.holds + caller.holds) s' pc'.holds := by
  revert h
  fun_cases execSendPost o s caller pc <;> rintro ⟨⟩ <;>
    simp [HoldsLe, SendPostPc.holds, ReleasePc.holds, ReleaseCaller.holds] <;> omega

/-- `RecvPost` posts before it raises the count. -/
theorem execRecvPost_holds {pc : RecvPostPc} {caller : RecvPostCaller}
    (h : execRecvPost spec o s caller pc = some (s', pc')) :
    HoldsLe s pc.holds s' pc'.holds := by
  revert h
  fun_cases execRecvPost spec o s caller pc <;> rintro ⟨⟩ <;>
    simp [HoldsLe, RecvPostPc.holds]
  -- the posted request borrows the caller's reference until the increment
  omega

theorem execRelease_holds {pc : ReleasePc} {caller : ReleaseCaller}
    (h : execRelease s caller pc = some (s', pc')) :
    HoldsLe s (pc.holds + caller.holds) s' pc'.holds := by
  revert h
  fun_cases execRelease s caller pc <;> rintro ⟨⟩ <;>
    simp [HoldsLe, ReleasePc.holds] <;> omega

theorem execWorker_holds {pc : WorkerPc}
    (h : execWorker spec s pc = some (s', pc')) : HoldsLe s pc.holds s' pc'.holds := by
  revert h
  fun_cases execWorker spec s pc <;> rintro ⟨⟩ <;>
    simp [HoldsLe, WorkerPc.holds, ReleasePc.holds, ReleaseCaller.holds, SendPostPc.holds,
      SendPostCaller.holds, RecvPostPc.holds]

/-- **One action keeps the account.** -/
theorem exec_holds {pc : Pc} (h : exec spec pc o s = some (s', pc')) :
    HoldsLe s pc.holds s' pc'.holds := by
  cases pc with
  | makeNewSession pc => exact execMakeNewSession_holds (Option.some.inj h)
  | sendPacket pc isEncoded packet => exact execSendPacket_holds h
  | sendPost pc caller => exact execSendPost_holds h
  | recvPost pc caller => exact execRecvPost_holds h
  | release pc caller => exact execRelease_holds h
  | worker pc => exact execWorker_holds h
  | finished => cases h

/-- A completion hands the request's reference to the worker. -/
theorem spawn_holds {e : Event} {pc : Pc} (h : spawn e s = some (s', pc)) :
    HoldsLe s 0 s' pc.holds := by
  cases e with
  | completion i bytes =>
    obtain ⟨context, -, hi, -, rfl, rfl⟩ := spawn_completion h
    obtain ⟨hlt, -⟩ := List.getElem?_eq_some_iff.mp hi
    simp only [HoldsLe, Pc.holds_worker, WorkerPc.holds, List.length_eraseIdx_of_lt hlt]
    omega
  | _ =>
    obtain ⟨-, rfl, rfl⟩ := Option.ite_none_right_eq_some.mp h
    simp [HoldsLe]

/-! ## Every run -/

/-- The count covers the outstanding requests and the threads. -/
def Counted (s : State) (ts : List Pc) : Prop :=
  s.outstanding.length + load Pc.holds ts ≤ s.ioCount

/-- **References never exceed the count**, along every run. -/
theorem ioCount_ge {c : Config State Pc} (h : (server spec).Reachable server.init c) :
    Counted c.shared c.threads := by
  -- the other threads' references are the same on both sides of an action
  refine Run.induct h (Int.le_refl 1) ?_ ?_
  · intro s l pc r o s' pc' _ hI _ hexec
    have hstep := exec_holds hexec
    simp only [Counted, HoldsLe, load_append, load_cons] at hI hstep ⊢
    omega
  · intro s ts e s' pc _ hI hspawn
    have hstep := spawn_holds hspawn
    simp only [Counted, HoldsLe, load_append, load_cons, load_nil] at hI hstep ⊢
    omega

end RioServer
