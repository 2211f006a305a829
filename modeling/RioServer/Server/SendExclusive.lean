import RioServer.Server.Session

/-!
# The send protocol: one owner of the send buffers

`SendPost` may be entered by any number of threads. The exchange of `ioMode`
makes one of them the owner of `rioSendBuffer` and `reservedBuffer`; its
`RIOSend` passes the ownership to the request, and the worker that takes the
completion gives it back by resetting `ioMode`. `SendInv` counts the owners: the
threads between their exchange and their `RIOSend` or reset, and the posted
sends that have not reset `ioMode`. There is never more than one.

The threads that have nothing to do with sending are taken care of once, by
`exec_sendFrame`.
-/

namespace RioServer

open Machine

variable {spec : NetBufferSpec} {o : Oracle} {s s' : State} {pc pc' : Pc} {l r : List Pc}

/-! ## Threads off the send path -/

/-- On the way to a send, or with a completion that may be a send's. -/
def Pc.onSendPath : Pc → Bool
  | .sendPacket _ _ _ | .sendPost _ _ => true
  | .worker (.getIoCompletedContext _ _) | .worker (.testTransferred _ _)
  | .worker (.sendIoCompleted _) | .worker (.sendCompleted _)
  | .worker (.disconnect _) => true
  | _ => false

/-- The request is a send. -/
def IoContext.isSend (context : IoContext) : Bool := context.ioType = .opSend

/-- The outstanding sends. -/
def State.sends (s : State) : Nat := s.outstanding.countP IoContext.isSend

/-- What threads off the send path leave alone. -/
structure SendFrame (s s' : State) : Prop where
  sendItem : s'.toSendItem = s.toSendItem
  sendHistory : s'.toSendHistory = s.toSendHistory
  sendDisconnect : s'.sendDisconnect = s.sendDisconnect
  outstanding : s'.outstanding.filter IoContext.isSend = s.outstanding.filter IoContext.isSend

theorem SendFrame.sends (h : SendFrame s s') : s'.sends = s.sends := by
  simp only [State.sends, List.countP_eq_length_filter, h.outstanding]

@[simp] theorem SendPostCaller.next_onSendPath (caller : SendPostCaller)
    (result : IoPostError) : (caller.next result).onSendPath = false := by
  cases caller <;> rfl

@[simp] theorem RecvPostCaller.next_onSendPath (caller : RecvPostCaller)
    (result : IoPostError) : (caller.next result).onSendPath = false := by
  rcases caller with _ | ⟨_, _ | _⟩ <;> rfl

@[simp] theorem ReleaseCaller.next_onSendPath (caller : ReleaseCaller) :
    caller.next.onSendPath = false := by
  cases caller with
  | sendPost caller => exact caller.next_onSendPath _
  | _ => rfl

/-- **Off the send path** nothing is sent, and no thread gets onto it. -/
theorem exec_sendFrame (hpc : pc.onSendPath = false)
    (h : exec spec pc o s = some (s', pc')) : SendFrame s s' ∧ pc'.onSendPath = false := by
  cases pc with
  | makeNewSession pc =>
    revert h
    simp only [exec, Option.some.injEq]
    fun_cases execMakeNewSession o s pc <;> rintro ⟨⟩ <;> exact ⟨⟨rfl, rfl, rfl, rfl⟩, rfl⟩
  | sendPacket pc isEncoded packet => cases hpc
  | sendPost pc caller => cases hpc
  | recvPost pc caller =>
    revert h
    simp only [exec]
    fun_cases execRecvPost spec o s caller pc <;> rintro ⟨⟩
    · refine ⟨⟨rfl, rfl, rfl, ?_⟩, rfl⟩
      rw [List.filter_append]
      exact List.append_nil _
    · exact ⟨⟨rfl, rfl, rfl, rfl⟩, caller.next_onSendPath _⟩
    · exact ⟨⟨rfl, rfl, rfl, rfl⟩, caller.next_onSendPath _⟩
  | release pc caller =>
    revert h
    simp only [exec]
    fun_cases execRelease s caller pc <;> rintro ⟨⟩ <;>
      exact ⟨⟨rfl, rfl, rfl, rfl⟩, by first | rfl | exact caller.next_onSendPath⟩
  | worker pc =>
    revert h
    simp only [exec]
    fun_cases execWorker spec s pc <;> rintro ⟨⟩ <;>
      first | exact ⟨⟨rfl, rfl, rfl, rfl⟩, rfl⟩ | cases hpc
  | finished => cases h

/-- Taking one element out of a list lowers a count by what it counted for. -/
theorem countP_eraseIdx {α : Type*} (p : α → Bool) {xs : List α} {i : Nat} {x : α}
    (h : xs[i]? = some x) :
    (xs.eraseIdx i).countP p + (if p x then 1 else 0) = xs.countP p := by
  obtain ⟨hi, rfl⟩ := List.getElem?_eq_some_iff.mp h
  rw [List.eraseIdx_eq_take_drop_succ, List.countP_append]
  conv_rhs => rw [← List.take_append_drop i xs, List.drop_eq_getElem_cons hi,
    List.countP_append, List.countP_cons]
  omega

/-! ## Owners -/

/-- Between the exchange of `ioMode` and `RIOSend` or the reset. -/
def Pc.sending : Pc → Nat
  | .sendPost .compareExchange _ | .sendPost .retestSendQueue _ => 0
  | .sendPost _ _ => 1
  | _ => 0

/-- A worker with the completion of a send that has not reset `ioMode`. -/
def Pc.unreset : Pc → Nat
  | .worker (.getIoCompletedContext context _) | .worker (.testTransferred context _) =>
    if context.isSend then 1 else 0
  | .worker (.sendIoCompleted _) => 1
  | _ => 0

/-- About to read or write `rioSendBuffer` or `reservedBuffer`. -/
def Pc.touchesSendBuffers : Pc → Bool
  | .sendPost .testReservedBuffer _ | .sendPost .makeSendStream _ => true
  | _ => false

/-- One while `ioMode` is `IO_SENDING`. -/
def IoMode.owners : IoMode → Nat
  | .ioNoneSending => 0
  | .ioSending => 1

/-- The owners are at most what `ioMode` says, and every send that is
outstanding or at the worker is among them. -/
structure SendInv (s : State) (ts : List Pc) : Prop where
  owners : load Pc.sending ts + s.sendsNotReset ≤ s.ioMode.owners
  sends : s.sends + load Pc.unreset ts ≤ s.sendsNotReset

theorem sending_of_offSendPath (hpc : pc.onSendPath = false) : pc.sending = 0 := by
  revert hpc
  fun_cases Pc.sending pc <;> intro hpc <;> first | rfl | cases hpc

theorem unreset_of_offSendPath (hpc : pc.onSendPath = false) : pc.unreset = 0 := by
  revert hpc
  fun_cases Pc.unreset pc <;> intro hpc <;> first | rfl | cases hpc

/-- An action by which the thread owns no more than before. -/
theorem SendInv.keep (hI : SendInv s (l ++ pc :: r)) (hmode : s'.ioMode = s.ioMode)
    (hreset : s'.sendsNotReset = s.sendsNotReset) (hcount : s'.sends = s.sends)
    (hsending : pc'.sending ≤ pc.sending) (hunreset : pc'.unreset ≤ pc.unreset) :
    SendInv s' (l ++ pc' :: r) := by
  have howners := hI.owners
  have hsends := hI.sends
  simp only [load_append, load_cons] at howners hsends
  refine ⟨?_, ?_⟩ <;> simp only [load_append, load_cons, hmode, hreset, hcount] <;> omega

/-- Off the send path nothing is owned and nothing changes hands. -/
theorem SendInv.frame (hI : SendInv s (l ++ pc :: r)) (hs : SendFrame s s')
    (hpc' : pc'.onSendPath = false) : SendInv s' (l ++ pc' :: r) := by
  refine hI.keep (congrArg SendItem.ioMode hs.sendItem)
    (congrArg SendHistory.sendsNotReset hs.sendHistory) hs.sends ?_ ?_
  · rw [sending_of_offSendPath hpc']
    exact Nat.zero_le _
  · rw [unreset_of_offSendPath hpc']
    exact Nat.zero_le _

theorem IoMode.owners_le (mode : IoMode) : mode.owners ≤ 1 := by
  cases mode <;> decide

/-- The exchange makes an owner of a thread when there is none. -/
theorem execSendPost_sendInv {pc : SendPostPc} {caller : SendPostCaller}
    (hI : SendInv s (l ++ .sendPost pc caller :: r))
    (h : execSendPost o s caller pc = some (s', pc')) : SendInv s' (l ++ pc' :: r) := by
  have howners := hI.owners
  have hsends := hI.sends
  have hle := s.ioMode.owners_le
  simp only [load_append, load_cons, Pc.unreset] at howners hsends
  have hnext : ∀ result, (caller.next result).sending = 0 ∧ (caller.next result).unreset = 0 :=
    fun result => ⟨sending_of_offSendPath (caller.next_onSendPath result),
      unreset_of_offSendPath (caller.next_onSendPath result)⟩
  cases pc with
  | compareExchange =>
    simp only [execSendPost] at h
    split at h <;> cases h
    · obtain ⟨hsending, hunreset⟩ := hnext .success
      exact hI.keep rfl rfl rfl (by omega) (by omega)
    · -- `ioMode` was free, so nobody owned anything before this thread
      next hmode =>
      simp only [hmode, IoMode.owners, Pc.sending] at howners
      refine ⟨?_, ?_⟩ <;> simp only [load_append, load_cons, IoMode.owners, Pc.sending]
      · omega
      · exact hsends
  | resetIoMode =>
    -- this thread is the owner, so no other thread loses what the reset frees
    cases h
    simp only [Pc.sending] at howners
    refine ⟨?_, ?_⟩ <;> simp only [load_append, load_cons, IoMode.owners, Pc.sending]
    · omega
    · exact hsends
  | retestSendQueue =>
    simp only [execSendPost] at h
    split at h <;> cases h
    · obtain ⟨hsending, hunreset⟩ := hnext .success
      exact hI.keep rfl rfl rfl (by omega) (by omega)
    · exact hI.keep rfl rfl rfl (Nat.le_refl _) (Nat.le_refl _)
  | rioSend context =>
    simp only [execSendPost] at h
    split at h <;> cases h
    · -- the thread's ownership passes to the request
      simp only [Pc.sending] at howners
      have hcount : (s.outstanding ++ [context]).countP IoContext.isSend ≤ s.sends + 1 := by
        rw [List.countP_append, List.countP_singleton]
        exact Nat.add_le_add_left (by split <;> decide) _
      refine ⟨?_, ?_⟩ <;> simp only [load_append, load_cons, State.sends, Pc.sending, Pc.unreset]
      · omega
      · omega
    · -- a failed `RIOSend` leaves `ioMode` as it is: no owner, and no way back to one
      exact hI.keep rfl rfl rfl (Nat.zero_le _) (Nat.le_refl _)
  | _ =>
    revert h
    simp only [execSendPost]
    repeat' split
    all_goals rintro ⟨⟩
    all_goals exact hI.keep rfl rfl rfl (Nat.le_refl _) (Nat.le_refl _)

/-- The worker's reset of `ioMode` ends the ownership of the send it handles,
which is the only one. -/
theorem execWorker_sendInv {pc : WorkerPc} (hI : SendInv s (l ++ .worker pc :: r))
    (h : execWorker spec s pc = some (s', pc')) : SendInv s' (l ++ pc' :: r) := by
  cases pc with
  | sendIoCompleted context =>
    cases h
    have howners := hI.owners
    have hsends := hI.sends
    have hle := s.ioMode.owners_le
    simp only [load_append, load_cons, Pc.sending, Pc.unreset] at howners hsends
    refine ⟨?_, ?_⟩ <;> simp only [load_append, load_cons, IoMode.owners, Pc.sending, Pc.unreset]
    · omega
    · show s.sends + (load Pc.unreset l + (0 + load Pc.unreset r)) ≤ s.sendsNotReset - 1
      omega
  | testTransferred context bytes =>
    simp only [execWorker] at h
    repeat' split at h
    · cases h
      exact hI.keep rfl rfl rfl (Nat.le_refl _) (Nat.zero_le _)
    · cases h
      exact hI.keep rfl rfl rfl (Nat.le_refl _) (Nat.zero_le _)
    · next hsend =>
      cases h
      refine hI.keep rfl rfl rfl (Nat.le_refl _) ?_
      simp [Pc.unreset, IoContext.isSend, hsend]
    · cases h
      exact hI.keep rfl rfl rfl (Nat.le_refl _) (Nat.zero_le _)
  | _ =>
    revert h
    simp only [execWorker]
    repeat' split
    all_goals rintro ⟨⟩
    all_goals
      first
      | exact hI.keep rfl rfl rfl (Nat.le_refl _) (Nat.le_refl _)
      | exact hI.keep rfl rfl rfl (Nat.le_refl _) (Nat.zero_le _)

/-- **One action keeps a single owner.** -/
theorem exec_sendInv (hI : SendInv s (l ++ pc :: r))
    (h : exec spec pc o s = some (s', pc')) : SendInv s' (l ++ pc' :: r) := by
  cases pc with
  | sendPacket pc isEncoded packet =>
    revert h
    simp only [exec]
    fun_cases execSendPacket spec s isEncoded packet pc <;> rintro ⟨⟩ <;>
      exact hI.keep rfl rfl rfl (Nat.le_refl _) (Nat.le_refl _)
  | sendPost pc caller => exact execSendPost_sendInv hI h
  | worker pc => exact execWorker_sendInv hI h
  | _ =>
    obtain ⟨hs, hpc'⟩ := exec_sendFrame rfl h
    exact hI.frame hs hpc'

/-- Taking a completion moves a send from the requests to the worker. -/
theorem spawn_sendInv {ts : List Pc} {e : Event} (hI : SendInv s ts)
    (h : spawn e s = some (s', pc)) : SendInv s' (ts ++ [pc]) := by
  have howners := hI.owners
  have hsends := hI.sends
  cases e with
  | completion i bytes =>
    obtain ⟨context, -, hi, -, rfl, rfl⟩ := spawn_completion h
    refine ⟨?_, ?_⟩ <;> simp only [load_append, load_cons, load_nil]
    · exact howners
    · have hcount := countP_eraseIdx IoContext.isSend hi
      show (s.outstanding.eraseIdx i).countP IoContext.isSend +
        (load Pc.unreset ts + ((if context.isSend then 1 else 0) + 0)) ≤ s.sendsNotReset
      unfold State.sends at hsends
      omega
  | _ =>
    obtain ⟨-, rfl, rfl⟩ := Option.ite_none_right_eq_some.mp h
    refine ⟨?_, ?_⟩ <;> simp only [load_append, load_cons, load_nil]
    · exact howners
    · exact hsends

/-- The send buffers have at most one owner, along every run. -/
theorem sendInv {c : Config State Pc} (h : (server spec).Reachable server.init c) :
    SendInv c.shared c.threads :=
  Run.induct h ⟨Nat.le_refl 0, Nat.le_refl 0⟩
    (fun _ hI _ hexec => exec_sendInv hI hexec) (fun _ hI hspawn => spawn_sendInv hI hspawn)

/-! ## What ownership gives -/

/-- Whoever reads or writes the buffers owns them. -/
theorem sending_of_touches (hpc : pc.touchesSendBuffers = true) : pc.sending = 1 := by
  revert hpc
  fun_cases Pc.touchesSendBuffers pc <;> first | exact fun _ => rfl | (intro h; cases h)

/-- Only `MakeSendStream` writes `rioSendBuffer` or `reservedBuffer`, and only
`SendPost`'s test and `MakeSendStream` look at `reservedBuffer`. -/
theorem exec_untouched (hpc : pc.touchesSendBuffers = false)
    (h : exec spec pc o s = some (s', pc')) :
    s'.rioSendBuffer = s.rioSendBuffer ∧ s'.reservedBuffer = s.reservedBuffer := by
  cases pc with
  | sendPacket pc isEncoded packet =>
    revert h
    simp only [exec]
    fun_cases execSendPacket spec s isEncoded packet pc <;> rintro ⟨⟩ <;> exact ⟨rfl, rfl⟩
  | sendPost pc caller =>
    revert h
    simp only [exec]
    fun_cases execSendPost o s caller pc <;> rintro ⟨⟩ <;>
      first | exact ⟨rfl, rfl⟩ | cases hpc
  | worker pc =>
    revert h
    simp only [exec]
    fun_cases execWorker spec s pc <;> rintro ⟨⟩ <;> exact ⟨rfl, rfl⟩
  | _ =>
    obtain ⟨hs, -⟩ := exec_sendFrame rfl h
    exact ⟨congrArg SendItem.rioSendBuffer hs.sendItem,
      congrArg SendItem.reservedBuffer hs.sendItem⟩

/-- One owner at most, and while a thread touches the send buffers no send is
outstanding. -/
theorem SendInv.exclusive {ts : List Pc} (hI : SendInv s ts) :
    load Pc.sending ts + s.sendsNotReset ≤ 1 ∧
      ∀ pc ∈ ts, pc.touchesSendBuffers = true →
        s.sendsNotReset = 0 ∧ ∀ context ∈ s.outstanding, context.ioType ≠ .opSend := by
  have howners := hI.owners
  have hsends := hI.sends
  have hle := s.ioMode.owners_le
  refine ⟨by omega, fun pc hmem hpc => ?_⟩
  have hself := sending_of_touches hpc
  have hload := le_load_of_mem (f := Pc.sending) hmem
  refine ⟨by omega, fun context hcontext hsend => ?_⟩
  -- an outstanding send would be a second owner
  have hpos : 0 < s.sends :=
    List.countP_pos_iff.mpr ⟨context, hcontext, by simp [IoContext.isSend, hsend]⟩
  omega

end RioServer
