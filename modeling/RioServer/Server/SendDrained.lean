import RioServer.Server.Ownership
import RioServer.Server.SendExclusive

/-!
# The send protocol: nothing is left behind

A sender whose exchange fails leaves its packet to the owner, who may have
looked at the queue before the packet was there. `SendPost` therefore looks
again after it has reset `ioMode`, and starts over after each `RIOSend`; the
worker calls `SendPost` for every completed send. `DrainInv` says that as long
as a packet is queued or reserved, some thread or some outstanding send is
still to call or to finish `SendPost`.

That is so in runs in which sends go well (`DeliveryGuard`): a failed `RIOSend`
or a send completion with 0 bytes leaves `ioMode` at `IO_SENDING` for good.
-/

namespace RioServer

open Machine

variable {spec : NetBufferSpec} {o : Oracle} {s s' : State} {pc pc' : Pc} {l r : List Pc}

/-- Sends go well: `RIOSend` succeeds, send completions carry bytes, nobody
calls `SendPacketAndDisconnect`, and the session is not released. -/
def DeliveryGuard : Guard State Pc Oracle := fun pc o _ _ =>
  match pc with
  | .sendPost (.rioSend _) _ => o.ok = true
  | .worker (.testTransferred context bytes) => context.isSend = true → bytes ≠ []
  | .sendPacket .setSendDisconnect _ _ => False
  | .release .releaseSession _ => False
  | _ => True

instance (pc : Pc) (o : Oracle) (s : State) (ts : List Pc) :
    Decidable (DeliveryGuard pc o s ts) :=
  decidable_of_iff
    ((match pc with
      | .sendPost (.rioSend _) _ => o.ok
      | .worker (.testTransferred context bytes) =>
        decide (context.isSend = true → bytes ≠ [])
      | .sendPacket .setSendDisconnect _ _ => false
      | .release .releaseSession _ => false
      | _ => true) = true)
    (by unfold DeliveryGuard; split <;> simp [imp_iff_not_or])

/-! ## Who is still to send -/

/-- In `SendPost`, or a worker with a send's completion on its way there. -/
def Pc.willSend : Pc → Nat
  | .sendPost _ _ => 1
  | .worker (.sendCompleted _) => 1
  | pc => pc.unreset

/-- The same, and it will look at `reservedBuffer`. -/
def Pc.willKeep : Pc → Nat
  | .sendPost .resetIoMode _ | .sendPost .retestSendQueue _ => 0
  | pc => pc.willSend

/-- Found neither a queued nor a reserved packet. -/
def Pc.resetting : Pc → Nat
  | .sendPost .resetIoMode _ => 1
  | _ => 0

/-- About to post a request that is not a send. -/
def Pc.mistyped : Pc → Nat
  | .sendPost (.incrementIoCount context) _ | .sendPost (.rioSend context) _ =>
    if context.isSend then 0 else 1
  | _ => 0

/-- Behind the entry of `ReleaseSession`. -/
def Pc.afterRelease : Pc → Nat
  | .release .ioCountDecrement _ | .release .onSessionLeaved _
  | .release .releaseSession _ => 0
  | .release _ _ => 1
  | _ => 0

/-- As long as there is something to send, somebody is still to send. -/
structure DrainInv (s : State) (ts : List Pc) : Prop where
  ioMode : s.ioMode = .ioSending → 1 ≤ s.sends + load Pc.sending ts + load Pc.unreset ts
  sendQueue : s.sendQueue ≠ [] → 1 ≤ s.sends + load Pc.willSend ts
  reservedBuffer : s.reservedBuffer ≠ none → 1 ≤ s.sends + load Pc.willKeep ts
  resetting : 1 ≤ load Pc.resetting ts → s.reservedBuffer = none
  mistyped : load Pc.mistyped ts = 0
  afterRelease : load Pc.afterRelease ts = 0
  sendDisconnect : s.sendDisconnect = false
  inSessionMap : s.published = true → s.inSessionMap = true

theorem sending_add_unreset_le_willSend (pc : Pc) :
    pc.sending + pc.unreset ≤ pc.willSend := by
  cases pc with
  | sendPost pc caller => cases pc <;> first | exact Nat.le_refl _ | exact Nat.zero_le _
  | worker pc => cases pc <;> simp [Pc.sending, Pc.unreset, Pc.willSend]
  | _ => exact Nat.le_refl _

theorem sending_add_unreset_le_willKeep (pc : Pc) :
    pc.sending + pc.unreset ≤ pc.willKeep + pc.resetting := by
  fun_cases Pc.willKeep pc with
  | case1 | case2 => exact Nat.le_refl _
  | case3 => exact (sending_add_unreset_le_willSend _).trans (Nat.le_add_right _ _)

theorem resetting_le_sending (pc : Pc) : pc.resetting ≤ pc.sending := by
  fun_cases Pc.resetting pc
  · exact Nat.le_refl _
  · exact Nat.zero_le _

theorem load_sending_le_willSend (ts : List Pc) :
    load Pc.sending ts + load Pc.unreset ts ≤ load Pc.willSend ts := by
  rw [← load_add]
  exact load_mono sending_add_unreset_le_willSend ts

theorem load_sending_le_willKeep (ts : List Pc) :
    load Pc.sending ts + load Pc.unreset ts ≤ load Pc.willKeep ts + load Pc.resetting ts := by
  rw [← load_add, ← load_add]
  exact load_mono sending_add_unreset_le_willKeep ts

/-- How a thread's part in sending may change without loss. -/
structure StillSends (pc pc' : Pc) : Prop where
  sending : pc.sending + pc.unreset ≤ pc'.sending + pc'.unreset
  willSend : pc.willSend ≤ pc'.willSend
  willKeep : pc.willKeep ≤ pc'.willKeep
  resetting : pc'.resetting ≤ pc.resetting
  mistyped : pc'.mistyped = 0
  afterRelease : pc'.afterRelease = 0

/-- An action after which everybody who was to send still is. -/
theorem DrainInv.keep (hI : DrainInv s (l ++ pc :: r)) (hitem : s'.toSendItem = s.toSendItem)
    (hcount : s'.sends = s.sends) (hdisc : s'.sendDisconnect = s.sendDisconnect)
    (hmap : s'.published = true → s'.inSessionMap = true) (hpc : StillSends pc pc') :
    DrainInv s' (l ++ pc' :: r) := by
  obtain ⟨hmode, hqueue, hres, hreset, hmis, hafter, hd, -⟩ := hI
  obtain ⟨psending, pwill, pkeep, preset, pmis, pafter⟩ := hpc
  simp only [load_append, load_cons] at hmode hqueue hres hreset hmis hafter
  refine ⟨?_, ?_, ?_, ?_, ?_, ?_, hdisc.trans hd, hmap⟩ <;>
    simp only [load_append, load_cons, hitem, hcount]
  · intro h
    have := hmode h
    omega
  · intro h
    have := hqueue h
    omega
  · intro h
    have := hres h
    omega
  · intro h
    exact hreset (by omega)
  · omega
  · omega

theorem willSend_of_offSendPath (hpc : pc.onSendPath = false) :
    pc.willSend = 0 ∧ pc.willKeep = 0 ∧ pc.resetting = 0 ∧ pc.mistyped = 0 := by
  cases pc with
  | worker pc =>
    cases pc <;> first | exact ⟨rfl, rfl, rfl, rfl⟩ | cases hpc
  | sendPacket pc isEncoded packet => cases hpc
  | sendPost pc caller => cases hpc
  | _ => exact ⟨rfl, rfl, rfl, rfl⟩

/-- A thread that goes off the send path has nothing to do with sending. -/
theorem StillSends.of_off (hpc : pc.onSendPath = false) (hpc' : pc'.onSendPath = false)
    (hafter : pc'.afterRelease = 0) : StillSends pc pc' := by
  obtain ⟨hwill, hkeep, hresetting, -⟩ := willSend_of_offSendPath hpc
  obtain ⟨-, -, hresetting', hmistyped'⟩ := willSend_of_offSendPath hpc'
  refine ⟨?_, ?_, ?_, ?_, hmistyped', hafter⟩
  · rw [sending_of_offSendPath hpc, unreset_of_offSendPath hpc]
    exact Nat.zero_le _
  · rw [hwill]
    exact Nat.zero_le _
  · rw [hkeep]
    exact Nat.zero_le _
  · rw [hresetting']
    exact Nat.zero_le _

/-! ## One action -/

theorem SendPostCaller.next_afterRelease (caller : SendPostCaller) (result : IoPostError) :
    (caller.next result).afterRelease = 0 := by
  cases caller <;> rfl

theorem RecvPostCaller.next_afterRelease (caller : RecvPostCaller) (result : IoPostError) :
    (caller.next result).afterRelease = 0 := by
  rcases caller with _ | ⟨_, _ | _⟩ <;> rfl

theorem ReleaseCaller.next_afterRelease (caller : ReleaseCaller) :
    caller.next.afterRelease = 0 := by
  cases caller with
  | sendPost caller => exact caller.next_afterRelease _
  | _ => rfl

/-- Off the send path, and short of the release, the session stays in the map. -/
theorem exec_inSessionMap (hpc : pc.onSendPath = false) (hafter : pc.afterRelease = 0)
    (hG : DeliveryGuard pc o s (l ++ pc :: r))
    (hmap : s.published = true → s.inSessionMap = true)
    (h : exec spec pc o s = some (s', pc')) :
    (s'.published = true → s'.inSessionMap = true) ∧ pc'.afterRelease = 0 := by
  cases pc with
  | makeNewSession pc =>
    revert h
    simp only [exec, Option.some.injEq]
    fun_cases execMakeNewSession o s pc <;> rintro ⟨⟩ <;>
      first | exact ⟨hmap, rfl⟩ | exact ⟨fun _ => rfl, rfl⟩
  | sendPacket pc isEncoded packet => cases hpc
  | sendPost pc caller => cases hpc
  | recvPost pc caller =>
    revert h
    simp only [exec]
    fun_cases execRecvPost spec o s caller pc <;> rintro ⟨⟩ <;>
      first | exact ⟨hmap, rfl⟩ | exact ⟨hmap, caller.next_afterRelease _⟩
  | release pc caller =>
    cases pc with
    | ioCountDecrement =>
      simp only [exec, execRelease] at h
      split at h <;> cases h
      · exact ⟨hmap, rfl⟩
      · exact ⟨hmap, caller.next_afterRelease⟩
    | onSessionLeaved =>
      cases h
      exact ⟨hmap, rfl⟩
    | releaseSession => exact hG.elim
    | _ => cases hafter
  | worker pc =>
    revert h
    simp only [exec]
    fun_cases execWorker spec s pc <;> rintro ⟨⟩ <;> exact ⟨hmap, rfl⟩
  | finished => cases h

/-- The exchange either makes the thread the owner, or leaves the packets to
the owner there is. -/
theorem compareExchange_drainInv {caller : SendPostCaller}
    (hI : DrainInv s (l ++ .sendPost .compareExchange caller :: r))
    (h : execSendPost o s caller .compareExchange = some (s', pc')) :
    DrainInv s' (l ++ pc' :: r) := by
  simp only [execSendPost] at h
  split at h <;> cases h
  · next hbusy =>
    obtain ⟨hmode, -, -, hreset, hmis, hafter, hdisc, hmap⟩ := hI
    have hnext := caller.next_onSendPath .success
    obtain ⟨hwill, hkeep, hresetting, hmistyped⟩ := willSend_of_offSendPath hnext
    -- somebody owns the mode; by the load lemmas that owner will still send
    have howner := hmode hbusy
    have hwl := load_sending_le_willSend l
    have hwr := load_sending_le_willSend r
    have hkl := load_sending_le_willKeep l
    have hkr := load_sending_le_willKeep r
    simp only [load_append, load_cons, Pc.sending, Pc.unreset, Pc.resetting, Pc.mistyped,
      Pc.afterRelease] at howner hreset hmis hafter
    refine ⟨?_, ?_, ?_, ?_, ?_, ?_, hdisc, hmap⟩ <;>
      simp only [load_append, load_cons, hwill, hkeep, hresetting, hmistyped,
        sending_of_offSendPath hnext, unreset_of_offSendPath hnext, caller.next_afterRelease]
    · omega
    · omega
    · intro hne
      have hnone := mt hreset hne
      omega
    · exact hreset
    · exact hmis
    · exact hafter
  -- the thread stays on the send path, now as the owner
  · next hfree =>
    obtain ⟨-, hqueue, hres, hreset, hmis, hafter, hdisc, hmap⟩ := hI
    simp only [load_append, load_cons] at hqueue hres hreset hmis hafter
    refine ⟨fun _ => ?_, ?_, ?_, ?_, ?_, ?_, hdisc, hmap⟩ <;> simp only [load_append, load_cons]
    · simp only [Pc.sending]
      omega
    · exact hqueue
    · exact hres
    · exact hreset
    · exact hmis
    · exact hafter

/-- The reset gives up the ownership; the thread has not finished yet. -/
theorem resetIoMode_drainInv {caller : SendPostCaller}
    (hI : DrainInv s (l ++ .sendPost .resetIoMode caller :: r))
    (h : execSendPost o s caller .resetIoMode = some (s', pc')) :
    DrainInv s' (l ++ pc' :: r) := by
  cases h
  obtain ⟨-, hqueue, hres, hreset, hmis, hafter, hdisc, hmap⟩ := hI
  simp only [load_append, load_cons] at hqueue hres hreset hmis hafter
  refine ⟨fun h => IoMode.noConfusion h, ?_, ?_, ?_, ?_, ?_, hdisc, hmap⟩ <;>
    simp only [load_append, load_cons]
  · exact hqueue
  · exact hres
  · intro hone
    refine hreset ?_
    simp only [Pc.resetting] at hone ⊢
    omega
  · exact hmis
  · exact hafter

/-- The second look at the queue: a thread that finds it empty has nothing to
send, and `reservedBuffer` was empty when it gave up the ownership. -/
theorem retestSendQueue_drainInv {caller : SendPostCaller}
    (hI : DrainInv s (l ++ .sendPost .retestSendQueue caller :: r))
    (h : execSendPost o s caller .retestSendQueue = some (s', pc')) :
    DrainInv s' (l ++ pc' :: r) := by
  simp only [execSendPost] at h
  split at h <;> cases h
  · next hempty =>
    obtain ⟨hmode, -, hres, hreset, hmis, hafter, hdisc, hmap⟩ := hI
    have hnext := caller.next_onSendPath .success
    obtain ⟨hwill, hkeep, hresetting, hmistyped⟩ := willSend_of_offSendPath hnext
    simp only [load_append, load_cons] at hmode hres hreset hmis hafter
    refine ⟨?_, ?_, ?_, ?_, ?_, ?_, hdisc, hmap⟩ <;>
      simp only [load_append, load_cons, hwill, hkeep, hresetting, hmistyped,
        sending_of_offSendPath hnext, unreset_of_offSendPath hnext, caller.next_afterRelease]
    · exact hmode
    · exact fun hne => absurd (List.isEmpty_iff.mp hempty) hne
    · exact hres
    · exact hreset
    · exact hmis
    · exact hafter
  · exact hI.keep rfl rfl rfl hI.inSessionMap
      ⟨Nat.le_refl _, Nat.le_refl _, Nat.zero_le _, Nat.le_refl _, rfl, rfl⟩

/-- `MakeSendStream` is the owner's, so nobody else is about to reset. -/
theorem makeSendStream_drainInv {caller : SendPostCaller}
    (hsend : SendInv s (l ++ .sendPost .makeSendStream caller :: r))
    (hI : DrainInv s (l ++ .sendPost .makeSendStream caller :: r))
    (h : execSendPost o s caller .makeSendStream = some (s', pc')) :
    DrainInv s' (l ++ pc' :: r) := by
  -- a thread that resets would be a second owner
  have howners := hsend.owners
  have hle := s.ioMode.owners_le
  have hrl := load_mono resetting_le_sending l
  have hrr := load_mono resetting_le_sending r
  obtain ⟨-, -, -, -, hmis, hafter, hdisc, hmap⟩ := hI
  simp only [load_append, load_cons, Pc.sending, Pc.mistyped, Pc.afterRelease]
    at howners hmis hafter
  simp only [execSendPost] at h
  repeat' split at h
  · cases h
  · cases h
  · cases h
    refine ⟨fun _ => ?_, fun _ => ?_, fun _ => ?_, fun hone => ?_, ?_, ?_, hdisc, hmap⟩
    · simp only [load_append, load_cons, Pc.sending]
      omega
    · simp only [load_append, load_cons, Pc.willSend]
      omega
    · simp only [load_append, load_cons, Pc.willKeep, Pc.willSend]
      omega
    · simp only [load_append, load_cons, Pc.resetting] at hone
      omega
    · simp only [load_append, load_cons, Pc.mistyped, IoContext.isSend, decide_true, if_true]
      exact hmis
    · simp only [load_append, load_cons, Pc.afterRelease]
      exact hafter

/-- A posted send takes over from the thread, which starts over as well. -/
theorem rioSend_drainInv {context : IoContext} {caller : SendPostCaller}
    (hok : o.ok = true)
    (hI : DrainInv s (l ++ .sendPost (.rioSend context) caller :: r))
    (h : execSendPost o s caller (.rioSend context) = some (s', pc')) :
    DrainInv s' (l ++ pc' :: r) := by
  obtain ⟨-, -, -, hreset, hmis, hafter, hdisc, hmap⟩ := hI
  simp only [load_append, load_cons, Pc.resetting, Pc.mistyped, Pc.afterRelease]
    at hreset hmis hafter
  -- no thread carries a context of another type
  have hcontext : context.isSend = true := by
    by_contra hnot
    rw [if_neg hnot] at hmis
    omega
  simp only [execSendPost, if_pos hok] at h
  cases h
  have hcount : (s.outstanding ++ [context]).countP IoContext.isSend = s.sends + 1 := by
    rw [List.countP_append, List.countP_singleton, if_pos hcontext]
    rfl
  refine ⟨fun _ => ?_, fun _ => ?_, fun _ => ?_, ?_, ?_, ?_, hdisc, hmap⟩
  · simp only [State.sends, hcount]
    omega
  · simp only [State.sends, hcount]
    omega
  · simp only [State.sends, hcount]
    omega
  · simp only [load_append, load_cons, Pc.resetting]
    exact hreset
  · simp only [load_append, load_cons, Pc.mistyped]
    omega
  · simp only [load_append, load_cons, Pc.afterRelease]
    exact hafter

/-- `SendPost` stops only if the packets are somebody else's to send. -/
theorem execSendPost_drainInv {pc : SendPostPc} {caller : SendPostCaller}
    (hsend : SendInv s (l ++ .sendPost pc caller :: r))
    (hG : DeliveryGuard (.sendPost pc caller) o s (l ++ .sendPost pc caller :: r))
    (hI : DrainInv s (l ++ .sendPost pc caller :: r))
    (h : execSendPost o s caller pc = some (s', pc')) : DrainInv s' (l ++ pc' :: r) := by
  cases pc with
  | compareExchange => exact compareExchange_drainInv hI h
  | testSendQueue =>
    simp only [execSendPost] at h
    split at h <;> cases h <;> exact hI.keep rfl rfl rfl hI.inSessionMap
      ⟨Nat.le_refl _, Nat.le_refl _, Nat.le_refl _, Nat.le_refl _, rfl, rfl⟩
  | testReservedBuffer =>
    simp only [execSendPost] at h
    split at h <;> cases h
    · next hnone =>
      obtain ⟨hmode, hqueue, -, -, hmis, hafter, hdisc, hmap⟩ := hI
      have hnone := Option.isNone_iff_eq_none.mp hnone
      simp only [load_append, load_cons] at hmode hqueue hmis hafter
      refine ⟨?_, ?_, fun hne => absurd hnone hne, fun _ => hnone, ?_, ?_, hdisc, hmap⟩ <;>
        simp only [load_append, load_cons]
      · exact hmode
      · exact hqueue
      · exact hmis
      · exact hafter
    · exact hI.keep rfl rfl rfl hI.inSessionMap
        ⟨Nat.le_refl _, Nat.le_refl _, Nat.le_refl _, Nat.le_refl _, rfl, rfl⟩
  | resetIoMode => exact resetIoMode_drainInv hI h
  | retestSendQueue => exact retestSendQueue_drainInv hI h
  | makeSendStream => exact makeSendStream_drainInv hsend hI h
  | incrementIoCount context =>
    cases h
    have hmis := hI.mistyped
    simp only [load_append, load_cons] at hmis
    have hself : (Pc.sendPost (.incrementIoCount context) caller).mistyped = 0 := by omega
    exact hI.keep rfl rfl rfl hI.inSessionMap
      ⟨Nat.le_refl _, Nat.le_refl _, Nat.le_refl _, Nat.le_refl _, hself, rfl⟩
  | rioSend context => exact rioSend_drainInv hG hI h

/-- A queued packet is sent by the thread that queued it, or by another. -/
theorem execSendPacket_drainInv {pc : SendPacketPc} {isEncoded : Bool} {packet : NetBuffer}
    (hG : DeliveryGuard (.sendPacket pc isEncoded packet) o s
      (l ++ .sendPacket pc isEncoded packet :: r))
    (hI : DrainInv s (l ++ .sendPacket pc isEncoded packet :: r))
    (h : execSendPacket spec s isEncoded packet pc = some (s', pc')) :
    DrainInv s' (l ++ pc' :: r) := by
  cases pc with
  | setSendDisconnect => exact hG.elim
  | enqueue =>
    cases h
    obtain ⟨hmode, -, hres, hreset, hmis, hafter, hdisc, hmap⟩ := hI
    simp only [load_append, load_cons] at hmode hres hreset hmis hafter
    refine ⟨?_, fun _ => ?_, fun hne => ?_, ?_, ?_, ?_, hdisc, hmap⟩ <;>
      simp only [load_append, load_cons]
    · exact hmode
    · simp only [Pc.willSend]
      omega
    · have := hres hne
      simp only [Pc.willKeep, Pc.willSend, Pc.unreset, State.sends] at this ⊢
      omega
    · exact hreset
    · exact hmis
    · exact hafter
  | _ =>
    revert h
    simp only [execSendPacket]
    repeat' split
    all_goals rintro ⟨⟩
    all_goals
      exact hI.keep rfl rfl rfl hI.inSessionMap
        ⟨Nat.le_refl _, Nat.le_refl _, Nat.le_refl _, Nat.le_refl _, rfl, rfl⟩

/-- The worker brings every completed send to `SendPost`. -/
theorem execWorker_drainInv {pc : WorkerPc} (hpath : (Pc.worker pc).onSendPath = true)
    (hreach : (server spec).Reachable server.init ⟨s, l ++ .worker pc :: r⟩)
    (hG : DeliveryGuard (.worker pc) o s (l ++ .worker pc :: r))
    (hI : DrainInv s (l ++ .worker pc :: r))
    (h : execWorker spec s pc = some (s', pc')) : DrainInv s' (l ++ pc' :: r) := by
  cases pc with
  | getIoCompletedContext context bytes =>
    have hpub : s.published = true :=
      (publication hreach).published_of_mem (List.mem_append_right l List.mem_cons_self) id
    simp only [execWorker] at h
    split at h
    · cases h
    · rw [if_pos (hI.inSessionMap hpub)] at h
      cases h
      exact hI.keep rfl rfl rfl hI.inSessionMap
        ⟨Nat.le_refl _, Nat.le_refl _, Nat.le_refl _, Nat.le_refl _, rfl, rfl⟩
  | testTransferred context bytes =>
    have hcancle := (flags_false hreach).1
    by_cases hsend : context.isSend = true
    · have htype : context.ioType = .opSend := of_decide_eq_true hsend
      simp only [execWorker] at h
      rw [if_neg (by simp [hG hsend, show s.ioCancle = false from hcancle]), htype] at h
      cases h
      refine hI.keep rfl rfl rfl hI.inSessionMap ⟨?_, ?_, ?_, Nat.le_refl _, rfl, rfl⟩ <;>
        simp [Pc.sending, Pc.unreset, Pc.willSend, Pc.willKeep, hsend]
    · have hself : (Pc.worker (.testTransferred context bytes)).unreset = 0 := if_neg hsend
      have hoff : pc'.onSendPath = false ∧ pc'.afterRelease = 0 ∧ s'.toSession = s.toSession ∧
          s'.outstanding = s.outstanding ∧ s'.published = s.published ∧
          s'.inSessionMap = s.inSessionMap := by
        simp only [execWorker] at h
        repeat' split at h
        · cases h
          exact ⟨rfl, rfl, rfl, rfl, rfl, rfl⟩
        · cases h
          exact ⟨rfl, rfl, rfl, rfl, rfl, rfl⟩
        · next htype =>
          exact absurd (by simp [IoContext.isSend, htype]) hsend
        · cases h
          exact ⟨rfl, rfl, rfl, rfl, rfl, rfl⟩
      obtain ⟨hoff, hafter, hsession, hout, hpub, hmap⟩ := hoff
      obtain ⟨-, -, hresetting, hmistyped⟩ := willSend_of_offSendPath hoff
      refine hI.keep (congrArg Session.toSendItem hsession) (congrArg (List.countP _) hout)
        (congrArg Session.sendDisconnect hsession) (by rw [hpub, hmap]; exact hI.inSessionMap)
        ⟨?_, ?_, ?_, ?_, hmistyped, hafter⟩
      · show 0 + (Pc.worker (.testTransferred context bytes)).unreset ≤ _
        omega
      · show (Pc.worker (.testTransferred context bytes)).unreset ≤ _
        omega
      · show (Pc.worker (.testTransferred context bytes)).unreset ≤ _
        omega
      · rw [hresetting]
        exact Nat.zero_le _
  | sendIoCompleted context =>
    cases h
    obtain ⟨-, -, -, hreset, hmis, hafter, hdisc, hmap⟩ := hI
    simp only [load_append, load_cons] at hreset hmis hafter
    refine ⟨fun h => IoMode.noConfusion h, fun _ => ?_, fun _ => ?_, ?_, ?_, ?_, hdisc, hmap⟩ <;>
      simp only [load_append, load_cons, Pc.willSend, Pc.willKeep]
    · omega
    · omega
    · exact hreset
    · exact hmis
    · exact hafter
  | sendCompleted context =>
    simp only [execWorker, hI.sendDisconnect] at h
    cases h
    exact hI.keep rfl rfl rfl hI.inSessionMap
      ⟨Nat.le_refl _, Nat.le_refl _, Nat.le_refl _, Nat.le_refl _, rfl, rfl⟩
  | disconnect context =>
    simp only [execWorker] at h
    split at h <;> cases h
    exact hI.keep rfl rfl rfl hI.inSessionMap
      ⟨Nat.le_refl _, Nat.le_refl _, Nat.le_refl _, Nat.le_refl _, rfl, rfl⟩
  | _ => cases hpath

/-- **One guarded action leaves nothing behind.** -/
theorem exec_drainInv (hreach : (server spec).Reachable server.init ⟨s, l ++ pc :: r⟩)
    (hG : DeliveryGuard pc o s (l ++ pc :: r)) (hI : DrainInv s (l ++ pc :: r))
    (h : exec spec pc o s = some (s', pc')) : DrainInv s' (l ++ pc' :: r) := by
  cases hpath : pc.onSendPath with
  | false =>
    have hafter := hI.afterRelease
    simp only [load_append, load_cons] at hafter
    obtain ⟨hs, hpc'⟩ := exec_sendFrame hpath h
    obtain ⟨hmap, hafter'⟩ := exec_inSessionMap hpath (by omega) hG hI.inSessionMap h
    exact hI.keep hs.sendItem hs.sends hs.sendDisconnect hmap (.of_off hpath hpc' hafter')
  | true =>
    cases pc with
    | sendPacket pc isEncoded packet => exact execSendPacket_drainInv hG hI h
    | sendPost pc caller => exact execSendPost_drainInv (sendInv hreach) hG hI h
    | worker pc => exact execWorker_drainInv hpath hreach hG hI h
    | _ => cases hpath

/-- A completion passes from the requests to the worker; a new sender owes
nothing before it has queued its packet. -/
theorem spawn_drainInv {ts : List Pc} {e : Event} (hI : DrainInv s ts)
    (h : spawn e s = some (s', pc)) : DrainInv s' (ts ++ [pc]) := by
  obtain ⟨hmode, hqueue, hres, hreset, hmis, hafter, hdisc, hmap⟩ := hI
  cases e with
  | completion i bytes =>
    obtain ⟨context, -, hi, -, rfl, rfl⟩ := spawn_completion h
    have hcount := countP_eraseIdx IoContext.isSend hi
    unfold State.sends at hmode hqueue hres
    refine ⟨fun h => ?_, fun h => ?_, fun h => ?_, ?_, ?_, ?_, hdisc, hmap⟩ <;>
      simp only [load_append, load_cons, load_nil, State.sends, Pc.willSend, Pc.willKeep,
        Pc.unreset]
    · have := hmode h
      omega
    · have := hqueue h
      omega
    · have := hres h
      omega
    · exact hreset
    · exact hmis
    · exact hafter
  | _ =>
    obtain ⟨-, rfl, rfl⟩ := Option.ite_none_right_eq_some.mp h
    refine ⟨?_, ?_, ?_, ?_, ?_, ?_, hdisc, hmap⟩ <;>
      simp only [load_append, load_cons, load_nil]
    · exact hmode
    · exact hqueue
    · exact hres
    · exact hreset
    · exact hmis
    · exact hafter

/-! ## Every run -/

/-- Somebody is still to send what is queued, along every guarded run. -/
theorem drainInv {c : Config State Pc} (h : (server spec).Run DeliveryGuard server.init c) :
    DrainInv c.shared c.threads :=
  Run.induct h
    ⟨fun h => IoMode.noConfusion h, fun h => absurd rfl h, fun h => absurd rfl h, fun _ => rfl,
      rfl, rfl, rfl, fun h => Bool.noConfusion h⟩
    (fun hrun hI hG hexec => exec_drainInv hrun.anywhere hG hI hexec)
    (fun _ hI hspawn => spawn_drainInv hI hspawn)

/-- No thread is inside `SendPost` or `SendIOCompleted`, and no send is
outstanding or on its way through the worker. -/
structure Quiescent (c : Config State Pc) : Prop where
  no_sender : ∀ pc ∈ c.threads, pc.willSend = 0
  no_send : ∀ context ∈ c.shared.outstanding, context.ioType ≠ .opSend

theorem willKeep_le_willSend (pc : Pc) : pc.willKeep ≤ pc.willSend := by
  fun_cases Pc.willKeep pc with
  | case1 | case2 => exact Nat.zero_le _
  | case3 => exact Nat.le_refl _

/-- A quiescent session has nothing to send. -/
theorem DrainInv.drained {c : Config State Pc} (hI : DrainInv c.shared c.threads)
    (hq : Quiescent c) : c.shared.sendQueue = [] ∧ c.shared.reservedBuffer = none := by
  have hsends : c.shared.sends = 0 := by
    refine List.countP_eq_zero.mpr fun context hmem hsend => ?_
    exact hq.no_send context hmem (of_decide_eq_true hsend)
  have hwill : load Pc.willSend c.threads = 0 := load_eq_zero_iff.mpr hq.no_sender
  have hkeep := load_mono willKeep_le_willSend c.threads
  constructor
  · by_contra hne
    have := hI.sendQueue hne
    omega
  · by_contra hne
    have := hI.reservedBuffer hne
    omega

/-- While a send is outstanding no step writes the send buffers. -/
theorem buffers_untouched {c c' : Config State Pc} {a : Act Oracle Event}
    (hI : SendInv c.shared c.threads) (hsend : c.shared.sendsNotReset ≠ 0)
    (h : (server spec).step c a = some c') :
    c'.shared.rioSendBuffer = c.shared.rioSendBuffer ∧
      c'.shared.reservedBuffer = c.shared.reservedBuffer := by
  rcases step_cases _ h with ⟨l, pc, r, o, s', pc', rfl, hts, hexec, rfl⟩ |
    ⟨e, s', pc, rfl, hspawn, rfl⟩
  · refine exec_untouched ?_ hexec
    by_contra htouch
    have hzero := (hI.exclusive.2 pc (by simp [hts]) (by simpa using htouch)).1
    exact hsend hzero
  · rw [(spawn_frame hspawn).1]
    exact ⟨rfl, rfl⟩

/-- **The send protocol**: in every run at most one thread or posted send owns
the send buffers, and nobody else touches them; and in runs in which sends go
well a quiescent session has sent everything. -/
theorem send_protocol (spec : NetBufferSpec) :
    (∀ c, (server spec).Reachable server.init c →
      load Pc.sending c.threads + c.shared.sendsNotReset ≤ 1 ∧
      (∀ pc ∈ c.threads, pc.touchesSendBuffers = true → c.shared.sendsNotReset = 0 ∧
        ∀ context ∈ c.shared.outstanding, context.ioType ≠ .opSend) ∧
      ∀ a c', c.shared.sendsNotReset ≠ 0 → (server spec).step c a = some c' →
        c'.shared.rioSendBuffer = c.shared.rioSendBuffer ∧
          c'.shared.reservedBuffer = c.shared.reservedBuffer) ∧
    (∀ c, (server spec).Run DeliveryGuard server.init c → Quiescent c →
      c.shared.sendQueue = [] ∧ c.shared.reservedBuffer = none) := by
  refine ⟨fun c hreach => ?_, fun c hrun hq => (drainInv hrun).drained hq⟩
  have hI := sendInv hreach
  exact ⟨hI.exclusive.1, hI.exclusive.2, fun _ _ hsend hstep => buffers_untouched hI hsend hstep⟩

/-- One packet, sent and completed: the session is quiescent and empty. -/
theorem send_protocol_one_packet :
    ∃ c, c.shared.enqueued.length = 1 ∧ (server plainSpec).Run DeliveryGuard server.init c ∧
      load Pc.sending c.threads + c.shared.sendsNotReset ≤ 1 ∧ Quiescent c ∧
      c.shared.sendQueue = [] := by
  obtain ⟨c, hrun, hc⟩ := exists_run (server plainSpec) DeliveryGuard server.init
    (server.accept ++ .event (.sendPacket true [119, 1, 0, 0, 0, 7]) ::
      List.replicate 8 (.run 1 ⟨true, 1⟩) ++ .event (.completion 1 [119, 1, 0, 0, 0, 7]) ::
      List.replicate 12 (.run 2 ⟨true, 2⟩))
    (P := fun c => c.shared.enqueued.length = 1 ∧
      (∀ pc ∈ c.threads, pc.willSend = 0) ∧
      ∀ context ∈ c.shared.outstanding, context.ioType ≠ .opSend) (by decide +kernel)
  obtain ⟨hone, hsender, hsend⟩ := hc
  have hq : Quiescent c := ⟨hsender, hsend⟩
  exact ⟨c, hone, hrun, ((send_protocol plainSpec).1 c hrun.anywhere).1, hq,
    ((send_protocol plainSpec).2 c hrun hq).1⟩

end RioServer
