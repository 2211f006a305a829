import RioServer.Client.Freed

/-!
# The order of the DB client's sends

As long as no `WSASend` fails and the session is not released (`SendGuard`),
`IOMode` is `SENDING` only while someone keeps the store. Then the posted buffers,
those in the hands of the thread in `SendPost` and those in `SendQ` are the
enqueued ones in order, and whoever enqueues finds the exchange of `IOMode` free
or leaves the buffer to the one who will reset it: `SendQ` is never left with
buffers that nobody attends to.
-/

namespace RioServer.Client

open Machine

variable {spec : ClientSpec} {o : CallResult} {s s' : State} {pc pc' : Pc} {l r : List Pc}
  {inStore : List Nat}

/-- Every `WSASend` succeeds, and no decrement reaches zero. -/
def SendGuard : Guard State Pc CallResult := fun pc o s _ =>
  match pc with
  | .sendPost (.wsaSend _) _ => o = .success
  | .ioCountDecrement _ => s.ioCount ≠ 1
  | _ => True

instance (pc : Pc) (o : CallResult) (s : State) (ts : List Pc) :
    Decidable (SendGuard pc o s ts) :=
  decidable_of_iff
    ((match pc with
      | .sendPost (.wsaSend _) _ => decide (o = .success)
      | .ioCountDecrement _ => decide (s.ioCount ≠ 1)
      | _ => true) = true)
    (by unfold SendGuard; split <;> simp)

/-- The buffers a thread in `SendPost` has taken out of `SendQ` and not posted. -/
def Pc.inHand : Pc → List Nat
  | .sendPost (.dequeue _ _ wsaSendBuf) _ | .sendPost (.ioCountIncrement wsaSendBuf) _
  | .sendPost (.wsaSend wsaSendBuf) _ => wsaSendBuf
  | _ => []

/-- A worker with the completion of a send that has not reset `IOMode`. -/
def Pc.unreset : Pc → Nat
  | .worker (.recvCompleted _) => 0
  | .worker _ => 1
  | _ => 0

/-- In `SendPost`, or on the way to it with the completion of a send. -/
def Pc.attends : Pc → Nat
  | .sendPost _ _ => 1
  | pc => pc.unreset

/-- What holds while the connection is up and no `WSASend` has failed. -/
structure Flowing (s : State) (ts : List Pc) : Prop where
  sock : s.sock = .connected
  bIsConnect : s.bIsConnect = true
  unlisted : s.sessionReconnectIdList = 0
  present : load Pc.releasing ts + load Pc.taken ts = 0
  unstuck : load Pc.keeper ts = 0 → s.outstandingSend = [] → s.ioMode = .nonSending
  order : s.posts.flatten ++ ts.flatMap Pc.inHand ++ s.sendQ = s.enqueued
  capped : ∀ post ∈ s.posts, post.length ≤ iocpOneSendWsabufMax
  attended : s.sendQ ≠ [] → 1 ≤ load Pc.attends ts + s.outstandingSend.length

/-! ## Threads that hold nothing -/

theorem freeing_le_releasing (pc : Pc) : pc.freeing ≤ pc.releasing := by
  fun_cases Pc.freeing pc <;> simp [Pc.releasing]

theorem keeper_le_attends (pc : Pc) : pc.keeper ≤ pc.attends + pc.releasing := by
  cases pc with
  | sendPost pc caller => exact Nat.le_trans (Pc.keeper_le _) (Nat.le_refl 1)
  | release pc site => exact Pc.keeper_le _
  | worker pc => cases pc <;> exact Nat.le_refl _
  | _ => exact Nat.zero_le _

theorem inHand_of_not_keeper (h : pc.keeper = 0) : pc.inHand = [] := by
  revert h
  fun_cases Pc.inHand pc <;> intro h <;> first | rfl | cases h

theorem flatMap_inHand_of_not_keeper {ts : List Pc} (h : load Pc.keeper ts = 0) :
    ts.flatMap Pc.inHand = [] :=
  List.flatMap_eq_nil_iff.mpr fun pc hpc => inHand_of_not_keeper (load_eq_zero_iff.mp h pc hpc)

/-- A connected session keeps to the guard of the store. -/
theorem Flowing.storeGuard (hF : Flowing s (l ++ pc :: r))
    (hG : SendGuard pc o s (l ++ pc :: r)) : StoreGuard pc o s (l ++ pc :: r) := by
  have hpresent := hF.present
  have hfree : load Pc.freeing (l ++ pc :: r) = 0 := by
    have := load_mono freeing_le_releasing (l ++ pc :: r)
    omega
  cases pc with
  | ioCountDecrement site => exact fun hone => absurd hone hG
  | sendPost pc caller =>
    cases pc with
    | compareExchange => exact fun _ => hfree
    | _ => trivial
  | sendPacketImpl buf => exact ⟨hF.bIsConnect, hfree⟩
  | _ => trivial

/-! ## One action -/

/-- What an action off the send path leaves alone. -/
structure FlowFrame (s s' : State) : Prop where
  sock : s'.sock = s.sock
  bIsConnect : s'.bIsConnect = s.bIsConnect
  unlisted : s'.sessionReconnectIdList = s.sessionReconnectIdList
  ioMode : s'.ioMode = s.ioMode
  outstandingSend : s'.outstandingSend = s.outstandingSend
  posts : s'.posts = s.posts
  sendQ : s'.sendQ = s.sendQ
  enqueued : s'.enqueued = s.enqueued

/-- The thread is neither in `ReleaseSession` nor reconnecting. -/
def Pc.present (pc : Pc) : Prop := pc.releasing = 0 ∧ pc.taken = 0

theorem Flowing.present_self (hF : Flowing s (l ++ pc :: r)) : pc.present := by
  have hpresent := hF.present
  simp only [load_append, load_cons] at hpresent
  exact ⟨by omega, by omega⟩

theorem Flowing.present_next (hF : Flowing s (l ++ pc :: r)) (hpc' : pc'.present) :
    load Pc.releasing (l ++ pc' :: r) + load Pc.taken (l ++ pc' :: r) = 0 := by
  have hpresent := hF.present
  obtain ⟨hreleasing, htaken⟩ := hpc'
  simp only [load_append, load_cons] at hpresent ⊢
  omega

/-- An action that does not touch what is sent. A thread may stop attending to
`SendQ` if it is empty or someone else attends to it. -/
theorem Flowing.frame (hF : Flowing s (l ++ pc :: r)) (h : FlowFrame s s')
    (hpc' : pc'.present) (hkeeper : pc'.keeper = pc.keeper) (hhand : pc'.inHand = pc.inHand)
    (hattends : pc'.attends = pc.attends ∨ s.sendQ = [] ∨
      1 ≤ load Pc.attends l + load Pc.attends r + s.outstandingSend.length) :
    Flowing s' (l ++ pc' :: r) where
  sock := h.sock.trans hF.sock
  bIsConnect := h.bIsConnect.trans hF.bIsConnect
  unlisted := h.unlisted.trans hF.unlisted
  present := hF.present_next hpc'
  unstuck hload hsend := by
    rw [h.ioMode]
    refine hF.unstuck ?_ (h.outstandingSend ▸ hsend)
    simp only [load_append, load_cons, hkeeper] at hload ⊢
    exact hload
  order := by
    rw [h.posts, h.sendQ, h.enqueued, ← hF.order]
    simp only [List.flatMap_append, List.flatMap_cons, hhand]
  capped := by
    rw [h.posts]
    exact hF.capped
  attended hqueue := by
    rw [h.sendQ] at hqueue
    have hattended := hF.attended hqueue
    rw [h.outstandingSend]
    simp only [load_append, load_cons] at hattended ⊢
    rcases hattends with hsame | hempty | hothers
    · omega
    · exact absurd hempty hqueue
    · omega

/-- `IOMode` is reset by a thread that attends to `SendQ` afterwards. -/
theorem Flowing.reset (hF : Flowing s (l ++ pc :: r)) (hpc' : pc'.present)
    (hhand : pc'.inHand = pc.inHand) (hattends : pc'.attends = 1) :
    Flowing { s with ioMode := .nonSending } (l ++ pc' :: r) where
  sock := hF.sock
  bIsConnect := hF.bIsConnect
  unlisted := hF.unlisted
  present := hF.present_next hpc'
  unstuck _ _ := rfl
  order := by
    rw [← hF.order]
    simp only [List.flatMap_append, List.flatMap_cons, hhand]
  capped := hF.capped
  attended _ := by
    simp only [load_append, load_cons, hattends]
    omega

/-- A thread starts with nothing of what is sent. -/
theorem Flowing.started {ts : List Pc} (hF : Flowing s ts) (h : FlowFrame s s')
    (hpc : pc.present) (hkeeper : pc.keeper = 0) (hhand : pc.inHand = []) :
    Flowing s' (ts ++ [pc]) where
  sock := h.sock.trans hF.sock
  bIsConnect := h.bIsConnect.trans hF.bIsConnect
  unlisted := h.unlisted.trans hF.unlisted
  present := by
    have hpresent := hF.present
    obtain ⟨hreleasing, htaken⟩ := hpc
    simp only [load_append, load_cons, load_nil, hreleasing, htaken]
    omega
  unstuck hload hsend := by
    rw [h.ioMode]
    refine hF.unstuck ?_ (h.outstandingSend ▸ hsend)
    simp only [load_append, load_cons, load_nil, hkeeper] at hload
    omega
  order := by
    rw [h.posts, h.sendQ, h.enqueued, ← hF.order]
    simp only [List.flatMap_append, List.flatMap_cons, List.flatMap_nil, hhand, List.append_nil]
  capped := by
    rw [h.posts]
    exact hF.capped
  attended hqueue := by
    rw [h.sendQ] at hqueue
    have hattended := hF.attended hqueue
    rw [h.outstandingSend, load_append]
    omega

theorem RecvPostCaller.next_present {caller : RecvPostCaller} (hcaller : caller ≠ .reconnecter)
    (retval : PostRetval) : (caller.next retval).present ∧ (caller.next retval).keeper = 0 ∧
      (caller.next retval).inHand = [] ∧ (caller.next retval).attends = 0 := by
  cases caller with
  | start => exact ⟨⟨rfl, rfl⟩, rfl, rfl, rfl⟩
  | worker => cases retval <;> exact ⟨⟨rfl, rfl⟩, rfl, rfl, rfl⟩
  | reconnecter => exact absurd rfl hcaller

theorem SendPostCaller.next_present (caller : SendPostCaller) (retval : PostRetval) :
    (caller.next retval).present ∧ (caller.next retval).keeper = 0 ∧
      (caller.next retval).inHand = [] ∧ (caller.next retval).attends = 0 := by
  cases caller with
  | sendPacketImpl => exact ⟨⟨rfl, rfl⟩, rfl, rfl, rfl⟩
  | worker => cases retval <;> exact ⟨⟨rfl, rfl⟩, rfl, rfl, rfl⟩

/-- Receiving does not touch what is sent. -/
theorem execRecvPost_flowing {pc : RecvPostPc} {caller : RecvPostCaller}
    (hF : Flowing s (l ++ .recvPost pc caller :: r))
    (h : execRecvPost spec o s caller pc = (s', pc')) : Flowing s' (l ++ pc' :: r) := by
  have hcaller : caller ≠ .reconnecter := by
    rintro rfl
    have htaken := hF.present_self.2
    cases pc <;> cases htaken
  have hat : ∀ q, (Pc.recvPost q caller).present := by
    intro q
    cases caller with
    | reconnecter => exact absurd rfl hcaller
    | _ => cases q <;> exact ⟨rfl, rfl⟩
  have hdecrement : (Pc.ioCountDecrement (.ringFull caller)).present ∧
      (Pc.ioCountDecrement (.recvFailed caller)).present := by
    cases caller with
    | reconnecter => exact absurd rfl hcaller
    | _ => exact ⟨⟨rfl, rfl⟩, rfl, rfl⟩
  obtain ⟨hpresent, hkeeper, hhand, hattends⟩ := RecvPostCaller.next_present hcaller .complete
  revert h
  fun_cases execRecvPost spec o s caller pc <;> rintro ⟨⟩
  · exact hF.frame ⟨rfl, rfl, rfl, rfl, rfl, rfl, rfl, rfl⟩ hdecrement.1 rfl rfl (.inl rfl)
  · exact hF.frame ⟨rfl, rfl, rfl, rfl, rfl, rfl, rfl, rfl⟩ (hat _) rfl rfl (.inl rfl)
  · exact hF.frame ⟨rfl, rfl, rfl, rfl, rfl, rfl, rfl, rfl⟩ (hat _) rfl rfl (.inl rfl)
  · exact hF.frame ⟨rfl, rfl, rfl, rfl, rfl, rfl, rfl, rfl⟩ hpresent hkeeper hhand
      (.inl hattends)
  · exact hF.frame ⟨rfl, rfl, rfl, rfl, rfl, rfl, rfl, rfl⟩ hdecrement.2 rfl rfl (.inl rfl)

/-- While `IOMode` is `SENDING`, someone attends to `SendQ`. -/
theorem Flowing.attended_of_sending {ts : List Pc} (hF : Flowing s ts)
    (hmode : s.ioMode = .sending) : 1 ≤ load Pc.attends ts + s.outstandingSend.length := by
  by_contra hnone
  have hle := load_mono keeper_le_attends ts
  rw [load_add] at hle
  have hpresent := hF.present
  have hfree := hF.unstuck (by omega) (List.length_eq_zero_iff.mp (by omega))
  rw [hmode] at hfree
  cases hfree

/-- `SendPost` hands on the buffers in the order of `SendQ`. -/
theorem execSendPost_flowing {pc : SendPostPc} {caller : SendPostCaller}
    (hC : Custody s (l ++ .sendPost pc caller :: r) inStore)
    (hF : Flowing s (l ++ .sendPost pc caller :: r))
    (hG : SendGuard (.sendPost pc caller) o s (l ++ .sendPost pc caller :: r))
    (h : execSendPost o s caller pc = some (s', pc')) : Flowing s' (l ++ pc' :: r) := by
  obtain ⟨hpresent, hkeeper, hhand, hattends⟩ := caller.next_present .complete
  cases pc with
  | compareExchange =>
    simp only [execSendPost] at h
    split at h <;> cases h
    · -- the one who has won `IOMode` attends to the buffer
      next hmode =>
      have hothers := hF.attended_of_sending hmode
      have hsplit : 1 ≤ load Pc.attends (l ++ r) + s.outstandingSend.length := by
        by_contra hnone
        have hle := load_mono keeper_le_attends (l ++ r)
        rw [load_add] at hle
        have hpres := hF.present
        have hself : (Pc.sendPost .compareExchange caller).keeper = 0 := rfl
        simp only [load_append, load_cons] at hpres hle hnone
        have hfree := hF.unstuck (by simp only [load_append, load_cons]; omega)
          (List.length_eq_zero_iff.mp (by omega))
        rw [hmode] at hfree
        cases hfree
      rw [load_append] at hsplit
      exact hF.frame ⟨rfl, rfl, rfl, rfl, rfl, rfl, rfl, rfl⟩ hpresent hkeeper hhand
        (.inr (.inr hsplit))
    · refine ⟨hF.sock, hF.bIsConnect, hF.unlisted, hF.present_next ⟨rfl, rfl⟩, fun hload => ?_,
        ?_, hF.capped, fun _ => ?_⟩
      · have hself : (Pc.sendPost .getRestSize caller).keeper = 1 := rfl
        simp only [load_append, load_cons] at hload
        omega
      · rw [← hF.order]
        simp only [List.flatMap_append, List.flatMap_cons]
        rfl
      · have hself : (Pc.sendPost .getRestSize caller).attends = 1 := rfl
        simp only [load_append, load_cons]
        omega
  | retestRestSize =>
    simp only [execSendPost] at h
    split at h <;> cases h
    · exact hF.frame ⟨rfl, rfl, rfl, rfl, rfl, rfl, rfl, rfl⟩ ⟨rfl, rfl⟩ rfl rfl (.inl rfl)
    · next hempty =>
      refine hF.frame ⟨rfl, rfl, rfl, rfl, rfl, rfl, rfl, rfl⟩ hpresent hkeeper hhand
        (.inr (.inl ?_))
      simp only [State.getRestSize] at hempty
      exact List.length_eq_zero_iff.mp (by omega)
  | getRestSize =>
    simp only [execSendPost] at h
    split at h
    · cases h
      exact hF.frame ⟨rfl, rfl, rfl, rfl, rfl, rfl, rfl, rfl⟩ ⟨rfl, rfl⟩ rfl rfl (.inl rfl)
    · rw [if_neg (by simp [State.getRestSize])] at h
      cases h
      exact hF.frame ⟨rfl, rfl, rfl, rfl, rfl, rfl, rfl, rfl⟩ ⟨rfl, rfl⟩ rfl rfl (.inl rfl)
  | resetNegative =>
    obtain ⟨-, -, -, hkeeps⟩ := hC.alone rfl
    exact hkeeps.elim
  | resetIoMode =>
    cases h
    exact hF.reset ⟨rfl, rfl⟩ rfl rfl
  | dequeue i useSize wsaSendBuf =>
    obtain ⟨hl, hr, -, rfl, rfl, huse, -⟩ := hC.alone rfl
    simp only [execSendPost] at h
    split at h
    · cases hqueue : s.sendQ with
      | nil =>
        rw [hqueue, List.length_nil] at huse
        omega
      | cons buf sendQ =>
        rw [hqueue] at h
        cases h
        have horder := hF.order
        refine ⟨hF.sock, hF.bIsConnect, hF.unlisted, hF.present_next ⟨rfl, rfl⟩, fun hload => ?_,
          ?_, hF.capped, fun _ => ?_⟩
        · have hself : (Pc.sendPost (.dequeue (wsaSendBuf.length + 1) useSize
            (wsaSendBuf ++ [buf])) caller).keeper = 1 := rfl
          simp only [load_append, load_cons] at hload
          omega
        · -- the buffer goes from the head of `SendQ` to the end of what is in hand
          simp only [List.flatMap_append, List.flatMap_cons, Pc.inHand, hqueue,
            flatMap_inHand_of_not_keeper hl, flatMap_inHand_of_not_keeper hr] at horder ⊢
          simpa using horder
        · have hself : (Pc.sendPost (.dequeue (wsaSendBuf.length + 1) useSize
            (wsaSendBuf ++ [buf])) caller).attends = 1 := rfl
          simp only [load_append, load_cons]
          omega
    · cases h
      exact hF.frame ⟨rfl, rfl, rfl, rfl, rfl, rfl, rfl, rfl⟩ ⟨rfl, rfl⟩ rfl rfl (.inl rfl)
  | ioCountIncrement wsaSendBuf =>
    cases h
    exact hF.frame ⟨rfl, rfl, rfl, rfl, rfl, rfl, rfl, rfl⟩ ⟨rfl, rfl⟩ rfl rfl (.inl rfl)
  | wsaSend wsaSendBuf =>
    obtain ⟨hl, hr, -, rfl, -, hmax, -⟩ := hC.alone rfl
    have hok : o = .success := hG
    simp only [execSendPost, if_pos (show o = .success ∧ s.sock = .connected from ⟨hok, hF.sock⟩)]
      at h
    cases h
    have horder := hF.order
    refine ⟨hF.sock, hF.bIsConnect, hF.unlisted, hF.present_next ⟨rfl, rfl⟩,
      fun _ hsend => ?_, ?_, ?_, fun _ => ?_⟩
    · exact absurd hsend (by simp)
    · simp only [List.flatMap_append, List.flatMap_cons, Pc.inHand,
        flatMap_inHand_of_not_keeper hl, flatMap_inHand_of_not_keeper hr] at horder ⊢
      simpa using horder
    · intro post hpost
      rcases List.mem_append.mp hpost with hold | hnew
      · exact hF.capped post hold
      · rw [List.mem_singleton.mp hnew]
        exact hmax
    · simp only [List.length_append, List.length_singleton]
      omega

/-- A decrement that does not reach zero. -/
theorem execDecrement_flowing {site : DecrementSite} (hnegative : site.negative = false)
    (hF : Flowing s (l ++ .ioCountDecrement site :: r))
    (hG : SendGuard (.ioCountDecrement site) o s (l ++ .ioCountDecrement site :: r))
    (h : execDecrement s site = (s', pc')) : Flowing s' (l ++ pc' :: r) := by
  have hone : s.ioCount ≠ 1 := hG
  have htaken := hF.present_self.2
  rw [execDecrement, if_neg (by omega)] at h
  cases h
  have hnext : site.otherwise.present ∧ site.otherwise.keeper = 0 ∧
      site.otherwise.inHand = [] ∧ site.otherwise.attends = 0 := by
    cases site with
    | ringFull caller | recvFailed caller =>
      refine RecvPostCaller.next_present ?_ _
      rintro rfl
      cases htaken
    | sendFailed caller => exact caller.next_present _
    | restNegative caller => cases hnegative
    | _ => exact ⟨⟨rfl, rfl⟩, rfl, rfl, rfl⟩
  obtain ⟨hpresent, hkeeper, hhand, hattends⟩ := hnext
  exact hF.frame ⟨rfl, rfl, rfl, rfl, rfl, rfl, rfl, rfl⟩ hpresent hkeeper hhand (.inl hattends)

/-- The worker frees the buffers of the send and goes on to `SendPost`. -/
theorem execWorker_flowing {pc : WorkerPc} (hF : Flowing s (l ++ .worker pc :: r))
    (h : execWorker spec s pc = (s', pc')) : Flowing s' (l ++ pc' :: r) := by
  cases pc with
  | resetIoMode =>
    cases h
    exact hF.reset ⟨rfl, rfl⟩ rfl rfl
  | _ =>
    revert h
    simp only [execWorker]
    repeat' split
    all_goals rintro ⟨⟩
    all_goals
      exact hF.frame ⟨rfl, rfl, rfl, rfl, rfl, rfl, rfl, rfl⟩ ⟨rfl, rfl⟩ rfl rfl (.inl rfl)

/-- **One guarded action** keeps the order of the sends. -/
theorem exec_flowing (hnegative : pc.negative = false) (hC : Custody s (l ++ pc :: r) inStore)
    (hF : Flowing s (l ++ pc :: r)) (hG : SendGuard pc o s (l ++ pc :: r))
    (h : exec spec pc o s = some (s', pc')) : Flowing s' (l ++ pc' :: r) := by
  cases pc with
  | recvPost pc caller => exact execRecvPost_flowing hF (Option.some.inj h)
  | sendPost pc caller => exact execSendPost_flowing hC hF hG h
  | ioCountDecrement site => exact execDecrement_flowing hnegative hF hG (Option.some.inj h)
  | release pc site => cases hF.present_self.1
  | worker pc => exact execWorker_flowing hF (Option.some.inj h)
  | sendPacketImpl buf =>
    cases h
    refine ⟨hF.sock, hF.bIsConnect, hF.unlisted, hF.present_next ⟨rfl, rfl⟩, fun hload => ?_, ?_,
      hF.capped, fun _ => ?_⟩
    · refine hF.unstuck ?_
      simp only [load_append, load_cons] at hload ⊢
      exact hload
    · show s.posts.flatten ++ _ ++ (s.sendQ ++ [buf]) = s.enqueued ++ [buf]
      rw [← hF.order]
      simp only [List.flatMap_append, List.flatMap_cons, Pc.inHand, List.append_assoc]
    · have hself : (Pc.sendPost .compareExchange .sendPacketImpl).attends = 1 := rfl
      simp only [load_append, load_cons]
      omega
  | reconnecter pc =>
    have htaken := hF.present_self.2
    cases pc with
    | takeFirst =>
      simp only [exec, execReconnecter, if_pos hF.unlisted] at h
      split at h <;> cases h
      exact hF.frame ⟨rfl, rfl, rfl, rfl, rfl, rfl, rfl, rfl⟩ ⟨rfl, rfl⟩ rfl rfl (.inl rfl)
    | _ => cases htaken
  | finished => cases h

/-- The completion of a send is attended to by its worker. -/
theorem spawn_flowing {ts : List Pc} {e : Event} (hF : Flowing s ts)
    (h : spawn e s = some (s', pc)) : Flowing s' (ts ++ [pc]) := by
  cases e with
  | sendCompletion i =>
    obtain ⟨bufs, hi, rfl, rfl⟩ := spawn_sendCompletion h
    obtain ⟨hlt, -⟩ := List.getElem?_eq_some_iff.mp hi
    have hself : (Pc.worker .sendCompleted).keeper = 1 := rfl
    have hattends : (Pc.worker .sendCompleted).attends = 1 := rfl
    refine ⟨hF.sock, hF.bIsConnect, hF.unlisted, ?_, fun hload => ?_, ?_, hF.capped,
      fun _ => ?_⟩
    · have hpresent := hF.present
      simpa [Pc.releasing, Pc.taken, Pc.stage, Stage.taken] using hpresent
    · simp only [load_append, load_cons] at hload
      omega
    · rw [← hF.order]
      simp [Pc.inHand]
    · simp only [load_append, load_cons]
      omega
  | recvCompletion i bytes =>
    obtain ⟨-, -, -, rfl, rfl⟩ := spawn_recvCompletion h
    exact hF.started ⟨rfl, rfl, rfl, rfl, rfl, rfl, rfl, rfl⟩ ⟨rfl, rfl⟩ rfl rfl
  | sendPacket | stop =>
    cases h
    exact hF.started ⟨rfl, rfl, rfl, rfl, rfl, rfl, rfl, rfl⟩ ⟨rfl, rfl⟩ rfl rfl

/-! ## Every guarded run -/

/-- Custody and order, along every guarded run. -/
theorem flowing_of_run {c : Config State Pc} (h : (client spec).Run SendGuard client.init c) :
    (∃ inStore, Held c.shared c.threads inStore) ∧ Flowing c.shared c.threads := by
  refine Run.induct (I := fun s ts => (∃ inStore, Held s ts inStore) ∧ Flowing s ts) h
    ⟨⟨[], init_held⟩, rfl, rfl, rfl, by decide, fun _ _ => rfl, rfl, ?_, fun h => absurd rfl h⟩
    ?_ ?_
  · intro post hpost
    cases hpost
  · rintro s l pc r o s' pc' hrun ⟨⟨inStore, hH⟩, hF⟩ hG hexec
    have hnegative := never_negative hrun.anywhere pc (by simp)
    exact ⟨exec_held hnegative hH (hF.storeGuard hG) hexec,
      exec_flowing hnegative hH.1 hF hG hexec⟩
  · rintro s ts e s' pc - ⟨⟨inStore, hH⟩, hF⟩ hspawn
    exact ⟨⟨inStore, spawn_held hH hspawn⟩, spawn_flowing hF hspawn⟩

theorem unreset_le_keeper (pc : Pc) : pc.unreset ≤ pc.keeper := by
  cases pc with
  | worker pc => cases pc <;> exact Nat.le_refl _
  | _ => exact Nat.zero_le _

/-- **The send protocol of the client**, along every run in which no `WSASend`
fails and no decrement releases the session. A send is outstanding from its
`WSASend` until the worker has reset `IOMode` for it. There is at most one; the
posted buffers, those in the hands of the thread in `SendPost` and those in
`SendQ` are the enqueued ones, in order and each once, and no post has more than
`IOCP_ONE_SEND_WSABUF_MAX`; the buffers of a send in flight stand in the store,
with no thread writing to it; and without a thread in `SendPost` and a send
outstanding `SendQ` is empty. -/
theorem send_order {c : Config State Pc} (h : (client spec).Run SendGuard client.init c) :
    load Pc.unreset c.threads + c.shared.outstandingSend.length ≤ 1 ∧
      c.shared.posts.flatten ++ c.threads.flatMap Pc.inHand ++ c.shared.sendQ =
        c.shared.enqueued ∧
      c.shared.enqueued.Nodup ∧
      (∀ post ∈ c.shared.posts, post.length ≤ iocpOneSendWsabufMax) ∧
      (∀ bufs ∈ c.shared.outstandingSend,
        c.shared.pSeirializeBufStore.take bufs.length = bufs.map some ∧
          ∀ pc ∈ c.threads, pc.inHand = []) ∧
      ((∀ pc ∈ c.threads, pc.attends = 0) → c.shared.outstandingSend = [] →
        c.shared.sendQ = []) := by
  obtain ⟨⟨inStore, hC, -, -⟩, hF⟩ := flowing_of_run h
  have hsingle := hC.single
  have hunreset := load_mono unreset_le_keeper c.threads
  refine ⟨by omega, hF.order, ?_, hF.capped, fun bufs hbufs => ⟨?_, fun pc hpc => ?_⟩,
    fun hnone hsend => ?_⟩
  · exact List.nodup_iff_count_le_one.mpr (numbered_of_run h.anywhere).count_le
  · obtain ⟨rfl, hcounted, -⟩ := hC.flight bufs hbufs
    exact hcounted.2
  · have hpos := List.length_pos_of_mem hbufs
    exact inHand_of_not_keeper (load_eq_zero_iff.mp (by omega) pc hpc)
  · by_contra hqueue
    have hattended := hF.attended hqueue
    rw [load_eq_zero_iff.mpr hnone, hsend] at hattended
    exact absurd hattended (by decide)

/-- Two buffers, the second one enqueued while the first is in flight. -/
theorem send_order_two_buffers :
    ∃ c, c.shared.posts = [[0], [1]] ∧ (client reconnectingSpec).Run SendGuard client.init c ∧
      load Pc.unreset c.threads + c.shared.outstandingSend.length ≤ 1 ∧
      c.shared.posts.flatten ++ c.threads.flatMap Pc.inHand ++ c.shared.sendQ =
        c.shared.enqueued ∧
      c.shared.enqueued.Nodup ∧
      (∀ post ∈ c.shared.posts, post.length ≤ iocpOneSendWsabufMax) ∧
      (∀ bufs ∈ c.shared.outstandingSend,
        c.shared.pSeirializeBufStore.take bufs.length = bufs.map some ∧
          ∀ pc ∈ c.threads, pc.inHand = []) ∧
      ((∀ pc ∈ c.threads, pc.attends = 0) → c.shared.outstandingSend = [] →
        c.shared.sendQ = []) := by
  obtain ⟨c, hrun, hc⟩ := exists_run (client reconnectingSpec) SendGuard client.init
    (client.start ++ .event .sendPacket :: List.replicate 8 (.run 2 .success) ++
      .event .sendPacket :: List.replicate 2 (.run 3 .success) ++
      .event (.sendCompletion 0) :: List.replicate 10 (.run 4 .success))
    (P := fun c => c.shared.posts = [[0], [1]]) (by decide +kernel)
  exact ⟨c, hc, hrun, send_order hrun⟩

end RioServer.Client
