import RioServer.Client.ReleaseOnce

/-!
# Who keeps the buffers of `pSeirializeBufStore`

A buffer goes from `SendQ` to `pSeirializeBufStore` to `CSerializationBuf::Free`.
Between the two it is kept by one party: the thread in `SendPost` that has won
`IOMode`, the outstanding `WSASend`, the worker with its completion, the thread
in `ReleaseSession`, or nobody after a failed `WSASend`, which leaves `IOMode`
at `SENDING` and the buffers where they are. `Custody s ts inStore` says so, with
`inStore` the buffers that have left `SendQ` and are not freed, and `exec_held`
that no action loses or doubles one.

`StoreGuard` is what that needs. `ReleaseSession` does not reset `lBufferCount`,
so a session whose store it has freed must not be released again with the count
still standing; and while it frees, or once it has begun, nobody may win
`IOMode` or enqueue.
-/

namespace RioServer.Client

open Machine

variable {spec : ClientSpec} {o : CallResult} {s s' : State} {pc pc' : Pc} {l r : List Pc}
  {inStore : List Nat}

/-! ## Keepers -/

/-- In `ReleaseSession` before its `closesocket`. -/
def Pc.freeing : Pc → Nat
  | .release .closeSocket _ | .release .invalidateSocket _ | .release .emplaceBack _ => 0
  | .release _ _ => 1
  | _ => 0

/-- Answers for the store: between the exchange of `IOMode` and `WSASend` or the
reset, with the completion of a send, or freeing in `ReleaseSession`. -/
def Pc.keeper : Pc → Nat
  | .sendPost .compareExchange _ | .sendPost .retestRestSize _ => 0
  | .sendPost _ _ => 1
  | .worker (.recvCompleted _) => 0
  | .worker _ => 1
  | .release pc site => (Pc.release pc site).freeing
  | _ => 0

/-- `lBufferCount` counts the buffers, and they stand in the store. -/
def State.Counted (s : State) (inStore : List Nat) : Prop :=
  s.lBufferCount = inStore.length ∧
    s.pSeirializeBufStore.take inStore.length = inStore.map some

/-- The buffers stand in the store from `i` on, up to the `n`-th. -/
def State.Remain (s : State) (i : Nat) (n : Int) (inStore : List Nat) : Prop :=
  n = s.lBufferCount ∧ n = i + inStore.length ∧
    (s.pSeirializeBufStore.take n.toNat).drop i = inStore.map some

/-- An unowned `IOMode` counts nothing. -/
def State.Quits (s : State) : Prop := s.ioMode = .nonSending → s.lBufferCount = 0

/-- What the thread at a counter knows about the buffers it keeps. -/
def Pc.Keeps (s : State) (inStore : List Nat) : Pc → Prop
  | .sendPost .getRestSize _ | .sendPost .resetIoMode _ | .worker .resetIoMode =>
    inStore = [] ∧ s.lBufferCount = 0 ∧ s.ioMode = .sending
  | .sendPost (.dequeue i useSize wsaSendBuf) _ =>
    wsaSendBuf = inStore ∧ i = inStore.length ∧ useSize ≤ i + s.sendQ.length ∧
      i ≤ useSize ∧ useSize ≤ iocpOneSendWsabufMax ∧
      s.pSeirializeBufStore.take i = inStore.map some ∧ s.ioMode = .sending
  | .sendPost (.ioCountIncrement wsaSendBuf) _ | .sendPost (.wsaSend wsaSendBuf) _ =>
    wsaSendBuf = inStore ∧ s.Counted inStore ∧ inStore.length ≤ iocpOneSendWsabufMax ∧
      s.storeReleased = false ∧ s.ioMode = .sending
  | .sendPost .resetNegative _ => False
  | .worker .sendCompleted => s.Counted inStore ∧ s.ioMode = .sending
  | .worker (.freeSent i bufferCount) =>
    s.Remain i bufferCount inStore ∧ s.ioMode = .sending
  | .release .onDisconnect _ | .release .readBufferCount _ => s.Counted inStore ∧ s.Quits
  | .release (.getRestSize n) _ => n = s.lBufferCount ∧ s.Counted inStore ∧ s.Quits
  | .release (.freeStore i n rest) _ =>
    s.Remain i n inStore ∧ rest = s.sendQ.length ∧ s.Quits
  | .release (.freeQueue rest _) _ =>
    inStore = [] ∧ rest = s.sendQ.length ∧ s.storeReleased = true ∧ s.Quits
  | _ => True

/-- With no keeper: nothing is in the store, or a failed `WSASend` has left its
buffers there. -/
structure Resting (s : State) (inStore : List Nat) : Prop where
  unowned : s.ioMode = .nonSending → inStore = [] ∧ s.lBufferCount = 0
  released : s.storeReleased = true → inStore = []
  stuck : s.storeReleased = false → s.Counted inStore

/-- **One keeper**: a thread, or an outstanding send, or nobody. -/
structure Custody (s : State) (ts : List Pc) (inStore : List Nat) : Prop where
  single : load Pc.keeper ts + s.outstandingSend.length ≤ 1
  kept : ∀ pc ∈ ts, pc.Keeps s inStore
  flight : ∀ bufs ∈ s.outstandingSend,
    bufs = inStore ∧ s.Counted inStore ∧ s.ioMode = .sending
  rest : load Pc.keeper ts = 0 → s.outstandingSend = [] → Resting s inStore
  width : s.pSeirializeBufStore.length = iocpOneSendWsabufMax

/-- Every buffer that was enqueued is in one place. -/
def Conserved (s : State) (inStore : List Nat) : Prop :=
  ∀ buf, s.freed.count buf + inStore.count buf + s.sendQ.count buf = s.enqueued.count buf

/-- A disconnected session has nothing left to free. -/
def Drained (s : State) (ts : List Pc) (inStore : List Nat) : Prop :=
  s.bIsConnect = false → load Pc.freeing ts = 0 → s.sendQ = [] ∧ inStore = []

/-- The condition: `ReleaseSession` is entered with no keeper and no send
outstanding, and not with a count whose buffers the last one has freed; and
while it frees nobody wins `IOMode`, and once it has begun nobody enqueues until
the session is connected again. -/
def StoreGuard : Guard State Pc CallResult := fun pc _ s ts =>
  match pc with
  | .ioCountDecrement _ =>
    s.ioCount = 1 → load Pc.keeper ts = 0 ∧ s.outstandingSend = [] ∧
      (s.lBufferCount = 0 ∨ s.storeReleased = false)
  | .sendPost .compareExchange _ => s.ioMode = .nonSending → load Pc.freeing ts = 0
  | .sendPacketImpl _ => s.bIsConnect = true ∧ load Pc.freeing ts = 0
  | _ => True

instance (pc : Pc) (o : CallResult) (s : State) (ts : List Pc) :
    Decidable (StoreGuard pc o s ts) :=
  decidable_of_iff
    ((match pc with
      | .ioCountDecrement _ =>
        decide (s.ioCount = 1 → load Pc.keeper ts = 0 ∧ s.outstandingSend = [] ∧
          (s.lBufferCount = 0 ∨ s.storeReleased = false))
      | .sendPost .compareExchange _ =>
        decide (s.ioMode = .nonSending → load Pc.freeing ts = 0)
      | .sendPacketImpl _ => decide (s.bIsConnect = true ∧ load Pc.freeing ts = 0)
      | _ => true) = true)
    (by unfold StoreGuard; split <;> simp [imp_iff_not_or])

theorem Pc.keeps_of_not_keeper (h : pc.keeper = 0) : pc.Keeps s inStore := by
  revert h
  fun_cases Pc.Keeps s inStore pc <;> intro h <;> trivial

/-- Only a thread that frees in `ReleaseSession` is hurt by a longer `SendQ`. -/
structure StoreFrame (s s' : State) : Prop where
  ioMode : s'.ioMode = s.ioMode
  lBufferCount : s'.lBufferCount = s.lBufferCount
  store : s'.pSeirializeBufStore = s.pSeirializeBufStore
  storeReleased : s'.storeReleased = s.storeReleased
  outstandingSend : s'.outstandingSend = s.outstandingSend

theorem StoreFrame.counted (h : StoreFrame s s') : s'.Counted inStore ↔ s.Counted inStore := by
  rw [State.Counted, State.Counted, h.lBufferCount, h.store]

theorem StoreFrame.quits (h : StoreFrame s s') : s'.Quits ↔ s.Quits := by
  rw [State.Quits, State.Quits, h.ioMode, h.lBufferCount]

theorem StoreFrame.remain (h : StoreFrame s s') {i : Nat} {n : Int} :
    s'.Remain i n inStore ↔ s.Remain i n inStore := by
  rw [State.Remain, State.Remain, h.lBufferCount, h.store]

theorem StoreFrame.resting (h : StoreFrame s s') (hrest : Resting s inStore) :
    Resting s' inStore := by
  refine ⟨?_, ?_, ?_⟩
  · rw [h.ioMode, h.lBufferCount]
    exact hrest.unowned
  · rw [h.storeReleased]
    exact hrest.released
  · rw [h.storeReleased, h.counted]
    exact hrest.stuck

/-- What a thread keeps, it keeps while others act. -/
theorem StoreFrame.keeps (h : StoreFrame s s') (hpc : pc.Keeps s inStore)
    (hqueue : s'.sendQ = s.sendQ ∨ pc.freeing = 0 ∧ s.sendQ.length ≤ s'.sendQ.length) :
    pc.Keeps s' inStore := by
  revert hpc
  fun_cases Pc.Keeps s inStore pc <;> intro hpc <;>
    simp only [Pc.Keeps, h.counted, h.remain, h.quits, h.ioMode, h.lBufferCount, h.store,
      h.storeReleased] at hpc ⊢ <;>
    first
    | exact hpc
    | (rcases hqueue with hqueue | ⟨hfree, hlen⟩
       · rw [hqueue]; exact hpc
       · first
         | exact ⟨hpc.1, hpc.2.1, by omega, hpc.2.2.2⟩
         | cases hfree)

/-! ## Handing over -/

/-- Everything about the buffers after an action. -/
def Held (s : State) (ts : List Pc) (inStore : List Nat) : Prop :=
  Custody s ts inStore ∧ Conserved s inStore ∧ Drained s ts inStore

/-- A keeper is alone. -/
theorem Custody.alone (hC : Custody s (l ++ pc :: r) inStore) (hpc : pc.keeper = 1) :
    load Pc.keeper l = 0 ∧ load Pc.keeper r = 0 ∧ s.outstandingSend = [] ∧
      pc.Keeps s inStore := by
  have hsingle := hC.single
  simp only [load_append, load_cons] at hsingle
  exact ⟨by omega, by omega, List.length_eq_zero_iff.mp (by omega), hC.kept pc (by simp)⟩

section

variable (hl : load Pc.keeper l = 0) (hr : load Pc.keeper r = 0)
include hl hr

theorem keeps_others (hpc' : pc'.Keeps s' inStore) :
    ∀ q ∈ l ++ pc' :: r, q.Keeps s' inStore :=
  forall_mem_place.mpr ⟨fun q hq => Pc.keeps_of_not_keeper (load_eq_zero_iff.mp hl q hq), hpc',
    fun q hq => Pc.keeps_of_not_keeper (load_eq_zero_iff.mp hr q hq)⟩

variable (hwidth : s'.pSeirializeBufStore.length = iocpOneSendWsabufMax)
include hwidth

/-- The acting thread keeps the buffers. -/
theorem Custody.of_keeper (hpc' : pc'.keeper = 1) (hsend : s'.outstandingSend = [])
    (hkeeps : pc'.Keeps s' inStore) : Custody s' (l ++ pc' :: r) inStore where
  single := by simp [hl, hr, hpc', hsend]
  kept := keeps_others hl hr hkeeps
  flight := by simp [hsend]
  rest h := by
    simp only [load_append, load_cons] at h
    omega
  width := hwidth

/-- Nobody keeps them. -/
theorem Custody.of_rest (hpc' : pc'.keeper = 0) (hsend : s'.outstandingSend = [])
    (hrest : Resting s' inStore) : Custody s' (l ++ pc' :: r) inStore where
  single := by simp [hl, hr, hpc', hsend]
  kept := keeps_others hl hr (Pc.keeps_of_not_keeper hpc')
  flight := by simp [hsend]
  rest _ _ := hrest
  width := hwidth

/-- The system keeps them, for the send that has just been posted. -/
theorem Custody.of_flight (hpc' : pc'.keeper = 0) (hsend : s'.outstandingSend = [inStore])
    (hcounted : s'.Counted inStore) (hmode : s'.ioMode = .sending) :
    Custody s' (l ++ pc' :: r) inStore where
  single := by simp [hl, hr, hpc', hsend]
  kept := keeps_others hl hr (Pc.keeps_of_not_keeper hpc')
  flight := by
    intro bufs hbufs
    rw [hsend, List.mem_singleton] at hbufs
    exact ⟨hbufs, hcounted, hmode⟩
  rest _ h := by
    rw [hsend] at h
    cases h
  width := hwidth

end

/-- An action that does not touch the buffers, of a thread that keeps none. -/
theorem Custody.frame (hC : Custody s (l ++ pc :: r) inStore) (h : StoreFrame s s')
    (hpc : pc.keeper = 0) (hpc' : pc'.keeper = 0)
    (hqueue : s'.sendQ = s.sendQ ∨
      load Pc.freeing (l ++ pc :: r) = 0 ∧ s.sendQ.length ≤ s'.sendQ.length) :
    Custody s' (l ++ pc' :: r) inStore := by
  have hsingle := hC.single
  have hkept := forall_mem_place.mp hC.kept
  have hqueue' : ∀ q ∈ l ++ pc :: r,
      s'.sendQ = s.sendQ ∨ q.freeing = 0 ∧ s.sendQ.length ≤ s'.sendQ.length :=
    fun q hq => hqueue.imp_right fun hlonger => ⟨load_eq_zero_iff.mp hlonger.1 q hq, hlonger.2⟩
  refine ⟨?_, forall_mem_place.mpr ⟨fun q hq => ?_, Pc.keeps_of_not_keeper hpc', fun q hq => ?_⟩,
    ?_, fun hload hsend => ?_, ?_⟩
  · simp only [load_append, load_cons, h.outstandingSend] at hsingle ⊢
    omega
  · exact h.keeps (hkept.1 q hq) (hqueue' q (by simp [hq]))
  · exact h.keeps (hkept.2.2 q hq) (hqueue' q (by simp [hq]))
  · rw [h.outstandingSend, h.counted, h.ioMode]
    exact hC.flight
  · refine h.resting (hC.rest ?_ (h.outstandingSend ▸ hsend))
    simp only [load_append, load_cons] at hload ⊢
    omega
  · rw [h.store]
    exact hC.width

/-! ## One action -/

/-- What threads off the store leave alone. -/
structure OffStore (s : State) (pc : Pc) (s' : State) (pc' : Pc) : Prop where
  frame : StoreFrame s s'
  sendQ : s'.sendQ = s.sendQ
  freed : s'.freed = s.freed
  enqueued : s'.enqueued = s.enqueued
  keeper : pc'.keeper = 0
  freeing : pc'.freeing = 0
  bIsConnect : s'.bIsConnect = false → s.bIsConnect = false

theorem RecvPostCaller.next_keeper (caller : RecvPostCaller) (retval : PostRetval) :
    (caller.next retval).keeper = 0 ∧ (caller.next retval).freeing = 0 := by
  cases caller with
  | worker => cases retval <;> exact ⟨rfl, rfl⟩
  | _ => exact ⟨rfl, rfl⟩

theorem SendPostCaller.next_keeper (caller : SendPostCaller) (retval : PostRetval) :
    (caller.next retval).keeper = 0 ∧ (caller.next retval).freeing = 0 := by
  cases caller with
  | sendPacketImpl => exact ⟨rfl, rfl⟩
  | worker => cases retval <;> exact ⟨rfl, rfl⟩

theorem DecrementSite.released_keeper (site : DecrementSite) :
    site.released.keeper = 0 ∧ site.released.freeing = 0 := by
  cases site with
  | ringFull caller | recvFailed caller => exact caller.next_keeper _
  | restNegative caller | sendFailed caller => exact caller.next_keeper _
  | _ => exact ⟨rfl, rfl⟩

theorem DecrementSite.otherwise_keeper {site : DecrementSite} (h : site.negative = false) :
    site.otherwise.keeper = 0 ∧ site.otherwise.freeing = 0 := by
  cases site with
  | ringFull caller | recvFailed caller => exact caller.next_keeper _
  | sendFailed caller => exact caller.next_keeper _
  | restNegative caller => cases h
  | _ => exact ⟨rfl, rfl⟩

/-- An action off the store. -/
theorem Held.offStore (hH : Held s (l ++ pc :: r) inStore) (h : OffStore s pc s' pc')
    (hpc : pc.keeper = 0) (hfreeing : pc.freeing = 0) : Held s' (l ++ pc' :: r) inStore := by
  obtain ⟨hC, hconserved, hdrained⟩ := hH
  refine ⟨hC.frame h.frame hpc h.keeper (.inl h.sendQ), fun buf => ?_, fun hconn hload => ?_⟩
  · rw [h.freed, h.sendQ, h.enqueued]
    exact hconserved buf
  · rw [h.sendQ]
    refine hdrained (h.bIsConnect hconn) ?_
    simp only [load_append, load_cons] at hload ⊢
    omega

theorem execRecvPost_offStore {pc : RecvPostPc} {caller : RecvPostCaller}
    (h : execRecvPost spec o s caller pc = (s', pc')) :
    OffStore s (.recvPost pc caller) s' pc' := by
  have hkeeper := fun retval => (caller.next_keeper retval).1
  have hfreeing := fun retval => (caller.next_keeper retval).2
  revert h
  fun_cases execRecvPost spec o s caller pc <;> rintro ⟨⟩ <;>
    first
    | exact ⟨⟨rfl, rfl, rfl, rfl, rfl⟩, rfl, rfl, rfl, rfl, rfl, id⟩
    | exact ⟨⟨rfl, rfl, rfl, rfl, rfl⟩, rfl, rfl, rfl, hkeeper _, hfreeing _, id⟩

theorem execReconnecter_offStore {pc : ReconnecterPc}
    (h : execReconnecter o s pc = some (s', pc')) : OffStore s (.reconnecter pc) s' pc' := by
  revert h
  fun_cases execReconnecter o s pc <;> rintro ⟨⟩ <;>
    first
    | exact ⟨⟨rfl, rfl, rfl, rfl, rfl⟩, rfl, rfl, rfl, rfl, rfl, id⟩
    | exact ⟨⟨rfl, rfl, rfl, rfl, rfl⟩, rfl, rfl, rfl, rfl, rfl, fun h => Bool.noConfusion h⟩

/-- `ReleaseSession` behind its `closesocket`. -/
theorem execRelease_offStore {pc : ReleasePc} {site : DecrementSite}
    (hpc : (Pc.release pc site).freeing = 0) (h : execRelease spec s site pc = (s', pc')) :
    OffStore s (.release pc site) s' pc' := by
  obtain ⟨hkeeper, hfreeing⟩ := site.released_keeper
  cases pc with
  | closeSocket =>
    simp only [execRelease] at h
    split at h <;> cases h
    · exact ⟨⟨rfl, rfl, rfl, rfl, rfl⟩, rfl, rfl, rfl, rfl, rfl, id⟩
    · exact ⟨⟨rfl, rfl, rfl, rfl, rfl⟩, rfl, rfl, rfl, hkeeper, hfreeing, id⟩
  | invalidateSocket =>
    cases h
    exact ⟨⟨rfl, rfl, rfl, rfl, rfl⟩, rfl, rfl, rfl, rfl, rfl, id⟩
  | emplaceBack =>
    cases h
    exact ⟨⟨rfl, rfl, rfl, rfl, rfl⟩, rfl, rfl, rfl, hkeeper, hfreeing, id⟩
  | _ => cases hpc

/-- What a keeper's action does to the buffers while nobody frees. -/
theorem Drained.step {inStore' : List Nat} (hD : Drained s (l ++ pc :: r) inStore)
    (hpc : pc.freeing = 0) (hconn : s'.bIsConnect = s.bIsConnect)
    (hstep : s.sendQ = [] → inStore = [] → s'.sendQ = [] ∧ inStore' = []) :
    Drained s' (l ++ pc' :: r) inStore' := by
  intro hdisconnected hload
  rw [hconn] at hdisconnected
  obtain ⟨hqueue, hstore⟩ := hD hdisconnected (by
    simp only [load_append, load_cons] at hload ⊢
    omega)
  exact hstep hqueue hstore

/-- The first buffer that remains in the store. -/
theorem State.Remain.cons {i : Nat} {n : Int} (h : s.Remain i n inStore) (hi : (i : Int) < n) :
    ∃ buf rest, inStore = buf :: rest ∧ s.pSeirializeBufStore.getD i none = some buf ∧
      s.Remain (i + 1) n rest := by
  obtain ⟨hcount, hlen, hrange⟩ := h
  cases inStore with
  | nil =>
    simp only [List.length_nil] at hlen
    omega
  | cons buf rest =>
    have hdrop : (s.pSeirializeBufStore.take n.toNat).drop i = some buf :: rest.map some := hrange
    have hget : (s.pSeirializeBufStore.take n.toNat)[i]? = some (some buf) := by
      rw [← List.head?_drop, hdrop, List.head?_cons]
    refine ⟨buf, rest, rfl, ?_, hcount, ?_, ?_⟩
    · rw [List.getElem?_take_of_lt (by omega)] at hget
      rw [List.getD_eq_getElem?_getD, hget, Option.getD_some]
    · simp only [List.length_cons] at hlen
      omega
    · rw [← List.drop_drop, hdrop]
      rfl

/-- All that `lBufferCount` counts. -/
theorem State.Counted.remain (h : s.Counted inStore) :
    s.Remain 0 s.lBufferCount inStore := by
  obtain ⟨hcount, hstore⟩ := h
  refine ⟨rfl, by omega, ?_⟩
  rw [List.drop_zero, hcount, Int.toNat_natCast, hstore]

/-- `Free` of the first buffer that remains. -/
theorem Conserved.freeStore {i buf : Nat} {rest : List Nat}
    (hI : Conserved s (buf :: rest)) (hbuf : s.pSeirializeBufStore.getD i none = some buf) :
    Conserved (s.freeStore i) rest := by
  intro other
  have := hI other
  simp only [State.freeStore, hbuf, Option.toList_some, List.count_append, List.count_cons,
    List.count_nil] at this ⊢
  omega

/-- Whoever keeps the store outside `ReleaseSession` owns `IOMode`. -/
theorem Pc.Keeps.sending (hkeeps : pc.Keeps s inStore) (hkeeper : pc.keeper = 1)
    (hfreeing : pc.freeing = 0) : s.ioMode = .sending := by
  cases pc with
  | sendPost pc caller =>
    cases pc with
    | compareExchange | retestRestSize => cases hkeeper
    | resetNegative => exact hkeeps.elim
    | getRestSize | resetIoMode => exact hkeeps.2.2
    | dequeue i useSize wsaSendBuf => exact hkeeps.2.2.2.2.2.2
    | ioCountIncrement wsaSendBuf | wsaSend wsaSendBuf => exact hkeeps.2.2.2.2
  | worker pc =>
    cases pc with
    | recvCompleted bytes => cases hkeeper
    | resetIoMode => exact hkeeps.2.2
    | sendCompleted | freeSent i bufferCount => exact hkeeps.2
  | release pc site => exact absurd (hkeeper.symm.trans hfreeing) Nat.one_ne_zero
  | _ => cases hkeeper

theorem Pc.keeper_le (pc : Pc) : pc.keeper ≤ 1 := by
  cases pc with
  | sendPost pc caller => cases pc <;> first | exact Nat.le_refl 1 | exact Nat.zero_le 1
  | worker pc => cases pc <;> first | exact Nat.le_refl 1 | exact Nat.zero_le 1
  | release pc site => cases pc <;> first | exact Nat.le_refl 1 | exact Nat.zero_le 1
  | _ => exact Nat.zero_le 1

/-- While `IOMode` is free and nobody frees, nobody keeps anything. -/
theorem Custody.unowned {ts : List Pc} (hC : Custody s ts inStore)
    (hmode : s.ioMode = .nonSending) (hfree : load Pc.freeing ts = 0) :
    load Pc.keeper ts = 0 ∧ s.outstandingSend = [] ∧ inStore = [] ∧ s.lBufferCount = 0 := by
  have hsend : s.outstandingSend = [] := by
    cases hflight : s.outstandingSend with
    | nil => rfl
    | cons bufs rest =>
      have hsending := (hC.flight bufs (by rw [hflight]; exact List.mem_cons_self)).2.2
      rw [hmode] at hsending
      cases hsending
  have hzero : load Pc.keeper ts = 0 := by
    refine load_eq_zero_iff.mpr fun q hq => ?_
    by_contra hkeeper
    have hle := q.keeper_le
    have hsending := (hC.kept q hq).sending (by omega) (load_eq_zero_iff.mp hfree q hq)
    rw [hmode] at hsending
    cases hsending
  exact ⟨hzero, hsend, (hC.rest hzero hsend).unowned hmode⟩

/-- Dequeuing puts the next buffer behind those that are in the store. -/
theorem take_set_succ {store : List (Option Nat)} {buf : Nat}
    (hlen : inStore.length < store.length)
    (htake : store.take inStore.length = inStore.map some) :
    (store.set inStore.length (some buf)).take (inStore.length + 1) =
      (inStore ++ [buf]).map some := by
  rw [List.take_succ_eq_append_getElem (by simpa using hlen), List.getElem_set_self,
    List.take_set_of_le (Nat.le_refl _), htake, List.map_append]
  rfl

/-- `SendPost`: the thread that wins `IOMode` takes buffers out of `SendQ` into
the store, counts them and posts them. -/
theorem execSendPost_held {pc : SendPostPc} {caller : SendPostCaller}
    (hH : Held s (l ++ .sendPost pc caller :: r) inStore)
    (hG : StoreGuard (.sendPost pc caller) o s (l ++ .sendPost pc caller :: r))
    (h : execSendPost o s caller pc = some (s', pc')) :
    ∃ inStore', Held s' (l ++ pc' :: r) inStore' := by
  have hoff : ∀ {q}, OffStore s (.sendPost pc caller) s' q → (Pc.sendPost pc caller).keeper = 0 →
      Held s' (l ++ q :: r) inStore := fun hoff hpc => hH.offStore hoff hpc rfl
  obtain ⟨hC, hconserved, hD⟩ := hH
  have hwidth := hC.width
  cases pc with
  | compareExchange =>
    simp only [execSendPost] at h
    split at h <;> cases h
    · obtain ⟨hkeeper, hfreeing⟩ := caller.next_keeper .complete
      exact ⟨inStore,
        hoff ⟨⟨rfl, rfl, rfl, rfl, rfl⟩, rfl, rfl, rfl, hkeeper, hfreeing, id⟩ rfl⟩
    · next hmode =>
      obtain ⟨hzero, hsend, hempty, hcount⟩ := hC.unowned hmode (hG hmode)
      simp only [load_append, load_cons] at hzero
      exact ⟨inStore, .of_keeper (by omega) (by omega) hwidth rfl hsend ⟨hempty, hcount, rfl⟩,
        hconserved, hD.step rfl rfl (fun hq hs => ⟨hq, hs⟩)⟩
  | retestRestSize =>
    simp only [execSendPost] at h
    split at h <;> cases h
    · exact ⟨inStore, hoff ⟨⟨rfl, rfl, rfl, rfl, rfl⟩, rfl, rfl, rfl, rfl, rfl, id⟩ rfl⟩
    · obtain ⟨hkeeper, hfreeing⟩ := caller.next_keeper .complete
      exact ⟨inStore,
        hoff ⟨⟨rfl, rfl, rfl, rfl, rfl⟩, rfl, rfl, rfl, hkeeper, hfreeing, id⟩ rfl⟩
  | resetNegative =>
    obtain ⟨-, -, -, hkeeps⟩ := hC.alone rfl
    exact hkeeps.elim
  | getRestSize =>
    obtain ⟨hl, hr, hsend, hempty, hcount, hmode⟩ := hC.alone rfl
    simp only [execSendPost] at h
    split at h
    · cases h
      exact ⟨inStore, .of_keeper hl hr hwidth rfl hsend ⟨hempty, hcount, hmode⟩, hconserved,
        hD.step rfl rfl (fun hq hs => ⟨hq, hs⟩)⟩
    · rw [if_neg (by simp [State.getRestSize])] at h
      cases h
      subst hempty
      refine ⟨[], .of_keeper hl hr hwidth rfl hsend ⟨rfl, rfl, ?_, Nat.zero_le _,
        Nat.min_le_left _ _, rfl, hmode⟩, hconserved, hD.step rfl rfl (fun hq hs => ⟨hq, hs⟩)⟩
      rw [State.getRestSize, Int.toNat_natCast, Nat.zero_add]
      exact Nat.min_le_right _ _
  | resetIoMode =>
    obtain ⟨hl, hr, hsend, hempty, hcount, -⟩ := hC.alone rfl
    cases h
    subst hempty
    exact ⟨[], .of_rest hl hr hwidth rfl hsend
      ⟨fun _ => ⟨rfl, hcount⟩, fun _ => rfl, fun _ => ⟨hcount, rfl⟩⟩, hconserved,
      hD.step rfl rfl (fun hq hs => ⟨hq, hs⟩)⟩
  | dequeue i useSize wsaSendBuf =>
    obtain ⟨hl, hr, hsend, rfl, rfl, huse, hle, hmax, hstore, hmode⟩ := hC.alone rfl
    simp only [execSendPost] at h
    split at h
    · next hlt =>
      cases hqueue : s.sendQ with
      | nil =>
        -- the queue still holds what was counted
        rw [hqueue, List.length_nil] at huse
        omega
      | cons buf sendQ =>
        rw [hqueue] at h huse
        cases h
        rw [List.length_cons] at huse
        refine ⟨wsaSendBuf ++ [buf], .of_keeper hl hr ?_ rfl hsend ⟨rfl, ?_, ?_, hlt, hmax, ?_,
          hmode⟩, fun other => ?_, hD.step rfl rfl (fun hq _ => by rw [hqueue] at hq; cases hq)⟩
        · exact List.length_set.trans hwidth
        · rw [List.length_append, List.length_singleton]
        · simp only
          omega
        · exact take_set_succ (by omega) hstore
        · have := hconserved other
          simp only [hqueue, List.count_append, List.count_cons, List.count_nil] at this ⊢
          omega
    · cases h
      refine ⟨wsaSendBuf, .of_keeper hl hr hwidth rfl hsend ⟨rfl, ⟨?_, hstore⟩, by omega, rfl,
        hmode⟩, hconserved, hD.step rfl rfl (fun hq hs => ⟨hq, hs⟩)⟩
      simp only
      omega
  | ioCountIncrement wsaSendBuf =>
    obtain ⟨hl, hr, hsend, hkeeps⟩ := hC.alone rfl
    cases h
    exact ⟨inStore, .of_keeper hl hr hwidth rfl hsend hkeeps, hconserved,
      hD.step rfl rfl (fun hq hs => ⟨hq, hs⟩)⟩
  | wsaSend wsaSendBuf =>
    obtain ⟨hl, hr, hsend, rfl, hcounted, -, hreleased, hmode⟩ := hC.alone rfl
    simp only [execSendPost] at h
    repeat' split at h
    all_goals cases h
    · refine ⟨wsaSendBuf, .of_flight hl hr hwidth rfl ?_ hcounted hmode, hconserved,
        hD.step rfl rfl (fun hq hs => ⟨hq, hs⟩)⟩
      rw [hsend]
      rfl
    · -- a failed send: the buffers stay, counted, and `IOMode` stays at `SENDING`
      refine ⟨wsaSendBuf, .of_rest hl hr hwidth rfl hsend ⟨fun h => ?_, fun h => ?_,
        fun _ => hcounted⟩, hconserved, hD.step rfl rfl (fun hq hs => ⟨hq, hs⟩)⟩
      · rw [hmode] at h
        cases h
      · rw [hreleased] at h
        cases h

/-- Behind `ReleaseSession`'s decrement nobody is a keeper but its thread. -/
theorem execDecrement_held {site : DecrementSite} (hnegative : site.negative = false)
    (hH : Held s (l ++ .ioCountDecrement site :: r) inStore)
    (hG : StoreGuard (.ioCountDecrement site) o s (l ++ .ioCountDecrement site :: r))
    (h : execDecrement s site = (s', pc')) :
    ∃ inStore', Held s' (l ++ pc' :: r) inStore' := by
  unfold execDecrement at h
  split at h <;> cases h
  · next hzero =>
    obtain ⟨hC, hconserved, -⟩ := hH
    obtain ⟨hload, hsend, hstale⟩ := hG (by omega)
    have hrest := hC.rest hload hsend
    simp only [load_append, load_cons] at hload
    have hcounted : s.Counted inStore := by
      cases hreleased : s.storeReleased with
      | false => exact hrest.stuck hreleased
      | true =>
        -- the store was freed and counts nothing
        rw [hrest.released hreleased]
        exact ⟨hstale.resolve_right (by rw [hreleased]; decide), rfl⟩
    refine ⟨inStore, .of_keeper (by omega) (by omega) hC.width rfl hsend
      ⟨hcounted, fun h => (hrest.unowned h).2⟩, hconserved, fun _ hfree => ?_⟩
    have hself : (Pc.release .onDisconnect site).freeing = 1 := rfl
    simp only [load_append, load_cons] at hfree
    omega
  · obtain ⟨hkeeper, hfreeing⟩ := DecrementSite.otherwise_keeper hnegative
    exact ⟨inStore, hH.offStore
      ⟨⟨rfl, rfl, rfl, rfl, rfl⟩, rfl, rfl, rfl, hkeeper, hfreeing, id⟩ rfl rfl⟩

/-- `ReleaseSession` frees what is counted in the store, and then `SendQ`. -/
theorem execRelease_held {pc : ReleasePc} {site : DecrementSite}
    (hH : Held s (l ++ .release pc site :: r) inStore)
    (h : execRelease spec s site pc = (s', pc')) :
    ∃ inStore', Held s' (l ++ pc' :: r) inStore' := by
  have hoff : (Pc.release pc site).freeing = 0 → ∃ inStore', Held s' (l ++ pc' :: r) inStore' :=
    fun hpc => ⟨inStore, hH.offStore (execRelease_offStore hpc h) hpc hpc⟩
  obtain ⟨hC, hconserved, hD⟩ := hH
  have hwidth := hC.width
  -- while the thread goes on freeing there is nothing to say about a drained session
  have hfree : ∀ {q s'' inStore'}, q.freeing = 1 → Drained s'' (l ++ q :: r) inStore' := by
    intro q s'' inStore' hq _ hload
    simp only [load_append, load_cons] at hload
    omega
  cases pc with
  | onDisconnect =>
    obtain ⟨hl, hr, hsend, hkeeps⟩ := hC.alone rfl
    cases h
    exact ⟨inStore, .of_keeper hl hr hwidth rfl hsend hkeeps, hconserved, hfree rfl⟩
  | readBufferCount =>
    obtain ⟨hl, hr, hsend, hcounted, hquits⟩ := hC.alone rfl
    cases h
    exact ⟨inStore, .of_keeper hl hr hwidth rfl hsend ⟨rfl, hcounted, hquits⟩, hconserved,
      hfree rfl⟩
  | getRestSize n =>
    obtain ⟨hl, hr, hsend, rfl, hcounted, hquits⟩ := hC.alone rfl
    cases h
    exact ⟨inStore, .of_keeper hl hr hwidth rfl hsend ⟨hcounted.remain, rfl, hquits⟩,
      hconserved, hfree rfl⟩
  | freeStore i n rest =>
    obtain ⟨hl, hr, hsend, hremain, hrest, hquits⟩ := hC.alone rfl
    simp only [execRelease] at h
    split at h <;> cases h
    · next hlt =>
      obtain ⟨buf, left, rfl, hbuf, hleft⟩ := hremain.cons hlt
      exact ⟨left, .of_keeper hl hr hwidth rfl hsend ⟨hleft, hrest, hquits⟩,
        hconserved.freeStore hbuf, hfree rfl⟩
    · next hge =>
      have hempty : inStore = [] := List.length_eq_zero_iff.mp (by have := hremain.2.1; omega)
      exact ⟨inStore, .of_keeper hl hr hwidth rfl hsend ⟨hempty, hrest, rfl, hquits⟩,
        hconserved, hfree rfl⟩
  | freeQueue rest deleteBuf =>
    obtain ⟨hl, hr, hsend, rfl, hrest, hreleased, hquits⟩ := hC.alone rfl
    simp only [execRelease] at h
    split at h
    · next hpos =>
      cases hqueue : s.sendQ with
      | nil =>
        rw [hqueue, List.length_nil] at hrest
        omega
      | cons buf sendQ =>
        rw [hqueue] at h hrest
        cases h
        refine ⟨[], .of_keeper hl hr hwidth rfl hsend ⟨rfl, ?_, hreleased, hquits⟩,
          fun other => ?_, hfree rfl⟩
        · simp only [List.length_cons] at hrest ⊢
          omega
        · have := hconserved other
          simp only [hqueue, List.count_append, List.count_cons, List.count_nil] at this ⊢
          omega
    · cases h
      refine ⟨[], .of_rest hl hr hwidth rfl hsend ⟨fun h => ⟨rfl, hquits h⟩, fun _ => rfl,
        fun h => ?_⟩, hconserved, fun _ _ => ⟨?_, rfl⟩⟩
      · rw [hreleased] at h
        cases h
      · exact List.length_eq_zero_iff.mp (by omega)
  | closeSocket | invalidateSocket | emplaceBack => exact hoff rfl

/-- The worker frees the buffers of the send and gives `IOMode` back. -/
theorem execWorker_held {pc : WorkerPc} (hH : Held s (l ++ .worker pc :: r) inStore)
    (h : execWorker spec s pc = (s', pc')) : ∃ inStore', Held s' (l ++ pc' :: r) inStore' := by
  cases pc with
  | recvCompleted bytes =>
    revert h
    simp only [execWorker]
    split <;> rintro ⟨⟩ <;>
      exact ⟨inStore, hH.offStore
        ⟨⟨rfl, rfl, rfl, rfl, rfl⟩, rfl, rfl, rfl, rfl, rfl, id⟩ rfl rfl⟩
  | sendCompleted =>
    obtain ⟨hC, hconserved, hD⟩ := hH
    obtain ⟨hl, hr, hsend, hcounted, hmode⟩ := hC.alone rfl
    cases h
    exact ⟨inStore, .of_keeper hl hr hC.width rfl hsend ⟨hcounted.remain, hmode⟩, hconserved,
      hD.step rfl rfl (fun hq hs => ⟨hq, hs⟩)⟩
  | freeSent i n =>
    obtain ⟨hC, hconserved, hD⟩ := hH
    obtain ⟨hl, hr, hsend, hremain, hmode⟩ := hC.alone rfl
    simp only [execWorker] at h
    split at h <;> cases h
    · next hlt =>
      obtain ⟨buf, left, rfl, hbuf, hleft⟩ := hremain.cons hlt
      exact ⟨left, .of_keeper hl hr hC.width rfl hsend ⟨hleft, hmode⟩,
        hconserved.freeStore hbuf, hD.step rfl rfl (fun _ hs => by cases hs)⟩
    · next hge =>
      obtain ⟨hcount, hlen, -⟩ := hremain
      have hempty : inStore = [] := List.length_eq_zero_iff.mp (by omega)
      refine ⟨inStore, .of_keeper hl hr hC.width rfl hsend ⟨hempty, ?_, hmode⟩, hconserved,
        hD.step rfl rfl (fun hq hs => ⟨hq, hs⟩)⟩
      simp only
      omega
  | resetIoMode =>
    obtain ⟨hC, hconserved, hD⟩ := hH
    obtain ⟨hl, hr, hsend, rfl, hcount, -⟩ := hC.alone rfl
    cases h
    exact ⟨[], .of_rest hl hr hC.width rfl hsend
      ⟨fun _ => ⟨rfl, hcount⟩, fun _ => rfl, fun _ => ⟨hcount, rfl⟩⟩, hconserved,
      hD.step rfl rfl (fun hq hs => ⟨hq, hs⟩)⟩

/-- **One guarded action** hands every buffer to one place. -/
theorem exec_held (hnegative : pc.negative = false)
    (hH : Held s (l ++ pc :: r) inStore) (hG : StoreGuard pc o s (l ++ pc :: r))
    (h : exec spec pc o s = some (s', pc')) : ∃ inStore', Held s' (l ++ pc' :: r) inStore' := by
  cases pc with
  | recvPost pc caller =>
    exact ⟨inStore, hH.offStore (execRecvPost_offStore (Option.some.inj h)) rfl rfl⟩
  | sendPost pc caller => exact execSendPost_held hH hG h
  | ioCountDecrement site => exact execDecrement_held hnegative hH hG (Option.some.inj h)
  | release pc site => exact execRelease_held hH (Option.some.inj h)
  | worker pc => exact execWorker_held hH (Option.some.inj h)
  | sendPacketImpl buf =>
    obtain ⟨hC, hconserved, -⟩ := hH
    obtain ⟨hconn, hfree⟩ := hG
    cases h
    refine ⟨inStore, hC.frame ⟨rfl, rfl, rfl, rfl, rfl⟩ rfl rfl (.inr ⟨hfree, ?_⟩),
      fun other => ?_, fun hdisconnected => ?_⟩
    · simp
    · have := hconserved other
      simp only [List.count_append] at this ⊢
      omega
    · exact absurd (hconn.symm.trans hdisconnected) (by decide)
  | reconnecter pc => exact ⟨inStore, hH.offStore (execReconnecter_offStore h) rfl rfl⟩
  | finished => cases h

/-- The completion of a send hands its buffers to the worker. -/
theorem spawn_held {ts : List Pc} {e : Event} (hH : Held s ts inStore)
    (h : spawn e s = some (s', pc)) : Held s' (ts ++ [pc]) inStore := by
  obtain ⟨⟨hsingle, hkept, hflight, hrest, hwidth⟩, hconserved, hdrained⟩ := hH
  -- a thread that keeps nothing changes nothing
  have hnew : StoreFrame s s' → s'.sendQ = s.sendQ → s'.freed = s.freed →
      s'.enqueued = s.enqueued → s'.bIsConnect = s.bIsConnect → pc.keeper = 0 →
      pc.freeing = 0 → Held s' (ts ++ [pc]) inStore := by
    intro hframe hqueue hfreed henqueued hconn hkeeper hfreeing
    refine ⟨⟨?_, forall_mem_spawned.mpr ⟨fun q hq => hframe.keeps (hkept q hq) (.inl hqueue),
      Pc.keeps_of_not_keeper hkeeper⟩, ?_, fun hload hsend => ?_, hframe.store ▸ hwidth⟩,
      fun buf => ?_, fun hdisconnected hload => ?_⟩
    · simpa [hkeeper, hframe.outstandingSend] using hsingle
    · rw [hframe.outstandingSend, hframe.counted, hframe.ioMode]
      exact hflight
    · exact hframe.resting (hrest (by simpa [hkeeper] using hload)
        (hframe.outstandingSend ▸ hsend))
    · rw [hfreed, hqueue, henqueued]
      exact hconserved buf
    · rw [hqueue]
      exact hdrained (hconn ▸ hdisconnected) (by simpa [hfreeing] using hload)
  cases e with
  | sendCompletion i =>
    obtain ⟨bufs, hi, rfl, rfl⟩ := spawn_sendCompletion h
    obtain ⟨hlt, hbufs⟩ := List.getElem?_eq_some_iff.mp hi
    obtain ⟨rfl, hcounted, hmode⟩ := hflight bufs (hbufs ▸ List.getElem_mem hlt)
    have hzero : load Pc.keeper ts = 0 := by omega
    have hnone : s.outstandingSend.eraseIdx i = [] :=
      List.length_eq_zero_iff.mp (by rw [List.length_eraseIdx_of_lt hlt]; omega)
    have hC : Custody { s with outstandingSend := s.outstandingSend.eraseIdx i, quiet := false }
        (ts ++ .worker .sendCompleted :: []) bufs :=
      .of_keeper hzero rfl hwidth rfl hnone ⟨hcounted, hmode⟩
    refine ⟨hC, hconserved, fun hdisconnected hload => ?_⟩
    exact hdrained hdisconnected (by simpa [Pc.freeing] using hload)
  | recvCompletion i bytes =>
    obtain ⟨-, -, -, rfl, rfl⟩ := spawn_recvCompletion h
    exact hnew ⟨rfl, rfl, rfl, rfl, rfl⟩ rfl rfl rfl rfl rfl rfl
  | _ =>
    cases h
    exact hnew ⟨rfl, rfl, rfl, rfl, rfl⟩ rfl rfl rfl rfl rfl rfl

theorem init_held : Held client.init.shared client.init.threads [] := by
  refine ⟨⟨by decide, ?_, ?_, fun _ _ => ⟨fun _ => ⟨rfl, rfl⟩, fun _ => rfl,
    fun _ => ⟨rfl, rfl⟩⟩, rfl⟩, fun buf => rfl, fun h => Bool.noConfusion h⟩
  · intro pc hpc
    refine Pc.keeps_of_not_keeper ?_
    revert pc
    decide
  · intro bufs hbufs
    cases hbufs

end RioServer.Client
