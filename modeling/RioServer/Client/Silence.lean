import RioServer.Client.EachConnection
import RioServer.Client.SendOrder
import RioServer.Lib.Lock
import RioServer.Lib.Progress

/-!
# A session of the DB client that has fallen silent (MultiLanClient.cpp:535)

`IOMode` is a flag with one owner: the thread in `SendPost` that has won the
exchange, the `WSASend` it has posted, and the worker with the completion, which
resets it. A `WSASend` that fails at once has no completion, and `SendPost` returns
without resetting `IOMode`. Neither `ReleaseSession` nor the `Reconnecter` touches
it.

So this holds of every run, with releases and reconnections of any kind: `IOMode`
has its owner and `SendQ` someone who will look at it, or the session is silent,
and then it stays so. `silent_once_failed` says it of each session of the client.
-/

namespace RioServer.Client

open Machine

variable {spec : ClientSpec} {o : CallResult} {s s' : State} {pc pc' : Pc} {l r ts : List Pc}

/-! ## `IOMode` and its owner -/

/-- From the exchange of `IOMode` to `WSASend` or the reset, or with the completion
of a send. -/
def Pc.ownsIoMode : Pc → Nat
  | .sendPost .compareExchange _ | .sendPost .retestRestSize _ => 0
  | .sendPost _ _ | .ioCountDecrement (.restNegative _) => 1
  | pc => pc.unreset

/-- Behind a `WSASend` that has failed. -/
def Pc.sendFailed : Pc → Bool
  | .ioCountDecrement (.sendFailed _) | .release _ (.sendFailed _) => true
  | _ => false

/-- `IOMode`. -/
def ioModeLock : Lock State Pc where
  taken s := decide (s.ioMode = .sending)
  owner := Pc.ownsIoMode
  lent s := s.outstandingSend.length

theorem RecvPostCaller.next_owns (caller : RecvPostCaller) (retval : PostRetval) :
    (caller.next retval).ownsIoMode = 0 := by
  cases caller with
  | worker => cases retval <;> rfl
  | _ => rfl

theorem SendPostCaller.next_owns (caller : SendPostCaller) (retval : PostRetval) :
    (caller.next retval).ownsIoMode = 0 := by
  cases caller with
  | sendPacketImpl => rfl
  | worker => cases retval <;> rfl

theorem DecrementSite.released_owns (site : DecrementSite) : site.released.ownsIoMode = 0 := by
  cases site with
  | ringFull caller | recvFailed caller => exact caller.next_owns _
  | restNegative caller | sendFailed caller => exact caller.next_owns _
  | _ => rfl

/-- A thread that owns nothing of it leaves `IOMode` alone. -/
theorem lock_of_not_owner (hpc : pc.ownsIoMode = 0) (hpc' : pc'.ownsIoMode = 0)
    (hmode : s'.ioMode = s.ioMode) (hsend : s'.outstandingSend = s.outstandingSend) :
    ioModeLock.Step s pc s' pc' := by
  refine .keeps ?_ ?_
  · show decide (s'.ioMode = .sending) = decide (s.ioMode = .sending)
    rw [hmode]
  · show pc'.ownsIoMode + s'.outstandingSend.length = pc.ownsIoMode + s.outstandingSend.length
    rw [hpc, hpc', hsend]

/-- A `WSASend` that fails at once. -/
theorem sendFailed_drops (s : State) (wsaSendBuf : List Nat) (caller : SendPostCaller) :
    ioModeLock.Drops s (.sendPost (.wsaSend wsaSendBuf) caller) s
      (.ioCountDecrement (.sendFailed caller)) := by
  refine ⟨Nat.one_ne_zero, rfl, ?_⟩
  show 0 + s.outstandingSend.length + 1 = 1 + s.outstandingSend.length
  omega

/-- `SendPost` keeps `IOMode`, takes it, gives it back, or fails to send. -/
theorem execSendPost_lock {pc : SendPostPc} {caller : SendPostCaller}
    (h : execSendPost o s caller pc = some (s', pc')) :
    ioModeLock.Step s (.sendPost pc caller) s' pc' ∨
      pc'.sendFailed = true ∧ ioModeLock.Drops s (.sendPost pc caller) s' pc' := by
  have hnext := caller.next_owns
  cases pc with
  | compareExchange =>
    simp only [execSendPost] at h
    split at h <;> cases h
    · exact .inl (lock_of_not_owner rfl (hnext _) rfl rfl)
    · next hfree =>
      refine .inl (.takes ?_ rfl ?_)
      · simp [ioModeLock, hfree]
      · show 1 + s.outstandingSend.length = 0 + s.outstandingSend.length + 1
        omega
  | retestRestSize =>
    simp only [execSendPost] at h
    split at h <;> cases h
    · exact .inl (lock_of_not_owner rfl rfl rfl rfl)
    · exact .inl (lock_of_not_owner rfl (hnext _) rfl rfl)
  | resetIoMode =>
    cases h
    refine .inl (.gives Nat.one_ne_zero rfl ?_)
    show 0 + s.outstandingSend.length + 1 = 1 + s.outstandingSend.length
    omega
  | resetNegative =>
    cases h
    refine .inl (.gives Nat.one_ne_zero rfl ?_)
    show (caller.next .err).ownsIoMode + s.outstandingSend.length + 1 =
      1 + s.outstandingSend.length
    rw [hnext]
    omega
  | wsaSend wsaSendBuf =>
    simp only [execSendPost] at h
    split at h
    · cases h
      refine .inl (.keeps rfl ?_)
      show 0 + (s.outstandingSend ++ [wsaSendBuf]).length = 1 + s.outstandingSend.length
      rw [List.length_append, List.length_singleton]
      omega
    · split at h <;> cases h
      exact .inr ⟨rfl, sendFailed_drops s wsaSendBuf caller⟩
  | _ =>
    revert h
    simp only [execSendPost]
    repeat' split
    all_goals rintro ⟨⟩
    all_goals exact .inl (.keeps rfl rfl)

/-- What follows a decrement owns what the thread has owned in front of it. -/
theorem DecrementSite.otherwise_owns (site : DecrementSite) :
    site.otherwise.ownsIoMode = (Pc.ioCountDecrement site).ownsIoMode := by
  cases site with
  | ringFull caller | recvFailed caller => exact caller.next_owns _
  | sendFailed caller => exact caller.next_owns _
  | _ => rfl

/-- **An action and `IOMode`**: it is dropped where a `WSASend` fails, or in the
branch for a negative `GetRestSize`. -/
theorem exec_lock_cases (h : exec spec pc o s = some (s', pc')) :
    ioModeLock.Step s pc s' pc' ∨
      (pc.negative = true ∨ pc'.sendFailed = true) ∧ ioModeLock.Drops s pc s' pc' := by
  cases pc with
  | recvPost pc caller =>
    have hnext := caller.next_owns
    revert h
    simp only [exec, Option.some.injEq]
    fun_cases execRecvPost spec o s caller pc <;> rintro ⟨⟩ <;>
      first
      | exact .inl (lock_of_not_owner rfl rfl rfl rfl)
      | exact .inl (lock_of_not_owner rfl (hnext _) rfl rfl)
  | sendPost pc caller => exact (execSendPost_lock h).imp_right fun h => ⟨.inr h.1, h.2⟩
  | ioCountDecrement site =>
    simp only [exec, execDecrement, Option.some.injEq] at h
    split at h <;> cases h
    · cases site with
      | restNegative =>
        refine .inr ⟨.inl rfl, Nat.one_ne_zero, rfl, ?_⟩
        show 0 + s.outstandingSend.length + 1 = 1 + s.outstandingSend.length
        omega
      | _ => exact .inl (lock_of_not_owner rfl rfl rfl rfl)
    · refine .inl (.keeps rfl ?_)
      show site.otherwise.ownsIoMode + s.outstandingSend.length = _
      rw [site.otherwise_owns]
      rfl
  | release pc site =>
    have hreleased := site.released_owns
    revert h
    simp only [exec, Option.some.injEq]
    fun_cases execRelease spec s site pc <;> rintro ⟨⟩ <;>
      first
      | exact .inl (lock_of_not_owner rfl rfl rfl rfl)
      | exact .inl (lock_of_not_owner rfl hreleased rfl rfl)
  | worker pc =>
    cases pc with
    | resetIoMode =>
      cases h
      refine .inl (.gives Nat.one_ne_zero rfl ?_)
      show 0 + s.outstandingSend.length + 1 = 1 + s.outstandingSend.length
      omega
    | _ =>
      revert h
      simp only [exec, execWorker, Option.some.injEq]
      repeat' split
      all_goals rintro ⟨⟩
      all_goals exact .inl (.keeps rfl rfl)
  | sendPacketImpl buf =>
    cases h
    exact .inl (lock_of_not_owner rfl rfl rfl rfl)
  | reconnecter pc =>
    revert h
    simp only [exec]
    fun_cases execReconnecter o s pc <;> rintro ⟨⟩ <;>
      exact .inl (lock_of_not_owner rfl rfl rfl rfl)
  | finished => cases h

theorem exec_lock (h : exec spec pc o s = some (s', pc')) :
    ioModeLock.Step s pc s' pc' ∨ ioModeLock.Drops s pc s' pc' :=
  (exec_lock_cases h).imp_right And.right

/-- A send comes back to the worker that takes its completion. -/
theorem spawn_lock {e : Event} (h : spawn e s = some (s', pc)) :
    ioModeLock.Starts s s' pc ∧ s'.posts = s.posts := by
  cases e with
  | sendCompletion i =>
    obtain ⟨bufs, hi, rfl, rfl⟩ := spawn_sendCompletion h
    obtain ⟨hlt, -⟩ := List.getElem?_eq_some_iff.mp hi
    refine ⟨⟨rfl, ?_⟩, rfl⟩
    show 1 + (s.outstandingSend.eraseIdx i).length = s.outstandingSend.length
    rw [List.length_eraseIdx_of_lt hlt]
    omega
  | recvCompletion i bytes =>
    obtain ⟨-, -, -, rfl, rfl⟩ := spawn_recvCompletion h
    exact ⟨⟨rfl, Nat.zero_add _⟩, rfl⟩
  | sendPacket | stop =>
    cases h
    exact ⟨⟨rfl, Nat.zero_add _⟩, rfl⟩

/-- Only the owner of `IOMode` posts. -/
theorem exec_posts (hpc : pc.ownsIoMode = 0) (h : exec spec pc o s = some (s', pc')) :
    s'.posts = s.posts := by
  cases pc with
  | recvPost pc caller =>
    revert h
    simp only [exec, Option.some.injEq]
    fun_cases execRecvPost spec o s caller pc <;> rintro ⟨⟩ <;> rfl
  | sendPost pc caller =>
    revert h
    simp only [exec]
    fun_cases execSendPost o s caller pc <;> rintro ⟨⟩ <;> first | rfl | cases hpc
  | ioCountDecrement site =>
    simp only [exec, execDecrement, Option.some.injEq] at h
    split at h <;> cases h <;> rfl
  | release pc site => exact (execRelease_cases (Option.some.inj h)).1.posts
  | worker pc =>
    revert h
    simp only [exec, Option.some.injEq]
    fun_cases execWorker spec s pc <;> rintro ⟨⟩ <;> rfl
  | sendPacketImpl buf =>
    cases h
    rfl
  | reconnecter pc =>
    revert h
    simp only [exec]
    fun_cases execReconnecter o s pc <;> rintro ⟨⟩ <;> rfl
  | finished => cases h

/-! ## Who looks at `SendQ` -/

/-- Someone will look at the buffers in `SendQ`. -/
def Attended (s : State) (ts : List Pc) : Prop :=
  s.sendQ ≠ [] → 1 ≤ load Pc.attends ts + s.outstandingSend.length

/-- The owner of `IOMode` looks at `SendQ` again. -/
theorem attends_of_owns (hnegative : pc.negative = false) (h : pc.ownsIoMode ≠ 0) :
    pc.attends = 1 := by
  cases pc with
  | sendPost => rfl
  | ioCountDecrement site =>
    cases site with
    | restNegative => cases hnegative
    | _ => exact absurd rfl h
  | worker pc =>
    cases pc with
    | recvCompleted => exact absurd rfl h
    | _ => rfl
  | _ => exact absurd rfl h

/-- A thread that attends to `SendQ` as before, or leaves it to the one who does. -/
theorem Attended.place (hA : Attended s (l ++ pc :: r)) (hqueue : s'.sendQ ≠ [] → s.sendQ ≠ [])
    (h : pc.attends + s.outstandingSend.length ≤ pc'.attends + s'.outstandingSend.length) :
    Attended s' (l ++ pc' :: r) := by
  intro hnonempty
  have hattended := hA (hqueue hnonempty)
  simp only [load_append, load_cons] at hattended ⊢
  omega

theorem attended_of_self (h : pc'.attends = 1) : Attended s' (l ++ pc' :: r) := by
  intro _
  simp only [load_append, load_cons]
  omega

/-- In `SendPost`, with `IOMode` owned. -/
theorem execSendPost_attended {pc : SendPostPc} {caller : SendPostCaller}
    (hnegative : ∀ q ∈ l ++ .sendPost pc caller :: r, Pc.negative q = false)
    (hO : ioModeLock.Owned s (l ++ .sendPost pc caller :: r))
    (h : execSendPost o s caller pc = some (s', pc')) :
    Attended s' (l ++ pc' :: r) ∨ ioModeLock.Abandoned s' (l ++ pc' :: r) := by
  cases pc with
  | compareExchange =>
    simp only [execSendPost] at h
    split at h <;> cases h
    · -- the one who has won `IOMode` attends to the buffer
      next hmode =>
      left
      intro _
      have hone : load Pc.ownsIoMode (l ++ .sendPost .compareExchange caller :: r) +
          s.outstandingSend.length = 1 := by
        have hO : _ = (decide (s.ioMode = .sending)).toNat := hO
        rw [hmode] at hO
        exact hO
      by_cases hsend : s.outstandingSend.length = 0
      · obtain ⟨q, hq, howns⟩ : ∃ q ∈ l ++ r, q.ownsIoMode ≠ 0 := by
          have hload : load Pc.ownsIoMode (l ++ r) ≠ 0 := by
            have hself : (Pc.sendPost .compareExchange caller).ownsIoMode = 0 := rfl
            simp only [load_append, load_cons] at hone ⊢
            omega
          obtain ⟨l', q, r', hsplit, howns⟩ := exists_of_load_ne_zero hload
          exact ⟨q, hsplit ▸ List.mem_append_right _ List.mem_cons_self, howns⟩
        have hmem : q ∈ l ++ .sendPost .compareExchange caller :: r := by
          rcases List.mem_append.mp hq with hq | hq
          · exact List.mem_append_left _ hq
          · exact List.mem_append_right _ (List.mem_cons_of_mem _ hq)
        have hattends := attends_of_owns (hnegative q hmem) howns
        have hle := le_load_of_mem (f := Pc.attends) hq
        simp only [load_append, load_cons] at hle ⊢
        omega
      · omega
    · exact .inl (attended_of_self rfl)
  | retestRestSize =>
    simp only [execSendPost] at h
    split at h <;> cases h
    · exact .inl (attended_of_self rfl)
    · next hempty =>
      left
      intro hnonempty
      refine absurd (List.length_eq_zero_iff.mp ?_) hnonempty
      simp only [State.getRestSize] at hempty
      omega
  | getRestSize =>
    simp only [execSendPost] at h
    split at h
    · cases h
      exact .inl (attended_of_self rfl)
    · rw [if_neg (by simp [State.getRestSize])] at h
      cases h
      exact .inl (attended_of_self rfl)
  | resetNegative =>
    have hself := hnegative _ (List.mem_append_right _ List.mem_cons_self)
    cases hself
  | wsaSend wsaSendBuf =>
    simp only [execSendPost] at h
    split at h
    · cases h
      exact .inl (attended_of_self rfl)
    · split at h <;> cases h
      exact .inr ((sendFailed_drops s wsaSendBuf caller).abandoned hO)
  | _ =>
    revert h
    simp only [execSendPost]
    repeat' split
    all_goals rintro ⟨⟩
    all_goals exact .inl (attended_of_self rfl)

/-- A thread that has nothing to attend to. -/
theorem Attended.keep (hA : Attended s (l ++ pc :: r)) (hqueue : s'.sendQ ≠ [] → s.sendQ ≠ [])
    (hpc : pc.attends = 0) (hsend : s'.outstandingSend = s.outstandingSend) :
    Attended s' (l ++ pc' :: r) := by
  refine hA.place hqueue ?_
  rw [hpc, hsend]
  omega

/-- **An action, with `IOMode` owned.** -/
theorem exec_attended (hnegative : ∀ q ∈ l ++ pc :: r, q.negative = false)
    (hO : ioModeLock.Owned s (l ++ pc :: r)) (hA : Attended s (l ++ pc :: r))
    (h : exec spec pc o s = some (s', pc')) :
    Attended s' (l ++ pc' :: r) ∨ ioModeLock.Abandoned s' (l ++ pc' :: r) := by
  cases pc with
  | recvPost pc caller =>
    revert h
    simp only [exec, Option.some.injEq]
    fun_cases execRecvPost spec o s caller pc <;> rintro ⟨⟩ <;> exact .inl (hA.keep id rfl rfl)
  | sendPost pc caller => exact execSendPost_attended hnegative hO h
  | ioCountDecrement site =>
    simp only [exec, execDecrement, Option.some.injEq] at h
    split at h <;> cases h <;> exact .inl (hA.keep id rfl rfl)
  | release pc site =>
    obtain ⟨hframe, -⟩ := execRelease_cases (Option.some.inj h)
    refine .inl (hA.keep ?_ rfl hframe.outstandingSend)
    revert h
    simp only [exec, Option.some.injEq]
    fun_cases execRelease spec s site pc <;> rintro ⟨⟩ <;>
      first
      | exact id
      | exact fun _ hempty => List.cons_ne_nil _ _ (‹s.sendQ = _ :: _›.symm.trans hempty)
  | worker pc =>
    cases pc with
    | recvCompleted bytes =>
      revert h
      simp only [exec, execWorker, Option.some.injEq]
      split <;> rintro ⟨⟩ <;> exact .inl (hA.keep id rfl rfl)
    | resetIoMode =>
      cases h
      exact .inl (attended_of_self rfl)
    | sendCompleted =>
      cases h
      exact .inl (attended_of_self rfl)
    | freeSent i bufferCount =>
      revert h
      simp only [exec, execWorker, Option.some.injEq]
      split <;> rintro ⟨⟩ <;> exact .inl (attended_of_self rfl)
  | sendPacketImpl buf =>
    cases h
    exact .inl (attended_of_self rfl)
  | reconnecter pc =>
    revert h
    simp only [exec]
    fun_cases execReconnecter o s pc <;> rintro ⟨⟩ <;> exact .inl (hA.keep id rfl rfl)
  | finished => cases h

/-- The completion of a send comes to a worker that will look. -/
theorem spawn_attended {e : Event} (hA : Attended s ts) (h : spawn e s = some (s', pc)) :
    Attended s' (ts ++ [pc]) := by
  have hstarted : ∀ {t : State} {q : Pc}, t.sendQ = s.sendQ →
      s.outstandingSend.length ≤ q.attends + t.outstandingSend.length →
      Attended t (ts ++ [q]) := by
    intro t q hqueue hle hnonempty
    have hattended := hA (hqueue ▸ hnonempty)
    simp only [load_append, load_cons, load_nil]
    omega
  cases e with
  | sendCompletion i =>
    obtain ⟨bufs, hi, rfl, rfl⟩ := spawn_sendCompletion h
    refine hstarted rfl ?_
    show s.outstandingSend.length ≤ 1 + (s.outstandingSend.eraseIdx i).length
    have hle := List.length_eraseIdx_le s.outstandingSend i
    rw [List.length_eraseIdx]
    split <;> omega
  | recvCompletion i bytes =>
    obtain ⟨-, -, -, rfl, rfl⟩ := spawn_recvCompletion h
    exact hstarted rfl (Nat.le_add_left _ _)
  | sendPacket | stop =>
    cases h
    exact hstarted rfl (Nat.le_add_left _ _)

/-! ## Every run -/

/-- `IOMode` has its owner, and if nobody looks at `SendQ` it is empty and the next
buffer is sent. -/
structure Serving (c : Config State Pc) : Prop where
  owned : ioModeLock.Owned c.shared c.threads
  drained : (∀ pc ∈ c.threads, pc.attends = 0) → c.shared.outstandingSend = [] →
    c.shared.sendQ = [] ∧ c.shared.ioMode = .nonSending

/-- `IOMode` is `SENDING`, and nobody will reset it. -/
def Silent (c : Config State Pc) : Prop := ioModeLock.Abandoned c.shared c.threads

/-- Every `WSASend` succeeds. -/
def SendSucceeds : Guard State Pc CallResult := fun pc o s _ =>
  match pc with
  | .sendPost (.wsaSend _) _ => o = .success ∧ s.sock = .connected
  | _ => True

theorem init_owned : ioModeLock.Owned client.init.shared client.init.threads := rfl

theorem owned_or_abandoned {c : Config State Pc} (h : (client spec).Reachable client.init c) :
    ioModeLock.Owned c.shared c.threads ∨ ioModeLock.Abandoned c.shared c.threads :=
  h.owned_or_abandoned init_owned exec_lock fun hx => (spawn_lock hx).1

/-- The session is served or silent. -/
theorem serving_or_silent {c : Config State Pc} (h : (client spec).Reachable client.init c) :
    Serving c ∨ Silent c := by
  have hattended : Attended c.shared c.threads ∨ ioModeLock.Abandoned c.shared c.threads := by
    refine Run.induct (I := fun s ts => Attended s ts ∨ ioModeLock.Abandoned s ts) h
      (.inl fun hnonempty => absurd rfl hnonempty) ?_ ?_
    · rintro s l pc r o s' pc' hrun hI - hexec
      have hlock := exec_lock hexec
      rcases hI with hA | hA
      · rcases owned_or_abandoned hrun with hO | hO
        · exact exec_attended (never_negative hrun) hO hA hexec
        · exact .inr (hO.exec hlock).2
      · exact .inr (hA.exec hlock).2
    · rintro s ts e s' pc - (hA | hA) hspawn
      · exact .inl (spawn_attended hA hspawn)
      · exact .inr (hA.started (spawn_lock hspawn).1)
  rcases owned_or_abandoned h with hO | hO
  · rcases hattended with hA | hA
    · left
      refine ⟨hO, fun hnone hsend => ?_⟩
      have hzero : load Pc.attends c.threads = 0 := load_eq_zero_iff.mpr hnone
      constructor
      · by_contra hnonempty
        have hle := hA hnonempty
        rw [hzero, hsend] at hle
        cases hle
      · have howns : load Pc.ownsIoMode c.threads = 0 := by
          refine load_eq_zero_iff.mpr fun pc hpc => ?_
          by_contra howns
          have hattends := attends_of_owns (never_negative h pc hpc) howns
          rw [hnone pc hpc] at hattends
          cases hattends
        have hfree : 0 + 0 = (decide (c.shared.ioMode = .sending)).toNat := by
          have hO : load Pc.ownsIoMode c.threads + c.shared.outstandingSend.length = _ := hO
          rw [howns, hsend] at hO
          exact hO
        cases hmode : c.shared.ioMode with
        | nonSending => rfl
        | sending =>
          rw [hmode] at hfree
          cases hfree
    · exact .inr hA
  · exact .inr hO

theorem RecvPostCaller.next_sendFailed (caller : RecvPostCaller) (retval : PostRetval) :
    ¬(caller.next retval).sendFailed = true := by
  cases caller with
  | worker => cases retval <;> decide
  | _ => exact Bool.false_ne_true

theorem SendPostCaller.next_sendFailed (caller : SendPostCaller) (retval : PostRetval) :
    ¬(caller.next retval).sendFailed = true := by
  cases caller with
  | sendPacketImpl => exact Bool.false_ne_true
  | worker => cases retval <;> decide

/-- Behind its decrement and its release a thread is behind no `WSASend`. -/
theorem DecrementSite.next_sendFailed (site : DecrementSite) :
    ¬site.otherwise.sendFailed = true ∧ ¬site.released.sendFailed = true := by
  cases site with
  | ringFull caller | recvFailed caller =>
    exact ⟨caller.next_sendFailed _, caller.next_sendFailed _⟩
  | sendFailed caller => exact ⟨caller.next_sendFailed _, caller.next_sendFailed _⟩
  | restNegative caller => exact ⟨Bool.false_ne_true, caller.next_sendFailed _⟩
  | _ => exact ⟨Bool.false_ne_true, Bool.false_ne_true⟩

/-- A thread gets behind a failed `WSASend` only from there. -/
theorem exec_sendFailed (h : exec spec pc o s = some (s', pc')) (hfailed : pc'.sendFailed = true) :
    pc.sendFailed = true ∨ ∃ wsaSendBuf caller, pc = .sendPost (.wsaSend wsaSendBuf) caller ∧
      ¬(o = .success ∧ s.sock = .connected) ∧ s' = s ∧
      pc' = .ioCountDecrement (.sendFailed caller) := by
  cases pc with
  | recvPost pc caller =>
    have hnext := caller.next_sendFailed
    revert hfailed
    revert h
    simp only [exec, Option.some.injEq]
    fun_cases execRecvPost spec o s caller pc <;> rintro ⟨⟩ hfailed <;>
      first | exact absurd hfailed (hnext _) | cases hfailed
  | sendPost pc caller =>
    have hnext := caller.next_sendFailed
    cases pc with
    | wsaSend wsaSendBuf =>
      simp only [exec, execSendPost] at h
      split at h
      · cases h
        cases hfailed
      · next hfails =>
        split at h <;> cases h
        exact .inr ⟨wsaSendBuf, caller, rfl, hfails, rfl, rfl⟩
    | _ =>
      revert hfailed
      revert h
      simp only [exec, execSendPost]
      repeat' split
      all_goals rintro ⟨⟩ hfailed
      all_goals first | exact absurd hfailed (hnext _) | cases hfailed
  | ioCountDecrement site =>
    simp only [exec, execDecrement, Option.some.injEq] at h
    split at h <;> cases h
    · left
      cases site <;> first | rfl | cases hfailed
    · exact absurd hfailed site.next_sendFailed.1
  | release pc site =>
    obtain ⟨-, ⟨q, rfl, -⟩ | ⟨rfl, -⟩⟩ := execRelease_cases (Option.some.inj h)
    · left
      cases site <;> first | rfl | cases hfailed
    · exact absurd hfailed site.next_sendFailed.2
  | worker pc =>
    revert hfailed
    revert h
    simp only [exec, Option.some.injEq]
    fun_cases execWorker spec s pc <;> rintro ⟨⟩ ⟨⟩
  | sendPacketImpl buf =>
    cases h
    cases hfailed
  | reconnecter pc =>
    revert hfailed
    revert h
    simp only [exec]
    fun_cases execReconnecter o s pc <;> rintro ⟨⟩ ⟨⟩
  | finished => cases h

/-- A failed `WSASend` has left the session silent. -/
theorem silent_of_sendFailed {c : Config State Pc} (h : (client spec).Reachable client.init c)
    {pc : Pc} (hpc : pc ∈ c.threads) (hfailed : pc.sendFailed = true) : Silent c := by
  refine Run.induct (I := fun s ts => ∀ pc ∈ ts, pc.sendFailed = true →
    ioModeLock.Abandoned s ts) h ?_ ?_ ?_ pc hpc hfailed
  · intro pc hpc hfailed
    exact absurd hfailed ((by decide : ∀ q ∈ client.init.threads, ¬q.sendFailed = true) pc hpc)
  · intro s l pc r o s' pc' hrun hI _ hexec q hq hfailed
    have hlock := exec_lock hexec
    have hkeep : ∀ {p}, p ∈ l ++ pc :: r → p.sendFailed = true →
        ioModeLock.Abandoned s' (l ++ pc' :: r) := fun hp hf =>
      ((hI _ hp hf).exec hlock).2
    rcases List.mem_append.mp hq with hq | hq
    · exact hkeep (List.mem_append_left _ hq) hfailed
    · rcases List.mem_cons.mp hq with rfl | hq
      · rcases exec_sendFailed hexec hfailed with hold | ⟨wsaSendBuf, caller, rfl, -, rfl, rfl⟩
        · exact hkeep (List.mem_append_right _ List.mem_cons_self) hold
        · rcases owned_or_abandoned hrun with hO | hA
          · exact (sendFailed_drops s' wsaSendBuf caller).abandoned hO
          · exact (hA.exec hlock).2
      · exact hkeep (List.mem_append_right _ (List.mem_cons_of_mem _ hq)) hfailed
  · intro s ts e s' p _ hI hspawn q hq hfailed
    obtain ⟨hstart, -⟩ := spawn_lock hspawn
    rcases List.mem_append.mp hq with hq | hq
    · exact (hI q hq hfailed).started hstart
    · rw [List.mem_singleton.mp hq] at hfailed
      rcases spawn_pc hspawn with ⟨serial, rfl⟩ | ⟨bytes, rfl⟩ | rfl | rfl <;> cases hfailed

theorem owns_of_sendFailed (h : pc.sendFailed = true) : pc.ownsIoMode = 0 := by
  revert h
  fun_cases Pc.sendFailed pc <;> intro h <;> first | rfl | cases h

/-- Where every `WSASend` succeeds, `IOMode` has its owner. -/
theorem owned_of_sendSucceeds {c : Config State Pc}
    (h : (client spec).Run SendSucceeds client.init c) :
    ioModeLock.Owned c.shared c.threads := by
  refine h.owned init_owned ?_ fun hx => (spawn_lock hx).1
  intro s l pc r o s' pc' hrun hG hexec
  rcases exec_lock_cases hexec with hstep | ⟨hnegative | hfailed, hdrops⟩
  · exact hstep
  · rw [never_negative hrun.anywhere pc (List.mem_append_right _ List.mem_cons_self)] at hnegative
    cases hnegative
  · rcases exec_sendFailed hexec hfailed with hold | ⟨wsaSendBuf, caller, rfl, hfails, -, -⟩
    · exact absurd (owns_of_sendFailed hold) hdrops.own
    · exact absurd hG hfails

/-- And so the session is served. -/
theorem serving_of_sendSucceeds {c : Config State Pc}
    (h : (client spec).Run SendSucceeds client.init c) : Serving c := by
  rcases serving_or_silent h.anywhere with hserving | hsilent
  · exact hserving
  · have hO : _ = _ := owned_of_sendSucceeds h
    obtain ⟨htaken, howner, hlent⟩ := hsilent
    rw [htaken, howner, hlent] at hO
    cases hO

/-- Nothing more is posted for a silent session. -/
theorem Silent.goes_on {c d : Config State Pc} (hsilent : Silent c)
    (hd : (client spec).Reachable c d) : Silent d ∧ d.shared.posts = c.shared.posts :=
  hd.abandoned hsilent (fun hx => ⟨exec_lock hx, fun hpc => exec_posts hpc hx⟩) spawn_lock

/-! ## The whole client -/

variable {options : Db.LanClientOptions} {c d : Config MultiLanClient ClientPc} {i : Nat}
variable {conn : Connection}

/-- What the client shows of session `i`. -/
def sessionOf (c : Config MultiLanClient ClientPc) (i : Nat) (conn : Connection) :
    Config State Pc :=
  ⟨c.shared.view conn, c.threads.filterMap (ClientPc.atSession i)⟩

/-- Without a condition on the client there is none on a session. -/
theorem onEach_unguarded (h : (multiLanClient spec options).Reachable c d) :
    (multiLanClient spec options).Run (onEach unguarded) c d := by
  refine h.mono fun p o g ts _ => ?_
  unfold onEach
  split
  · trivial
  · split <;> trivial

/-- **A session is silent once a `WSASend` has failed, and for good**: in every run of
the whole client, with any failures, releases and reconnections, each session that
has been set up is served or silent; it is served as long as every `WSASend` of
the client has succeeded; one that fails makes its session silent; and whatever
happens to a silent session, nothing more is posted for it. -/
theorem silent_once_failed (h : (multiLanClient spec options).Reachable multiLanClient.init c)
    (hconn : c.shared.sessionList[i]? = some conn) :
    (Serving (sessionOf c i conn) ∨ Silent (sessionOf c i conn)) ∧
      ((multiLanClient spec options).Run (onEach SendSucceeds) multiLanClient.init c →
        Serving (sessionOf c i conn)) ∧
      ((∃ pc, pc.sendFailed = true ∧ ClientPc.session i pc ∈ c.threads) →
        Silent (sessionOf c i conn)) ∧
      (Silent (sessionOf c i conn) → ∀ d, (multiLanClient spec options).Reachable c d →
        ∃ conn', d.shared.sessionList[i]? = some conn' ∧ Silent (sessionOf d i conn') ∧
          conn'.state.posts = conn.state.posts) := by
  have hrun := each_connection (onEach_unguarded h) hconn
  refine ⟨serving_or_silent hrun, fun hsend => ?_, ?_, fun hsilent d hd => ?_⟩
  · exact serving_of_sendSucceeds (each_connection hsend hconn)
  · rintro ⟨pc, hfailed, hpc⟩
    refine silent_of_sendFailed hrun (List.mem_filterMap.mpr ⟨_, hpc, ?_⟩) hfailed
    simp [ClientPc.atSession]
  · obtain ⟨conn', hconn', hon⟩ :=
      connection_goes_on (onEach_unguarded h) (onEach_unguarded hd) hconn
    obtain ⟨hsilent', hposts⟩ := hsilent.goes_on hon
    exact ⟨conn', hconn', hsilent', hposts⟩

/-- The connection of session 0 is lost after its `WSASend` has failed, the session
is reconnected, and a second buffer is enqueued. -/
def multiLanClient.reconnectedSilent : List (Act CallResult MultiLanClient.Event) :=
  [.run 2 .success, .event (.recvCompletion 0 0 [])] ++ List.replicate 11 (.run 3 .success) ++
    List.replicate 8 (.run 1 .success) ++ .event (.sendPacketFixed 0) ::
    List.replicate 2 (.run 4 .success)

/-- There the session is connected and the buffer stays in `SendQ`. -/
theorem silent_once_failed_reconnected :
    ∃ c d conn, (multiLanClient reconnectingSpec twoSessions).Reachable multiLanClient.init c ∧
      c.shared.sessionList[0]? = some conn ∧
      ClientPc.session 0 (.ioCountDecrement (.sendFailed .sendPacketImpl)) ∈ c.threads ∧
      (multiLanClient reconnectingSpec twoSessions).Reachable c d ∧
      d.shared.reconnected = [0] ∧ d.threads.getLast? = some (.session 0 .finished) ∧
      ∃ conn', d.shared.sessionList[0]? = some conn' ∧ conn'.state.sock = .connected ∧
        conn'.state.sendQ = [1] ∧ Silent (sessionOf d 0 conn') ∧
        conn'.state.posts = conn.state.posts := by
  obtain ⟨c, hc, hlength, hfailed, hgoes⟩ :=
    exists_run (multiLanClient reconnectingSpec twoSessions) unguarded multiLanClient.init
      (multiLanClient.start ++ .event (.sendPacketFixed 0) :: List.replicate 6 (.run 2 .success) ++
        [.run 2 .failure])
      (P := fun c => 0 < c.shared.sessionList.length ∧
        ClientPc.session 0 (.ioCountDecrement (.sendFailed .sendPacketImpl)) ∈ c.threads ∧
        ((multiLanClient reconnectingSpec twoSessions).runActs unguarded c
          multiLanClient.reconnectedSilent).any (fun d =>
            decide (d.shared.reconnected = [0] ∧
              d.threads.getLast? = some (.session 0 .finished) ∧
              (d.shared.sessionList[0]?.map fun conn : Connection =>
                (conn.state.sock, conn.state.sendQ)) = some (Socket.connected, [1]))) = true)
      (by decide +kernel)
  obtain ⟨d, hd, hreconnected, hthread, hsession⟩ :=
    exists_run (multiLanClient reconnectingSpec twoSessions) unguarded c
      multiLanClient.reconnectedSilent hgoes
  have hconn := List.getElem?_eq_getElem hlength
  obtain ⟨-, -, hsilent, hforGood⟩ := silent_once_failed hc hconn
  obtain ⟨conn', hconn', hsilent', hposts⟩ := hforGood (hsilent ⟨_, rfl, hfailed⟩) d hd
  simp only [hconn', Option.map_some, Option.some.injEq, Prod.mk.injEq] at hsession
  exact ⟨c, d, _, hc, hconn, hfailed, hd, hreconnected, hthread, conn', hconn', hsession.1,
    hsession.2, hsilent', hposts⟩

end RioServer.Client
