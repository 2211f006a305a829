import RioServer.Client.Session

/-!
# How often a connection of the DB client is released

`m_IOCount` counts the outstanding requests and the threads that still have a
decrement in front of them; `Accounts` is that equation, and `Tokens` says who
answers for the session: it is referenced, or one thread is in `ReleaseSession`,
or `Start` is about to post its first receive, or its id waits in
`sessionReconnectIdList`, or the `Reconnecter` is making its next connection.

Three things break this. `RecvPost` gives back the worker's reference when the
ring is full, and so does the worker's own end. `SendPost` raises a count that
is zero. And the `Reconnecter` takes the id out of the list only after its
`RecvPost`, so a session that dies before that is listed twice, by the
`Reconnecter` itself when its `WSARecv` fails. `ReleaseGuard` excludes these
actions and nothing else.
-/

namespace RioServer.Client

open Machine

variable {spec : ClientSpec} {o : CallResult} {s s' : State} {pc pc' : Pc} {l r : List Pc}

/-! ## References held by a thread -/

/-- A worker holds one until `RecvPost` or `SendPost` has returned to it. -/
def RecvPostCaller.holds : RecvPostCaller → Nat
  | .worker => 1
  | .start | .reconnecter => 0

def SendPostCaller.holds : SendPostCaller → Nat
  | .worker => 1
  | .sendPacketImpl => 0

def RecvPostPc.holds : RecvPostPc → Nat
  | .wsaRecv _ => 1
  | .isFull | .ioCountIncrement => 0

def SendPostPc.holds : SendPostPc → Nat
  | .wsaSend _ => 1
  | _ => 0

/-- What a decrement can give back. A full ring gives back what the worker
holds. -/
def DecrementSite.holds : DecrementSite → Nat
  | .recvZero | .workerEnd => 1
  | .ringFull caller => caller.holds
  | .recvFailed caller => 1 + caller.holds
  | .restNegative caller => caller.holds
  | .sendFailed caller => 1 + caller.holds

/-- The references that the thread at a counter holds. -/
def Pc.holds : Pc → Nat
  | .recvPost pc caller => pc.holds + caller.holds
  | .sendPost pc caller => pc.holds + caller.holds
  | .ioCountDecrement site => site.holds
  | .worker _ => 1
  | .release _ _ | .sendPacketImpl _ | .reconnecter _ | .finished => 0

@[simp] theorem Pc.holds_recvPost (pc : RecvPostPc) (caller : RecvPostCaller) :
    (Pc.recvPost pc caller).holds = pc.holds + caller.holds := rfl

@[simp] theorem Pc.holds_sendPost (pc : SendPostPc) (caller : SendPostCaller) :
    (Pc.sendPost pc caller).holds = pc.holds + caller.holds := rfl

@[simp] theorem Pc.holds_ioCountDecrement (site : DecrementSite) :
    (Pc.ioCountDecrement site).holds = site.holds := rfl

@[simp] theorem Pc.holds_release (pc : ReleasePc) (site : DecrementSite) :
    (Pc.release pc site).holds = 0 := rfl

@[simp] theorem Pc.holds_worker (pc : WorkerPc) : (Pc.worker pc).holds = 1 := rfl

/-- Returning a result other than `POST_RETVAL_ERR_SESSION_DELETED` leaves the
caller with its reference. -/
theorem RecvPostCaller.holds_next (caller : RecvPostCaller) (retval : PostRetval)
    (h : retval ≠ .errSessionDeleted) : (caller.next retval).holds = caller.holds := by
  cases caller with
  | worker =>
    simp only [RecvPostCaller.next, workerNext, if_neg h]
    rfl
  | _ => rfl

theorem SendPostCaller.holds_next (caller : SendPostCaller) (retval : PostRetval)
    (h : retval ≠ .errSessionDeleted) : (caller.next retval).holds = caller.holds := by
  cases caller with
  | worker =>
    simp only [SendPostCaller.next, workerNext, if_neg h]
    rfl
  | sendPacketImpl => rfl

/-- After a release nothing is held. -/
@[simp] theorem DecrementSite.holds_released (site : DecrementSite) :
    site.released.holds = 0 := by
  cases site with
  | ringFull caller | recvFailed caller => cases caller <;> rfl
  | restNegative caller | sendFailed caller => cases caller <;> rfl
  | _ => rfl

/-! ## Who answers for the session -/

inductive Stage where
  | away
  | starting
  | idle
  | connecting
  | connected
  | window
  deriving DecidableEq

/-- `Start` is `starting` until it has raised the count. The `Reconnecter` is
`idle` without an entry of the list; it is `connecting` and then `connected`
until it has raised the count, and in its `window` until it has taken the entry
out of the list. -/
def Pc.stage : Pc → Stage
  | .recvPost (.wsaRecv _) .start => .away
  | .recvPost _ .start | .ioCountDecrement (.ringFull .start) => .starting
  | .recvPost (.wsaRecv _) .reconnecter => .window
  | .recvPost _ .reconnecter | .ioCountDecrement (.ringFull .reconnecter) => .connected
  | .ioCountDecrement (.recvFailed .reconnecter) => .window
  | .release _ (.ringFull .reconnecter) | .release _ (.recvFailed .reconnecter) => .window
  | .reconnecter .takeFirst => .idle
  | .reconnecter .socket | .reconnecter .connect => .connecting
  | .reconnecter .setSockOpt => .connected
  | .reconnecter (.popFront _) => .window
  | _ => .away

def Stage.starts : Stage → Nat
  | .starting => 1
  | _ => 0

/-- The connection is made and nothing refers to it yet. -/
def Stage.fresh : Stage → Nat
  | .starting | .connected => 1
  | _ => 0

/-- The `Reconnecter` works for the first entry of the list. -/
def Stage.taken : Stage → Nat
  | .connecting | .connected | .window => 1
  | _ => 0

def Stage.windowed : Stage → Nat
  | .window => 1
  | _ => 0

def Stage.reconnecter : Stage → Nat
  | .away | .starting => 0
  | _ => 1

def Pc.starting (pc : Pc) : Nat := pc.stage.starts

def Pc.fresh (pc : Pc) : Nat := pc.stage.fresh

def Pc.taken (pc : Pc) : Nat := pc.stage.taken

def Pc.windowed (pc : Pc) : Nat := pc.stage.windowed

/-- The thread is the `Reconnecter`. -/
def Pc.reconnects (pc : Pc) : Nat := pc.stage.reconnecter

/-- The thread is in `ReleaseSession`. -/
def Pc.releasing : Pc → Nat
  | .release _ _ => 1
  | _ => 0

/-- One while the session is referenced. -/
def State.live (s : State) : Nat := if s.ioCount = 0 then 0 else 1

theorem SendPostCaller.next_stage (caller : SendPostCaller) (retval : PostRetval) :
    (caller.next retval).stage = .away := by
  cases caller with
  | sendPacketImpl => rfl
  | worker => cases retval <;> rfl

theorem SendPostCaller.next_releasing (caller : SendPostCaller) (retval : PostRetval) :
    (caller.next retval).releasing = 0 := by
  cases caller with
  | sendPacketImpl => rfl
  | worker => cases retval <;> rfl

theorem RecvPostCaller.next_releasing (caller : RecvPostCaller) (retval : PostRetval) :
    (caller.next retval).releasing = 0 := by
  cases caller with
  | worker => cases retval <;> rfl
  | _ => rfl

theorem DecrementSite.released_releasing (site : DecrementSite) :
    site.released.releasing = 0 := by
  cases site with
  | ringFull caller | recvFailed caller => exact caller.next_releasing _
  | restNegative caller | sendFailed caller => exact caller.next_releasing _
  | _ => rfl

/-- Going through `ReleaseSession` and returning from it is the same stage. -/
theorem DecrementSite.released_stage (site : DecrementSite) (pc : ReleasePc) :
    site.released.stage = (Pc.release pc site).stage := by
  cases site with
  | ringFull caller | recvFailed caller => cases caller <;> rfl
  | restNegative caller | sendFailed caller => exact caller.next_stage _
  | _ => rfl

theorem Pc.release_stage (pc pc' : ReleasePc) (site : DecrementSite) :
    (Pc.release pc site).stage = (Pc.release pc' site).stage := by
  cases site with
  | ringFull caller | recvFailed caller => cases caller <;> rfl
  | _ => rfl

/-- **The exception**: `RecvPost` decrements for a full ring only on
behalf of a worker that holds the last reference; no decrement reaches zero
while the `Reconnecter` has posted its receive and not yet taken the id out of
the list; and no `SendPost` raises a zero. -/
def ReleaseGuard : Guard State Pc CallResult := fun pc _ s ts =>
  match pc with
  | .ioCountDecrement (.ringFull caller) =>
    caller = .worker ∧ s.ioCount = 1 ∧ load Pc.windowed ts = 0
  | .ioCountDecrement _ => s.ioCount = 1 → load Pc.windowed ts = 0
  | .sendPost (.ioCountIncrement _) _ => s.ioCount ≠ 0
  | _ => True

instance (pc : Pc) (o : CallResult) (s : State) (ts : List Pc) :
    Decidable (ReleaseGuard pc o s ts) :=
  decidable_of_iff
    ((match pc with
      | .ioCountDecrement (.ringFull caller) =>
        decide (caller = .worker ∧ s.ioCount = 1 ∧ load Pc.windowed ts = 0)
      | .ioCountDecrement _ => decide (s.ioCount = 1 → load Pc.windowed ts = 0)
      | .sendPost (.ioCountIncrement _) _ => decide (s.ioCount ≠ 0)
      | _ => true) = true)
    (by unfold ReleaseGuard; split <;> simp [imp_iff_not_or])

/-! ## The branch that is never taken -/

/-- The decrement for a negative `GetRestSize`. -/
def DecrementSite.negative : DecrementSite → Bool
  | .restNegative _ => true
  | _ => false

/-- In the branch of `SendPost` for a negative `GetRestSize`. -/
def Pc.negative : Pc → Bool
  | .ioCountDecrement site | .release _ site => site.negative
  | .sendPost .resetNegative _ => true
  | _ => false

theorem RecvPostCaller.next_negative (caller : RecvPostCaller) (retval : PostRetval) :
    (caller.next retval).negative = false := by
  cases caller with
  | worker => cases retval <;> rfl
  | _ => rfl

theorem SendPostCaller.next_negative (caller : SendPostCaller) (retval : PostRetval) :
    (caller.next retval).negative = false := by
  cases caller with
  | sendPacketImpl => rfl
  | worker => cases retval <;> rfl

theorem DecrementSite.next_negative {site : DecrementSite} (h : site.negative = false) :
    site.otherwise.negative = false ∧ site.released.negative = false := by
  cases site with
  | restNegative caller => cases h
  | ringFull caller | recvFailed caller =>
    exact ⟨caller.next_negative _, caller.next_negative _⟩
  | sendFailed caller => exact ⟨caller.next_negative _, caller.next_negative _⟩
  | _ => exact ⟨rfl, rfl⟩

/-- A queue has no negative size. -/
theorem exec_negative (hpc : pc.negative = false) (h : exec spec pc o s = some (s', pc')) :
    pc'.negative = false := by
  cases pc with
  | recvPost pc caller =>
    revert h
    simp only [exec, Option.some.injEq]
    fun_cases execRecvPost spec o s caller pc <;> rintro ⟨⟩ <;>
      first | rfl | exact caller.next_negative _
  | sendPost pc caller =>
    revert h
    simp only [exec]
    fun_cases execSendPost o s caller pc <;> rintro ⟨⟩ <;>
      first
      | rfl
      | exact caller.next_negative _
      | (next hneg => exact absurd hneg (by simp [State.getRestSize]))
  | ioCountDecrement site =>
    revert h
    simp only [exec, Option.some.injEq]
    fun_cases execDecrement s site <;> rintro ⟨⟩
    · exact hpc
    · exact (DecrementSite.next_negative hpc).1
  | release pc site =>
    obtain ⟨-, ⟨q, rfl, -⟩ | ⟨rfl, -, -⟩⟩ := execRelease_cases (Option.some.inj h)
    · exact hpc
    · exact (DecrementSite.next_negative hpc).2
  | worker pc =>
    revert h
    simp only [exec, Option.some.injEq]
    fun_cases execWorker spec s pc <;> rintro ⟨⟩ <;> rfl
  | sendPacketImpl buf =>
    cases h
    rfl
  | reconnecter pc =>
    revert h
    simp only [exec]
    fun_cases execReconnecter o s pc <;> rintro ⟨⟩ <;> rfl
  | finished => cases h

/-- `UseSize < 0` never holds, in any run. -/
theorem never_negative {c : Config State Pc} (h : (client spec).Reachable client.init c) :
    ∀ pc ∈ c.threads, pc.negative = false := by
  refine Run.induct (I := fun _ ts => ∀ pc ∈ ts, Pc.negative pc = false) h (by decide) ?_ ?_
  · intro s l pc r o s' pc' _ hI _ hexec
    obtain ⟨hl, hpc, hr⟩ := forall_mem_place.mp hI
    exact forall_mem_place.mpr ⟨hl, exec_negative hpc hexec, hr⟩
  · intro s ts e s' pc _ hI hspawn
    refine forall_mem_spawned.mpr ⟨hI, ?_⟩
    rcases spawn_pc hspawn with ⟨_, rfl⟩ | ⟨_, rfl⟩ | rfl | rfl <;> rfl

/-! ## The invariant -/

/-- The requests the system holds for the session. -/
def State.outstanding (s : State) : Nat := s.outstandingRecv.length + s.outstandingSend.length

/-- The count is the outstanding requests and the references of all threads. -/
def Accounts (s : State) (ts : List Pc) : Prop :=
  s.ioCount = s.outstanding + load Pc.holds ts

/-- Someone answers for the session, and only one. -/
structure Tokens (s : State) (ts : List Pc) : Prop where
  token : s.live + load Pc.releasing ts + load Pc.starting ts + s.sessionReconnectIdList ≤
    1 + load Pc.windowed ts
  taken : load Pc.taken ts ≤ s.sessionReconnectIdList
  windowed : load Pc.windowed ts ≤ s.live
  once : s.releases + s.live + load Pc.fresh ts ≤ 1
  single : load Pc.reconnects ts ≤ 1

/-- An action that neither takes nor gives back a reference unaccounted for. -/
def Balanced (s : State) (pc : Pc) (s' : State) (pc' : Pc) : Prop :=
  s'.ioCount + (s.outstanding + pc.holds) = s.ioCount + (s'.outstanding + pc'.holds)

/-- An action after which no more threads answer for the session than before. -/
structure Passes (s : State) (pc : Pc) (s' : State) (pc' : Pc) : Prop where
  token : s'.live + pc'.releasing + pc'.starting + s'.sessionReconnectIdList + pc.windowed ≤
    s.live + pc.releasing + pc.starting + s.sessionReconnectIdList + pc'.windowed
  taken : pc'.taken + s.sessionReconnectIdList ≤ pc.taken + s'.sessionReconnectIdList
  windowed : pc'.windowed + s.live ≤ pc.windowed + s'.live
  once : s'.releases + s'.live + pc'.fresh ≤ s.releases + s.live + pc.fresh
  single : pc'.reconnects ≤ pc.reconnects

theorem Accounts.balanced (hI : Accounts s (l ++ pc :: r)) (h : Balanced s pc s' pc') :
    Accounts s' (l ++ pc' :: r) := by
  simp only [Accounts, Balanced, load_append, load_cons] at hI h ⊢
  omega

theorem Tokens.passes (hI : Tokens s (l ++ pc :: r)) (h : Passes s pc s' pc') :
    Tokens s' (l ++ pc' :: r) := by
  obtain ⟨htoken, htaken, hwindowed, honce, hsingle⟩ := hI
  obtain ⟨htoken', htaken', hwindowed', honce', hsingle'⟩ := h
  simp only [load_append, load_cons] at htoken htaken hwindowed honce hsingle
  constructor <;> simp only [load_append, load_cons] <;> omega

/-- What a thread holds is covered by the count. -/
theorem Accounts.holds_le {ts : List Pc} (hI : Accounts s ts) (pc : Pc) (hpc : pc ∈ ts) :
    (s.outstanding + pc.holds : Int) ≤ s.ioCount := by
  have hle := le_load_of_mem (f := Pc.holds) hpc
  simp only [Accounts] at hI
  omega

theorem State.live_of_pos (h : 0 < s.ioCount) : s.live = 1 := by
  rw [State.live, if_neg (by omega)]

theorem State.live_of_zero (h : s.ioCount = 0) : s.live = 0 := by
  rw [State.live, if_pos h]

theorem State.live_congr (h : s'.ioCount = s.ioCount) : s'.live = s.live := by
  rw [State.live, State.live, h]

theorem State.live_le (s : State) : s.live ≤ 1 := by
  unfold State.live
  split <;> decide

/-- An action in one stage that leaves the session's tokens alone. -/
theorem Passes.of_stage (hstage : pc'.stage = pc.stage)
    (hreleasing : pc'.releasing = pc.releasing) (hlive : s'.live = s.live)
    (hlist : s'.sessionReconnectIdList = s.sessionReconnectIdList)
    (hreleases : s'.releases = s.releases) : Passes s pc s' pc' := by
  have hwindowed : pc'.windowed = pc.windowed := congrArg Stage.windowed hstage
  have hstarting : pc'.starting = pc.starting := congrArg Stage.starts hstage
  have htaken : pc'.taken = pc.taken := congrArg Stage.taken hstage
  have hfresh : pc'.fresh = pc.fresh := congrArg Stage.fresh hstage
  have hreconnects : pc'.reconnects = pc.reconnects := congrArg Stage.reconnecter hstage
  constructor <;> omega

theorem windowed_le_taken (pc : Pc) : pc.windowed ≤ pc.taken := by
  unfold Pc.windowed Pc.taken
  cases pc.stage <;> decide

theorem taken_le_reconnects (pc : Pc) : pc.taken ≤ pc.reconnects := by
  unfold Pc.taken Pc.reconnects
  cases pc.stage <;> decide

theorem fresh_le (pc : Pc) : pc.fresh ≤ pc.starting + pc.reconnects := by
  unfold Pc.fresh Pc.starting Pc.reconnects
  cases pc.stage <;> decide

/-- While the `Reconnecter` makes the next connection, nothing else answers for
the session. -/
theorem Tokens.alone (hT : Tokens s (l ++ pc :: r)) (htaken : pc.taken = 1)
    (hwindowed : pc.windowed = 0) : s.live = 0 ∧ load Pc.releasing (l ++ pc :: r) = 0 ∧
      load Pc.fresh (l ++ r) = 0 := by
  have hl := load_mono windowed_le_taken l
  have hr := load_mono windowed_le_taken r
  have hself := taken_le_reconnects pc
  have hfresh := load_mono fresh_le (l ++ r)
  have htoken := hT.token
  have hlist := hT.taken
  have hsingle := hT.single
  rw [load_add] at hfresh
  simp only [load_append, load_cons] at htoken hlist hsingle hfresh ⊢
  omega

/-! ## One action -/

attribute [local simp] Pc.starting Pc.fresh Pc.taken Pc.windowed Pc.reconnects Stage.starts
  Stage.fresh Stage.taken Stage.windowed Stage.reconnecter

/-- `RecvPost` raises the count: `Start` and the `Reconnecter` make the session
referenced by that, the worker holds a reference already. -/
theorem execRecvPost_passes {pc : RecvPostPc} {caller : RecvPostCaller}
    (hA : Accounts s (l ++ .recvPost pc caller :: r))
    (hT : Tokens s (l ++ .recvPost pc caller :: r))
    (h : execRecvPost spec o s caller pc = (s', pc')) :
    Balanced s (.recvPost pc caller) s' pc' ∧ Passes s (.recvPost pc caller) s' pc' := by
  have hholds := hA.holds_le (.recvPost pc caller) (by simp)
  cases pc with
  | isFull =>
    simp only [execRecvPost] at h
    split at h <;> cases h
    · refine ⟨?_, .of_stage ?_ rfl rfl rfl rfl⟩
      · simp [Balanced, RecvPostPc.holds, DecrementSite.holds]
      · cases caller <;> rfl
    · refine ⟨?_, .of_stage ?_ rfl rfl rfl rfl⟩
      · simp [Balanced, RecvPostPc.holds]
      · cases caller <;> rfl
  | ioCountIncrement =>
    cases h
    have hlive' : State.live { s with ioCount := s.ioCount + 1 } = 1 :=
      State.live_of_pos (by simp only; omega)
    have hle := s.live_le
    refine ⟨?_, ?_⟩
    · simp only [Balanced, State.outstanding, Pc.holds_recvPost, RecvPostPc.holds]
      omega
    · cases caller with
      | start => constructor <;> simp [Pc.stage, Pc.releasing] <;> omega
      | worker =>
        have hlive : s.live = 1 := State.live_of_pos (by
          simp only [Pc.holds_recvPost, RecvPostCaller.holds] at hholds
          omega)
        exact .of_stage rfl rfl (hlive'.trans hlive.symm) rfl rfl
      | reconnecter =>
        obtain ⟨hlive, -, -⟩ := hT.alone rfl rfl
        constructor <;> simp [Pc.stage, Pc.releasing] <;> omega
  | wsaRecv length =>
    simp only [execRecvPost] at h
    split at h <;> cases h
    · have hnext := caller.holds_next .complete (by decide)
      refine ⟨?_, .of_stage ?_ (caller.next_releasing _) rfl rfl rfl⟩
      · simp [Balanced, State.outstanding, RecvPostPc.holds, hnext]
        omega
      · cases caller <;> rfl
    · refine ⟨?_, .of_stage ?_ rfl rfl rfl rfl⟩
      · simp [Balanced, RecvPostPc.holds, DecrementSite.holds]
      · cases caller <;> rfl

/-- `SendPost` raises a count that is not zero. -/
theorem execSendPost_passes {pc : SendPostPc} {caller : SendPostCaller} {ts : List Pc}
    (hcount : 0 ≤ s.ioCount) (hnegative : (Pc.sendPost pc caller).negative = false)
    (hG : ReleaseGuard (.sendPost pc caller) o s ts)
    (h : execSendPost o s caller pc = some (s', pc')) :
    Balanced s (.sendPost pc caller) s' pc' ∧ Passes s (.sendPost pc caller) s' pc' := by
  have hstage := caller.next_stage
  have hreleasing := caller.next_releasing
  cases pc with
  | compareExchange =>
    simp only [execSendPost] at h
    split at h <;> cases h
    · have hnext := caller.holds_next .complete (by decide)
      refine ⟨?_, .of_stage (hstage _) (hreleasing _) rfl rfl rfl⟩
      simp [Balanced, SendPostPc.holds, hnext]
    · refine ⟨?_, .of_stage rfl rfl rfl rfl rfl⟩
      simp [Balanced, State.outstanding, SendPostPc.holds]
  | ioCountIncrement wsaSendBuf =>
    cases h
    have hlive : s.live = 1 := State.live_of_pos (lt_of_le_of_ne hcount (Ne.symm hG))
    have hlive' : State.live { s with ioCount := s.ioCount + 1 } = 1 :=
      State.live_of_pos (by simp only; omega)
    refine ⟨?_, .of_stage rfl rfl (hlive'.trans hlive.symm) rfl rfl⟩
    simp [Balanced, State.outstanding, SendPostPc.holds]
    omega
  | wsaSend wsaSendBuf =>
    simp only [execSendPost] at h
    repeat' split at h
    all_goals cases h
    · refine ⟨?_, .of_stage rfl rfl rfl rfl rfl⟩
      simp [Balanced, State.outstanding, SendPostPc.holds]
      omega
    · refine ⟨?_, .of_stage rfl rfl rfl rfl rfl⟩
      simp [Balanced, SendPostPc.holds, DecrementSite.holds]
  | resetNegative => cases hnegative
  | getRestSize =>
    simp only [execSendPost] at h
    repeat' split at h
    all_goals
      cases h
      refine ⟨?_, .of_stage rfl rfl rfl rfl rfl⟩
      simp [Balanced, SendPostPc.holds, DecrementSite.holds]
  | resetIoMode =>
    cases h
    refine ⟨?_, .of_stage rfl rfl rfl rfl rfl⟩
    simp [Balanced, State.outstanding, SendPostPc.holds]
  | retestRestSize =>
    simp only [execSendPost] at h
    split at h <;> cases h
    · refine ⟨?_, .of_stage rfl rfl rfl rfl rfl⟩
      simp [Balanced, SendPostPc.holds]
    · have hnext := caller.holds_next .complete (by decide)
      refine ⟨?_, .of_stage (hstage _) (hreleasing _) rfl rfl rfl⟩
      simp [Balanced, SendPostPc.holds, hnext]
  | dequeue i useSize wsaSendBuf =>
    simp only [execSendPost] at h
    repeat' split at h
    all_goals
      cases h
      refine ⟨?_, .of_stage rfl rfl rfl rfl rfl⟩
      simp [Balanced, State.outstanding, SendPostPc.holds]

/-- What is left to do after a decrement that did not reach zero holds one
reference less. -/
theorem DecrementSite.holds_otherwise {site : DecrementSite} (hnegative : site.negative = false)
    (hfull : ∀ caller, site ≠ .ringFull caller) :
    site.holds = site.otherwise.holds + 1 := by
  cases site with
  | ringFull caller => exact absurd rfl (hfull caller)
  | recvFailed caller =>
    rw [DecrementSite.holds, DecrementSite.otherwise, caller.holds_next _ (by decide), Nat.add_comm]
  | sendFailed caller =>
    rw [DecrementSite.holds, DecrementSite.otherwise, caller.holds_next _ (by decide), Nat.add_comm]
  | restNegative caller => cases hnegative
  | _ => rfl

theorem DecrementSite.otherwise_stage {site : DecrementSite} (hnegative : site.negative = false)
    (hfull : ∀ caller, site ≠ .ringFull caller) :
    site.otherwise.stage = (Pc.ioCountDecrement site).stage ∧ site.otherwise.releasing = 0 := by
  cases site with
  | ringFull caller => exact absurd rfl (hfull caller)
  | recvFailed caller => exact ⟨by cases caller <;> rfl, caller.next_releasing _⟩
  | sendFailed caller => exact ⟨caller.next_stage _, caller.next_releasing _⟩
  | restNegative caller => cases hnegative
  | _ => exact ⟨rfl, rfl⟩

/-- Out of the window, `ReleaseSession` is nobody's business but the caller's. -/
theorem Pc.release_away {site : DecrementSite} {pc : ReleasePc}
    (hwindowed : (Pc.ioCountDecrement site).windowed = 0)
    (hfull : ∀ caller, site = .ringFull caller → caller = .worker) :
    (Pc.release pc site).stage = .away := by
  cases site with
  | ringFull caller =>
    cases hfull caller rfl
    rfl
  | recvFailed caller =>
    cases caller with
    | reconnecter => cases hwindowed
    | _ => rfl
  | _ => rfl

/-- What the guard says about a decrement that reaches zero. -/
theorem ReleaseGuard.zero {site : DecrementSite} {ts : List Pc}
    (hG : ReleaseGuard (.ioCountDecrement site) o s ts) (hone : s.ioCount = 1) :
    load Pc.windowed ts = 0 ∧ ∀ caller, site = .ringFull caller → caller = .worker := by
  cases site with
  | ringFull caller =>
    obtain ⟨rfl, -, hwindowed⟩ := hG
    refine ⟨hwindowed, ?_⟩
    rintro _ ⟨⟩
    rfl
  | _ => exact ⟨hG hone, by rintro _ ⟨⟩⟩

/-- **The last decrement** finds no request outstanding and no other thread that
holds a reference; its thread is then the one that answers for the session. -/
theorem execDecrement_keeps {site : DecrementSite}
    (hnegative : site.negative = false)
    (hG : ReleaseGuard (.ioCountDecrement site) o s (l ++ .ioCountDecrement site :: r))
    (hA : Accounts s (l ++ .ioCountDecrement site :: r))
    (hT : Tokens s (l ++ .ioCountDecrement site :: r))
    (h : execDecrement s site = (s', pc')) :
    Accounts s' (l ++ pc' :: r) ∧ Tokens s' (l ++ pc' :: r) := by
  unfold execDecrement at h
  split at h
  · next hzero =>
    cases h
    have hone : s.ioCount = 1 := by omega
    obtain ⟨hwindowed, hfull⟩ := hG.zero hone
    have hholds : 1 ≤ (Pc.ioCountDecrement site).holds := by
      cases site with
      | ringFull caller =>
        cases hfull caller rfl
        exact Nat.le_refl 1
      | recvFailed caller => exact Nat.le_add_right _ _
      | sendFailed caller => exact Nat.le_add_right _ _
      | restNegative caller => cases hnegative
      | _ => exact Nat.le_refl 1
    simp only [load_append, load_cons] at hwindowed
    have hstage : (Pc.release .onDisconnect site).stage = .away :=
      Pc.release_away (by omega) hfull
    have hlive : s.live = 1 := State.live_of_pos (by omega)
    have hlive' : State.live { s with
        ioCount := s.ioCount - 1
        releases := s.releases + 1
        quiet := true
        reposted := false } = 0 :=
      State.live_of_zero (by simp only; omega)
    constructor
    · simp only [Accounts, State.outstanding, load_append, load_cons, Pc.holds_release]
        at hA ⊢
      omega
    · obtain ⟨htoken, htaken, -, honce, hsingle⟩ := hT
      have hself : (Pc.ioCountDecrement site).releasing = 0 := rfl
      have hreleasing : (Pc.release .onDisconnect site).releasing = 1 := rfl
      simp only [load_append, load_cons, hself] at htoken htaken honce hsingle
      constructor <;> simp only [load_append, load_cons, hlive', hreleasing, Pc.starting,
        Pc.fresh, Pc.taken, Pc.windowed, Pc.reconnects, hstage, Stage.starts, Stage.fresh,
        Stage.taken, Stage.windowed, Stage.reconnecter] <;> omega
  · next hzero =>
    cases h
    have hfull : ∀ caller, site ≠ .ringFull caller := by
      rintro caller rfl
      have := hG.2.1
      omega
    have hholds := hA.holds_le (.ioCountDecrement site) (by simp)
    have hnext := DecrementSite.holds_otherwise hnegative hfull
    obtain ⟨hstage, hreleasing⟩ := DecrementSite.otherwise_stage hnegative hfull
    rw [Pc.holds_ioCountDecrement] at hholds
    have hlive : s.live = 1 := State.live_of_pos (by omega)
    have hlive' : State.live { s with ioCount := s.ioCount - 1 } = 1 :=
      State.live_of_pos (by simp only; omega)
    refine ⟨hA.balanced ?_, hT.passes (.of_stage hstage hreleasing (hlive'.trans hlive.symm)
      rfl rfl)⟩
    simp only [Balanced, State.outstanding, Pc.holds_ioCountDecrement]
    omega

theorem execRelease_passes {pc : ReleasePc} {site : DecrementSite}
    (h : execRelease spec s site pc = (s', pc')) :
    Balanced s (.release pc site) s' pc' ∧ Passes s (.release pc site) s' pc' := by
  obtain ⟨hframe, hpc⟩ := execRelease_cases h
  have hlive : s'.live = s.live := State.live_congr hframe.ioCount
  have hreleases : s'.releases = s.releases :=
    congrArg ReleaseHistory.releases hframe.releaseHistory
  have houtstanding : s'.outstanding = s.outstanding := by
    rw [State.outstanding, State.outstanding, hframe.outstandingRecv, hframe.outstandingSend]
  rcases hpc with ⟨q, rfl, hlist⟩ | ⟨rfl, hle, hge⟩
  · refine ⟨?_, .of_stage (Pc.release_stage _ _ _) rfl hlive hlist hreleases⟩
    simp [Balanced, hframe.ioCount, houtstanding]
  · refine ⟨by simp [Balanced, hframe.ioCount, houtstanding], ?_⟩
    have hstage := site.released_stage pc
    have hreleasing := site.released_releasing
    have hself : (Pc.release pc site).releasing = 1 := rfl
    -- the thread stops being in `ReleaseSession` when it has listed the session
    constructor <;> simp only [Pc.starting, Pc.fresh, Pc.taken, Pc.windowed, Pc.reconnects,
      hstage, hreleasing, hself, hlive, hreleases] <;> omega

theorem execWorker_passes {pc : WorkerPc} (h : execWorker spec s pc = (s', pc')) :
    Balanced s (.worker pc) s' pc' ∧ Passes s (.worker pc) s' pc' := by
  revert h
  fun_cases execWorker spec s pc <;> rintro ⟨⟩ <;>
    exact ⟨by simp [Balanced, State.outstanding, State.freeStore, RecvPostPc.holds,
      RecvPostCaller.holds, SendPostPc.holds, SendPostCaller.holds, DecrementSite.holds],
      .of_stage rfl rfl rfl rfl rfl⟩

/-- The `Reconnecter` takes the entry, makes the connection, and takes the
entry out of the list. -/
theorem execReconnecter_tokens {pc : ReconnecterPc}
    (hT : Tokens s (l ++ .reconnecter pc :: r))
    (h : execReconnecter o s pc = some (s', pc')) : Tokens s' (l ++ pc' :: r) := by
  cases pc with
  | takeFirst =>
    simp only [execReconnecter] at h
    repeat' split at h
    all_goals cases h
    · exact hT.passes (by constructor <;> simp [Pc.stage, Pc.releasing])
    · next hlist =>
      -- there is one `Reconnecter`, so no entry was taken before
      have hl := load_mono taken_le_reconnects l
      have hr := load_mono taken_le_reconnects r
      obtain ⟨htoken, htaken, hwindowed, honce, hsingle⟩ := hT
      simp only [load_append, load_cons] at htoken htaken hwindowed honce hsingle
      have hself : (Pc.reconnecter .takeFirst).reconnects = 1 := rfl
      refine ⟨?_, ?_, ?_, ?_, ?_⟩ <;> simp only [load_append, load_cons]
      · exact htoken
      · have htake : (Pc.reconnecter .socket).taken = 1 := rfl
        omega
      · exact hwindowed
      · exact honce
      · exact hsingle
  | connect =>
    simp only [execReconnecter] at h
    repeat' split at h
    all_goals cases h
    · exact hT.passes (by constructor <;> simp [Pc.stage, Pc.releasing])
    · -- a new connection, of which nothing has been released
      obtain ⟨hlive, -, hfresh⟩ := hT.alone rfl rfl
      obtain ⟨htoken, htaken, hwindowed, -, hsingle⟩ := hT
      have hlive' : State.live { s with sock := .connected, releases := 0 } = 0 := hlive
      simp only [load_append, load_cons] at htoken htaken hwindowed hsingle hfresh
      refine ⟨?_, ?_, ?_, ?_, ?_⟩ <;> simp only [load_append, load_cons]
      · exact htoken
      · exact htaken
      · exact hwindowed
      · have hself : (Pc.reconnecter .setSockOpt).fresh = 1 := rfl
        omega
      · exact hsingle
    · exact hT.passes (.of_stage rfl rfl rfl rfl rfl)
    · exact hT.passes (.of_stage rfl rfl rfl rfl rfl)
  | popFront retval =>
    cases h
    have hlist : 1 ≤ s.sessionReconnectIdList := by
      have htaken := hT.taken
      have hself : (Pc.reconnecter (.popFront retval)).taken = 1 := rfl
      simp only [load_append, load_cons] at htaken
      omega
    have hlive : State.live { s with
        sessionReconnectIdList := s.sessionReconnectIdList - 1 } = s.live := rfl
    exact hT.passes (by constructor <;> simp [Pc.stage, Pc.releasing, hlive] <;> omega)
  | socket =>
    simp only [execReconnecter] at h
    split at h <;> cases h
    · exact hT.passes (.of_stage rfl rfl rfl rfl rfl)
    · have hlive : State.live { s with sock := .invalid } = s.live := rfl
      exact hT.passes (by constructor <;> simp [Pc.stage, Pc.releasing, hlive])
  | setSockOpt =>
    simp only [execReconnecter] at h
    split at h <;> cases h
    · exact hT.passes (.of_stage rfl rfl rfl rfl rfl)
    · have hlive : State.live { s with bIsConnect := true } = s.live := rfl
      exact hT.passes (by constructor <;> simp [Pc.stage, Pc.releasing, hlive])

theorem execReconnecter_balanced {pc : ReconnecterPc}
    (h : execReconnecter o s pc = some (s', pc')) : Balanced s (.reconnecter pc) s' pc' := by
  revert h
  fun_cases execReconnecter o s pc <;> rintro ⟨⟩ <;>
    simp [Balanced, State.outstanding, Pc.holds, RecvPostPc.holds, RecvPostCaller.holds]

/-- **One guarded action** keeps the account and the tokens. -/
theorem exec_tokens (hnegative : pc.negative = false) (hG : ReleaseGuard pc o s (l ++ pc :: r))
    (hA : Accounts s (l ++ pc :: r)) (hT : Tokens s (l ++ pc :: r))
    (h : exec spec pc o s = some (s', pc')) :
    Accounts s' (l ++ pc' :: r) ∧ Tokens s' (l ++ pc' :: r) := by
  cases pc with
  | recvPost pc caller =>
    obtain ⟨hbalanced, hpasses⟩ := execRecvPost_passes hA hT (Option.some.inj h)
    exact ⟨hA.balanced hbalanced, hT.passes hpasses⟩
  | sendPost pc caller =>
    have hcount : 0 ≤ s.ioCount := by
      have := hA.holds_le (.sendPost pc caller) (by simp)
      omega
    obtain ⟨hbalanced, hpasses⟩ := execSendPost_passes hcount hnegative hG h
    exact ⟨hA.balanced hbalanced, hT.passes hpasses⟩
  | ioCountDecrement site => exact execDecrement_keeps hnegative hG hA hT (Option.some.inj h)
  | release pc site =>
    obtain ⟨hbalanced, hpasses⟩ := execRelease_passes (Option.some.inj h)
    exact ⟨hA.balanced hbalanced, hT.passes hpasses⟩
  | worker pc =>
    obtain ⟨hbalanced, hpasses⟩ := execWorker_passes (Option.some.inj h)
    exact ⟨hA.balanced hbalanced, hT.passes hpasses⟩
  | sendPacketImpl buf =>
    cases h
    refine ⟨hA.balanced ?_, hT.passes (.of_stage rfl rfl rfl rfl rfl)⟩
    simp [Balanced, State.outstanding, Pc.holds, SendPostPc.holds, SendPostCaller.holds]
  | reconnecter pc => exact ⟨hA.balanced (execReconnecter_balanced h), execReconnecter_tokens hT h⟩
  | finished => cases h

/-- A completion hands the request's reference to a worker. -/
theorem spawn_tokens {ts : List Pc} {e : Event} (hA : Accounts s ts) (hT : Tokens s ts)
    (h : spawn e s = some (s', pc)) : Accounts s' (ts ++ [pc]) ∧ Tokens s' (ts ++ [pc]) := by
  -- the new thread answers for nothing
  have htokens : pc.stage = .away → pc.releasing = 0 → s'.live = s.live →
      s'.sessionReconnectIdList = s.sessionReconnectIdList → s'.releases = s.releases →
      Tokens s' (ts ++ [pc]) := by
    intro hstage hreleasing hlive hlist hreleases
    obtain ⟨htoken, htaken, hwindowed, honce, hsingle⟩ := hT
    constructor <;> simpa [hstage, hreleasing, hlive, hlist, hreleases]
  cases e with
  | recvCompletion i bytes =>
    obtain ⟨length, hi, -, rfl, rfl⟩ := spawn_recvCompletion h
    obtain ⟨hlt, -⟩ := List.getElem?_eq_some_iff.mp hi
    refine ⟨?_, htokens rfl rfl rfl rfl rfl⟩
    simp only [Accounts, State.outstanding, load_append, load_cons, load_nil, Pc.holds_worker,
      List.length_eraseIdx_of_lt hlt] at hA ⊢
    omega
  | sendCompletion i =>
    obtain ⟨bufs, hi, rfl, rfl⟩ := spawn_sendCompletion h
    obtain ⟨hlt, -⟩ := List.getElem?_eq_some_iff.mp hi
    refine ⟨?_, htokens rfl rfl rfl rfl rfl⟩
    simp only [Accounts, State.outstanding, load_append, load_cons, load_nil, Pc.holds_worker,
      List.length_eraseIdx_of_lt hlt] at hA ⊢
    omega
  | _ =>
    cases h
    refine ⟨?_, htokens rfl rfl rfl rfl rfl⟩
    simpa [Accounts, State.outstanding, Pc.holds] using hA

/-! ## Every guarded run -/

/-- The account and the tokens are kept along every guarded run. -/
theorem tokens_of_run {c : Config State Pc} (h : (client spec).Run ReleaseGuard client.init c) :
    Accounts c.shared c.threads ∧ Tokens c.shared c.threads := by
  refine Run.induct (I := fun s ts => Accounts s ts ∧ Tokens s ts) h ?_ ?_ ?_
  · exact ⟨rfl, by constructor <;> decide⟩
  · intro s l pc r o s' pc' hrun hI hG hexec
    exact exec_tokens (never_negative hrun.anywhere pc (by simp)) hG hI.1 hI.2 hexec
  · intro s ts e s' pc _ hI hspawn
    exact spawn_tokens hI.1 hI.2 hspawn

/-- A thread in `ReleaseSession` is the only one that answers for the session. -/
theorem Tokens.live_eq_zero {ts : List Pc} (hT : Tokens s ts) (hpc : pc ∈ ts)
    (hreleasing : pc.releasing = 1) : s.live = 0 := by
  have hle := le_load_of_mem (f := Pc.releasing) hpc
  have hwindowed := load_mono windowed_le_taken ts
  have htoken := hT.token
  have htaken := hT.taken
  omega

theorem State.ioCount_eq_zero (h : s.live = 0) : s.ioCount = 0 := by
  unfold State.live at h
  split at h
  · assumption
  · cases h

/-- **One release for a connection**: in every run that keeps to `ReleaseGuard`,
`ReleaseSession` is entered at most once since the connection was established, no
request is outstanding while a thread is in it, `m_IOCount` does not wrap, and
the session's id is in `sessionReconnectIdList` at most once. -/
theorem connection_released_once {c : Config State Pc}
    (h : (client spec).Run ReleaseGuard client.init c) :
    c.shared.releases ≤ 1 ∧
      (∀ pc ∈ c.threads, pc.releasing = 1 →
        c.shared.outstandingRecv = [] ∧ c.shared.outstandingSend = []) ∧
      0 ≤ c.shared.ioCount ∧ c.shared.sessionReconnectIdList ≤ 1 := by
  obtain ⟨hA, hT⟩ := tokens_of_run h
  have htoken := hT.token
  have hwindowed := hT.windowed
  have honce := hT.once
  refine ⟨by omega, fun pc hpc hreleasing => ?_, ?_, by omega⟩
  · -- with nothing referenced the account is empty
    have hzero := State.ioCount_eq_zero (hT.live_eq_zero hpc hreleasing)
    simp only [Accounts, State.outstanding] at hA
    exact ⟨List.length_eq_zero_iff.mp (by omega), List.length_eq_zero_iff.mp (by omega)⟩
  · simp only [Accounts] at hA
    omega

/-- A connection that the server closes, and the next one. -/
def client.reconnect : List (Machine.Act CallResult Event) :=
  .event (.recvCompletion 0 []) :: List.replicate 10 (.run 2 .success) ++
    List.replicate 8 (.run 1 .success)

/-- The `Reconnecter` with its receive posted, the old connection released. -/
theorem connection_released_once_reconnected :
    ∃ c, c.shared.ioCount = 1 ∧ (client reconnectingSpec).Run ReleaseGuard client.init c ∧
      c.shared.releases ≤ 1 ∧
      (∀ pc ∈ c.threads, pc.releasing = 1 →
        c.shared.outstandingRecv = [] ∧ c.shared.outstandingSend = []) ∧
      0 ≤ c.shared.ioCount ∧ c.shared.sessionReconnectIdList ≤ 1 := by
  obtain ⟨c, hrun, hc⟩ := exists_run (client reconnectingSpec) ReleaseGuard client.init
    (client.start ++ client.reconnect) (P := fun c => c.shared.ioCount = 1) (by decide +kernel)
  exact ⟨c, hc, hrun, connection_released_once hrun⟩

/-- A `SendPacket` after the server has closed the connection: its `WSASend`
fails, and its decrement reaches zero a second time. -/
theorem connection_released_again :
    ∃ c, (client reconnectingSpec).Reachable client.init c ∧ c.shared.releases = 2 ∧
      c.shared.sessionReconnectIdList = 2 := by
  obtain ⟨c, hrun, hc⟩ := exists_run (client reconnectingSpec) unguarded client.init
    (client.start ++ .event (.recvCompletion 0 []) :: List.replicate 10 (.run 2 .success) ++
      .event .sendPacket :: List.replicate 17 (.run 3 .failure))
    (P := fun c => c.shared.releases = 2 ∧ c.shared.sessionReconnectIdList = 2) (by decide +kernel)
  exact ⟨c, hrun, hc⟩

end RioServer.Client
