import RioServer.Client.EachConnection

/-!
# No session of the DB client is lost (MultiLanClient.cpp:188–223, 350–488)

`ReleaseGuard` keeps a session from being released twice; `Tokens` says that never
two at once answer for it: its references, a thread in `ReleaseSession`, `Start`
before its first receive, or its entry of `sessionReconnectIdList`. Here is the
other half. With `m_IsReconnect` there is always one: what takes the last reference
away goes on to `ReleaseSession`, which lists the session, and the `Reconnecter`
takes the entry out only behind its own receive.

So every session that nobody works for has a request outstanding, or it is in the
list (`never_lost`). Without `m_IsReconnect` it ends with its release.
-/

namespace RioServer.Client

open Machine

variable {spec : ClientSpec} {o : CallResult} {s s' : State} {pc pc' : Pc} {l r ts : List Pc}

/-! ## One action -/

/-- Someone answers for the session; in the `Reconnecter`'s window, two. -/
def Answered (s : State) (ts : List Pc) : Prop :=
  1 + load Pc.windowed ts ≤
    s.live + load Pc.releasing ts + load Pc.starting ts + s.sessionReconnectIdList

/-- An action after which no fewer answer for the session than before. -/
def Stays (s : State) (pc : Pc) (s' : State) (pc' : Pc) : Prop :=
  s.live + pc.releasing + pc.starting + s.sessionReconnectIdList + pc'.windowed ≤
    s'.live + pc'.releasing + pc'.starting + s'.sessionReconnectIdList + pc.windowed

theorem Answered.stays (hI : Answered s (l ++ pc :: r)) (h : Stays s pc s' pc') :
    Answered s' (l ++ pc' :: r) := by
  simp only [Answered, Stays, load_append, load_cons] at hI h ⊢
  omega

/-- An action in one stage that leaves the session's tokens alone. -/
theorem Stays.of_stage (hstage : pc'.stage = pc.stage)
    (hreleasing : pc'.releasing = pc.releasing) (hlive : s'.live = s.live)
    (hlist : s'.sessionReconnectIdList = s.sessionReconnectIdList) : Stays s pc s' pc' := by
  have hwindowed : pc'.windowed = pc.windowed := congrArg Stage.windowed hstage
  have hstarting : pc'.starting = pc.starting := congrArg Stage.starts hstage
  simp only [Stays]
  omega

/-- Raising the count answers for the session, whoever does it. -/
theorem execRecvPost_stays {pc : RecvPostPc} {caller : RecvPostCaller}
    (hA : Accounts s (l ++ .recvPost pc caller :: r))
    (hT : Tokens s (l ++ .recvPost pc caller :: r))
    (h : execRecvPost spec o s caller pc = (s', pc')) :
    Stays s (.recvPost pc caller) s' pc' := by
  have hholds := hA.holds_le (.recvPost pc caller) (by simp)
  cases pc with
  | isFull =>
    simp only [execRecvPost] at h
    split at h <;> cases h
    · exact .of_stage (by cases caller <;> rfl) rfl rfl rfl
    · exact .of_stage (by cases caller <;> rfl) rfl rfl rfl
  | ioCountIncrement =>
    cases h
    have hlive' : State.live { s with ioCount := s.ioCount + 1 } = 1 :=
      State.live_of_pos (by simp only; omega)
    have hle := s.live_le
    simp only [Stays, hlive']
    cases caller with
    | start =>
      -- nothing else answered while `Start` did
      have htoken := hT.token
      have htaken := hT.taken
      have hwindowed := load_mono windowed_le_taken (l ++ .recvPost .ioCountIncrement .start :: r)
      have hstarting : (Pc.recvPost .ioCountIncrement .start).starting = 1 := rfl
      simp only [load_append, load_cons] at htoken htaken hwindowed
      show s.live + 0 + 1 + s.sessionReconnectIdList + 0 ≤ 1 + 0 + 0 + s.sessionReconnectIdList + 0
      omega
    | worker =>
      show s.live + 0 + 0 + s.sessionReconnectIdList + 0 ≤ 1 + 0 + 0 + s.sessionReconnectIdList + 0
      omega
    | reconnecter =>
      obtain ⟨hlive, -, -⟩ := hT.alone rfl rfl
      show s.live + 0 + 0 + s.sessionReconnectIdList + 1 ≤ 1 + 0 + 0 + s.sessionReconnectIdList + 0
      omega
  | wsaRecv length =>
    simp only [execRecvPost] at h
    split at h <;> cases h
    · exact .of_stage (by cases caller <;> rfl) (caller.next_releasing _) rfl rfl
    · exact .of_stage (by cases caller <;> rfl) rfl rfl rfl

/-- `SendPost` raises a count that is not zero. -/
theorem execSendPost_stays {pc : SendPostPc} {caller : SendPostCaller} {ts : List Pc}
    (hcount : 0 ≤ s.ioCount) (hG : ReleaseGuard (.sendPost pc caller) o s ts)
    (h : execSendPost o s caller pc = some (s', pc')) : Stays s (.sendPost pc caller) s' pc' := by
  cases pc with
  | ioCountIncrement wsaSendBuf =>
    cases h
    have hne : s.ioCount ≠ 0 := hG
    have hlive : s.live = 1 := State.live_of_pos (by omega)
    have hlive' : State.live { s with ioCount := s.ioCount + 1 } = 1 :=
      State.live_of_pos (by simp only; omega)
    exact .of_stage rfl rfl (hlive'.trans hlive.symm) rfl
  | _ =>
    revert h
    simp only [execSendPost]
    repeat' split
    all_goals rintro ⟨⟩
    all_goals
      first
      | exact .of_stage rfl rfl rfl rfl
      | exact .of_stage (caller.next_stage _) (caller.next_releasing _) rfl rfl

/-- The decrement that reaches zero goes on to `ReleaseSession`. -/
theorem execDecrement_stays {site : DecrementSite} (hnegative : site.negative = false)
    (hG : ReleaseGuard (.ioCountDecrement site) o s (l ++ .ioCountDecrement site :: r))
    (hA : Accounts s (l ++ .ioCountDecrement site :: r))
    (h : execDecrement s site = (s', pc')) : Stays s (.ioCountDecrement site) s' pc' := by
  unfold execDecrement at h
  split at h
  · next hzero =>
    cases h
    have hone : s.ioCount = 1 := by omega
    obtain ⟨hwindowed, hfull⟩ := hG.zero hone
    have hself := load_eq_zero_iff.mp hwindowed (.ioCountDecrement site) (by simp)
    have haway : (Pc.release .onDisconnect site).stage = .away := Pc.release_away hself hfull
    have hlive : s.live ≤ 1 := s.live_le
    have hstarting : (Pc.ioCountDecrement site).starting = 0 := by
      cases site with
      | ringFull caller =>
        cases hfull caller rfl
        rfl
      | recvFailed caller => cases caller <;> rfl
      | _ => rfl
    have hwindowed' : (Pc.release .onDisconnect site).windowed = 0 := by
      rw [Pc.windowed, haway]
      rfl
    simp only [Stays, hself, hstarting, hwindowed']
    show s.live + 0 + 0 + s.sessionReconnectIdList + 0 ≤
      _ + 1 + _ + s.sessionReconnectIdList + 0
    omega
  · next hne =>
    cases h
    have hfull : ∀ caller, site ≠ .ringFull caller := by
      rintro caller rfl
      obtain ⟨-, hone, -⟩ := hG
      omega
    obtain ⟨hstage, hreleasing⟩ := DecrementSite.otherwise_stage hnegative hfull
    have hholds := hA.holds_le (.ioCountDecrement site) (by simp)
    have hgives := DecrementSite.holds_otherwise hnegative hfull
    simp only [Pc.holds_ioCountDecrement] at hholds
    have hlive : s.live = 1 := State.live_of_pos (by omega)
    have hlive' : State.live { s with ioCount := s.ioCount - 1 } = 1 :=
      State.live_of_pos (by simp only; omega)
    exact .of_stage hstage hreleasing (hlive'.trans hlive.symm) rfl

/-- With `m_IsReconnect` the release ends with the entry of the list. -/
theorem execRelease_stays {pc : ReleasePc} {site : DecrementSite} (hspec : spec.isReconnect = true)
    (h : execRelease spec s site pc = (s', pc')) : Stays s (.release pc site) s' pc' := by
  cases pc with
  | emplaceBack =>
    cases h
    have hstage := site.released_stage .emplaceBack
    have hwindowed : site.released.windowed = (Pc.release .emplaceBack site).windowed :=
      congrArg Stage.windowed hstage
    have hstarting : site.released.starting = (Pc.release .emplaceBack site).starting :=
      congrArg Stage.starts hstage
    have hreleasing : (Pc.release .emplaceBack site).releasing = 1 := rfl
    simp only [Stays, hwindowed, hstarting, site.released_releasing, hreleasing]
    show s.live + 1 + _ + s.sessionReconnectIdList + _ ≤
      s.live + 0 + _ + (s.sessionReconnectIdList + 1) + _
    omega
  | closeSocket =>
    simp only [execRelease, if_pos hspec] at h
    cases h
    exact .of_stage (Pc.release_stage _ _ site) rfl rfl rfl
  | freeStore i sendBufferRestSize rest =>
    simp only [execRelease] at h
    split at h <;> cases h
    · exact .of_stage (Pc.release_stage _ _ site) rfl rfl rfl
    · exact .of_stage (Pc.release_stage _ _ site) rfl rfl rfl
  | freeQueue rest deleteBuf =>
    simp only [execRelease] at h
    repeat' split at h
    all_goals
      cases h
      exact .of_stage (Pc.release_stage _ _ site) rfl rfl rfl
  | _ =>
    cases h
    exact .of_stage (Pc.release_stage _ _ site) rfl rfl rfl

/-- The `Reconnecter` takes its entry out of the list when its receive answers. -/
theorem execReconnecter_stays {pc : ReconnecterPc} (hT : Tokens s (l ++ .reconnecter pc :: r))
    (h : execReconnecter o s pc = some (s', pc')) : Stays s (.reconnecter pc) s' pc' := by
  have hsame : ∀ {q : ReconnecterPc} {t : State} {q' : Pc}, (Pc.reconnecter q).windowed = 0 →
      (Pc.reconnecter q).starting = 0 → q'.windowed = 0 → q'.releasing = 0 → q'.starting = 0 →
      t.live = s.live → t.sessionReconnectIdList = s.sessionReconnectIdList →
      Stays s (.reconnecter q) t q' := by
    intro q t q' hq hstart hq' hreleasing hstart' hlive hlist
    have hzero : (Pc.reconnecter q).releasing = 0 := rfl
    simp only [Stays]
    omega
  cases pc with
  | popFront retval =>
    cases h
    have hlist := hT.taken
    have hone : (Pc.reconnecter (.popFront retval)).taken = 1 := rfl
    simp only [load_append, load_cons] at hlist
    show s.live + 0 + 0 + s.sessionReconnectIdList + 0 ≤
      s.live + 0 + 0 + (s.sessionReconnectIdList - 1) + 1
    omega
  | _ =>
    revert h
    simp only [execReconnecter]
    repeat' split
    all_goals rintro ⟨⟩
    all_goals exact hsame rfl rfl rfl rfl rfl rfl rfl

/-- **One guarded action** leaves someone to answer. -/
theorem exec_answered (hspec : spec.isReconnect = true) (hnegative : pc.negative = false)
    (hG : ReleaseGuard pc o s (l ++ pc :: r)) (hA : Accounts s (l ++ pc :: r))
    (hT : Tokens s (l ++ pc :: r)) (hI : Answered s (l ++ pc :: r))
    (h : exec spec pc o s = some (s', pc')) : Answered s' (l ++ pc' :: r) := by
  refine hI.stays ?_
  cases pc with
  | recvPost pc caller => exact execRecvPost_stays hA hT (Option.some.inj h)
  | sendPost pc caller =>
    have hcount : 0 ≤ s.ioCount := by
      have := hA.holds_le (.sendPost pc caller) (by simp)
      omega
    exact execSendPost_stays hcount hG h
  | ioCountDecrement site => exact execDecrement_stays hnegative hG hA (Option.some.inj h)
  | release pc site => exact execRelease_stays hspec (Option.some.inj h)
  | worker pc =>
    revert h
    simp only [exec, Option.some.injEq]
    fun_cases execWorker spec s pc <;> rintro ⟨⟩ <;> exact .of_stage rfl rfl rfl rfl
  | sendPacketImpl buf =>
    cases h
    exact .of_stage rfl rfl rfl rfl
  | reconnecter pc => exact execReconnecter_stays hT h
  | finished => cases h

/-! ## Every guarded run -/

/-- Exactly one answers for the session, along every guarded run. -/
theorem answered_of_run (hspec : spec.isReconnect = true) {c : Config State Pc}
    (h : (client spec).Run ReleaseGuard client.init c) : Answered c.shared c.threads := by
  refine Run.induct h (Nat.le_refl 1) ?_ ?_
  · intro s l pc r o s' pc' hrun hI hG hexec
    obtain ⟨hA, hT⟩ := tokens_of_run hrun
    exact exec_answered hspec (never_negative hrun.anywhere pc (by simp)) hG hA hT hI hexec
  · intro s ts e s' pc _ hI hspawn
    have hnew : pc.windowed = 0 ∧ pc.releasing = 0 ∧ pc.starting = 0 := by
      rcases spawn_pc hspawn with ⟨_, rfl⟩ | ⟨_, rfl⟩ | rfl | rfl <;> exact ⟨rfl, rfl, rfl⟩
    have hsame : s'.live = s.live ∧ s'.sessionReconnectIdList = s.sessionReconnectIdList := by
      cases e with
      | recvCompletion i bytes =>
        obtain ⟨_, -, -, rfl, -⟩ := spawn_recvCompletion hspawn
        exact ⟨rfl, rfl⟩
      | sendCompletion i =>
        obtain ⟨_, -, rfl, -⟩ := spawn_sendCompletion hspawn
        exact ⟨rfl, rfl⟩
      | _ =>
        cases hspawn
        exact ⟨rfl, rfl⟩
    obtain ⟨hwindowed, hreleasing, hstarting⟩ := hnew
    simp only [Answered, load_append, load_cons, load_nil, hsame.1, hsame.2, hwindowed, hreleasing,
      hstarting] at hI ⊢
    omega

/-- A thread that has left the session alone, or the `Reconnecter` waiting. -/
def Pc.Away (pc : Pc) : Prop := pc = .finished ∨ pc = .reconnecter .takeFirst

instance (pc : Pc) : Decidable pc.Away := inferInstanceAs (Decidable (_ ∨ _))

/-- What a session waits for while nobody works for it: the completion of a
request, or the `Reconnecter`. -/
def State.Waits (s : State) : Prop :=
  (s.ioCount = s.outstanding ∧ 0 < s.outstanding ∧ s.sessionReconnectIdList = 0) ∨
    (s.ioCount = 0 ∧ s.outstanding = 0 ∧ s.sessionReconnectIdList = 1)

/-- A session that nobody works for waits for a completion or for the
`Reconnecter`. -/
theorem waits_of_run (hspec : spec.isReconnect = true) {c : Config State Pc}
    (h : (client spec).Run ReleaseGuard client.init c) (haway : ∀ pc ∈ c.threads, pc.Away) :
    c.shared.Waits := by
  obtain ⟨hA, hT⟩ := tokens_of_run h
  have hanswered := answered_of_run hspec h
  have hnone : load Pc.holds c.threads = 0 ∧ load Pc.windowed c.threads = 0 ∧
      load Pc.releasing c.threads = 0 ∧ load Pc.starting c.threads = 0 := by
    refine ⟨load_eq_zero_iff.mpr ?_, load_eq_zero_iff.mpr ?_, load_eq_zero_iff.mpr ?_,
      load_eq_zero_iff.mpr ?_⟩ <;>
    · intro pc hpc
      rcases haway pc hpc with rfl | rfl <;> rfl
  obtain ⟨hholds, hwindowed, hreleasing, hstarting⟩ := hnone
  have htoken := hT.token
  simp only [Answered, hwindowed, hreleasing, hstarting] at hanswered htoken
  simp only [Accounts, hholds] at hA
  by_cases hzero : c.shared.ioCount = 0
  · have hlive := State.live_of_zero hzero
    exact .inr ⟨hzero, by omega, by omega⟩
  · have hlive : c.shared.live = 1 := if_neg hzero
    exact .inl ⟨by omega, by omega, by omega⟩

/-! ## Every session of the client -/

namespace MultiLanClient

variable {options : Db.LanClientOptions} {c : Config MultiLanClient ClientPc} {i : Nat}
  {conn : Connection}

/-- Where the client's threads stand in session `i`. -/
def pcsAt (i : Nat) (ts : List ClientPc) : List Pc := ts.filterMap (ClientPc.atSession i)

/-- **No session is lost**: where every action at a session keeps to
`ReleaseGuard`, a client with `m_IsReconnect` has for each of its sessions exactly
one that answers: the requests and threads that `m_IOCount` counts, `Start`, a
thread in `ReleaseSession`, or the session's id in `sessionReconnectIdList`, which
stays there behind the `Reconnecter`'s receive until it is taken out. A session that
nobody works for has a request outstanding and is not listed, or has none and is
listed once. -/
theorem never_lost (h : (multiLanClient spec options).Run (onEach ReleaseGuard)
      multiLanClient.init c) (hspec : spec.isReconnect = true)
    (hconn : c.shared.sessionList[i]? = some conn) :
    conn.state.ioCount = conn.state.outstanding + load Pc.holds (pcsAt i c.threads) ∧
      conn.state.live + load Pc.releasing (pcsAt i c.threads) +
          load Pc.starting (pcsAt i c.threads) + c.shared.sessionReconnectIdList.count i =
        1 + load Pc.windowed (pcsAt i c.threads) ∧
      ((∀ pc ∈ pcsAt i c.threads, pc.Away) → (c.shared.view conn).Waits) := by
  have hrun := each_connection h hconn
  obtain ⟨hA, hT⟩ := tokens_of_run hrun
  have hanswered : Answered (c.shared.view conn) (pcsAt i c.threads) :=
    answered_of_run hspec hrun
  have htoken : (c.shared.view conn).live + load Pc.releasing (pcsAt i c.threads) +
      load Pc.starting (pcsAt i c.threads) + (c.shared.view conn).sessionReconnectIdList ≤
        1 + load Pc.windowed (pcsAt i c.threads) := hT.token
  have hid : (c.shared.view conn).sessionReconnectIdList =
      c.shared.sessionReconnectIdList.count i := by
    rw [← (coherent h).sessionId hconn]
    rfl
  have hlive : (c.shared.view conn).live = conn.state.live := rfl
  simp only [Answered] at hanswered
  rw [hid, hlive] at hanswered htoken
  exact ⟨hA, by omega, waits_of_run hspec hrun⟩

/-- Session 1 of two behind its reconnection, when all threads have left it. -/
theorem never_lost_reconnected :
    ∃ (c : Config MultiLanClient ClientPc) (conn : Connection),
      (multiLanClient reconnectingSpec twoSessions).Run (onEach ReleaseGuard)
        multiLanClient.init c ∧
      c.shared.sessionList[1]? = some conn ∧ c.shared.reconnected = [1] ∧
      (∀ pc ∈ pcsAt 1 c.threads, pc.Away) ∧
      conn.state.ioCount = conn.state.outstanding + load Pc.holds (pcsAt 1 c.threads) ∧
      conn.state.live + load Pc.releasing (pcsAt 1 c.threads) +
          load Pc.starting (pcsAt 1 c.threads) + c.shared.sessionReconnectIdList.count 1 =
        1 + load Pc.windowed (pcsAt 1 c.threads) ∧
      ((∀ pc ∈ pcsAt 1 c.threads, pc.Away) → (c.shared.view conn).Waits) := by
  obtain ⟨c, hrun, hc⟩ := exists_run (multiLanClient reconnectingSpec twoSessions)
    (onEach ReleaseGuard) multiLanClient.init multiLanClient.crossed
    (P := fun c => c.shared.reconnected = [1] ∧ 1 < c.shared.sessionList.length ∧
      ∀ pc ∈ pcsAt 1 c.threads, pc.Away) (by decide +kernel)
  obtain ⟨hreconnected, hlen, haway⟩ := hc
  have hconn := List.getElem?_eq_getElem hlen
  exact ⟨c, _, hrun, hconn, hreconnected, haway, never_lost hrun rfl hconn⟩

end MultiLanClient

end RioServer.Client
