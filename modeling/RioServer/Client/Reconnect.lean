import RioServer.Client.ReleaseOnce

/-!
# The session after a reconnection

`Start` sets `lBufferCount` and `IOMode`; `ReleaseSession` and `Reconnecter`
reset neither, nor the receive ring. So a reconnected session is like a new one
only if the old connection left nothing behind: `ReconnectGuard` says this of
every decrement that reaches zero, and `Settled` follows the session from there
to the next receive, as long as no completion and no `SendPacket` begins.
-/

namespace RioServer.Client

open Machine

variable {spec : ClientSpec} {o : CallResult} {s s' : State} {pc pc' : Pc} {l r : List Pc}

/-- The protocol state of a session that `Start` has set up. -/
structure State.Fresh (s : State) : Prop where
  ioMode : s.ioMode = .nonSending
  lBufferCount : s.lBufferCount = 0
  ioCount : s.ioCount = 1
  ring : s.ringBuffer.data = []

/-- In the middle of something: all but finished threads and a `Reconnecter`
that waits for the list to be filled. -/
def Pc.busy : Pc → Nat
  | .finished | .reconnecter .takeFirst => 0
  | _ => 1

/-- **The exception**: the last reference is given back with an empty
receive ring, nothing counted in the store and `IOMode` free, while no other
thread is doing anything for the session and its id is not in the list (but for
the entry that the `Reconnecter` itself is working on). -/
def ReconnectGuard : Guard State Pc CallResult := fun pc _ s ts =>
  match pc with
  | .ioCountDecrement _ =>
    s.ioCount = 1 → s.ringBuffer.data = [] ∧ s.lBufferCount = 0 ∧ s.ioMode = .nonSending ∧
      load Pc.busy ts ≤ 1 ∧ s.sessionReconnectIdList ≤ load Pc.taken ts
  | _ => True

instance (pc : Pc) (o : CallResult) (s : State) (ts : List Pc) :
    Decidable (ReconnectGuard pc o s ts) :=
  decidable_of_iff
    ((match pc with
      | .ioCountDecrement _ =>
        decide (s.ioCount = 1 → s.ringBuffer.data = [] ∧ s.lBufferCount = 0 ∧
          s.ioMode = .nonSending ∧ load Pc.busy ts ≤ 1 ∧
          s.sessionReconnectIdList ≤ load Pc.taken ts)
      | _ => true) = true)
    (by unfold ReconnectGuard; split <;> simp [imp_iff_not_or])

/-! ## One `Reconnecter` -/

theorem RecvPostCaller.next_reconnects (caller : RecvPostCaller) (retval : PostRetval)
    (pc : RecvPostPc) : (caller.next retval).reconnects ≤ (Pc.recvPost pc caller).reconnects := by
  cases caller with
  | worker => cases retval <;> exact Nat.zero_le _
  | start => exact Nat.zero_le _
  | reconnecter => cases pc <;> exact Nat.le_refl 1

theorem SendPostCaller.next_reconnects (caller : SendPostCaller) (retval : PostRetval) :
    (caller.next retval).reconnects = 0 := by
  rw [Pc.reconnects, caller.next_stage]
  rfl

/-- Nobody becomes the `Reconnecter`. -/
theorem exec_reconnects (h : exec spec pc o s = some (s', pc')) :
    pc'.reconnects ≤ pc.reconnects := by
  cases pc with
  | recvPost pc caller =>
    have hnext := fun retval => caller.next_reconnects retval pc
    revert h
    simp only [exec, Option.some.injEq]
    fun_cases execRecvPost spec o s caller pc <;> rintro ⟨⟩ <;>
      first
      | exact hnext _
      | (cases caller <;> exact Nat.le_refl _)
  | sendPost pc caller =>
    have hnext := caller.next_reconnects
    revert h
    simp only [exec]
    fun_cases execSendPost o s caller pc <;> rintro ⟨⟩ <;>
      first
      | exact Nat.zero_le _
      | (rw [hnext]; exact Nat.zero_le _)
  | ioCountDecrement site =>
    revert h
    simp only [exec, Option.some.injEq]
    fun_cases execDecrement s site <;> rintro ⟨⟩
    all_goals
      cases site with
      | ringFull caller | recvFailed caller => cases caller <;> exact Nat.le_refl _
      | restNegative caller => exact Nat.zero_le _
      | sendFailed caller => cases caller <;> exact Nat.zero_le _
      | _ => exact Nat.zero_le _
  | release pc site =>
    obtain ⟨-, ⟨q, rfl, -⟩ | ⟨rfl, -, -⟩⟩ := execRelease_cases (Option.some.inj h)
    · exact Nat.le_of_eq (congrArg Stage.reconnecter (Pc.release_stage _ _ _))
    · exact Nat.le_of_eq (congrArg Stage.reconnecter (site.released_stage pc))
  | worker pc =>
    revert h
    simp only [exec, Option.some.injEq]
    fun_cases execWorker spec s pc <;> rintro ⟨⟩ <;> exact Nat.zero_le _
  | sendPacketImpl buf =>
    cases h
    exact Nat.zero_le _
  | reconnecter pc =>
    revert h
    simp only [exec]
    fun_cases execReconnecter o s pc <;> rintro ⟨⟩ <;>
      first | exact Nat.le_refl _ | exact Nat.zero_le _
  | finished => cases h

/-- There is at most one `Reconnecter`, in any run. -/
theorem one_reconnecter {c : Config State Pc} (h : (client spec).Reachable client.init c) :
    load Pc.reconnects c.threads ≤ 1 := by
  refine Run.induct (I := fun _ ts => load Pc.reconnects ts ≤ 1) h (by decide) ?_ ?_
  · intro s l pc r o s' pc' _ hI _ hexec
    have hstep := exec_reconnects hexec
    simp only [load_append, load_cons] at hI ⊢
    omega
  · intro s ts e s' pc _ hI hspawn
    have hnew : pc.reconnects = 0 := by
      rcases spawn_pc hspawn with ⟨_, rfl⟩ | ⟨_, rfl⟩ | rfl | rfl <;> rfl
    simp only [load_append, load_cons, load_nil]
    omega

/-! ## From the release to the next receive -/

/-- Nothing refers to the session, nothing is queued, no receive is posted. -/
def State.Down (s : State) : Prop :=
  s.ioCount = 0 ∧ s.sendQ = [] ∧ s.reposted = false

/-- The `Reconnecter` has connected the session. -/
def State.Up (s : State) : Prop :=
  s.bIsConnect = true ∧ s.sock = .connected

/-- What the one busy thread knows. -/
def Pc.SettledAt (s : State) : Pc → Prop
  | .release pc site =>
    s.ioCount = 0 ∧ s.reposted = false ∧
      s.sessionReconnectIdList ≤ (Pc.release pc site).taken ∧
      match pc with
      | .getRestSize n => n = 0
      | .freeStore _ n rest => n = 0 ∧ rest = s.sendQ.length
      | .freeQueue rest _ => rest = s.sendQ.length
      | .closeSocket | .invalidateSocket | .emplaceBack => s.sendQ = []
      | .onDisconnect | .readBufferCount => True
  | .reconnecter .socket | .reconnecter .connect => s.Down ∧ s.sessionReconnectIdList ≤ 1
  | .reconnecter .setSockOpt =>
    s.Down ∧ s.sock = .connected ∧ s.sessionReconnectIdList ≤ 1
  | .recvPost .isFull caller | .recvPost .ioCountIncrement caller =>
    caller = .reconnecter ∧ s.Down ∧ s.Up ∧ s.sessionReconnectIdList ≤ 1
  | .recvPost (.wsaRecv _) caller =>
    caller = .reconnecter ∧ s.ioCount = 1 ∧ s.sendQ = [] ∧ s.Up ∧ s.reposted = false ∧
      s.sessionReconnectIdList ≤ 1
  | .ioCountDecrement site => site = .recvFailed .reconnecter ∧ s.ioCount = 1 ∧
      s.reposted = false
  | .reconnecter (.popFront .complete) => s.sessionReconnectIdList ≤ 1
  | .reconnecter (.popFront .errSessionDeleted) => s.Down ∧ s.sessionReconnectIdList ≤ 2
  | .reconnecter (.popFront .err) => False
  | .finished | .reconnecter .takeFirst => True
  | .sendPost _ _ | .worker _ | .sendPacketImpl _ => False

/-- Released, with nothing left behind. -/
structure Settled (s : State) (ts : List Pc) : Prop where
  ring : s.ringBuffer.data = []
  lBufferCount : s.lBufferCount = 0
  ioMode : s.ioMode = .nonSending
  one : load Pc.busy ts ≤ 1
  settled : ∀ pc ∈ ts, pc.SettledAt s
  idle : load Pc.busy ts = 0 → s.sessionReconnectIdList ≤ 1 ∧
    (s.sessionReconnectIdList = 1 → s.Down)
  posted : s.reposted = true → s.ioCount = 1 ∧ s.sendQ = [] ∧ s.Up

theorem Pc.settledAt_of_idle (h : pc.busy = 0) : pc.SettledAt s := by
  revert h
  fun_cases Pc.busy pc <;> intro h <;> trivial

/-- A busy thread is alone. -/
theorem Settled.alone (hS : Settled s (l ++ pc :: r)) (hpc : pc.busy = 1) :
    load Pc.busy l = 0 ∧ load Pc.busy r = 0 ∧ pc.SettledAt s := by
  have hone := hS.one
  simp only [load_append, load_cons] at hone
  exact ⟨by omega, by omega, hS.settled pc (by simp)⟩

section

variable (hl : load Pc.busy l = 0) (hr : load Pc.busy r = 0)
  (hring : s'.ringBuffer.data = []) (hcount : s'.lBufferCount = 0)
  (hmode : s'.ioMode = .nonSending)
  (hposted : s'.reposted = true → s'.ioCount = 1 ∧ s'.sendQ = [] ∧ s'.Up)
include hl hr hring hcount hmode hposted

/-- The acting thread goes on. -/
theorem Settled.of_busy (hpc' : pc'.busy = 1) (hat : pc'.SettledAt s') :
    Settled s' (l ++ pc' :: r) where
  ring := hring
  lBufferCount := hcount
  ioMode := hmode
  one := by simp [hl, hr, hpc']
  settled := forall_mem_place.mpr
    ⟨fun q hq => Pc.settledAt_of_idle (load_eq_zero_iff.mp hl q hq), hat,
      fun q hq => Pc.settledAt_of_idle (load_eq_zero_iff.mp hr q hq)⟩
  idle h := by
    simp only [load_append, load_cons] at h
    omega
  posted := hposted

/-- The acting thread is done. -/
theorem Settled.of_idle (hpc' : pc'.busy = 0)
    (hidle : s'.sessionReconnectIdList ≤ 1 ∧ (s'.sessionReconnectIdList = 1 → s'.Down)) :
    Settled s' (l ++ pc' :: r) where
  ring := hring
  lBufferCount := hcount
  ioMode := hmode
  one := by simp [hl, hr, hpc']
  settled := forall_mem_place.mpr
    ⟨fun q hq => Pc.settledAt_of_idle (load_eq_zero_iff.mp hl q hq),
      Pc.settledAt_of_idle hpc',
      fun q hq => Pc.settledAt_of_idle (load_eq_zero_iff.mp hr q hq)⟩
  idle _ := hidle
  posted := hposted

end

/-! ## One action -/

/-- A release leaves nothing behind. -/
theorem execDecrement_settled {site : DecrementSite}
    (hG : ReconnectGuard (.ioCountDecrement site) o s (l ++ .ioCountDecrement site :: r))
    (hI : s.quiet = true → Settled s (l ++ .ioCountDecrement site :: r))
    (h : execDecrement s site = (s', pc')) : s'.quiet = true → Settled s' (l ++ pc' :: r) := by
  unfold execDecrement at h
  split at h <;> cases h
  · next hzero =>
    intro _
    obtain ⟨hring, hcount, hmode, hbusy, hlist⟩ := hG (by omega)
    have hself : (Pc.ioCountDecrement site).busy = 1 := rfl
    simp only [load_append, load_cons] at hbusy hlist
    have hl : load Pc.busy l = 0 := by omega
    have hr : load Pc.busy r = 0 := by omega
    -- an idle thread has taken no entry out of the list
    have hidle : ∀ {ts : List Pc}, load Pc.busy ts = 0 → load Pc.taken ts = 0 := by
      intro ts hts
      refine load_eq_zero_iff.mpr fun q hq => ?_
      have hq := load_eq_zero_iff.mp hts q hq
      revert hq
      fun_cases Pc.busy q <;> intro hq <;> first | rfl | cases hq
    have htaken : (Pc.ioCountDecrement site).taken ≤ (Pc.release .onDisconnect site).taken := by
      cases site with
      | ringFull caller | recvFailed caller => cases caller <;> exact Nat.le_refl _
      | _ => exact Nat.le_refl _
    rw [hidle hl, hidle hr] at hlist
    refine .of_busy hl hr hring hcount hmode (fun h => Bool.noConfusion h) rfl
      ⟨hzero, rfl, ?_, trivial⟩
    exact Nat.le_trans hlist (by omega)
  · next hzero =>
    intro hquiet
    obtain ⟨-, -, -, hone, -⟩ := (hI hquiet).alone rfl
    omega

/-- `ReleaseSession` empties `SendQ` and lists the session. -/
theorem execRelease_settled {pc : ReleasePc} {site : DecrementSite}
    (hS : Settled s (l ++ .release pc site :: r))
    (h : execRelease spec s site pc = (s', pc')) : Settled s' (l ++ pc' :: r) := by
  obtain ⟨hl, hr, hzero, hreposted, hlist, hat⟩ := hS.alone rfl
  have hring := hS.ring
  have hcount := hS.lBufferCount
  have hmode := hS.ioMode
  have hnot : s.reposted = true → False := fun h => by
    rw [hreposted] at h
    cases h
  have hstage : ∀ q, (Pc.release q site).taken = (Pc.release pc site).taken := fun q =>
    congrArg Stage.taken (Pc.release_stage _ _ _)
  have hgo : ∀ {q : ReleasePc} {t : State}, t.ringBuffer = s.ringBuffer →
      t.lBufferCount = s.lBufferCount → t.ioMode = s.ioMode → t.reposted = s.reposted →
      t.ioCount = s.ioCount → t.sessionReconnectIdList = s.sessionReconnectIdList →
      (match q with
        | .getRestSize n => n = 0
        | .freeStore _ n rest => n = 0 ∧ rest = t.sendQ.length
        | .freeQueue rest _ => rest = t.sendQ.length
        | .closeSocket | .invalidateSocket | .emplaceBack => t.sendQ = []
        | .onDisconnect | .readBufferCount => True) →
      Settled t (l ++ .release q site :: r) := by
    intro q t hring' hcount' hmode' hreposted' hzero' hlist' hq
    refine .of_busy hl hr (hring' ▸ hring) (hcount'.trans hcount) (hmode'.trans hmode)
      (fun h => (hnot (hreposted' ▸ h)).elim) rfl
      ⟨hzero'.trans hzero, hreposted'.trans hreposted, ?_, hq⟩
    rw [hlist', hstage]
    exact hlist
  -- where `ReleaseSession` returns to, with the session listed or not
  have hback : ∀ {t : State}, t.ringBuffer = s.ringBuffer →
      t.lBufferCount = s.lBufferCount → t.ioMode = s.ioMode → t.reposted = s.reposted →
      t.ioCount = s.ioCount → t.sendQ = [] →
      t.sessionReconnectIdList ≤ s.sessionReconnectIdList + 1 →
      Settled t (l ++ site.released :: r) := by
    intro t hring' hcount' hmode' hreposted' hzero' hqueue hlist'
    have hdown : t.Down := ⟨hzero'.trans hzero, hqueue, hreposted'.trans hreposted⟩
    have hposted : t.reposted = true → t.ioCount = 1 ∧ t.sendQ = [] ∧ t.Up :=
      fun h => (hnot (hreposted' ▸ h)).elim
    have hdone : (Pc.release pc site).taken = 0 → site.released = .finished →
        Settled t (l ++ site.released :: r) := by
      intro htaken hfinished
      rw [hfinished]
      refine .of_idle hl hr (hring' ▸ hring) (hcount'.trans hcount) (hmode'.trans hmode) hposted
        rfl ⟨by omega, fun _ => hdown⟩
    cases site with
    | ringFull caller | recvFailed caller =>
      cases caller with
      | reconnecter =>
        have hone : (Pc.release pc (.recvFailed .reconnecter)).taken = 1 := rfl
        have hone' : (Pc.release pc (.ringFull .reconnecter)).taken = 1 := rfl
        exact .of_busy hl hr (hring' ▸ hring) (hcount'.trans hcount) (hmode'.trans hmode) hposted
          rfl ⟨hdown, by omega⟩
      | _ => exact hdone rfl rfl
    | restNegative caller | sendFailed caller => cases caller <;> exact hdone rfl rfl
    | _ => exact hdone rfl rfl
  cases pc with
  | onDisconnect =>
    cases h
    exact hgo rfl rfl rfl rfl rfl rfl trivial
  | readBufferCount =>
    cases h
    exact hgo rfl rfl rfl rfl rfl rfl hcount
  | getRestSize n =>
    cases h
    exact hgo rfl rfl rfl rfl rfl rfl ⟨hat, rfl⟩
  | freeStore i n rest =>
    obtain ⟨rfl, hrest⟩ := hat
    rw [execRelease, if_neg (by omega)] at h
    cases h
    exact hgo rfl rfl rfl rfl rfl rfl hrest
  | freeQueue rest deleteBuf =>
    simp only [execRelease] at h
    split at h
    · cases hqueue : s.sendQ with
      | nil =>
        rw [hqueue, List.length_nil] at hat
        omega
      | cons buf sendQ =>
        rw [hqueue] at h hat
        cases h
        refine hgo rfl rfl rfl rfl rfl rfl ?_
        simp only [List.length_cons] at hat ⊢
        omega
    · cases h
      exact hgo rfl rfl rfl rfl rfl rfl (List.length_eq_zero_iff.mp (by omega))
  | closeSocket =>
    simp only [execRelease] at h
    split at h <;> cases h
    · exact hgo rfl rfl rfl rfl rfl rfl hat
    · exact hback rfl rfl rfl rfl rfl hat (Nat.le_succ _)
  | invalidateSocket =>
    cases h
    exact hgo rfl rfl rfl rfl rfl rfl hat
  | emplaceBack =>
    cases h
    exact hback rfl rfl rfl rfl rfl hat (Nat.le_refl _)

/-- The `Reconnecter` posts a receive on a ring that is empty. -/
theorem execRecvPost_settled {pc : RecvPostPc} {caller : RecvPostCaller}
    (hS : Settled s (l ++ .recvPost pc caller :: r))
    (h : execRecvPost spec o s caller pc = (s', pc')) : Settled s' (l ++ pc' :: r) := by
  obtain ⟨hl, hr, hat⟩ := hS.alone rfl
  have hring := hS.ring
  have hcount := hS.lBufferCount
  have hmode := hS.ioMode
  cases pc with
  | isFull =>
    have hpos := spec.ringbufferMax_pos
    rw [execRecvPost, if_neg (by rw [Ringbuffer.getUseSize, hring]; exact Nat.not_le.mpr hpos)]
      at h
    cases h
    exact .of_busy hl hr hring hcount hmode hS.posted rfl hat
  | ioCountIncrement =>
    obtain ⟨rfl, ⟨hzero, hqueue, hreposted⟩, hup, hlist⟩ := hat
    cases h
    refine .of_busy hl hr hring hcount hmode (fun h => ?_) rfl
      ⟨rfl, ?_, hqueue, hup, hreposted, hlist⟩
    · exact absurd (hreposted.symm.trans h) (by decide)
    · simp only
      omega
  | wsaRecv length =>
    obtain ⟨rfl, hone, hqueue, hup, hreposted, hlist⟩ := hat
    simp only [execRecvPost] at h
    split at h <;> cases h
    · exact .of_busy hl hr hring hcount hmode (fun _ => ⟨hone, hqueue, hup⟩) rfl hlist
    · exact .of_busy hl hr hring hcount hmode hS.posted rfl ⟨rfl, hone, hreposted⟩

/-- A thread that is doing something for the session is the `Reconnecter`, or
the id is not in the list. -/
theorem Pc.SettledAt.reconnects (hat : pc.SettledAt s) (hbusy : pc.busy = 1) :
    pc.reconnects = 1 ∨ s.sessionReconnectIdList = 0 := by
  cases pc with
  | recvPost pc caller =>
    left
    cases pc with
    | isFull | ioCountIncrement =>
      obtain ⟨rfl, -⟩ := hat
      rfl
    | wsaRecv length =>
      obtain ⟨rfl, -⟩ := hat
      rfl
  | ioCountDecrement site =>
    obtain ⟨rfl, -⟩ := hat
    exact .inl rfl
  | release pc site =>
    obtain ⟨-, -, hlist, -⟩ := hat
    cases site with
    | ringFull caller | recvFailed caller =>
      cases caller with
      | reconnecter => exact .inl rfl
      | _ => exact .inr (Nat.le_zero.mp hlist)
    | _ => exact .inr (Nat.le_zero.mp hlist)
  | reconnecter pc =>
    cases pc with
    | takeFirst => cases hbusy
    | _ => exact .inl rfl
  | sendPost pc caller | worker pc | sendPacketImpl buf => exact hat.elim
  | finished => cases hbusy

/-- The `Reconnecter` takes an entry only when the session is down. -/
theorem execReconnecter_settled {pc : ReconnecterPc}
    (hone : load Pc.reconnects (l ++ .reconnecter pc :: r) ≤ 1)
    (hS : Settled s (l ++ .reconnecter pc :: r))
    (h : execReconnecter o s pc = some (s', pc')) : Settled s' (l ++ pc' :: r) := by
  have hring := hS.ring
  have hcount := hS.lBufferCount
  have hmode := hS.ioMode
  have hposted := hS.posted
  cases pc with
  | takeFirst =>
    simp only [execReconnecter] at h
    have hself : (Pc.reconnecter .takeFirst).reconnects = 1 := rfl
    have hsettled := forall_mem_place.mp hS.settled
    simp only [load_append, load_cons] at hone
    -- whoever is busy with the session has taken the entry, or will make it
    have hidle : s.sessionReconnectIdList ≠ 0 → load Pc.busy l = 0 ∧ load Pc.busy r = 0 := by
      intro hlist
      constructor <;> refine load_eq_zero_iff.mpr fun q hq => ?_ <;> by_contra hbusy
      all_goals
        have hle := le_load_of_mem (f := Pc.reconnects) hq
        have hbusy : q.busy = 1 := by
          have : q.busy ≤ 1 := by fun_cases Pc.busy q <;> decide
          omega
      · rcases (hsettled.1 q hq).reconnects hbusy with hq | hq
        · omega
        · exact hlist hq
      · rcases (hsettled.2.2 q hq).reconnects hbusy with hq | hq
        · omega
        · exact hlist hq
    split at h
    · cases h
      have hbusy : load Pc.busy (l ++ .finished :: r) =
          load Pc.busy (l ++ .reconnecter .takeFirst :: r) := by
        simp only [load_append, load_cons]
        rfl
      exact ⟨hring, hcount, hmode, hbusy ▸ hS.one, forall_mem_place.mpr ⟨hsettled.1, trivial,
        hsettled.2.2⟩, hbusy ▸ hS.idle, hposted⟩
    · split at h
      · cases h
      · next hlist =>
        cases h
        obtain ⟨hl, hr⟩ := hidle hlist
        obtain ⟨hle, hdown⟩ := hS.idle (by simp [hl, hr, Pc.busy])
        exact .of_busy hl hr hring hcount hmode hposted rfl ⟨hdown (by omega), hle⟩
  | socket =>
    obtain ⟨hl, hr, hdown, hlist⟩ := hS.alone rfl
    have hnot : ∀ sock, ({ s with sock := sock } : State).reposted = true → False :=
      fun _ h => absurd (hdown.2.2.symm.trans h) (by decide)
    simp only [execReconnecter] at h
    split at h <;> cases h
    · exact .of_busy hl hr hring hcount hmode (fun h => (hnot _ h).elim) rfl ⟨hdown, hlist⟩
    · exact .of_idle hl hr hring hcount hmode (fun h => (hnot _ h).elim) rfl
        ⟨hlist, fun _ => hdown⟩
  | connect =>
    obtain ⟨hl, hr, hdown, hlist⟩ := hS.alone rfl
    have hnot : s.reposted = true → False :=
      fun h => absurd (hdown.2.2.symm.trans h) (by decide)
    simp only [execReconnecter] at h
    split at h
    · cases h
      exact .of_idle hl hr hring hcount hmode hposted rfl ⟨hlist, fun _ => hdown⟩
    · split at h <;> cases h
      · exact .of_busy hl hr hring hcount hmode (fun h => (hnot h).elim) rfl
          ⟨hdown, rfl, hlist⟩
      · exact .of_busy hl hr hring hcount hmode (fun h => (hnot h).elim) rfl ⟨hdown, hlist⟩
      · exact .of_busy hl hr hring hcount hmode hposted rfl ⟨hdown, hlist⟩
  | setSockOpt =>
    obtain ⟨hl, hr, hdown, hsock, hlist⟩ := hS.alone rfl
    have hnot : s.reposted = true → False :=
      fun h => absurd (hdown.2.2.symm.trans h) (by decide)
    simp only [execReconnecter] at h
    split at h <;> cases h
    · exact .of_busy hl hr hring hcount hmode (fun h => (hnot h).elim) rfl
        ⟨rfl, hdown, ⟨rfl, hsock⟩, hlist⟩
    · exact .of_idle hl hr hring hcount hmode (fun h => (hnot h).elim) rfl
        ⟨hlist, fun _ => hdown⟩
  | popFront retval =>
    obtain ⟨hl, hr, hat⟩ := hS.alone rfl
    cases h
    refine .of_idle hl hr hring hcount hmode hposted rfl ?_
    cases retval with
    | complete =>
      have hlist : s.sessionReconnectIdList ≤ 1 := hat
      constructor <;> simp only <;> omega
    | errSessionDeleted =>
      obtain ⟨hdown, hlist⟩ := hat
      exact ⟨by simp only; omega, fun _ => hdown⟩
    | err => exact hat.elim

/-- **One guarded action** of a quiet session. -/
theorem exec_settled (hone : load Pc.reconnects (l ++ pc :: r) ≤ 1)
    (hG : ReconnectGuard pc o s (l ++ pc :: r))
    (hI : s.quiet = true → Settled s (l ++ pc :: r)) (h : exec spec pc o s = some (s', pc')) :
    s'.quiet = true → Settled s' (l ++ pc' :: r) := by
  intro hquiet'
  cases pc with
  | recvPost pc caller =>
    have hquiet : s'.quiet = s.quiet := by
      have h := Option.some.inj h
      revert h
      fun_cases execRecvPost spec o s caller pc <;> rintro ⟨⟩ <;> rfl
    exact execRecvPost_settled (hI (hquiet ▸ hquiet')) (Option.some.inj h)
  | sendPost pc caller =>
    have hquiet : s'.quiet = s.quiet := by
      revert h
      simp only [exec]
      fun_cases execSendPost o s caller pc <;> rintro ⟨⟩ <;> rfl
    obtain ⟨-, -, hat⟩ := (hI (hquiet ▸ hquiet')).alone rfl
    exact hat.elim
  | ioCountDecrement site => exact execDecrement_settled hG hI (Option.some.inj h) hquiet'
  | release pc site =>
    have hframe := (execRelease_cases (Option.some.inj h)).1
    have hquiet : s'.quiet = s.quiet := congrArg ReleaseHistory.quiet hframe.releaseHistory
    exact execRelease_settled (hI (hquiet ▸ hquiet')) (Option.some.inj h)
  | worker pc =>
    have hquiet : s'.quiet = s.quiet := by
      have h := Option.some.inj h
      revert h
      fun_cases execWorker spec s pc <;> rintro ⟨⟩ <;> rfl
    obtain ⟨-, -, hat⟩ := (hI (hquiet ▸ hquiet')).alone rfl
    exact hat.elim
  | sendPacketImpl buf =>
    cases h
    obtain ⟨-, -, hat⟩ := (hI hquiet').alone rfl
    exact hat.elim
  | reconnecter pc =>
    have hquiet : s'.quiet = s.quiet := by
      revert h
      simp only [exec]
      fun_cases execReconnecter o s pc <;> rintro ⟨⟩ <;> rfl
    exact execReconnecter_settled hone (hI (hquiet ▸ hquiet')) h
  | finished => cases h

/-! ## Every guarded run -/

/-- A quiet session has left nothing behind, along every guarded run. -/
theorem settled_of_run {c : Config State Pc}
    (h : (client spec).Run ReconnectGuard client.init c) :
    c.shared.quiet = true → Settled c.shared c.threads := by
  refine Run.induct (I := fun s ts => s.quiet = true → Settled s ts) h
    (fun h => Bool.noConfusion h) ?_ ?_
  · intro s l pc r o s' pc' hrun hI hG hexec
    exact exec_settled (one_reconnecter hrun.anywhere) hG hI hexec
  · intro s ts e s' pc _ hI hspawn hquiet
    cases e with
    | recvCompletion i bytes =>
      obtain ⟨-, -, -, rfl, -⟩ := spawn_recvCompletion hspawn
      cases hquiet
    | sendCompletion i =>
      obtain ⟨-, -, rfl, -⟩ := spawn_sendCompletion hspawn
      cases hquiet
    | sendPacket =>
      cases hspawn
      cases hquiet
    | stop =>
      cases hspawn
      obtain ⟨hring, hcount, hmode, hone, hsettled, hidle, hposted⟩ := hI hquiet
      refine ⟨hring, hcount, hmode, by simpa [Pc.busy] using hone,
        forall_mem_spawned.mpr ⟨fun q hq => ?_, trivial⟩, fun h => ?_, hposted⟩
      · exact hsettled q hq
      · exact hidle (by simpa [Pc.busy] using h)

/-- A `SendPacket` on a session that is connected, free and empty posts its
buffer. -/
theorem sendPacket_posts {c₀ c : Config State Pc} (h : (client spec).Reachable c₀ c)
    (hmode : c.shared.ioMode = .nonSending) (hqueue : c.shared.sendQ = [])
    (hsock : c.shared.sock = .connected) :
    ∃ d, (client spec).Reachable c₀ d ∧
      d.shared.posts = c.shared.posts ++ [[c.shared.nextSerial]] := by
  obtain ⟨s, ts⟩ := c
  simp only at hmode hqueue hsock
  have hspawn := Run.tail h (a := .event .sendPacket) trivial rfl
  have henqueue := hspawn.last (o := .success) rfl
  have hexchange := henqueue.last (o := .success) (by
    simp only [client, exec, execSendPost, hmode]
    rfl)
  have hrest := hexchange.last (o := .success) (by
    simp only [client, exec, execSendPost, State.getRestSize, hqueue]
    rfl)
  have hdequeue := hrest.last (o := .success) (by
    simp only [client, exec, execSendPost]
    rfl)
  have hcount := hdequeue.last (o := .success) rfl
  have hincrement := hcount.last (o := .success) rfl
  have hsend := hincrement.last (o := .success) (by
    simp only [client, exec, execSendPost, hsock]
    rfl)
  exact ⟨_, hsend, rfl⟩

/-- **As new**: in every run that keeps to `ReconnectGuard`, from the receive
that the `Reconnecter` posts until the next completion or `SendPacket`, the
session is in the protocol state `Start` sets up. The first bytes received are
then the first that the parse loop sees, and a `SendPacket` posts a send. -/
theorem reconnected_as_new {c : Config State Pc}
    (h : (client spec).Run ReconnectGuard client.init c) (hquiet : c.shared.quiet = true)
    (hreposted : c.shared.reposted = true) :
    c.shared.Fresh ∧
      (∀ bytes, (c.shared.ringBuffer.moveWritePos bytes).data = bytes) ∧
      ∃ d, (client spec).Reachable c d ∧
        d.shared.posts = c.shared.posts ++ [[c.shared.nextSerial]] := by
  have hS := settled_of_run h hquiet
  obtain ⟨hone, hqueue, -, hsock⟩ := hS.posted hreposted
  refine ⟨⟨hS.ioMode, hS.lBufferCount, hone, hS.ring⟩, fun bytes => ?_,
    sendPacket_posts .refl hS.ioMode hqueue hsock⟩
  rw [Ringbuffer.moveWritePos_data, hS.ring, List.nil_append]

/-- What `Start` leaves behind is `Fresh`. -/
theorem start_fresh : ∃ c, (client reconnectingSpec).Reachable client.init c ∧
    c.threads = [.finished, .reconnecter .takeFirst] ∧ c.shared.Fresh := by
  obtain ⟨c, hrun, hc⟩ := exists_run (client reconnectingSpec) unguarded client.init client.start
    (P := fun c => c.threads = [.finished, .reconnecter .takeFirst] ∧
      c.shared.ioMode = .nonSending ∧ c.shared.lBufferCount = 0 ∧ c.shared.ioCount = 1 ∧
      c.shared.ringBuffer.data = []) (by decide +kernel)
  obtain ⟨hthreads, hmode, hcount, hone, hring⟩ := hc
  exact ⟨c, hrun, hthreads, hmode, hcount, hone, hring⟩

/-- A connection that the server closes between two frames. -/
theorem reconnected_as_new_idle :
    ∃ c, (client reconnectingSpec).Run ReconnectGuard client.init c ∧
      c.shared.Fresh ∧
      (∀ bytes, (c.shared.ringBuffer.moveWritePos bytes).data = bytes) ∧
      ∃ d, (client reconnectingSpec).Reachable c d ∧
        d.shared.posts = c.shared.posts ++ [[c.shared.nextSerial]] := by
  obtain ⟨c, hrun, hc⟩ := exists_run (client reconnectingSpec) ReconnectGuard client.init
    (client.start ++ .event (.recvCompletion 0 [1, 0, 7]) :: List.replicate 5 (.run 2 .success) ++
      .event (.recvCompletion 0 []) :: List.replicate 10 (.run 3 .success) ++
      List.replicate 8 (.run 1 .success))
    (P := fun c => c.shared.quiet = true ∧ c.shared.reposted = true) (by decide +kernel)
  exact ⟨c, hrun, reconnected_as_new hrun hc.1 hc.2⟩

/-- A connection that is closed in the middle of a frame: its first byte is
still in the ring when the next connection's receive is posted. -/
theorem reconnected_mid_frame :
    ∃ c, (client reconnectingSpec).Reachable client.init c ∧ c.shared.quiet = true ∧
      c.shared.reposted = true ∧ c.shared.ringBuffer.data = [5] := by
  obtain ⟨c, hrun, hc⟩ := exists_run (client reconnectingSpec) unguarded client.init
    (client.start ++ .event (.recvCompletion 0 [5]) :: List.replicate 5 (.run 2 .success) ++
      .event (.recvCompletion 0 []) :: List.replicate 10 (.run 3 .success) ++
      List.replicate 8 (.run 1 .success))
    (P := fun c => c.shared.quiet = true ∧ c.shared.reposted = true ∧
      c.shared.ringBuffer.data = [5]) (by decide +kernel)
  exact ⟨c, hrun, hc⟩

end RioServer.Client
