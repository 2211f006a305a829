import RioServer.Server.SendExclusive

/-!
# What a failed `RIOSend` leaves behind (RIOTestServer.cpp:709–718)

`SendPost` takes `ioMode`, packs the queue and posts. Where `RIOSend` fails it
lowers `ioCount` again and returns `FAILED_SEND_POST`, with `ioMode` still at
`IO_SENDING` and the packed packets gone. No caller looks at the result, and
nobody else may reset an `ioMode` that no request stands for (`failInv`), so the
session never sends again, unless it is on its way out.

`failed_send_post_handled_iff` says when the call ends well: exactly if its own
`IOCountDecrement` reaches zero and releases the session, or the session has
been released before.
-/

namespace RioServer

open Machine

variable {spec : NetBufferSpec} {o : Oracle} {s s' : State} {pc pc' : Pc} {l r : List Pc}

/-- In `SendPost` behind a failed `RIOSend`. -/
def Pc.failing : Pc → Nat
  | .release _ (.sendPost _) => 1
  | _ => 0

/-- How an action changes the ownership of `ioMode`: not at all, by the exchange,
by `SendPost`'s own reset, by the worker's reset, or by a `RIOSend`. -/
inductive ModeEffect (s : State) (pc : Pc) (s' : State) (pc' : Pc) : Prop where
  | keep (ioMode : s'.ioMode = s.ioMode) (unreset : s'.sendsNotReset = s.sendsNotReset)
      (owns : pc'.sending + pc'.failing ≤ pc.sending + pc.failing)
  | exchange (free : s.ioMode = .ioNoneSending) (ioMode : s'.ioMode = .ioSending)
      (unreset : s'.sendsNotReset = s.sendsNotReset) (owns : pc'.sending + pc'.failing = 1)
  | resetIoMode (owner : pc.sending = 1) (unreset : s'.sendsNotReset = s.sendsNotReset)
      (owns : pc'.sending + pc'.failing = 0)
  | sendIoCompleted (owner : pc.unreset = 1)
      (unreset : s'.sendsNotReset = s.sendsNotReset - 1) (owns : pc'.sending + pc'.failing = 0)
  | rioSend (owner : pc.sending = 1) (ioMode : s'.ioMode = s.ioMode)
      (unreset : s'.sendsNotReset = s.sendsNotReset + 1) (owns : pc'.sending + pc'.failing = 0)

@[simp] theorem SendPostCaller.next_failing (caller : SendPostCaller) (result : IoPostError) :
    (caller.next result).failing = 0 := by
  cases caller <;> rfl

@[simp] theorem SendPostCaller.next_sending (caller : SendPostCaller) (result : IoPostError) :
    (caller.next result).sending = 0 := by
  cases caller <;> rfl

@[simp] theorem RecvPostCaller.next_failing (caller : RecvPostCaller) (result : IoPostError) :
    (caller.next result).failing = 0 := by
  rcases caller with _ | ⟨_, _ | _⟩ <;> rfl

@[simp] theorem RecvPostCaller.next_sending (caller : RecvPostCaller) (result : IoPostError) :
    (caller.next result).sending = 0 := by
  rcases caller with _ | ⟨_, _ | _⟩ <;> rfl

theorem ReleaseCaller.next_owns_nothing (caller : ReleaseCaller) :
    caller.next.sending + caller.next.failing = 0 := by
  cases caller with
  | sendPost caller => rw [ReleaseCaller.next, caller.next_sending, caller.next_failing]
  | _ => rfl

theorem execSendPost_mode {pc : SendPostPc} {caller : SendPostCaller}
    (h : execSendPost o s caller pc = some (s', pc')) :
    ModeEffect s (.sendPost pc caller) s' pc' := by
  have hnext : ∀ result, (caller.next result).sending + (caller.next result).failing = 0 :=
    fun result => by rw [caller.next_sending, caller.next_failing]
  cases pc with
  | compareExchange =>
    simp only [execSendPost] at h
    split at h <;> cases h
    · exact .keep rfl rfl (by rw [hnext]; exact Nat.zero_le _)
    · exact .exchange ‹_› rfl rfl rfl
  | resetIoMode =>
    cases h
    exact .resetIoMode rfl rfl rfl
  | rioSend context =>
    simp only [execSendPost] at h
    split at h <;> cases h
    · exact .rioSend rfl rfl rfl rfl
    · -- the failing thread keeps what it owns
      exact .keep rfl rfl (Nat.le_refl _)
  | _ =>
    revert h
    simp only [execSendPost]
    repeat' split
    all_goals rintro ⟨⟩
    all_goals
      first
      | exact .keep rfl rfl (Nat.le_refl _)
      | exact .keep rfl rfl (by rw [hnext]; exact Nat.zero_le _)

/-- Only `SendPost` and the completion of a send change the owner. -/
theorem exec_mode (h : exec spec pc o s = some (s', pc')) : ModeEffect s pc s' pc' := by
  cases pc with
  | makeNewSession pc =>
    revert h
    simp only [exec, Option.some.injEq]
    fun_cases execMakeNewSession o s pc <;> rintro ⟨⟩ <;> exact .keep rfl rfl (Nat.le_refl _)
  | sendPacket pc isEncoded packet =>
    revert h
    simp only [exec]
    fun_cases execSendPacket spec s isEncoded packet pc <;> rintro ⟨⟩ <;>
      exact .keep rfl rfl (Nat.le_refl _)
  | sendPost pc caller => exact execSendPost_mode h
  | recvPost pc caller =>
    have hnext : ∀ result, (caller.next result).sending + (caller.next result).failing = 0 :=
      fun result => by rw [caller.next_sending, caller.next_failing]
    revert h
    simp only [exec]
    fun_cases execRecvPost spec o s caller pc <;> rintro ⟨⟩ <;>
      first
      | exact .keep rfl rfl (Nat.le_refl _)
      | exact .keep rfl rfl (by rw [hnext]; exact Nat.zero_le _)
  | release pc caller =>
    have hnext := caller.next_owns_nothing
    revert h
    simp only [exec]
    fun_cases execRelease s caller pc <;> rintro ⟨⟩ <;>
      first
      | exact .keep rfl rfl (by rw [hnext]; exact Nat.zero_le _)
      | exact .keep rfl rfl (by cases caller <;> exact Nat.le_refl _)
  | worker pc =>
    revert h
    simp only [exec]
    fun_cases execWorker spec s pc <;> rintro ⟨⟩ <;>
      first
      | exact .keep rfl rfl (Nat.le_refl _)
      | exact .sendIoCompleted rfl rfl rfl
  | finished => cases h

/-- The failing threads are owners, too: nobody resets `ioMode` in their place. -/
def FailInv (s : State) (ts : List Pc) : Prop :=
  load Pc.sending ts + load Pc.failing ts + s.sendsNotReset ≤ s.ioMode.owners

theorem exec_failInv (hS : SendInv s (l ++ pc :: r)) (hI : FailInv s (l ++ pc :: r))
    (h : exec spec pc o s = some (s', pc')) : FailInv s' (l ++ pc' :: r) := by
  have hle := s.ioMode.owners_le
  have hsends := hS.sends
  simp only [FailInv, load_append, load_cons] at hI hsends ⊢
  cases exec_mode h with
  | keep ioMode unreset owns =>
    rw [ioMode, unreset]
    omega
  | exchange free ioMode unreset owns =>
    rw [free, IoMode.owners] at hI
    rw [ioMode, unreset, IoMode.owners]
    omega
  | resetIoMode owner unreset owns =>
    rw [unreset]
    omega
  | sendIoCompleted owner unreset owns =>
    -- the completed send is counted, so it is the only owner there is
    rw [unreset]
    omega
  | rioSend owner ioMode unreset owns =>
    rw [ioMode, unreset]
    omega

theorem spawn_failInv {ts : List Pc} {e : Event} (hI : FailInv s ts)
    (h : spawn e s = some (s', pc)) : FailInv s' (ts ++ [pc]) := by
  cases e with
  | completion i bytes =>
    obtain ⟨context, -, -, -, rfl, rfl⟩ := spawn_completion h
    simp only [FailInv, load_append, load_cons, load_nil] at hI ⊢
    exact hI
  | _ =>
    obtain ⟨-, rfl, rfl⟩ := Option.ite_none_right_eq_some.mp h
    simp only [FailInv, load_append, load_cons, load_nil] at hI ⊢
    exact hI

/-- One owner, the failing ones counted, along every run. -/
theorem failInv {c : Config State Pc} (h : (server spec).Reachable server.init c) :
    FailInv c.shared c.threads :=
  Run.induct h (Nat.le_refl 0)
    (fun hrun hI _ hexec => exec_failInv (sendInv hrun) hI hexec)
    (fun _ hI hspawn => spawn_failInv hI hspawn)

/-- A failed call leaves `ioMode` at `IO_SENDING`. -/
theorem ioMode_of_failing {c : Config State Pc} (h : (server spec).Reachable server.init c)
    (hmem : pc ∈ c.threads) (hpc : pc.failing = 1) : c.shared.ioMode = .ioSending := by
  have hI := failInv h
  have hone := le_load_of_mem (f := Pc.failing) hmem
  rw [FailInv] at hI
  cases hmode : c.shared.ioMode with
  | ioSending => rfl
  | ioNoneSending =>
    rw [hmode, IoMode.owners] at hI
    omega

/-! ## Releases -/

/-- Nothing undoes a release. -/
theorem exec_releases_le (h : exec spec pc o s = some (s', pc')) : s.releases ≤ s'.releases := by
  revert h
  cases pc with
  | makeNewSession pc =>
    simp only [exec, Option.some.injEq]
    fun_cases execMakeNewSession o s pc <;> rintro ⟨⟩ <;> exact Nat.le_refl _
  | sendPacket pc isEncoded packet =>
    simp only [exec]
    fun_cases execSendPacket spec s isEncoded packet pc <;> rintro ⟨⟩ <;> exact Nat.le_refl _
  | sendPost pc caller =>
    simp only [exec]
    fun_cases execSendPost o s caller pc <;> rintro ⟨⟩ <;> exact Nat.le_refl _
  | recvPost pc caller =>
    simp only [exec]
    fun_cases execRecvPost spec o s caller pc <;> rintro ⟨⟩ <;> exact Nat.le_refl _
  | release pc caller =>
    simp only [exec]
    fun_cases execRelease s caller pc <;> rintro ⟨⟩ <;>
      first | exact Nat.le_refl _ | exact Nat.le_succ _
  | worker pc =>
    simp only [exec]
    fun_cases execWorker spec s pc <;> rintro ⟨⟩ <;> exact Nat.le_refl _
  | finished => rintro ⟨⟩

theorem spawn_releases {e : Event} (h : spawn e s = some (s', pc)) :
    s'.releases = s.releases := by
  rw [(spawn_frame h).2.2]

theorem releases_le_of_run {c₀ c : Config State Pc} (h : (server spec).Reachable c₀ c) :
    c₀.shared.releases ≤ c.shared.releases :=
  Run.induct (I := fun s _ => c₀.shared.releases ≤ s.releases) h (Nat.le_refl _)
    (fun _ hI _ hexec => hI.trans (exec_releases_le hexec))
    (fun _ hI hspawn => hI.trans_eq (spawn_releases hspawn).symm)

/-- Thread `i` is in front of `ReleaseSession`, or the session is released. -/
def ReleasesIt (i : Nat) (caller : ReleaseCaller) (s : State) (ts : List Pc) : Prop :=
  0 < s.releases ∨ ts[i]? = some (.release .onSessionLeaved caller) ∨
    ts[i]? = some (.release .releaseSession caller)

/-- A thread whose `IOCountDecrement` reached zero does not return before it has
released the session. -/
theorem releasesIt {i : Nat} {caller : ReleaseCaller} {c₀ c : Config State Pc}
    (h : (server spec).Reachable c₀ c) (hI : ReleasesIt i caller c₀.shared c₀.threads) :
    ReleasesIt i caller c.shared c.threads := by
  refine Run.induct (I := ReleasesIt i caller) h hI ?_ ?_
  · intro s l pc r o s' pc' _ hI _ hexec
    rcases hI with hreleased | hthread
    · exact .inl (Nat.lt_of_lt_of_le hreleased (exec_releases_le hexec))
    · rcases Nat.lt_trichotomy i l.length with hlt | rfl | hgt
      · -- another thread acts
        rw [List.getElem?_append_left hlt] at hthread
        right
        rw [List.getElem?_append_left hlt]
        exact hthread
      · rw [List.getElem?_append_right (Nat.le_refl _), Nat.sub_self] at hthread
        rcases hthread with hthread | hthread <;> cases hthread <;> cases hexec
        · right
          right
          rw [List.getElem?_append_right (Nat.le_refl _), Nat.sub_self]
          rfl
        · exact .inl (Nat.succ_pos _)
      · obtain ⟨k, hk⟩ : ∃ k, i - l.length = k + 1 := ⟨i - l.length - 1, by omega⟩
        rw [List.getElem?_append_right hgt.le, hk] at hthread
        right
        rw [List.getElem?_append_right hgt.le, hk]
        exact hthread
  · intro s ts e s' pc _ hI hspawn
    rcases hI with hreleased | hthread
    · exact .inl (by rw [spawn_releases hspawn]; exact hreleased)
    · right
      have hlt : i < ts.length := by
        rcases hthread with hthread | hthread <;>
          exact (List.getElem?_eq_some_iff.mp hthread).1
      rw [List.getElem?_append_left hlt]
      exact hthread

/-! ## When the failure is handled -/

/-- What is to hold when `SendPost` returns `FAILED_SEND_POST`: the session has
been released, or `ioMode` is free again and the packets that were not posted
still wait, in order. -/
def FailureHandled (s : State) : Prop :=
  0 < s.releases ∨ (s.ioMode = .ioNoneSending ∧
    ∃ sent, s.enqueued = sent ++ s.waiting ∧ s.posted = frameBytes sent)

/-- **After a failed `RIOSend`**, whatever happens until the call returns, it
returns well exactly if its `IOCountDecrement` releases the session or finds it
released. -/
theorem failed_send_post_handled_iff {c c' : Config State Pc} {i : Nat} {caller : SendPostCaller}
    (h : (server spec).Reachable server.init c)
    (hpc : c.threads[i]? = some (.release .ioCountDecrement (.sendPost caller)))
    (hstep : (server spec).step c (.run i o) = some c') :
    (∀ d, (server spec).Reachable c' d →
        d.threads[i]? = some (caller.next .failedSendPost) → FailureHandled d.shared) ↔
      c.shared.ioCount = 1 ∨ 0 < c.shared.releases := by
  obtain ⟨s, ts⟩ := c
  rcases step_cases _ hstep with ⟨l, p, r, o', s', p', hact, hts, hexec, rfl⟩ | ⟨e, _, _, he, _⟩
  · cases hact
    simp only at hts
    subst hts
    simp only [List.getElem?_append_right (Nat.le_refl _), Nat.sub_self,
      List.getElem?_cons_zero, Option.some.injEq] at hpc
    subst hpc
    have hmode : s.ioMode = .ioSending :=
      ioMode_of_failing h (List.mem_append_right l List.mem_cons_self) rfl
    have hplace : ∀ q : Pc, (l ++ q :: r)[l.length]? = some q := fun q => by simp
    simp only [server, exec, execRelease] at hexec
    split at hexec <;> cases hexec
    · -- the count reaches zero: the thread releases the session before it returns
      next hzero =>
      refine iff_of_true (fun d hd hret => ?_) (.inl ?_)
      · rcases releasesIt hd (.inr (.inl (hplace _))) with hreleased | hthread | hthread
        · exact .inl hreleased
        · rw [hret] at hthread
          cases caller <;> cases hthread
        · rw [hret] at hthread
          cases caller <;> cases hthread
      · show s.ioCount = 1
        omega
    · next hzero =>
      constructor
      · intro hhandled
        rcases hhandled _ .refl (hplace _) with hreleased | ⟨hfree, -⟩
        · exact .inr hreleased
        · -- nobody has reset the mode
          have hsending : s.ioMode = .ioSending := hmode
          rw [show s.ioMode = .ioNoneSending from hfree] at hsending
          cases hsending
      · rintro (hone | hreleased) d hd -
        · exact absurd (show s.ioCount - 1 = 0 by rw [show s.ioCount = 1 from hone]; rfl) hzero
        · have hle := releases_le_of_run hd
          exact .inl (Nat.lt_of_lt_of_le hreleased hle)
  · cases he

/-- A sender whose `RIOSend` has failed while the session's receive is
outstanding. -/
theorem failing_reachable : ∃ c, (server plainSpec).Reachable server.init c ∧
    c.threads[1]? = some (.release .ioCountDecrement (.sendPost .sendPacket)) ∧
    c.shared.ioCount = 2 ∧ c.shared.releases = 0 ∧ c.shared.ioMode = .ioSending ∧
    c.shared.waiting = [] ∧ c.shared.posted = [] ∧ c.shared.enqueued.length = 1 :=
  exists_run (server plainSpec) unguarded server.init
    (server.accept ++ [.event (.sendPacket false [1, 2, 3])] ++
      List.replicate 6 (.run 1 ⟨true, 1⟩) ++ [.run 1 ⟨false, 0⟩])
    (by decide +kernel)

theorem step_of_failing {c : Config State Pc} {i : Nat} {caller : SendPostCaller}
    (hpc : c.threads[i]? = some (.release .ioCountDecrement (.sendPost caller)))
    (hcount : c.shared.ioCount = 2) :
    (server spec).step c (.run i o) = some ⟨{ c.shared with ioCount := c.shared.ioCount - 1 },
      c.threads.set i (caller.next .failedSendPost)⟩ := by
  simp only [step, hpc, server, exec, execRelease, hcount]
  rfl

/-- There the call returns with nothing undone. -/
theorem failed_send_post_handled_iff_open : ∃ c c' : Config State Pc,
    (server plainSpec).step c (.run 1 ⟨true, 0⟩) = some c' ∧
    ¬∀ d, (server plainSpec).Reachable c' d →
      d.threads[1]? = some (SendPostCaller.sendPacket.next .failedSendPost) →
      FailureHandled d.shared := by
  obtain ⟨c, h, hpc, hcount, hreleases, -⟩ := failing_reachable
  have hstep : (server plainSpec).step c (.run 1 ⟨true, 0⟩) = some _ := step_of_failing hpc hcount
  refine ⟨c, _, hstep, fun hhandled => ?_⟩
  have hcond := (failed_send_post_handled_iff h hpc hstep).mp hhandled
  omega

/-- One `SendPacket` on a session whose receive is outstanding: `RIOSend` fails,
the packet is neither posted nor waiting, and `ioMode` stays taken. -/
theorem failed_send_post_wedged : ∃ c c' : Config State Pc,
    (server plainSpec).Reachable server.init c ∧
    c.threads[1]? = some (.release .ioCountDecrement (.sendPost .sendPacket)) ∧
    (server plainSpec).step c (.run 1 ⟨true, 0⟩) = some c' ∧
    c'.threads[1]? = some (SendPostCaller.sendPacket.next .failedSendPost) ∧
    c'.shared.enqueued.length = 1 ∧ c'.shared.posted = [] ∧ c'.shared.waiting = [] ∧
    c'.shared.ioCount = 1 ∧ ¬FailureHandled c'.shared := by
  obtain ⟨c, h, hpc, hcount, hreleases, hmode, hwaiting, hposted, henqueued⟩ := failing_reachable
  refine ⟨c, _, h, hpc, step_of_failing hpc hcount, ?_, henqueued, hposted, hwaiting, ?_, ?_⟩
  · obtain ⟨hlt, -⟩ := List.getElem?_eq_some_iff.mp hpc
    exact List.getElem?_set_self hlt
  · show c.shared.ioCount - 1 = 1
    rw [hcount]
    rfl
  · rintro (hreleased | ⟨hfree, -⟩)
    · exact absurd hreleased (by rw [show _ = _ from hreleases]; exact Nat.lt_irrefl 0)
    · rw [show _ = _ from hmode] at hfree
      cases hfree

end RioServer
