import RioServer.Client.Store

/-!
# Every buffer is freed once

The buffers of `SendPacket` are numbered; no number is enqueued twice
(`numbered_of_run`). With the custody of `Store.lean` that is what
`freed_once` needs: a buffer is freed at most once, and a session that is
disconnected and done with freeing has freed every buffer it was given.
-/

namespace RioServer.Client

open Machine

variable {spec : ClientSpec} {o : CallResult} {s s' : State} {pc pc' : Pc} {l r : List Pc}

/-! ## Buffers are numbered -/

/-- About to enqueue the buffer. -/
def Pc.pending (buf : Nat) : Pc → Nat
  | .sendPacketImpl buf' => if buf' = buf then 1 else 0
  | _ => 0

/-- A buffer is enqueued or about to be, once, and only if it has been made. -/
def Numbered (s : State) (ts : List Pc) : Prop :=
  ∀ buf, s.enqueued.count buf + load (Pc.pending buf) ts ≤ if buf < s.nextSerial then 1 else 0

theorem RecvPostCaller.next_pending (caller : RecvPostCaller) (retval : PostRetval)
    (buf : Nat) : (caller.next retval).pending buf = 0 := by
  cases caller with
  | worker => cases retval <;> rfl
  | _ => rfl

theorem SendPostCaller.next_pending (caller : SendPostCaller) (retval : PostRetval)
    (buf : Nat) : (caller.next retval).pending buf = 0 := by
  cases caller with
  | sendPacketImpl => rfl
  | worker => cases retval <;> rfl

theorem DecrementSite.next_pending (site : DecrementSite) (buf : Nat) :
    site.otherwise.pending buf = 0 ∧ site.released.pending buf = 0 := by
  cases site with
  | ringFull caller | recvFailed caller =>
    exact ⟨caller.next_pending _ _, caller.next_pending _ _⟩
  | sendFailed caller => exact ⟨caller.next_pending _ _, caller.next_pending _ _⟩
  | restNegative caller => exact ⟨rfl, caller.next_pending _ _⟩
  | _ => exact ⟨rfl, rfl⟩

/-- Only `SendPacketImpl` enqueues. -/
theorem exec_enqueued (hpc : ∀ buf, pc ≠ .sendPacketImpl buf)
    (h : exec spec pc o s = some (s', pc')) :
    s'.enqueued = s.enqueued ∧ s'.nextSerial = s.nextSerial ∧ ∀ buf, pc'.pending buf = 0 := by
  cases pc with
  | recvPost pc caller =>
    revert h
    simp only [exec, Option.some.injEq]
    fun_cases execRecvPost spec o s caller pc <;> rintro ⟨⟩ <;>
      first
      | exact ⟨rfl, rfl, fun _ => rfl⟩
      | exact ⟨rfl, rfl, caller.next_pending _⟩
  | sendPost pc caller =>
    revert h
    simp only [exec]
    fun_cases execSendPost o s caller pc <;> rintro ⟨⟩ <;>
      first
      | exact ⟨rfl, rfl, fun _ => rfl⟩
      | exact ⟨rfl, rfl, caller.next_pending _⟩
  | ioCountDecrement site =>
    revert h
    simp only [exec, Option.some.injEq]
    fun_cases execDecrement s site <;> rintro ⟨⟩
    · exact ⟨rfl, rfl, fun _ => rfl⟩
    · exact ⟨rfl, rfl, fun buf => (site.next_pending buf).1⟩
  | release pc site =>
    obtain ⟨hframe, ⟨q, rfl, -⟩ | ⟨rfl, -, -⟩⟩ := execRelease_cases (Option.some.inj h)
    · exact ⟨hframe.enqueued, hframe.nextSerial, fun _ => rfl⟩
    · exact ⟨hframe.enqueued, hframe.nextSerial, fun buf => (site.next_pending buf).2⟩
  | worker pc =>
    revert h
    simp only [exec, Option.some.injEq]
    fun_cases execWorker spec s pc <;> rintro ⟨⟩ <;> exact ⟨rfl, rfl, fun _ => rfl⟩
  | sendPacketImpl buf => exact absurd rfl (hpc buf)
  | reconnecter pc =>
    revert h
    simp only [exec]
    fun_cases execReconnecter o s pc <;> rintro ⟨⟩ <;> exact ⟨rfl, rfl, fun _ => rfl⟩
  | finished => cases h

theorem exec_numbered (hI : Numbered s (l ++ pc :: r)) (h : exec spec pc o s = some (s', pc')) :
    Numbered s' (l ++ pc' :: r) := by
  intro buf
  have hbuf := hI buf
  simp only [load_append, load_cons] at hbuf ⊢
  by_cases hpc : ∀ buf, pc ≠ .sendPacketImpl buf
  · obtain ⟨henqueued, hserial, hpending⟩ := exec_enqueued hpc h
    rw [henqueued, hserial, hpending buf]
    omega
  · obtain ⟨own, hown⟩ := not_forall.mp hpc
    rw [not_not] at hown
    subst hown
    cases h
    -- the thread's buffer goes from its hands into the queue
    simp only [List.count_append, List.count_cons, List.count_nil, beq_iff_eq, Pc.pending]
      at hbuf ⊢
    omega

theorem spawn_numbered {ts : List Pc} {e : Event} (hI : Numbered s ts)
    (h : spawn e s = some (s', pc)) : Numbered s' (ts ++ [pc]) := by
  intro buf
  have hbuf := hI buf
  simp only [load_append, load_cons, load_nil]
  cases e with
  | sendPacket =>
    cases h
    simp only [Pc.pending]
    split_ifs at hbuf ⊢ <;> omega
  | recvCompletion i bytes =>
    obtain ⟨-, -, -, rfl, rfl⟩ := spawn_recvCompletion h
    exact hbuf
  | sendCompletion i =>
    obtain ⟨-, -, rfl, rfl⟩ := spawn_sendCompletion h
    exact hbuf
  | stop =>
    cases h
    exact hbuf

/-- No number is enqueued twice, in any run. -/
theorem numbered_of_run {c : Config State Pc} (h : (client spec).Reachable client.init c) :
    Numbered c.shared c.threads :=
  Run.induct h (fun _ => Nat.zero_le _) (fun _ hI _ hexec => exec_numbered hI hexec)
    (fun _ hI hspawn => spawn_numbered hI hspawn)

theorem Numbered.count_le {ts : List Pc} (hI : Numbered s ts) (buf : Nat) :
    s.enqueued.count buf ≤ 1 := by
  have hbuf := hI buf
  split_ifs at hbuf <;> omega

/-! ## Every guarded run -/

/-- Every buffer is in one place, along every guarded run. -/
theorem held_of_run {c : Config State Pc} (h : (client spec).Run StoreGuard client.init c) :
    ∃ inStore, Held c.shared c.threads inStore := by
  refine Run.induct (I := fun s ts => ∃ inStore, Held s ts inStore) h ⟨[], init_held⟩ ?_ ?_
  · intro s l pc r o s' pc' hrun hI hG hexec
    obtain ⟨inStore, hH⟩ := hI
    exact exec_held (never_negative hrun.anywhere pc (by simp)) hH hG hexec
  · intro s ts e s' pc _ hI hspawn
    obtain ⟨inStore, hH⟩ := hI
    exact ⟨inStore, spawn_held hH hspawn⟩

/-- **Freed once**: in every run that keeps to `StoreGuard` no buffer is passed to
`Free` twice, and when the session is disconnected and no thread is freeing in
`ReleaseSession` any more, every buffer that `SendPacketImpl` has put into `SendQ`
has been passed to it. -/
theorem freed_once {c : Config State Pc} (h : (client spec).Run StoreGuard client.init c) :
    (∀ buf, c.shared.freed.count buf ≤ 1) ∧
      (c.shared.bIsConnect = false → (∀ pc ∈ c.threads, pc.freeing = 0) →
        ∀ buf ∈ c.shared.enqueued, c.shared.freed.count buf = 1) := by
  obtain ⟨inStore, -, hconserved, hdrained⟩ := held_of_run h
  have hnumbered := numbered_of_run h.anywhere
  refine ⟨fun buf => ?_, fun hconn hfree buf hbuf => ?_⟩
  · have hplaces := hconserved buf
    have hone := hnumbered.count_le buf
    omega
  · obtain ⟨hqueue, hstore⟩ := hdrained hconn (load_eq_zero_iff.mpr hfree)
    have hplaces := hconserved buf
    have hone := hnumbered.count_le buf
    have hpos := List.count_pos_iff.mpr hbuf
    rw [hqueue, hstore, List.count_nil] at hplaces
    omega

/-- One buffer, sent and freed by the worker; then the server closes. -/
theorem freed_once_sent :
    ∃ c, (c.shared.enqueued = [0] ∧ c.shared.bIsConnect = false) ∧
      (client reconnectingSpec).Run StoreGuard client.init c ∧
      (∀ buf, c.shared.freed.count buf ≤ 1) ∧
      (c.shared.bIsConnect = false → (∀ pc ∈ c.threads, pc.freeing = 0) →
        ∀ buf ∈ c.shared.enqueued, c.shared.freed.count buf = 1) := by
  obtain ⟨c, hrun, hc⟩ := exists_run (client reconnectingSpec) StoreGuard client.init
    (client.start ++ .event .sendPacket :: List.replicate 8 (.run 2 .success) ++
      .event (.sendCompletion 0) :: List.replicate 9 (.run 3 .success) ++
      .event (.recvCompletion 0 []) :: List.replicate 10 (.run 4 .success))
    (P := fun c => c.shared.enqueued = [0] ∧ c.shared.bIsConnect = false) (by decide +kernel)
  exact ⟨c, hc, hrun, freed_once hrun⟩

/-- A `WSASend` that fails, a release that frees its buffer, a new connection,
and a release that frees it again: nobody has reset `lBufferCount`. -/
theorem freed_again :
    ∃ c, (client reconnectingSpec).Reachable client.init c ∧ c.shared.enqueued = [0] ∧
      c.shared.freed = [0, 0] := by
  obtain ⟨c, hrun, hc⟩ := exists_run (client reconnectingSpec) unguarded client.init
    (client.start ++ .event .sendPacket :: List.replicate 8 (.run 2 .failure) ++
      .event (.recvCompletion 0 []) :: List.replicate 11 (.run 3 .success) ++
      List.replicate 8 (.run 1 .success) ++
      .event (.recvCompletion 0 []) :: List.replicate 11 (.run 4 .success))
    (P := fun c => c.shared.enqueued = [0] ∧ c.shared.freed = [0, 0]) (by decide +kernel)
  exact ⟨c, hrun, hc⟩

end RioServer.Client
