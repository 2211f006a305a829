import RioServer.Server.ReleaseOnce

/-!
# What is outstanding when a session is released

A session whose `ioCount` has reached zero has no outstanding request and no
thread that is about to post one: everything that could post holds a reference
(`ioCount_ge`). Two actions break this.

- `RecvCompleted` posts the next receive before it looks at `packetError`, and
  releases the session whatever else is outstanding.
- `SendPost` posts on a session that is released already: nothing sets
  `isReleasedSession`, and holding the `shared_ptr` is not a reference.

`QuietGuard` excludes exactly these, and by `release_quiet` the runs that
remain release a session only when it is quiet.
-/

namespace RioServer

open Machine

variable {spec : NetBufferSpec} {o : Oracle} {s s' : State} {pc pc' : Pc} {l r : List Pc}

/-- About to call `RIOSend` or `RIOReceive`. -/
def Pc.posts : Pc → Nat
  | .sendPost (.rioSend _) _ | .recvPost .rioReceive _ => 1
  | _ => 0

/-- About to post, or a worker on its way to `RecvCompleted`'s `RecvPost`. -/
def Pc.willPost : Pc → Nat
  | .worker (.getIoCompletedContext _ _) | .worker (.testTransferred _ _)
  | .worker (.recvCompleted _ _) => 1
  | pc => pc.posts

/-- `RecvPost` succeeded although the received bytes were in error. -/
def Pc.lendingError : Pc → Nat
  | .recvPost .incrementIoCount (.recvCompleted _ true) => 1
  | _ => 0

/-- `ReleaseSession` has been entered, or a thread stands before it. -/
def Closing (s : State) (ts : List Pc) : Prop := 1 ≤ s.releases + load Pc.leaving ts

instance (s : State) (ts : List Pc) : Decidable (Closing s ts) :=
  inferInstanceAs (Decidable (_ ≤ _))

/-- **The exception**: after a packet error `RIOReceive` fails, nothing
is outstanding and no other thread is about to post; and no `SendPost` goes on
to its `RIOSend` once the session is being released. -/
def QuietGuard : Guard State Pc Oracle := fun pc o s ts =>
  match pc with
  | .recvPost .rioReceive (.recvCompleted _ true) =>
    o.ok = false ∧ s.outstanding = [] ∧ load Pc.posts ts = 1
  | .sendPost (.incrementIoCount _) _ => ¬ Closing s ts
  | _ => True

instance (pc : Pc) (o : Oracle) (s : State) (ts : List Pc) :
    Decidable (QuietGuard pc o s ts) :=
  decidable_of_iff
    ((match pc with
      | .recvPost .rioReceive (.recvCompleted _ true) =>
        decide (o.ok = false ∧ s.outstanding = [] ∧ load Pc.posts ts = 1)
      | .sendPost (.incrementIoCount _) _ => decide (¬ Closing s ts)
      | _ => true) = true)
    (by unfold QuietGuard; split <;> simp)

/-- When `ReleaseSession` starts nothing is outstanding, and once it has started
no thread posts. -/
structure ReleasesQuietly (c : Config State Pc) : Prop where
  nothing_outstanding :
    ∀ caller, .release .releaseSession caller ∈ c.threads → c.shared.outstanding = []
  no_post : ∀ pc ∈ c.threads, pc.posts = 1 → c.shared.releases = 0

/-- The invariant: a session that is being released has no outstanding request
and no thread on its way to one. -/
structure QuietInv (s : State) (ts : List Pc) : Prop where
  closing : Closing s ts → s.outstanding = [] ∧ load Pc.willPost ts = 0
  lendingError : load Pc.lendingError ts = 0

theorem posts_le_willPost (pc : Pc) : pc.posts ≤ pc.willPost := by
  unfold Pc.willPost
  split <;> first | exact Nat.le_refl _ | exact Nat.zero_le _

theorem willPost_le_holds (pc : Pc) : pc.willPost ≤ pc.holds := by
  fun_cases Pc.willPost pc with
  | case4 pc =>
    fun_cases Pc.posts pc <;> simp [SendPostPc.holds, RecvPostPc.holds]
  | _ => exact Nat.le_refl _

theorem willPost_le_posts_add_handles (pc : Pc) : pc.willPost ≤ pc.posts + pc.handles := by
  fun_cases Pc.willPost pc with
  | case4 pc => exact Nat.le_add_right _ _
  | _ => exact Nat.le_refl _

/-- The invariant gives quiet releases, and more. -/
theorem QuietInv.releasesQuietly {c : Config State Pc} (h : QuietInv c.shared c.threads) :
    ReleasesQuietly c := by
  constructor
  · intro caller hmem
    -- a thread before `ReleaseSession` closes the session
    have hle := le_load_of_mem (f := Pc.leaving) hmem
    have hone : (Pc.release .releaseSession caller).leaving = 1 := by cases caller <;> rfl
    refine (h.closing ?_).1
    unfold Closing
    omega
  · intro pc hmem hposts
    by_contra hne
    have hzero := (h.closing (by unfold Closing; omega)).2
    have hwill := load_eq_zero_iff.mp hzero pc hmem
    have := posts_le_willPost pc
    omega

/-! ## One action -/

/-- An action that neither posts nor moves towards the release. -/
structure Idle (s : State) (pc : Pc) (s' : State) (pc' : Pc) : Prop where
  releases : s'.releases + pc'.leaving = s.releases + pc.leaving
  outstanding : s'.outstanding = s.outstanding
  willPost : pc'.willPost ≤ pc.willPost
  lendingError : pc'.lendingError = 0

/-- Idle actions keep the invariant. -/
theorem QuietInv.idle (hI : QuietInv s (l ++ pc :: r)) (h : Idle s pc s' pc') :
    QuietInv s' (l ++ pc' :: r) := by
  have hclosing := hI.closing
  have hlending := hI.lendingError
  have hreleases := h.releases
  have hwill := h.willPost
  unfold Closing at hclosing
  simp only [load_append, load_cons] at hclosing hlending
  constructor
  · unfold Closing
    simp only [load_append, load_cons, h.outstanding]
    intro hc
    obtain ⟨hout, hzero⟩ := hclosing (by omega)
    exact ⟨hout, by omega⟩
  · simp only [load_append, load_cons, h.lendingError]
    omega

/-- An action after which the session is not being released. -/
theorem QuietInv.open (hI : QuietInv s (l ++ pc :: r)) (hopen : ¬ Closing s (l ++ pc :: r))
    (hreleases : s'.releases = s.releases) (hleaving : pc'.leaving = 0)
    (hlending : pc'.lendingError = 0) : QuietInv s' (l ++ pc' :: r) := by
  have hold := hI.lendingError
  unfold Closing at hopen
  simp only [load_append, load_cons] at hold hopen
  constructor
  · intro hc
    unfold Closing at hc
    simp only [load_append, load_cons] at hc
    omega
  · simp only [load_append, load_cons]
    omega

/-- Whoever is about to post acts before the release. -/
theorem QuietInv.not_closing (hI : QuietInv s (l ++ pc :: r)) (hpc : pc.willPost ≠ 0) :
    ¬ Closing s (l ++ pc :: r) := by
  intro hc
  have := (hI.closing hc).2
  simp only [load_append, load_cons] at this
  omega

@[simp] theorem SendPostCaller.next_willPost (caller : SendPostCaller) (result : IoPostError) :
    (caller.next result).willPost = 0 := by
  cases caller <;> rfl

@[simp] theorem SendPostCaller.next_lendingError (caller : SendPostCaller)
    (result : IoPostError) : (caller.next result).lendingError = 0 := by
  cases caller <;> rfl

theorem SendPostCaller.next_leaving (caller : SendPostCaller) (result : IoPostError) :
    (caller.next result).leaving = 0 := by
  cases caller <;> rfl

theorem ReleaseCaller.next_willPost (caller : ReleaseCaller) : caller.next.willPost = 0 := by
  cases caller with
  | sendPost caller => exact caller.next_willPost _
  | _ => rfl

theorem ReleaseCaller.next_lendingError (caller : ReleaseCaller) :
    caller.next.lendingError = 0 := by
  cases caller with
  | sendPost caller => exact caller.next_lendingError _
  | _ => rfl

theorem ReleaseCaller.next_leaving (caller : ReleaseCaller) : caller.next.leaving = 0 := by
  rw [Pc.leaving, caller.next_stage]

/-- `SendPost` goes on to its `RIOSend` only on an open session. -/
theorem execSendPost_quietInv {pc : SendPostPc} {caller : SendPostCaller}
    (hG : QuietGuard (.sendPost pc caller) o s (l ++ .sendPost pc caller :: r))
    (hI : QuietInv s (l ++ .sendPost pc caller :: r))
    (h : execSendPost o s caller pc = some (s', pc')) : QuietInv s' (l ++ pc' :: r) := by
  cases pc with
  | incrementIoCount context =>
    cases h
    exact hI.open hG rfl rfl rfl
  | rioSend context =>
    have hopen := hI.not_closing (Nat.one_ne_zero)
    simp only [execSendPost] at h
    split at h <;> cases h
    · exact hI.open hopen rfl rfl rfl
    · exact hI.open hopen rfl rfl rfl
  | _ =>
    refine hI.idle ?_
    revert h
    simp only [execSendPost]
    repeat' split
    all_goals rintro ⟨⟩
    all_goals
      first
      | exact ⟨rfl, rfl, Nat.le_refl _, rfl⟩
      | exact ⟨by rw [caller.next_leaving]; rfl, rfl,
          by rw [caller.next_willPost]; exact Nat.zero_le _, caller.next_lendingError _⟩

/-- `RecvPost` acts on an open session; behind a packet error it closes the
session, with nothing outstanding. -/
theorem execRecvPost_quietInv {pc : RecvPostPc} {caller : RecvPostCaller}
    (hreach : (server spec).Reachable server.init ⟨s, l ++ .recvPost pc caller :: r⟩)
    (hG : QuietGuard (.recvPost pc caller) o s (l ++ .recvPost pc caller :: r))
    (hI : QuietInv s (l ++ .recvPost pc caller :: r))
    (h : execRecvPost spec o s caller pc = some (s', pc')) : QuietInv s' (l ++ pc' :: r) := by
  cases pc with
  | rioReceive =>
    have hopen := hI.not_closing Nat.one_ne_zero
    simp only [execRecvPost] at h
    split at h
    · cases h
    · split at h <;> cases h
      · next hok =>
        rcases caller with _ | ⟨context, _ | _⟩
        · exact hI.open hopen rfl rfl rfl
        · exact hI.open hopen rfl rfl rfl
        -- behind a packet error the guard lets no receive succeed
        · rw [hG.1] at hok
          cases hok
      · rcases caller with _ | ⟨context, _ | _⟩
        · exact hI.open hopen rfl rfl rfl
        · exact hI.open hopen rfl rfl rfl
        · obtain ⟨-, hout, hposts⟩ := hG
          -- the only thread that posts, and the only worker: nobody else will post
          have hworker := handles_add_le hreach
          have hle := load_mono willPost_le_posts_add_handles (l ++ r)
          have hold := hI.lendingError
          have hself : (Pc.recvPost .rioReceive (.recvCompleted context true)).posts = 1 := rfl
          have hself' : (Pc.recvPost .rioReceive (.recvCompleted context true)).handles = 1 := rfl
          have hsum : load (fun q : Pc => q.posts + q.handles) (l ++ r) =
              load Pc.posts (l ++ r) + load Pc.handles (l ++ r) := load_add _ _ _
          simp only [load_append, load_cons] at hposts hworker hle hold hsum
          refine ⟨fun _ => ⟨hout, ?_⟩, ?_⟩ <;> simp only [load_append, load_cons]
          · show load Pc.willPost l + (0 + load Pc.willPost r) = 0
            omega
          · show load Pc.lendingError l + (0 + load Pc.lendingError r) = 0
            omega
  | incrementIoCount =>
    cases h
    rcases caller with _ | ⟨context, _ | _⟩
    · exact hI.idle ⟨rfl, rfl, Nat.le_refl _, rfl⟩
    · exact hI.idle ⟨rfl, rfl, Nat.le_refl _, rfl⟩
    · have hold := hI.lendingError
      have hself : (Pc.recvPost .incrementIoCount (.recvCompleted context true)).lendingError = 1 :=
        rfl
      simp only [load_append, load_cons] at hold
      omega

/-- A count that reaches zero leaves nothing outstanding behind. -/
theorem execRelease_quietInv {pc : ReleasePc} {caller : ReleaseCaller}
    (hreach : (server spec).Reachable server.init ⟨s, l ++ .release pc caller :: r⟩)
    (hI : QuietInv s (l ++ .release pc caller :: r))
    (h : execRelease s caller pc = some (s', pc')) : QuietInv s' (l ++ pc' :: r) := by
  have hleaving : (Pc.release .onSessionLeaved caller).leaving = 1 ∧
      (Pc.release .releaseSession caller).leaving = 1 ∧
      ∀ q, q ≠ .onSessionLeaved → q ≠ .releaseSession → (Pc.release q caller).leaving = 0 := by
    refine ⟨by cases caller <;> rfl, by cases caller <;> rfl, fun q h1 h2 => ?_⟩
    cases q <;> first | exact absurd rfl h1 | exact absurd rfl h2 | (cases caller <;> rfl)
  obtain ⟨honSessionLeaved, hreleaseSession, hother⟩ := hleaving
  cases pc with
  | ioCountDecrement =>
    simp only [execRelease] at h
    split at h
    · next hzero =>
      cases h
      -- the count was 1 and this thread held it: no request, and nobody who
      -- holds a reference to post with
      have hcount := ioCount_ge hreach
      have hl := load_mono willPost_le_holds l
      have hr := load_mono willPost_le_holds r
      have hold := hI.lendingError
      simp only [Counted, load_append, load_cons, Pc.holds_release, ReleasePc.holds] at hcount hold
      have hout : s.outstanding.length = 0 := by omega
      refine ⟨fun _ => ⟨List.length_eq_zero_iff.mp hout, ?_⟩, ?_⟩ <;>
        simp only [load_append, load_cons]
      · show load Pc.willPost l + (0 + load Pc.willPost r) = 0
        omega
      · show load Pc.lendingError l + (0 + load Pc.lendingError r) = 0
        omega
    · cases h
      exact hI.idle ⟨by rw [caller.next_leaving, hother _ (by simp) (by simp)], rfl,
        by rw [caller.next_willPost]; exact Nat.zero_le _, caller.next_lendingError⟩
  | onSessionLeaved =>
    cases h
    exact hI.idle ⟨by rw [honSessionLeaved, hreleaseSession], rfl, Nat.le_refl _, rfl⟩
  | releaseSession =>
    cases h
    refine hI.idle ⟨?_, rfl, Nat.le_refl _, rfl⟩
    rw [hreleaseSession, hother _ (by simp) (by simp)]
  | invalidateSocket =>
    cases h
    exact hI.idle ⟨by rw [caller.next_leaving, hother _ (by simp) (by simp)], rfl,
      by rw [caller.next_willPost]; exact Nat.zero_le _, caller.next_lendingError⟩
  | eraseSession =>
    simp only [execRelease] at h
    split at h <;> cases h
    exact hI.idle ⟨by rw [hother _ (by simp) (by simp), hother _ (by simp) (by simp)], rfl,
      Nat.le_refl _, rfl⟩
  | _ =>
    cases h
    exact hI.idle ⟨by rw [hother _ (by simp) (by simp), hother _ (by simp) (by simp)], rfl,
      Nat.le_refl _, rfl⟩

/-- **One guarded action keeps the invariant** of a published session. -/
theorem exec_quietInv
    (hreach : (server spec).Reachable server.init ⟨s, l ++ pc :: r⟩)
    (hpc : pc.beforePublication = false) (hG : QuietGuard pc o s (l ++ pc :: r))
    (hI : QuietInv s (l ++ pc :: r)) (h : exec spec pc o s = some (s', pc')) :
    QuietInv s' (l ++ pc' :: r) := by
  cases pc with
  | makeNewSession pc =>
    cases pc with
    | onSessionEntered | incrementSessionCount =>
      cases h
      exact hI.idle ⟨rfl, rfl, Nat.le_refl _, rfl⟩
    | _ => cases hpc
  | sendPacket pc isEncoded packet =>
    refine hI.idle ?_
    revert h
    simp only [exec]
    fun_cases execSendPacket spec s isEncoded packet pc <;> rintro ⟨⟩ <;>
      exact ⟨rfl, rfl, Nat.le_refl _, rfl⟩
  | sendPost pc caller => exact execSendPost_quietInv hG hI h
  | recvPost pc caller => exact execRecvPost_quietInv hreach hG hI h
  | release pc caller => exact execRelease_quietInv hreach hI h
  | worker pc =>
    refine hI.idle ?_
    revert h
    simp only [exec]
    fun_cases execWorker spec s pc <;> rintro ⟨⟩ <;>
      first
      | exact ⟨rfl, rfl, Nat.le_refl _, rfl⟩
      | exact ⟨rfl, rfl, Nat.zero_le _, rfl⟩
  | finished => cases h

/-- A completion is taken only from an open session. -/
theorem spawn_quietInv {ts : List Pc} {e : Event} (hI : QuietInv s ts)
    (h : spawn e s = some (s', pc)) : QuietInv s' (ts ++ [pc]) := by
  have hlending := hI.lendingError
  cases e with
  | completion i bytes =>
    obtain ⟨context, -, hi, -, rfl, rfl⟩ := spawn_completion h
    -- there was a request to complete
    have hopen : ¬ Closing s ts := by
      intro hc
      rw [(hI.closing hc).1] at hi
      cases hi
    refine ⟨fun hc => absurd ?_ hopen, ?_⟩
    · unfold Closing at hc ⊢
      simpa [Pc.leaving, Pc.stage] using hc
    · simpa [Pc.lendingError] using hlending
  | _ =>
    obtain ⟨-, rfl, rfl⟩ := Option.ite_none_right_eq_some.mp h
    refine ⟨fun hc => ?_, by simpa [Pc.lendingError] using hlending⟩
    have hold := hI.closing (by
      unfold Closing at hc ⊢
      simpa [Pc.leaving, Pc.stage] using hc)
    exact ⟨hold.1, by simpa [Pc.willPost, Pc.posts] using hold.2⟩

/-! ## Every guarded run -/

/-- A published session keeps the invariant, along every guarded run. -/
theorem quietInv_of_run {c : Config State Pc} (h : (server spec).Run QuietGuard server.init c) :
    c.shared.published = true → QuietInv c.shared c.threads := by
  refine Run.induct (I := fun s ts => s.published = true → QuietInv s ts) h
    (fun hpub => Bool.noConfusion hpub) ?_ ?_
  · intro s l pc r o s' pc' hrun hI hG hexec hpub'
    rcases exec_publishes hexec hpub' with hpub | hemplace
    · have hpc := (publication hrun.anywhere).of_published hpub pc (by simp)
      exact exec_quietInv hrun.anywhere hpc hG (hI hpub) hexec
    · obtain ⟨rfl, rfl, hreleases, -, rfl, rfl⟩ :=
        (publication hrun.anywhere).of_emplace hemplace
      refine ⟨fun hc => ?_, rfl⟩
      unfold Closing at hc
      rw [show _ = 0 from hreleases] at hc
      exact absurd hc (by decide)
  · intro s ts e s' pc hrun hI hspawn hpub'
    have hsame := (spawn_published hspawn).2.1
    exact spawn_quietInv (hI (hsame ▸ hpub')) hspawn

/-- **Releases are quiet**: in every run that keeps to `QuietGuard` nothing is
outstanding when `ReleaseSession` starts, and nothing is posted afterwards. -/
theorem release_quiet {c : Config State Pc}
    (h : (server spec).Run QuietGuard server.init c) : ReleasesQuietly c := by
  cases hpub : c.shared.published with
  | true => exact (quietInv_of_run h hpub).releasesQuietly
  | false =>
    obtain ⟨hs, pc, hts, hat⟩ := (publication h.anywhere).of_unpublished hpub
    refine ⟨fun _ _ => hs.outstanding, fun q hq hposts => ?_⟩
    rw [hts, List.mem_singleton] at hq
    subst hq
    have hzero : q.posts = 0 := by
      revert hat
      fun_cases AccepterAt c.shared q <;> first | exact fun _ => rfl | exact False.elim
    omega

/-- A client that closes at once: the worker stands before `ReleaseSession`. -/
theorem release_quiet_closed :
    ∃ c, .release .releaseSession .worker ∈ c.threads ∧
      (server plainSpec).Run QuietGuard server.init c ∧ ReleasesQuietly c := by
  obtain ⟨c, hrun, hc⟩ := exists_run (server plainSpec) QuietGuard server.init
    (server.accept ++ .event (.completion 0 []) :: List.replicate 4 (.run 1 ⟨true, 1⟩))
    (P := fun c => .release .releaseSession .worker ∈ c.threads) (by decide +kernel)
  exact ⟨c, hc, hrun, release_quiet hrun⟩

/-- A frame with a wrong checksum: the next receive is outstanding when
`ReleaseSession` starts. -/
theorem released_with_outstanding :
    ∃ c, (server plainSpec).Reachable server.init c ∧ ¬ ReleasesQuietly c := by
  obtain ⟨c, hrun, hc⟩ := exists_run (server plainSpec) unguarded server.init
    (server.accept ++ .event (.completion 0 [119, 1, 0, 0, 9, 7]) ::
      List.replicate 5 (.run 1 ⟨true, 1⟩))
    (P := fun c => c.shared.outstanding.length = 1 ∧
      ∃ pc ∈ c.threads, pc matches .release .releaseSession _) (by decide +kernel)
  obtain ⟨hlength, pc, hmem, hpc⟩ := hc
  refine ⟨c, hrun, fun hquiet => ?_⟩
  cases pc with
  | release pc caller =>
    cases pc with
    | releaseSession =>
      rw [hquiet.nothing_outstanding caller hmem] at hlength
      cases hlength
    | _ => cases hpc
  | _ => cases hpc

end RioServer
