import RioServer.Server.EachSession
import RioServer.Server.IoCount
import RioServer.Server.SendExclusive

/-!
# The requests of a session (RIOTestServer.cpp:327–349, 582–721)

A session lives on its requests: it stays in `sessionMap` until their
completions have brought `ioCount` to zero. Three things hold of them in every
run.

- A session has at most one receive and one send outstanding (`one_request_each`):
  a receive is posted by the accepter and then by the worker that handles the
  receive before, and a send by the owner of `ioMode`. Nothing else is ever
  posted, so no completion gets to `InvalidIOCompleted`.
- While the session is in `sessionMap`, `ioCount` is exactly the number of its
  requests and of the references that threads hold (`Referenced`).
- A session in `sessionMap` whose `ioCount` is zero has a thread on its way to
  take it out (`never_stranded`).
-/

namespace RioServer

open Machine

variable {spec : NetBufferSpec} {o : Oracle} {s s' : State} {pc pc' : Pc} {l r ts : List Pc}

/-! ## What is posted -/

/-- The request is a receive. -/
def IoContext.isRecv (context : IoContext) : Bool := context.ioType = .opRecv

/-- The outstanding receives. -/
def State.recvs (s : State) : Nat := s.outstanding.countP IoContext.isRecv

/-- One of the two operations that are posted. -/
def IoContext.IsRequest (context : IoContext) : Prop :=
  context.ioType = .opRecv ∨ context.ioType = .opSend

instance (context : IoContext) : Decidable context.IsRequest :=
  inferInstanceAs (Decidable (_ ∨ _))

/-- The thread is not where only an invalid operation type or a deleted session
leads to, and what it will post or look at is a request. -/
def Pc.Regular : Pc → Prop
  | .sendPost (.incrementIoCount context) _ | .sendPost (.rioSend context) _ =>
    context.ioType = .opSend
  | .worker (.getIoCompletedContext context _) | .worker (.testTransferred context _) =>
    context.IsRequest
  | .worker (.invalidIoCompleted _) | .worker (.freeInvalidContext _)
  | .release _ (.invalidIoCompleted _) => False
  | .worker (.freeContext _ result) | .release _ (.recvCompleted _ result) =>
    result ≠ .isDeletedSession
  | _ => True

/-- All requests and all threads are regular. -/
structure Regular (s : State) (ts : List Pc) : Prop where
  requests : ∀ context ∈ s.outstanding, context.IsRequest
  threads : ∀ pc ∈ ts, pc.Regular

theorem SendPostCaller.next_regular (caller : SendPostCaller) {result : IoPostError}
    (h : result ≠ .isDeletedSession) : (caller.next result).Regular := by
  cases caller with
  | sendPacket => trivial
  | sendCompleted context => exact h

theorem RecvPostCaller.next_regular (caller : RecvPostCaller) {result : IoPostError}
    (h : result ≠ .isDeletedSession) : (caller.next result).Regular := by
  rcases caller with _ | ⟨_, _ | _⟩
  · trivial
  · exact h
  · exact h

theorem ReleaseCaller.next_regular {caller : ReleaseCaller} {pc : ReleasePc}
    (h : (Pc.release pc caller).Regular) : caller.next.Regular := by
  cases caller with
  | sendPost caller => exact caller.next_regular (by decide)
  | recvCompleted context result => exact h
  | invalidIoCompleted context => exact h.elim
  | _ => trivial

/-- **One action** of a regular thread posts a request or nothing, and the thread
stays regular. -/
theorem exec_regular (hpc : pc.Regular) (hs : ∀ context ∈ s.outstanding, context.IsRequest)
    (h : exec spec pc o s = some (s', pc')) :
    (∀ context ∈ s'.outstanding, context.IsRequest) ∧ pc'.Regular := by
  have hpost : ∀ context : IoContext, context.IsRequest →
      ∀ q ∈ s.outstanding ++ [context], q.IsRequest := by
    intro context hcontext q hq
    rcases List.mem_append.mp hq with hq | hq
    · exact hs q hq
    · cases List.mem_singleton.mp hq
      exact hcontext
  cases pc with
  | makeNewSession pc =>
    revert h
    simp only [exec, Option.some.injEq]
    fun_cases execMakeNewSession o s pc <;> rintro ⟨⟩ <;> exact ⟨hs, trivial⟩
  | sendPacket pc isEncoded packet =>
    revert h
    simp only [exec]
    fun_cases execSendPacket spec s isEncoded packet pc <;> rintro ⟨⟩ <;> exact ⟨hs, trivial⟩
  | sendPost pc caller =>
    revert h
    simp only [exec]
    fun_cases execSendPost o s caller pc <;> rintro ⟨⟩ <;>
      first
      | exact ⟨hs, trivial⟩
      | exact ⟨hs, caller.next_regular (by decide)⟩
      | exact ⟨hs, rfl⟩
      | exact ⟨hs, hpc⟩
      | exact ⟨hpost _ (.inr hpc), trivial⟩
  | recvPost pc caller =>
    revert h
    simp only [exec]
    fun_cases execRecvPost spec o s caller pc <;> rintro ⟨⟩
    · exact ⟨hpost _ (.inl rfl), trivial⟩
    · exact ⟨hs, caller.next_regular (by decide)⟩
    · exact ⟨hs, caller.next_regular (by decide)⟩
  | release pc caller =>
    have hnext := ReleaseCaller.next_regular hpc
    have hrel : ∀ q, (Pc.release q caller).Regular := by
      intro q
      cases caller <;> exact hpc
    revert h
    simp only [exec]
    fun_cases execRelease s caller pc <;> rintro ⟨⟩ <;>
      first | exact ⟨hs, hnext⟩ | exact ⟨hs, hrel _⟩
  | worker pc =>
    cases pc with
    | testTransferred context bytes =>
      simp only [exec, execWorker] at h
      split at h
      · cases h
        exact ⟨hs, trivial⟩
      · rcases hpc with htype | htype
        · rw [htype] at h
          cases h
          exact ⟨hs, trivial⟩
        · rw [htype] at h
          cases h
          exact ⟨hs, trivial⟩
    | invalidIoCompleted context | freeInvalidContext context => exact hpc.elim
    | _ =>
      revert h
      simp only [exec, execWorker]
      repeat' split
      all_goals rintro ⟨⟩
      all_goals
        first
        | exact ⟨hs, trivial⟩
        | exact ⟨hs, hpc⟩
        | exact ⟨hs, show IoPostError.success ≠ .isDeletedSession by decide⟩
  | finished => cases h

/-- Every run is regular. -/
theorem regular {c : Config State Pc} (h : (server spec).Reachable server.init c) :
    Regular c.shared c.threads := by
  refine Run.induct h ⟨fun context hc => absurd hc List.not_mem_nil, ?_⟩ ?_ ?_
  · intro pc hpc
    cases List.mem_singleton.mp hpc
    trivial
  · intro s l pc r o s' pc' _ hI _ hexec
    obtain ⟨hl, hpc, hr⟩ := forall_mem_place.mp hI.threads
    obtain ⟨hs', hpc'⟩ := exec_regular hpc hI.requests hexec
    exact ⟨hs', forall_mem_place.mpr ⟨hl, hpc', hr⟩⟩
  · intro s ts e s' pc _ hI hspawn
    cases e with
    | completion i bytes =>
      obtain ⟨context, -, hi, -, rfl, rfl⟩ := spawn_completion hspawn
      have hcontext := hI.requests context (List.mem_of_getElem? hi)
      refine ⟨fun q hq => hI.requests q (List.mem_of_mem_eraseIdx hq), ?_⟩
      exact forall_mem_spawned.mpr ⟨hI.threads, hcontext⟩
    | _ =>
      obtain ⟨-, rfl, rfl⟩ := Option.ite_none_right_eq_some.mp hspawn
      exact ⟨hI.requests, forall_mem_spawned.mpr ⟨hI.threads, trivial⟩⟩

/-! ## One receive at a time -/

/-- On the way to the one `RIOReceive` that follows: the accepter before it, or
the worker with the completion of the receive before. -/
def Pc.willReceive : Pc → Nat
  | .makeNewSession .onSessionEntered | .makeNewSession .incrementSessionCount
  | .makeNewSession .leaveEmplace | .makeNewSession .closeEnteredSocket => 0
  | .makeNewSession _ => 1
  | .recvPost .rioReceive _ => 1
  | .worker (.getIoCompletedContext context _) | .worker (.testTransferred context _) =>
    if context.isRecv then 1 else 0
  | .worker (.recvCompleted _ _) => 1
  | _ => 0

@[simp] theorem SendPostCaller.next_willReceive (caller : SendPostCaller)
    (result : IoPostError) : (caller.next result).willReceive = 0 := by
  cases caller <;> rfl

@[simp] theorem RecvPostCaller.next_willReceive (caller : RecvPostCaller)
    (result : IoPostError) : (caller.next result).willReceive = 0 := by
  rcases caller with _ | ⟨_, _ | _⟩ <;> rfl

@[simp] theorem ReleaseCaller.next_willReceive (caller : ReleaseCaller) :
    caller.next.willReceive = 0 := by
  cases caller with
  | sendPost caller => exact caller.next_willReceive _
  | _ => rfl

/-- An action of a thread passes its receive on at most. -/
theorem exec_receives (hpc : pc.Regular) (h : exec spec pc o s = some (s', pc')) :
    s'.recvs + pc'.willReceive ≤ s.recvs + pc.willReceive := by
  have keep : ∀ {t : State} {q : Pc}, t.outstanding = s.outstanding →
      q.willReceive ≤ pc.willReceive → t.recvs + q.willReceive ≤ s.recvs + pc.willReceive := by
    intro t q hout hle
    rw [State.recvs, State.recvs, hout]
    exact Nat.add_le_add_left hle _
  -- a thread with no receive to pass on
  have off : ∀ {t : State} {q : Pc}, t.outstanding = s.outstanding → q.willReceive = 0 →
      t.recvs + q.willReceive ≤ s.recvs + pc.willReceive := by
    intro t q hout hzero
    exact keep hout (by rw [hzero]; exact Nat.zero_le _)
  have posted : ∀ context, s.outstanding.countP IoContext.isRecv +
      (if IoContext.isRecv context then 1 else 0) =
        (s.outstanding ++ [context]).countP IoContext.isRecv := by
    intro context
    rw [List.countP_append, List.countP_singleton]
  cases pc with
  | makeNewSession pc =>
    revert h
    simp only [exec, Option.some.injEq]
    fun_cases execMakeNewSession o s pc <;> rintro ⟨⟩ <;>
      first | exact off rfl rfl | exact keep rfl (Nat.le_refl 1)
  | sendPacket pc isEncoded packet =>
    revert h
    simp only [exec]
    fun_cases execSendPacket spec s isEncoded packet pc <;> rintro ⟨⟩ <;> exact off rfl rfl
  | sendPost pc caller =>
    cases pc with
    | rioSend context =>
      simp only [exec, execSendPost] at h
      split at h <;> cases h
      · -- what `SendPost` posts is a send
        have hsend : context.isRecv = false := by
          have htype : context.ioType = .opSend := hpc
          simp [IoContext.isRecv, htype]
        have hcount := posted context
        rw [hsend] at hcount
        exact Nat.le_of_eq hcount.symm
      · exact off rfl rfl
    | _ =>
      revert h
      simp only [exec, execSendPost]
      repeat' split
      all_goals rintro ⟨⟩
      all_goals first | exact off rfl rfl | exact off rfl (caller.next_willReceive _)
  | recvPost pc caller =>
    revert h
    simp only [exec]
    fun_cases execRecvPost spec o s caller pc <;> rintro ⟨⟩
    · exact Nat.le_of_eq (posted (recvContext spec o.context s)).symm
    · exact off rfl (caller.next_willReceive _)
    · exact off rfl (caller.next_willReceive _)
  | release pc caller =>
    revert h
    simp only [exec]
    fun_cases execRelease s caller pc <;> rintro ⟨⟩ <;>
      first | exact off rfl rfl | exact off rfl caller.next_willReceive
  | worker pc =>
    cases pc with
    | testTransferred context bytes =>
      simp only [exec, execWorker] at h
      split at h
      · cases h
        exact off rfl rfl
      · split at h
        · next hrecv =>
          cases h
          refine keep rfl (Nat.le_of_eq ?_)
          simp [Pc.willReceive, IoContext.isRecv, hrecv]
        · cases h
          exact off rfl rfl
        · cases h
          exact off rfl rfl
    | _ =>
      revert h
      simp only [exec, execWorker]
      repeat' split
      all_goals rintro ⟨⟩
      all_goals first | exact off rfl rfl | exact keep rfl (Nat.le_refl _)
  | finished => cases h

/-- Taking the completion of a receive makes the worker post the next one. -/
theorem spawn_receives {e : Event} (h : spawn e s = some (s', pc)) :
    s'.recvs + pc.willReceive = s.recvs := by
  cases e with
  | completion i bytes =>
    obtain ⟨context, -, hi, -, rfl, rfl⟩ := spawn_completion h
    exact countP_eraseIdx IoContext.isRecv hi
  | _ =>
    obtain ⟨-, rfl, rfl⟩ := Option.ite_none_right_eq_some.mp h
    rfl

/-- One receive is outstanding or on its way, along every run. -/
theorem one_receive {c : Config State Pc} (h : (server spec).Reachable server.init c) :
    c.shared.recvs + load Pc.willReceive c.threads ≤ 1 := by
  refine Run.induct (I := fun s ts => s.recvs + load Pc.willReceive ts ≤ 1) h
    (Nat.le_refl 1) ?_ ?_
  · intro s l pc r o s' pc' hrun hI _ hexec
    have hpc := (regular hrun).threads pc (by simp)
    have hstep := exec_receives hpc hexec
    simp only [load_append, load_cons] at hI ⊢
    omega
  · intro s ts e s' pc _ hI hspawn
    have hstep := spawn_receives hspawn
    simp only [load_append, load_cons, load_nil]
    omega

/-- A receive and a send at most, and nothing else. -/
structure OneEach (s : State) : Prop where
  recvs : s.recvs ≤ 1
  sends : s.sends ≤ 1
  requests : ∀ context ∈ s.outstanding, context.IsRequest

/-- Along every run of a session. -/
theorem oneEach {c : Config State Pc} (h : (server spec).Reachable server.init c) :
    OneEach c.shared := by
  have hrecv := one_receive h
  have hsend := sendInv h
  have howners := hsend.owners
  have hsends := hsend.sends
  have hle := c.shared.ioMode.owners_le
  exact ⟨by omega, by omega, (regular h).requests⟩

/-- So two requests at most. -/
theorem OneEach.length_le (h : OneEach s) : s.outstanding.length ≤ 2 := by
  have hrecvs := h.recvs
  have hsends := h.sends
  have hcover : ∀ cs : List IoContext, (∀ context ∈ cs, context.IsRequest) →
      cs.length ≤ cs.countP IoContext.isRecv + cs.countP IoContext.isSend := by
    intro cs
    induction cs with
    | nil => exact fun _ => Nat.le_refl 0
    | cons context cs ih =>
      intro hcs
      have hrest := ih fun q hq => hcs q (List.mem_cons_of_mem _ hq)
      have hone : 1 ≤ (if context.isRecv then 1 else 0) + (if context.isSend then 1 else 0) := by
        rcases hcs context List.mem_cons_self with htype | htype
        · simp [IoContext.isRecv, htype]
        · simp [IoContext.isSend, htype]
      rw [List.length_cons, List.countP_cons, List.countP_cons]
      omega
  have hlen := hcover s.outstanding h.requests
  unfold State.recvs at hrecvs
  unfold State.sends at hsends
  omega

/-! ## What `ioCount` counts while the session is in the map -/

/-- The session is in `sessionMap`, so what an action takes off the references
it takes off the count: the other side of `exec_holds`. -/
theorem exec_gives_back (hmap : s.inSessionMap = true) (hpc : pc.Regular)
    (hbefore : pc.beforePublication = false) (h : exec spec pc o s = some (s', pc')) :
    HoldsLe s' pc'.holds s pc.holds := by
  cases pc with
  | makeNewSession pc =>
    cases pc with
    | onSessionEntered | incrementSessionCount =>
      cases h
      exact Int.le_refl _
    | _ => cases hbefore
  | sendPacket pc isEncoded packet =>
    revert h
    simp only [exec]
    fun_cases execSendPacket spec s isEncoded packet pc <;> rintro ⟨⟩ <;>
      exact Int.le_refl _
  | sendPost pc caller =>
    revert h
    simp only [exec]
    fun_cases execSendPost o s caller pc <;> rintro ⟨⟩ <;>
      simp [HoldsLe, SendPostPc.holds, ReleasePc.holds, ReleaseCaller.holds] <;> omega
  | recvPost pc caller =>
    revert h
    simp only [exec]
    fun_cases execRecvPost spec o s caller pc <;> rintro ⟨⟩ <;>
      simp [HoldsLe, RecvPostPc.holds]
    omega
  | release pc caller =>
    revert h
    simp only [exec]
    fun_cases execRelease s caller pc <;> rintro ⟨⟩ <;>
      simp [HoldsLe, ReleasePc.holds] <;> omega
  | worker pc =>
    cases pc with
    | getIoCompletedContext context bytes =>
      -- the lookup finds the session
      simp only [exec, execWorker, hmap, if_true] at h
      split at h <;> cases h
      exact Int.le_refl _
    | invalidIoCompleted context | freeInvalidContext context => exact hpc.elim
    | freeContext context result =>
      have hresult : result ≠ .isDeletedSession := hpc
      simp only [exec, execWorker, if_neg hresult] at h
      cases h
      exact Int.le_refl _
    | _ =>
      revert h
      simp only [exec, execWorker]
      repeat' split
      all_goals rintro ⟨⟩
      all_goals
        simp [HoldsLe, WorkerPc.holds, ReleasePc.holds, ReleaseCaller.holds, SendPostPc.holds,
          SendPostCaller.holds, RecvPostPc.holds]
  | finished => cases h

/-- In `ReleaseSession`, or on the way to it from a count of zero, with the
session still in the map. -/
def Pc.takingOut : Pc → Nat
  | .release .onSessionLeaved _ | .release .releaseSession _
  | .release .decrementNumOfSession _ | .release .decrementSessionCount _
  | .release .eraseSession _ => 1
  | _ => 0

/-- Whoever is removing the session goes on until it is gone, and a count that
gets to zero makes its thread remove it. -/
theorem exec_removing (hmap : s'.inSessionMap = true)
    (h : exec spec pc o s = some (s', pc')) :
    pc.takingOut ≤ pc'.takingOut ∧
      (s'.ioCount = 0 → s.ioCount = 0 ∨ s.ioCount < 0 ∨ pc'.takingOut = 1) := by
  cases pc with
  | makeNewSession pc =>
    revert h
    simp only [exec, Option.some.injEq]
    fun_cases execMakeNewSession o s pc <;> rintro ⟨⟩ <;>
      exact ⟨Nat.zero_le _, fun hzero => .inl hzero⟩
  | sendPacket pc isEncoded packet =>
    revert h
    simp only [exec]
    fun_cases execSendPacket spec s isEncoded packet pc <;> rintro ⟨⟩ <;>
      exact ⟨Nat.zero_le _, fun hzero => .inl hzero⟩
  | sendPost pc caller =>
    cases pc with
    | incrementIoCount context =>
      cases h
      refine ⟨Nat.zero_le _, fun hzero => .inr (.inl ?_)⟩
      have hone : s.ioCount + 1 = 0 := hzero
      omega
    | _ =>
      revert h
      simp only [exec, execSendPost]
      repeat' split
      all_goals rintro ⟨⟩
      all_goals exact ⟨Nat.zero_le _, fun hzero => .inl hzero⟩
  | recvPost pc caller =>
    cases pc with
    | incrementIoCount =>
      cases h
      refine ⟨Nat.zero_le _, fun hzero => .inr (.inl ?_)⟩
      have hone : s.ioCount + 1 = 0 := hzero
      omega
    | rioReceive =>
      revert h
      simp only [exec, execRecvPost]
      repeat' split
      all_goals rintro ⟨⟩
      all_goals exact ⟨Nat.zero_le _, fun hzero => .inl hzero⟩
  | release pc caller =>
    cases pc with
    | ioCountDecrement =>
      simp only [exec, execRelease] at h
      split at h <;> cases h
      · exact ⟨Nat.zero_le _, fun _ => .inr (.inr rfl)⟩
      · next hne => exact ⟨Nat.zero_le _, fun hzero => absurd hzero hne⟩
    | eraseSession =>
      simp only [exec, execRelease] at h
      split at h <;> cases h
      cases hmap
    | _ =>
      cases h
      first
      | exact ⟨Nat.le_refl 1, fun hzero => .inl hzero⟩
      | exact ⟨Nat.zero_le _, fun hzero => .inl hzero⟩
  | worker pc =>
    revert h
    simp only [exec]
    fun_cases execWorker spec s pc <;> rintro ⟨⟩ <;>
      exact ⟨Nat.zero_le _, fun hzero => .inl hzero⟩
  | finished => cases h

/-- The session in the map: its count is what its requests and its threads hold,
and a count of zero has a thread that removes it. -/
structure Referenced (s : State) (ts : List Pc) : Prop where
  ioCount : s.ioCount = s.outstanding.length + load Pc.holds ts
  removing : s.ioCount = 0 → 1 ≤ load Pc.takingOut ts

/-- Along every run of a session, as long as it is in the map. -/
theorem referenced {c : Config State Pc} (h : (server spec).Reachable server.init c)
    (hmap : c.shared.inSessionMap = true) : Referenced c.shared c.threads := by
  refine Run.induct (I := fun s ts => s.inSessionMap = true → Referenced s ts) h ?_ ?_ ?_ hmap
  · intro hmap
    cases hmap
  · intro s l pc r o s' pc' hrun hI _ hexec hmap'
    have hmem : pc ∈ l ++ pc :: r := by simp
    by_cases hmap : s.inSessionMap = true
    · have hs := hI hmap
      have hpub := inSessionMap_published hrun hmap
      have hbefore := (publication hrun).of_published hpub pc hmem
      have hle := exec_holds hexec
      have hge := exec_gives_back hmap ((regular hrun).threads pc hmem) hbefore hexec
      obtain ⟨hremoving, hzero⟩ := exec_removing hmap' hexec
      have hcount := hs.ioCount
      have hremove := hs.removing
      simp only [HoldsLe, load_append, load_cons] at hle hge hcount hremove
      constructor
      · simp only [load_append, load_cons]
        omega
      · simp only [load_append, load_cons]
        intro hs'
        rcases hzero hs' with hzero | hneg | hone
        · have hone := hremove hzero
          omega
        · omega
        · omega
    · -- the insertion: the accepter's reference is the only one
      rcases exec_publishes hexec (inSessionMap_published (hrun.place trivial hexec) hmap') with
        hpub | hemplace
      · cases exec_map hexec with
        | emplace hpc hs hpc' =>
          exact absurd ((publication hrun).unpublished_of_mem hmem (by rw [hpc]; rfl))
            (by simp [hpub])
        | same _ hsame | emplaceFailed _ _ _ hsame | leaveEmplace _ hsame =>
          exact absurd (hsame ▸ hmap') hmap
        | erase _ herased =>
          rw [herased] at hmap'
          cases hmap'
      · have hunpublished := (publication hrun).unpublished_of_mem hmem
          (by rw [hemplace.1]; rfl)
        obtain ⟨-, q, hq, hat⟩ := (publication hrun).of_unpublished hunpublished
        obtain ⟨rfl, rfl, -, hs, rfl, rfl⟩ := (publication hrun).of_emplace hemplace
        obtain rfl : pc = q := by simpa using hq
        rw [hemplace.1] at hat
        constructor
        · show s.ioCount = s.outstanding.length + 1
          rw [hs.outstanding, hat.1]
          rfl
        · intro hzero
          have hone : s.ioCount = 1 := hat.1
          have hzero : s.ioCount = 0 := hzero
          omega
  · intro s ts e s' pc _ hI hspawn hmap'
    have hs := hI (by rw [← (spawn_frame hspawn).2.1] ; exact hmap')
    cases e with
    | completion i bytes =>
      obtain ⟨context, -, hi, -, rfl, rfl⟩ := spawn_completion hspawn
      obtain ⟨hlt, -⟩ := List.getElem?_eq_some_iff.mp hi
      have hcount := hs.ioCount
      constructor
      · show s.ioCount = (s.outstanding.eraseIdx i).length + _
        rw [List.length_eraseIdx_of_lt hlt]
        simp only [load_append, load_cons, load_nil, Pc.holds_worker, WorkerPc.holds]
        omega
      · intro hzero
        have hone := hs.removing hzero
        simp only [load_append, load_cons, load_nil]
        omega
    | _ =>
      obtain ⟨-, rfl, rfl⟩ := Option.ite_none_right_eq_some.mp hspawn
      constructor
      · have hcount := hs.ioCount
        simpa [load_append] using hcount
      · intro hzero
        have hone := hs.removing hzero
        simp only [load_append, load_cons, load_nil]
        omega

namespace RioTestServer

variable {numOfWorkerThread : Nat} {c : Config RioTestServer Thread} {i : Nat} {e : Entry}

/-! ## Every session of the server -/

/-- **One receive and one send at most** of every session are outstanding, far
from the 32 each that its request queue takes, and nothing else is; and no
thread gets to `InvalidIOCompleted`. -/
theorem one_request_each (h : (server spec numOfWorkerThread).Reachable server.init c)
    (hacc : c.shared.accepted < 2 ^ 64 - 2) (he : c.shared.sessions[i]? = some e) :
    OneEach e.state ∧ ∀ t ∈ c.threads, t.origin = i → t.pc.Regular := by
  have hrun := ((each_session_of_reachable h hacc).runs i e he).anywhere
  have hone := oneEach hrun
  refine ⟨⟨hone.recvs, hone.sends, hone.requests⟩, fun t ht horigin => ?_⟩
  exact (regular hrun).threads t.pc (mem_pcsOf.mpr ⟨t, ht, horigin, rfl⟩)

/-- A session with its receive and a send outstanding. -/
theorem one_request_each_both :
    ∃ c e, (server plainSpec 1).Reachable server.init c ∧ c.shared.accepted < 2 ^ 64 - 2 ∧
      c.shared.sessions[0]? = some e ∧ e.state.outstanding.length = 2 ∧ OneEach e.state ∧
      ∀ t ∈ c.threads, t.origin = 0 → t.pc.Regular := by
  obtain ⟨c, hrun, hacc, hlen⟩ := exists_run (server plainSpec 1) unguarded server.init
    (server.connect 0 ++ List.replicate 5 (.run 0 ⟨true, 0⟩) ++
      .event (.session 0 (.sendPacket true [1, 2, 3])) :: List.replicate 8 (.run 1 ⟨true, 1⟩))
    (P := fun c => c.shared.accepted < 2 ^ 64 - 2 ∧
      (c.shared.sessions[0]?).map (fun e => e.state.outstanding.length) = some 2)
    (by decide +kernel)
  obtain ⟨e, he, hlen⟩ := Option.map_eq_some_iff.mp hlen
  obtain ⟨hone, hthreads⟩ := one_request_each hrun hacc he
  exact ⟨c, e, hrun, hacc, he, hlen, hone, hthreads⟩

/-- **No session is stranded**: while a session is in `sessionMap`, its `ioCount`
is the number of its requests and of the references that threads hold, and when
it is zero one of its threads is taking it out. So a session in the map that
nobody works for has a request outstanding, whose completion will go on. -/
theorem never_stranded (h : (server spec numOfWorkerThread).Reachable server.init c)
    (hacc : c.shared.accepted < 2 ^ 64 - 2) (he : c.shared.sessions[i]? = some e)
    (hmap : (c.shared.sessionMap.find e.sessionId).isSome = true) :
    e.state.ioCount = e.state.outstanding.length + load Pc.holds (pcsOf i c.threads) ∧
      (e.state.ioCount = 0 → ∃ t ∈ c.threads, t.origin = i ∧ t.pc.takingOut = 1) ∧
      ((∀ t ∈ c.threads, t.origin = i → t.pc = .finished) → e.state.outstanding ≠ []) := by
  have hs := referenced ((each_session_of_reachable h hacc).runs i e he).anywhere hmap
  have hremoving : e.state.ioCount = 0 →
      ∃ t ∈ c.threads, t.origin = i ∧ t.pc.takingOut = 1 := by
    intro hzero
    have hload : 1 ≤ load Pc.takingOut (pcsOf i c.threads) := hs.removing hzero
    by_contra hnone
    have hnot : load Pc.takingOut (pcsOf i c.threads) = 0 := by
      refine load_eq_zero_iff.mpr fun pc hpc => ?_
      obtain ⟨t, ht, horigin, rfl⟩ := mem_pcsOf.mp hpc
      by_contra hne
      refine hnone ⟨t, ht, horigin, ?_⟩
      revert hne
      fun_cases Pc.takingOut t.pc <;> simp
    omega
  refine ⟨hs.ioCount, hremoving, fun hfinished hnil => ?_⟩
  -- nobody holds a reference, so the count would be zero with nobody removing
  have hholds : load Pc.holds (pcsOf i c.threads) = 0 := by
    refine load_eq_zero_iff.mpr fun pc hpc => ?_
    obtain ⟨t, ht, horigin, rfl⟩ := mem_pcsOf.mp hpc
    rw [hfinished t ht horigin]
    rfl
  have hcount : e.state.ioCount = e.state.outstanding.length + load Pc.holds (pcsOf i c.threads) :=
    hs.ioCount
  rw [hnil, hholds] at hcount
  obtain ⟨t, ht, horigin, hone⟩ := hremoving hcount
  rw [hfinished t ht horigin] at hone
  cases hone

/-- A session with both requests outstanding, whose count is two. -/
theorem never_stranded_both :
    ∃ (c : Config RioTestServer Thread) (e : Entry),
      (server plainSpec 1).Reachable server.init c ∧ c.shared.accepted < 2 ^ 64 - 2 ∧
      c.shared.sessions[0]? = some e ∧ (c.shared.sessionMap.find e.sessionId).isSome = true ∧
      e.state.ioCount = 2 ∧
      e.state.ioCount = e.state.outstanding.length + load Pc.holds (pcsOf 0 c.threads) ∧
      (e.state.ioCount = 0 → ∃ t ∈ c.threads, t.origin = 0 ∧ t.pc.takingOut = 1) ∧
      ((∀ t ∈ c.threads, t.origin = 0 → t.pc = .finished) → e.state.outstanding ≠ []) := by
  obtain ⟨c, hrun, hacc, hentry⟩ := exists_run (server plainSpec 1) unguarded server.init
    (server.connect 0 ++ List.replicate 5 (.run 0 ⟨true, 0⟩) ++
      .event (.session 0 (.sendPacket true [1, 2, 3])) :: List.replicate 8 (.run 1 ⟨true, 1⟩))
    (P := fun c => c.shared.accepted < 2 ^ 64 - 2 ∧ (c.shared.sessions[0]?).map (fun e =>
      ((c.shared.sessionMap.find e.sessionId).isSome, e.state.ioCount)) = some (true, (2 : Int)))
    (by decide +kernel)
  obtain ⟨e, he, hentry⟩ := Option.map_eq_some_iff.mp hentry
  obtain ⟨hmap, hcount⟩ := Prod.mk.inj hentry
  exact ⟨c, e, hrun, hacc, he, hmap, hcount, never_stranded hrun hacc he hmap⟩

end RioTestServer

end RioServer
