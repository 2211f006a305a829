import RioServer.Server.EachSession

/-!
# When a session's entries in the tables change

The server keeps a session in four places: `sessionMap`, the broadcaster's
`sessionIdSet`, `sessionCount` and `numOfSessionInWorkerThread`. `MakeNewSession`
and `Accepter` make the entries one by one, `IOCountDecrement` and
`ReleaseSession` remove them one by one, and between two of these steps other
threads act. `exec_tables` lists the steps; everything else is quiet.

Where a thread stands on the way in is its `acceptStage`, on the way out its
`leaveStage`. A session whose `emplace` succeeds has nobody on the way out before
it is published.
-/

namespace RioServer

open Machine

variable {spec : NetBufferSpec} {o : Oracle} {s s' : State} {pc pc' : Pc}

/-! ## Stages -/

/-- The accepter's way in. -/
inductive AcceptStage where
  | none
  | emplacing
  | entering
  | counting
  deriving DecidableEq

/-- A release's way out. `direct` is the `ReleaseSession` that `RecvCompleted`
calls without `OnSessionLeaved`. -/
inductive LeaveStage where
  | none
  | left
  | direct
  | decrementNum
  | decrementCount
  | erasing
  deriving DecidableEq

/-- `entering` lasts from the session's entry in `sessionMap` to the one in
`sessionIdSet`, and `counting` from there to the one in `sessionCount`. -/
def Pc.acceptStage : Pc → AcceptStage
  | .makeNewSession .emplace => .emplacing
  | .recvPost _ .makeNewSession | .release _ .makeNewSession
  | .makeNewSession .onSessionEntered => .entering
  | .makeNewSession .incrementSessionCount => .counting
  | _ => .none

def Pc.leaveStage : Pc → LeaveStage
  | .release .releaseSession (.recvCompleted _ _) => .direct
  | .release .releaseSession _ => .left
  | .release .decrementNumOfSession _ => .decrementNum
  | .release .decrementSessionCount _ => .decrementCount
  | .release .eraseSession _ => .erasing
  | _ => .none

/-- One for the threads at a stage. -/
def Pc.accepts (stage : AcceptStage) (pc : Pc) : Nat :=
  if pc.acceptStage = stage then 1 else 0

def Pc.leaves (stage : LeaveStage) (pc : Pc) : Nat :=
  if pc.leaveStage = stage then 1 else 0

/-! ## One action -/

/-- Nothing that the tables show has changed. -/
structure SameTables (s s' : State) : Prop where
  published : s'.published = s.published
  releases : s'.releases = s.releases
  inSessionMap : s'.inSessionMap = s.inSessionMap
  inSessionIdSet : s'.inSessionIdSet = s.inSessionIdSet
  sessionCount : s'.sessionCount = s.sessionCount
  numOfSession : s'.numOfSessionInWorkerThread = s.numOfSessionInWorkerThread

/-- What an action does to the tables: nothing, or one of the steps of
`MakeNewSession`, `Accepter`, `IOCountDecrement` and `ReleaseSession`. -/
inductive TablesEffect (s : State) (pc : Pc) (s' : State) (pc' : Pc) : Prop where
  | quiet (same : SameTables s s') (accept : pc'.acceptStage = pc.acceptStage)
      (leave : pc'.leaveStage = pc.leaveStage ∨
        pc.leaveStage = .none ∧ pc'.leaveStage = .direct)
  | incrementNumOfSession (hpc : pc = .makeNewSession .incrementNumOfSession)
      (hs : s' = { s with numOfSessionInWorkerThread := s.numOfSessionInWorkerThread + 1 })
      (hpc' : pc' = .makeNewSession .emplace)
  | emplace (hpc : pc = .makeNewSession .emplace)
      (hs : s' = { s with inSessionMap := true, published := true })
      (hpc' : pc' = .recvPost .rioReceive .makeNewSession)
  | onSessionEntered (hpc : pc = .makeNewSession .onSessionEntered)
      (hs : s' = { s with inSessionIdSet := true })
      (hpc' : pc' = .makeNewSession .incrementSessionCount)
  | incrementSessionCount (hpc : pc = .makeNewSession .incrementSessionCount)
      (hs : s' = { s with sessionCount := s.sessionCount + 1 }) (hpc' : pc' = .finished)
  | onSessionLeaved (caller : ReleaseCaller) (hpc : pc = .release .onSessionLeaved caller)
      (hs : s' = { s with inSessionIdSet := false })
      (hpc' : pc' = .release .releaseSession caller)
  | releaseSession (caller : ReleaseCaller)
      (hs : s' = { s with
        socket := false
        releases := s.releases + 1
        packetErrorReleased :=
          s.packetErrorReleased || caller matches .recvCompleted _ _ })
      (hpc : pc = .release .releaseSession caller)
      (hpc' : pc' = .release .decrementNumOfSession caller)
  | decrementNumOfSession (caller : ReleaseCaller)
      (hpc : pc = .release .decrementNumOfSession caller)
      (hs : s' = { s with numOfSessionInWorkerThread := s.numOfSessionInWorkerThread - 1 })
      (hpc' : pc' = .release .decrementSessionCount caller)
  | decrementSessionCount (caller : ReleaseCaller)
      (hpc : pc = .release .decrementSessionCount caller)
      (hs : s' = { s with sessionCount := s.sessionCount - 1 })
      (hpc' : pc' = .release .eraseSession caller)
  | eraseSession (caller : ReleaseCaller) (hpc : pc = .release .eraseSession caller)
      (hs : s' = { s with inSessionMap := false })
      (hpc' : pc' = .release .onSessionReleased caller)

theorem SameTables.refl : SameTables s s := ⟨rfl, rfl, rfl, rfl, rfl, rfl⟩

theorem SendPostCaller.stages_next (caller : SendPostCaller) (result : IoPostError) :
    (caller.next result).acceptStage = .none ∧ (caller.next result).leaveStage = .none := by
  cases caller <;> exact ⟨rfl, rfl⟩

/-- The accepter is on its way in while it runs its own `RecvPost`. -/
theorem RecvPostCaller.stages_next (p : RecvPostPc) (caller : RecvPostCaller)
    (result : IoPostError) :
    (caller.next result).acceptStage = (Pc.recvPost p caller).acceptStage ∧
      ((caller.next result).leaveStage = .none ∨ (caller.next result).leaveStage = .direct) := by
  rcases caller with _ | ⟨_, _ | _⟩
  · exact ⟨rfl, .inl rfl⟩
  · exact ⟨rfl, .inl rfl⟩
  · exact ⟨rfl, .inr rfl⟩

theorem ReleaseCaller.stages_next (p : ReleasePc) (caller : ReleaseCaller) :
    caller.next.acceptStage = (Pc.release p caller).acceptStage ∧
      caller.next.leaveStage = .none := by
  cases caller with
  | sendPost caller => exact caller.stages_next _
  | _ => exact ⟨rfl, rfl⟩

theorem execMakeNewSession_tables {p : MakeNewSessionPc}
    (h : execMakeNewSession o s p = (s', pc')) (hemplace : p = .emplace → o.ok = true)
    (hleave : p ≠ .leaveEmplace) : TablesEffect s (.makeNewSession p) s' pc' := by
  cases p with
  | incrementNumOfSession =>
    cases h
    exact .incrementNumOfSession rfl rfl rfl
  | emplace =>
    rw [execMakeNewSession, if_pos (hemplace rfl)] at h
    cases h
    exact .emplace rfl rfl rfl
  | leaveEmplace => exact absurd rfl hleave
  | onSessionEntered =>
    cases h
    exact .onSessionEntered rfl rfl rfl
  | incrementSessionCount =>
    cases h
    exact .incrementSessionCount rfl rfl rfl
  | closeEnteredSocket =>
    cases h
    exact .quiet ⟨rfl, rfl, rfl, rfl, rfl, rfl⟩ rfl (.inl rfl)
  | registerRecvBuffer | registerSendBuffer | createRequestQueue =>
    simp only [execMakeNewSession] at h
    split at h <;> cases h <;>
      exact .quiet ⟨rfl, rfl, rfl, rfl, rfl, rfl⟩ rfl (.inl rfl)

theorem execRelease_tables {p : ReleasePc} {caller : ReleaseCaller}
    (h : execRelease s caller p = some (s', pc')) :
    TablesEffect s (.release p caller) s' pc' := by
  cases p with
  | ioCountDecrement =>
    simp only [execRelease] at h
    split at h <;> cases h
    · refine .quiet ⟨rfl, rfl, rfl, rfl, rfl, rfl⟩ ?_ (.inl rfl)
      cases caller <;> rfl
    · obtain ⟨haccept, hleave⟩ := caller.stages_next .ioCountDecrement
      exact .quiet ⟨rfl, rfl, rfl, rfl, rfl, rfl⟩ haccept (.inl hleave)
  | onSessionLeaved =>
    cases h
    exact .onSessionLeaved caller rfl rfl rfl
  | releaseSession =>
    cases h
    exact .releaseSession caller rfl rfl rfl
  | decrementNumOfSession =>
    cases h
    exact .decrementNumOfSession caller rfl rfl rfl
  | decrementSessionCount =>
    cases h
    exact .decrementSessionCount caller rfl rfl rfl
  | eraseSession =>
    simp only [execRelease] at h
    split at h <;> cases h
    exact .eraseSession caller rfl rfl rfl
  | onSessionReleased =>
    cases h
    refine .quiet ⟨rfl, rfl, rfl, rfl, rfl, rfl⟩ ?_ (.inl rfl)
    cases caller <;> rfl
  | invalidateSocket =>
    cases h
    obtain ⟨haccept, hleave⟩ := caller.stages_next .invalidateSocket
    exact .quiet ⟨rfl, rfl, rfl, rfl, rfl, rfl⟩ haccept (.inl hleave)

/-- **One action** makes at most one step in the tables. -/
theorem exec_tables (h : exec spec pc o s = some (s', pc'))
    (hemplace : pc = .makeNewSession .emplace → o.ok = true)
    (hleave : pc ≠ .makeNewSession .leaveEmplace) : TablesEffect s pc s' pc' := by
  cases pc with
  | makeNewSession p =>
    exact execMakeNewSession_tables (Option.some.inj h) (fun hp => hemplace (hp ▸ rfl))
      fun hp => hleave (hp ▸ rfl)
  | sendPacket p isEncoded packet =>
    revert h
    simp only [exec]
    fun_cases execSendPacket spec s isEncoded packet p <;> rintro ⟨⟩ <;>
      exact .quiet ⟨rfl, rfl, rfl, rfl, rfl, rfl⟩ rfl (.inl rfl)
  | sendPost p caller =>
    revert h
    simp only [exec]
    fun_cases execSendPost o s caller p <;> rintro ⟨⟩ <;>
      first
        | exact .quiet ⟨rfl, rfl, rfl, rfl, rfl, rfl⟩ rfl (.inl rfl)
        | exact .quiet .refl (caller.stages_next _).1 (.inl (caller.stages_next _).2)
  | recvPost p caller =>
    have hnext := fun result => caller.stages_next p result
    cases p with
    | rioReceive =>
      simp only [exec, execRecvPost] at h
      split at h
      · cases h
      · split at h <;> cases h
        · refine .quiet ⟨rfl, rfl, rfl, rfl, rfl, rfl⟩ ?_ (.inl rfl)
          cases caller <;> rfl
        · exact .quiet ⟨rfl, rfl, rfl, rfl, rfl, rfl⟩ (hnext _).1
            ((hnext _).2.imp id fun hdirect => ⟨rfl, hdirect⟩)
    | incrementIoCount =>
      cases h
      exact .quiet ⟨rfl, rfl, rfl, rfl, rfl, rfl⟩ (hnext _).1
        ((hnext _).2.imp id fun hdirect => ⟨rfl, hdirect⟩)
  | release p caller => exact execRelease_tables h
  | worker p =>
    revert h
    simp only [exec]
    fun_cases execWorker spec s p <;> rintro ⟨⟩ <;>
      exact .quiet ⟨rfl, rfl, rfl, rfl, rfl, rfl⟩ rfl (.inl rfl)
  | finished => cases h

/-- An event leaves the tables alone, and its thread is at no stage. -/
theorem spawn_tables {e : Event} (h : spawn e s = some (s', pc)) :
    SameTables s s' ∧ pc.acceptStage = .none ∧ pc.leaveStage = .none := by
  cases e with
  | completion i bytes =>
    obtain ⟨context, -, -, -, rfl, rfl⟩ := spawn_completion h
    exact ⟨⟨rfl, rfl, rfl, rfl, rfl, rfl⟩, rfl, rfl⟩
  | _ =>
    obtain ⟨-, rfl, rfl⟩ := Option.ite_none_right_eq_some.mp h
    exact ⟨⟨rfl, rfl, rfl, rfl, rfl, rfl⟩, rfl, rfl⟩

/-! ## Runs in which `emplace` succeeds -/

/-- Threads on the way out, from `ReleaseSession`'s first decrement to the
erasure from `sessionMap`. -/
def Pc.removing (pc : Pc) : Nat :=
  pc.leaves .decrementNum + pc.leaves .decrementCount + pc.leaves .erasing

variable {H : Pc → State → List Pc → Prop} {l r ts : List Pc}

/-- Nobody has to wait for the map's lock. -/
theorem unlocked_of_run {c : Config State Pc}
    (h : (server spec).Run (RioTestServer.emplacing H) server.init c) :
    c.shared.sessionMapLocked = false := by
  refine Run.induct (I := fun s _ => s.sessionMapLocked = false) h rfl ?_ ?_
  · intro s l pc r o s' pc' _ hI hG hexec
    exact exec_lock hexec hG.2 hI
  · intro s ts e s' pc _ hI hspawn
    exact (spawn_published hspawn).2.2.1.trans hI

/-- The accepter of an unpublished session releases it under the lock it took. -/
theorem AccepterAt.locked_of_release {p : ReleasePc} {caller : ReleaseCaller}
    (h : AccepterAt s (.release p caller)) : s.sessionMapLocked = true := by
  cases caller with
  | emplaceFailed =>
    cases p with
    | ioCountDecrement => exact h.2.2
    | onSessionLeaved | releaseSession | decrementNumOfSession | decrementSessionCount
    | eraseSession => exact h.2
    | onSessionReleased | invalidateSocket => exact h.elim
  | _ => cases p <;> exact h.elim

/-- A session is released only after it was published. -/
theorem published_of_release {p : ReleasePc} {caller : ReleaseCaller}
    (h : (server spec).Run (RioTestServer.emplacing H) server.init ⟨s, ts⟩)
    (hpc : .release p caller ∈ ts) : s.published = true := by
  refine (publication h.anywhere).published_of_mem hpc fun hat => ?_
  have hunlock : s.sessionMapLocked = false := unlocked_of_run h
  rw [hat.locked_of_release] at hunlock
  cases hunlock

theorem published_of_entered
    (h : (server spec).Run (RioTestServer.emplacing H) server.init ⟨s, ts⟩)
    (hpc : .makeNewSession .onSessionEntered ∈ ts) : s.published = true :=
  (publication h.anywhere).published_of_mem hpc id

/-- The accepter never gets out of an `emplace` that fails. -/
theorem ne_leaveEmplace (h : (server spec).Run (RioTestServer.emplacing H) server.init ⟨s, ts⟩)
    (hpc : pc ∈ ts) : pc ≠ .makeNewSession .leaveEmplace := by
  rintro rfl
  have hpub := (publication h.anywhere).published_of_mem hpc id
  rw [(publication h.anywhere).unpublished_of_mem hpc rfl] at hpub
  cases hpub

/-- What an action of such a run does to the tables. -/
theorem run_tables
    (h : (server spec).Run (RioTestServer.emplacing H) server.init ⟨s, l ++ pc :: r⟩)
    (hG : RioTestServer.emplacing H pc o s (l ++ pc :: r))
    (hexec : exec spec pc o s = some (s', pc')) : TablesEffect s pc s' pc' :=
  exec_tables hexec hG.2 (ne_leaveEmplace h (by simp))

/-- A release does not change where its caller stands on the way in. -/
theorem accepts_release (p q : ReleasePc) (caller : ReleaseCaller) (stage : AcceptStage) :
    (Pc.release p caller).accepts stage = (Pc.release q caller).accepts stage := by
  cases caller <;> rfl

/-- A quiet action moves nobody in or out. -/
theorem leaves_of_quiet (h : pc'.leaveStage = pc.leaveStage ∨
      pc.leaveStage = .none ∧ pc'.leaveStage = .direct) {stage : LeaveStage}
    (hnone : stage ≠ .none) (hdirect : stage ≠ .direct) :
    pc'.leaves stage = pc.leaves stage := by
  rcases h with h | ⟨h, h'⟩
  · rw [Pc.leaves, Pc.leaves, h]
  · rw [Pc.leaves, Pc.leaves, h, h', if_neg hnone.symm, if_neg hdirect.symm]

theorem removing_of_quiet (h : pc'.leaveStage = pc.leaveStage ∨
      pc.leaveStage = .none ∧ pc'.leaveStage = .direct) : pc'.removing = pc.removing := by
  rw [Pc.removing, Pc.removing, leaves_of_quiet h (by decide) (by decide),
    leaves_of_quiet h (by decide) (by decide), leaves_of_quiet h (by decide) (by decide)]

theorem accepts_of_eq (h : pc'.acceptStage = pc.acceptStage) (stage : AcceptStage) :
    pc'.accepts stage = pc.accepts stage := by
  rw [Pc.accepts, Pc.accepts, h]

end RioServer
