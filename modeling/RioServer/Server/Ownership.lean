import RioServer.Server.Session

/-!
# Who acts when

Two facts about the threads of a session, along every run.

- Until `MakeNewSession` has put the session into `sessionMap`, the accepter is
  alone with it (`publication`). An insertion that fails never lets go of the
  map's lock: the accepter's own `IOCountDecrement` goes on to `ReleaseSession`,
  which waits for that lock.
- The worker handles one completion of the session at a time (`one_worker`).
-/

namespace RioServer

open Machine

variable {spec : NetBufferSpec} {o : Oracle} {s s' : State} {pc' : Pc}

/-! ## Before publication -/

/-- Where the accepter can be before the session is published, and what the
session looks like then. -/
def AccepterAt (s : State) : Pc → Prop
  | .makeNewSession .registerRecvBuffer | .makeNewSession .registerSendBuffer
  | .makeNewSession .createRequestQueue | .makeNewSession .incrementNumOfSession
  | .makeNewSession .emplace =>
    s.ioCount = 1 ∧ s.releases = 0 ∧ s.sessionMapLocked = false
  | .makeNewSession .closeEnteredSocket | .finished => s.releases = 0
  | .release .ioCountDecrement .emplaceFailed =>
    s.ioCount = 1 ∧ s.releases = 0 ∧ s.sessionMapLocked = true
  | .release .onSessionLeaved .emplaceFailed | .release .releaseSession .emplaceFailed =>
    s.releases = 0 ∧ s.sessionMapLocked = true
  | .release .decrementNumOfSession .emplaceFailed
  | .release .decrementSessionCount .emplaceFailed
  | .release .eraseSession .emplaceFailed => s.releases = 1 ∧ s.sessionMapLocked = true
  | _ => False

/-- The counters that only an accepter without a published session has. -/
def Pc.beforePublication : Pc → Bool
  | .makeNewSession .onSessionEntered | .makeNewSession .incrementSessionCount => false
  | .makeNewSession _ => true
  | .release _ .emplaceFailed | .release _ .makeNewSessionFailed => true
  | _ => false

/-- Nothing has happened to the session but what the accepter did. -/
structure Untouched (s : State) : Prop where
  outstanding : s.outstanding = []
  inSessionIdSet : s.inSessionIdSet = false
  packetErrorReleased : s.packetErrorReleased = false
  enqueued : s.enqueued = []

/-- Either the accepter is alone, or it has left the stages before publication
and the map's lock. -/
def Publication (s : State) (ts : List Pc) : Prop :=
  if s.published then s.sessionMapLocked = false ∧ ∀ pc ∈ ts, pc.beforePublication = false
  else Untouched s ∧ ∃ pc, ts = [pc] ∧ AccepterAt s pc

/-- An unpublished session has been released at most once. -/
theorem AccepterAt.releases_le {pc : Pc} (h : AccepterAt s pc) : s.releases ≤ 1 := by
  revert h
  fun_cases AccepterAt s pc <;> intro h <;>
    first | exact h.elim | omega

/-- What an action does to the session's entry in the map and to the map's lock. -/
inductive MapEffect (o : Oracle) (s : State) (pc : Pc) (s' : State) (pc' : Pc) : Prop where
  | same (published : s'.published = s.published) (inSessionMap : s'.inSessionMap = s.inSessionMap)
      (locked : s'.sessionMapLocked = s.sessionMapLocked)
  | emplace (hpc : pc = .makeNewSession .emplace)
      (hs : s' = { s with inSessionMap := true, published := true })
      (hpc' : pc' = .recvPost .rioReceive .makeNewSession)
  | emplaceFailed (hpc : pc = .makeNewSession .emplace) (failed : ¬ o.ok = true)
      (published : s'.published = s.published) (inSessionMap : s'.inSessionMap = s.inSessionMap)
  | leaveEmplace (published : s'.published = s.published)
      (inSessionMap : s'.inSessionMap = s.inSessionMap) (locked : s'.sessionMapLocked = false)
  | erase (published : s'.published = s.published) (inSessionMap : s'.inSessionMap = false)
      (locked : s'.sessionMapLocked = s.sessionMapLocked)

/-- Only `emplace` puts the session into the map, and only a failing one leaves
the lock taken. -/
theorem exec_map {pc : Pc} (h : exec spec pc o s = some (s', pc')) :
    MapEffect o s pc s' pc' := by
  revert h
  cases pc with
  | makeNewSession pc =>
    simp only [exec, Option.some.injEq]
    fun_cases execMakeNewSession o s pc <;> rintro ⟨⟩ <;>
      first
        | exact .same rfl rfl rfl
        | exact .emplace rfl rfl rfl
        | exact .emplaceFailed rfl ‹_› rfl rfl
        | exact .leaveEmplace rfl rfl rfl
  | sendPacket pc isEncoded packet =>
    simp only [exec]
    fun_cases execSendPacket spec s isEncoded packet pc <;> rintro ⟨⟩ <;> exact .same rfl rfl rfl
  | sendPost pc caller =>
    simp only [exec]
    fun_cases execSendPost o s caller pc <;> rintro ⟨⟩ <;> exact .same rfl rfl rfl
  | recvPost pc caller =>
    simp only [exec]
    fun_cases execRecvPost spec o s caller pc <;> rintro ⟨⟩ <;> exact .same rfl rfl rfl
  | release pc caller =>
    simp only [exec]
    fun_cases execRelease s caller pc <;> rintro ⟨⟩ <;>
      first | exact .same rfl rfl rfl | exact .erase rfl rfl rfl
  | worker pc =>
    simp only [exec]
    fun_cases execWorker spec s pc <;> rintro ⟨⟩ <;> exact .same rfl rfl rfl
  | finished => rintro ⟨⟩

/-- Only the insertion into the map publishes a session. -/
theorem exec_publishes {pc : Pc} (h : exec spec pc o s = some (s', pc'))
    (hpub : s'.published = true) :
    s.published = true ∨ (pc = .makeNewSession .emplace ∧
      s' = { s with inSessionMap := true, published := true } ∧
      pc' = .recvPost .rioReceive .makeNewSession) := by
  cases exec_map h with
  | emplace hpc hs hpc' => exact .inr ⟨hpc, hs, hpc'⟩
  | same published | emplaceFailed _ _ published | leaveEmplace published | erase published =>
    exact .inl (published ▸ hpub)

@[simp] theorem SendPostCaller.next_beforePublication (caller : SendPostCaller)
    (result : IoPostError) : (caller.next result).beforePublication = false := by
  cases caller <;> rfl

@[simp] theorem RecvPostCaller.next_beforePublication (caller : RecvPostCaller)
    (result : IoPostError) : (caller.next result).beforePublication = false := by
  rcases caller with _ | ⟨_, _ | _⟩ <;> rfl

theorem Publication.of_published {ts : List Pc} (h : Publication s ts)
    (hpub : s.published = true) : ∀ pc ∈ ts, pc.beforePublication = false := by
  rw [Publication, if_pos hpub] at h
  exact h.2

theorem Publication.of_unpublished {ts : List Pc} (h : Publication s ts)
    (hpub : s.published = false) : Untouched s ∧ ∃ pc, ts = [pc] ∧ AccepterAt s pc := by
  rw [Publication, if_neg (by rw [hpub]; exact Bool.false_ne_true)] at h
  exact h

/-- Whoever is not the lone accepter is with a published session. -/
theorem Publication.published_of_mem {ts : List Pc} {pc : Pc} (h : Publication s ts)
    (hpc : pc ∈ ts) (hat : ¬ AccepterAt s pc) : s.published = true := by
  by_contra hnot
  obtain ⟨-, q, rfl, hq⟩ := h.of_unpublished (Bool.eq_false_iff.mpr hnot)
  rw [List.mem_singleton.mp hpc] at hat
  exact hat hq

/-- A stage before publication is one of an unpublished session. -/
theorem Publication.unpublished_of_mem {ts : List Pc} {pc : Pc} (h : Publication s ts)
    (hpc : pc ∈ ts) (hbefore : pc.beforePublication = true) : s.published = false := by
  by_contra hnot
  have hafter := h.of_published (Bool.eq_true_of_not_eq_false hnot) pc hpc
  rw [hbefore] at hafter
  cases hafter

/-- The insertion into the map is the accepter's, alone with the session. -/
theorem Publication.of_emplace {pc : Pc} {l r : List Pc} (h : Publication s (l ++ pc :: r))
    (hpc : pc = .makeNewSession .emplace ∧
      s' = { s with inSessionMap := true, published := true } ∧
      pc' = .recvPost .rioReceive .makeNewSession) :
    l = [] ∧ r = [] ∧ s.releases = 0 ∧ Untouched s ∧
      s' = { s with inSessionMap := true, published := true } ∧
      pc' = .recvPost .rioReceive .makeNewSession := by
  obtain ⟨rfl, rfl, rfl⟩ := hpc
  have hunpublished := h.unpublished_of_mem (List.mem_append_right l List.mem_cons_self) rfl
  obtain ⟨hs, q, hq, hat⟩ := h.of_unpublished hunpublished
  obtain ⟨rfl, rfl, rfl⟩ : l = [] ∧ .makeNewSession .emplace = q ∧ r = [] := by
    cases l <;> simp_all
  exact ⟨rfl, rfl, hat.2.1, hs, rfl, rfl⟩

/-- Alone with the session, the accepter either goes on to the next stage or
publishes it. -/
theorem accepter_step {pc : Pc} (hs : Untouched s) (hpub : s.published = false)
    (hat : AccepterAt s pc) (h : exec spec pc o s = some (s', pc')) :
    Publication s' [pc'] := by
  obtain ⟨hout, hid, herr, henq⟩ := hs
  have alone : ∀ {t : State} {q : Pc}, t.published = false → Untouched t → AccepterAt t q →
      Publication t [q] := by
    intro t q htpub ht hq
    rw [Publication, if_neg (by rw [htpub]; exact Bool.false_ne_true)]
    exact ⟨ht, q, rfl, hq⟩
  cases pc with
  | makeNewSession pc =>
    have h := Option.some.inj h
    cases pc with
    | emplace =>
      simp only [execMakeNewSession] at h
      split at h <;> cases h
      · -- `emplace` succeeds: the session is in the map for everybody
        exact ⟨hat.2.2, by simp [Pc.beforePublication]⟩
      · exact alone hpub ⟨hout, hid, herr, henq⟩ ⟨hat.1, hat.2.1, rfl⟩
    | incrementNumOfSession =>
      cases h
      exact alone hpub ⟨hout, hid, herr, henq⟩ hat
    | closeEnteredSocket =>
      cases h
      exact alone hpub ⟨hout, hid, herr, henq⟩ hat
    | leaveEmplace | onSessionEntered | incrementSessionCount => exact hat.elim
    | _ =>
      simp only [execMakeNewSession] at h
      split at h <;> cases h
      · exact alone hpub ⟨hout, hid, herr, henq⟩ hat
      · exact alone hpub ⟨hout, hid, herr, henq⟩ hat.2.1
  | release pc caller =>
    cases caller with
    | emplaceFailed =>
      -- the failed `emplace` releases the session under the lock it took
      cases pc with
      | ioCountDecrement =>
        simp only [exec, execRelease] at h
        rw [if_pos (by rw [hat.1]; rfl)] at h
        cases h
        exact alone hpub ⟨hout, hid, herr, henq⟩ hat.2
      | onSessionLeaved =>
        cases h
        exact alone hpub ⟨hout, rfl, herr, henq⟩ hat
      | releaseSession =>
        cases h
        refine alone hpub ⟨hout, hid, ?_, henq⟩ ⟨?_, hat.2⟩
        · simpa using herr
        · show s.releases + 1 = 1
          rw [hat.1]
      | decrementNumOfSession | decrementSessionCount =>
        cases h
        exact alone hpub ⟨hout, hid, herr, henq⟩ hat
      | eraseSession =>
        -- the accepter waits for the lock it holds
        simp only [exec, execRelease, if_pos hat.2] at h
        cases h
      | onSessionReleased | invalidateSocket => exact hat.elim
    | _ => cases pc <;> exact hat.elim
  | finished => cases h
  | _ => exact hat.elim

/-- Once published, a session stays so, and the accepter has no way back. -/
theorem exec_published {pc : Pc} (hpub : s.published = true)
    (hlock : s.sessionMapLocked = false) (hpc : pc.beforePublication = false)
    (h : exec spec pc o s = some (s', pc')) :
    s'.published = true ∧ s'.sessionMapLocked = false ∧ pc'.beforePublication = false := by
  cases pc with
  | makeNewSession pc =>
    cases pc with
    | onSessionEntered | incrementSessionCount =>
      cases h
      exact ⟨hpub, hlock, rfl⟩
    | _ => cases hpc
  | sendPacket pc isEncoded packet =>
    revert h
    simp only [exec]
    fun_cases execSendPacket spec s isEncoded packet pc <;> rintro ⟨⟩ <;>
      exact ⟨hpub, hlock, rfl⟩
  | sendPost pc caller =>
    revert h
    simp only [exec]
    fun_cases execSendPost o s caller pc <;> rintro ⟨⟩ <;>
      first | exact ⟨hpub, hlock, rfl⟩ | exact ⟨hpub, hlock, caller.next_beforePublication _⟩
  | recvPost pc caller =>
    revert h
    simp only [exec]
    fun_cases execRecvPost spec o s caller pc <;> rintro ⟨⟩ <;>
      first | exact ⟨hpub, hlock, rfl⟩ | exact ⟨hpub, hlock, caller.next_beforePublication _⟩
  | release pc caller =>
    have hnext : caller.next.beforePublication = false := by
      cases caller <;> first | rfl | exact SendPostCaller.next_beforePublication _ _ | cases hpc
    have hrel : ∀ q, (Pc.release q caller).beforePublication = false := by
      intro q
      cases caller <;> first | rfl | cases hpc
    revert h
    simp only [exec]
    fun_cases execRelease s caller pc <;> rintro ⟨⟩ <;>
      first | exact ⟨hpub, hlock, hnext⟩ | exact ⟨hpub, hlock, hrel _⟩
  | worker pc =>
    revert h
    simp only [exec]
    fun_cases execWorker spec s pc <;> rintro ⟨⟩ <;> exact ⟨hpub, hlock, rfl⟩
  | finished => cases h

/-- Nothing starts around a session that is not published. -/
theorem spawn_published {e : Event} {pc : Pc} (h : spawn e s = some (s', pc)) :
    (s.published = true ∨ s.inSessionIdSet = true ∨ s.outstanding ≠ []) ∧
      s'.published = s.published ∧ s'.sessionMapLocked = s.sessionMapLocked ∧
      pc.beforePublication = false := by
  cases e with
  | completion i bytes =>
    obtain ⟨context, -, hi, -, rfl, rfl⟩ := spawn_completion h
    refine ⟨.inr (.inr ?_), rfl, rfl, rfl⟩
    rintro hnil
    rw [hnil] at hi
    cases hi
  | sendPacket isEncoded bytes | sendPacketAndDisconnect isEncoded bytes =>
    obtain ⟨hpub, rfl, rfl⟩ := Option.ite_none_right_eq_some.mp h
    exact ⟨.inl hpub, rfl, rfl, rfl⟩
  | broadcastToAllSession isEncoded bytes =>
    obtain ⟨hid, rfl, rfl⟩ := Option.ite_none_right_eq_some.mp h
    exact ⟨.inr (.inl hid), rfl, rfl, rfl⟩

/-- **Alone until publication**, along every run. -/
theorem publication {c : Config State Pc} (h : (server spec).Reachable server.init c) :
    Publication c.shared c.threads := by
  refine Run.induct h ?_ ?_ ?_
  · exact ⟨⟨rfl, rfl, rfl, rfl⟩, _, rfl, rfl, rfl, rfl⟩
  · intro s l pc r o s' pc' _ hI _ hexec
    cases hpub : s.published with
    | true =>
      rw [Publication, if_pos hpub] at hI
      obtain ⟨hlock, hpcs⟩ := hI
      obtain ⟨hl, hpc, hr⟩ := forall_mem_place.mp hpcs
      obtain ⟨hpub', hlock', hpc'⟩ := exec_published hpub hlock hpc hexec
      rw [Publication, if_pos hpub']
      exact ⟨hlock', forall_mem_place.mpr ⟨hl, hpc', hr⟩⟩
    | false =>
      rw [Publication, if_neg (by rw [hpub]; exact Bool.false_ne_true)] at hI
      obtain ⟨hs, q, hq, hat⟩ := hI
      -- the accepter is the only thread there is
      obtain ⟨rfl, rfl, rfl⟩ : l = [] ∧ pc = q ∧ r = [] := by
        cases l <;> simp_all
      exact accepter_step hs hpub hat hexec
  · intro s ts e s' pc _ hI hspawn
    obtain ⟨hwhy, hpub', hlock', hpc⟩ := spawn_published hspawn
    cases hpub : s.published with
    | true =>
      rw [Publication, if_pos hpub] at hI
      rw [Publication, if_pos (hpub'.trans hpub)]
      exact ⟨hlock'.trans hI.1, forall_mem_spawned.mpr ⟨hI.2, hpc⟩⟩
    | false =>
      -- an event needs a published session, an id or a request, and there is none
      rw [Publication, if_neg (by rw [hpub]; exact Bool.false_ne_true)] at hI
      obtain ⟨hs, -⟩ := hI
      rw [hpub, hs.inSessionIdSet] at hwhy
      rcases hwhy with hwhy | hwhy | hwhy
      · cases hwhy
      · cases hwhy
      · exact absurd hs.outstanding hwhy

/-! ## One completion at a time -/

def SendPostCaller.handles : SendPostCaller → Nat
  | .sendPacket => 0
  | .sendCompleted _ => 1

def RecvPostCaller.handles : RecvPostCaller → Nat
  | .makeNewSession => 0
  | .recvCompleted _ _ => 1

def ReleaseCaller.handles : ReleaseCaller → Nat
  | .sendPost caller => caller.handles
  | .worker | .recvCompleted _ _ | .invalidIoCompleted _ => 1
  | .makeNewSession | .emplaceFailed | .makeNewSessionFailed => 0

/-- One for the counters of a worker that handles a completion. -/
def Pc.handles : Pc → Nat
  | .sendPost _ caller => caller.handles
  | .recvPost _ caller => caller.handles
  | .release _ caller => caller.handles
  | .worker _ => 1
  | .makeNewSession _ | .sendPacket _ _ _ | .finished => 0

theorem SendPostCaller.handles_next (caller : SendPostCaller) (result : IoPostError) :
    (caller.next result).handles = caller.handles := by
  cases caller <;> rfl

theorem RecvPostCaller.handles_next (caller : RecvPostCaller) (result : IoPostError) :
    (caller.next result).handles = caller.handles := by
  rcases caller with _ | ⟨_, _ | _⟩ <;> rfl

theorem ReleaseCaller.handles_next (caller : ReleaseCaller) :
    caller.next.handles = caller.handles := by
  cases caller with
  | sendPost caller => exact caller.handles_next _
  | _ => rfl

/-- A thread handles a completion until `endCompletion`. -/
theorem exec_handles {pc : Pc} (h : exec spec pc o s = some (s', pc')) :
    (s'.workerBusy = s.workerBusy ∧ pc'.handles = pc.handles) ∨
      (s'.workerBusy = false ∧ pc.handles = 1 ∧ pc'.handles = 0) := by
  cases pc with
  | makeNewSession pc =>
    revert h
    simp only [exec, Option.some.injEq]
    fun_cases execMakeNewSession o s pc <;> rintro ⟨⟩ <;> exact .inl ⟨rfl, rfl⟩
  | sendPacket pc isEncoded packet =>
    revert h
    simp only [exec]
    fun_cases execSendPacket spec s isEncoded packet pc <;> rintro ⟨⟩ <;>
      exact .inl ⟨rfl, rfl⟩
  | sendPost pc caller =>
    revert h
    simp only [exec]
    fun_cases execSendPost o s caller pc <;> rintro ⟨⟩ <;>
      first | exact .inl ⟨rfl, rfl⟩ | exact .inl ⟨rfl, caller.handles_next _⟩
  | recvPost pc caller =>
    revert h
    simp only [exec]
    fun_cases execRecvPost spec o s caller pc <;> rintro ⟨⟩ <;>
      first | exact .inl ⟨rfl, rfl⟩ | exact .inl ⟨rfl, caller.handles_next _⟩
  | release pc caller =>
    revert h
    simp only [exec]
    fun_cases execRelease s caller pc <;> rintro ⟨⟩ <;>
      first | exact .inl ⟨rfl, rfl⟩ | exact .inl ⟨rfl, caller.handles_next⟩
  | worker pc =>
    revert h
    simp only [exec]
    fun_cases execWorker spec s pc <;> rintro ⟨⟩ <;>
      first | exact .inl ⟨rfl, rfl⟩ | exact .inr ⟨rfl, rfl, rfl⟩
  | finished => cases h

/-- **One worker**, along every run. -/
theorem one_worker {c : Config State Pc} (h : (server spec).Reachable server.init c) :
    load Pc.handles c.threads = if c.shared.workerBusy then 1 else 0 := by
  refine Run.induct (I := fun s ts => load Pc.handles ts = if s.workerBusy then 1 else 0)
    h rfl ?_ ?_
  · intro s l pc r o s' pc' _ hI _ hexec
    simp only [load_append, load_cons] at hI ⊢
    rcases exec_handles hexec with ⟨hbusy, hpc⟩ | ⟨hbusy, hpc, hpc'⟩
    · rw [hbusy, hpc]
      exact hI
    · rw [hpc] at hI
      rw [hbusy, hpc', if_neg Bool.false_ne_true]
      split at hI <;> omega
  · intro s ts e s' pc _ hI hspawn
    simp only [load_append, load_cons, load_nil]
    cases e with
    | completion i bytes =>
      obtain ⟨context, hbusy, -, -, rfl, rfl⟩ := spawn_completion hspawn
      rw [hbusy, if_neg Bool.false_ne_true] at hI
      rw [hI]
      rfl
    | _ =>
      obtain ⟨-, rfl, rfl⟩ := Option.ite_none_right_eq_some.mp hspawn
      exact hI

/-- Two places cannot both be a worker's. -/
theorem handles_add_le {l r : List Pc} {pc : Pc}
    (h : (server spec).Reachable server.init ⟨s, l ++ pc :: r⟩) :
    pc.handles + load Pc.handles (l ++ r) ≤ 1 := by
  have hone := one_worker h
  simp only [load_append, load_cons] at hone ⊢
  split at hone <;> omega

end RioServer
