import RioServer.Server.IoCount
import RioServer.Server.Ownership

/-!
# How often `ReleaseSession` is entered

`ReleaseSession` has two doors: `IOCountDecrement` that reaches zero, and
`RecvCompleted` after a packet error. Three things make a session go through
them twice:

- `RecvPost` raises `ioCount` only after `RIOReceive`, so the count can reach
  zero in between, and again after the increment;
- `SendPost` raises a count that has already reached zero;
- after a packet error `RecvCompleted` returns the result of its `RecvPost`,
  never `IS_DELETED_SESSION`, so the worker's `IOCountDecrement` follows the
  release and may reach zero.

`ReleaseGuard` excludes these actions and nothing else, and `releases_le_one`
shows that without them a session is released at most once. The invariant is
`Phase`: nothing released, released by the count, or released for an error.
-/

namespace RioServer

open Machine

variable {spec : NetBufferSpec} {o : Oracle} {s s' : State} {pc pc' : Pc} {l r : List Pc}

/-! ## Where a thread stands with respect to the release -/

inductive ReleaseStage where
  | none
  | leaving
  | leavingError
  | erasing
  | receiving
  | lending (byWorker : Bool)
  deriving DecidableEq

/-- `leaving` is in front of `ReleaseSession`, `leavingError` the same for a
packet error, which goes on as `erasing` until the map entry is gone; a worker
is `receiving` from the lookup of the session up to `RIOReceive`; a thread that
posted a receive is `lending` its reference to it. -/
def Pc.stage : Pc → ReleaseStage
  | .release .onSessionLeaved (.recvCompleted _ _)
  | .release .releaseSession (.recvCompleted _ _) => .leavingError
  | .release .onSessionLeaved _ | .release .releaseSession _ => .leaving
  | .release .decrementNumOfSession (.recvCompleted _ _)
  | .release .decrementSessionCount (.recvCompleted _ _)
  | .release .eraseSession (.recvCompleted _ _) => .erasing
  | .worker (.testTransferred _ _) | .worker (.recvCompleted _ _)
  | .recvPost .rioReceive (.recvCompleted _ _) => .receiving
  | .recvPost .incrementIoCount .makeNewSession => .lending false
  | .recvPost .incrementIoCount (.recvCompleted _ _) => .lending true
  | _ => .none

/-- In front of `ReleaseSession`. -/
def Pc.leaving (pc : Pc) : Nat :=
  match pc.stage with
  | .leaving | .leavingError => 1
  | _ => 0

def Pc.leavingError (pc : Pc) : Nat :=
  match pc.stage with
  | .leavingError => 1
  | _ => 0

/-- Releasing for a packet error, the map entry still there. -/
def Pc.erasing (pc : Pc) : Nat :=
  match pc.stage with
  | .leavingError | .erasing => 1
  | _ => 0

/-- Handling a completion that may end in a packet error. -/
def Pc.receiving (pc : Pc) : Nat :=
  match pc.stage with
  | .receiving | .lending true => 1
  | _ => 0

/-- Between `RIOReceive` and the increment. -/
def Pc.lending (pc : Pc) : Nat :=
  match pc.stage with
  | .lending _ => 1
  | _ => 0

/-- **The exception**: an `IOCountDecrement` reaches zero only if no
`RecvPost` is between its `RIOReceive` and its increment and no packet error
has released the session, and no `SendPost` raises a zero. -/
def ReleaseGuard : Guard State Pc Oracle := fun pc _ s ts =>
  match pc with
  | .release .ioCountDecrement _ =>
    s.ioCount = 1 → load Pc.lending ts = 0 ∧ s.packetErrorReleased = false
  | .sendPost (.incrementIoCount _) _ => s.ioCount ≠ 0
  | _ => True

instance (pc : Pc) (o : Oracle) (s : State) (ts : List Pc) :
    Decidable (ReleaseGuard pc o s ts) :=
  decidable_of_iff
    ((match pc with
      | .release .ioCountDecrement _ =>
        decide (s.ioCount = 1 → load Pc.lending ts = 0 ∧ s.packetErrorReleased = false)
      | .sendPost (.incrementIoCount _) _ => decide (s.ioCount ≠ 0)
      | _ => true) = true)
    (by unfold ReleaseGuard; split <;> simp [imp_iff_not_or])

/-! ## The invariant -/

/-- Nothing released: no thread is in front of `ReleaseSession`. -/
structure Unreleased (s : State) (ts : List Pc) : Prop where
  releases : s.releases = 0
  packetError : s.packetErrorReleased = false
  leaving : load Pc.leaving ts = 0

/-- The count has reached zero, and stays there. -/
structure CountReleased (s : State) (ts : List Pc) : Prop where
  ioCount : s.ioCount = 0
  once : s.releases + load Pc.leaving ts = 1
  lending : load Pc.lending ts = 0

/-- A packet error releases the session; the worker finds it no more. -/
structure ErrorReleased (s : State) (ts : List Pc) : Prop where
  once : s.releases + load Pc.leaving ts = 1
  packetError : s.packetErrorReleased = true ∨ 1 ≤ load Pc.leavingError ts
  receiving : load Pc.receiving ts = 0
  erased : s.inSessionMap = false ∨ 1 ≤ load Pc.erasing ts

/-- The phases of a published session. -/
inductive Phase (s : State) (ts : List Pc) : Prop where
  | unreleased (h : Unreleased s ts)
  | countReleased (h : CountReleased s ts)
  | errorReleased (h : ErrorReleased s ts)

/-- Every phase has at most one release. -/
theorem Phase.releases_le {ts : List Pc} (h : Phase s ts) : s.releases ≤ 1 := by
  cases h with
  | unreleased h =>
    rw [h.releases]
    exact Nat.zero_le 1
  | countReleased h =>
    have := h.once
    omega
  | errorReleased h =>
    have := h.once
    omega

/-- An action that has nothing to do with the release. -/
structure Quiet (s : State) (pc : Pc) (s' : State) (pc' : Pc) : Prop where
  ioCount : s'.ioCount = s.ioCount
  releases : s'.releases = s.releases
  packetError : s'.packetErrorReleased = s.packetErrorReleased
  inSessionMap : s'.inSessionMap = s.inSessionMap
  stage : pc'.stage = pc.stage ∨ (pc.stage = .receiving ∧ pc'.stage = .none)

theorem Quiet.leaving (h : Quiet s pc s' pc') : pc'.leaving = pc.leaving := by
  rcases h.stage with h | ⟨h, h'⟩
  · rw [Pc.leaving, Pc.leaving, h]
  · rw [Pc.leaving, Pc.leaving, h, h']

theorem Quiet.leavingError (h : Quiet s pc s' pc') : pc'.leavingError = pc.leavingError := by
  rcases h.stage with h | ⟨h, h'⟩
  · rw [Pc.leavingError, Pc.leavingError, h]
  · rw [Pc.leavingError, Pc.leavingError, h, h']

theorem Quiet.erasing (h : Quiet s pc s' pc') : pc'.erasing = pc.erasing := by
  rcases h.stage with h | ⟨h, h'⟩
  · rw [Pc.erasing, Pc.erasing, h]
  · rw [Pc.erasing, Pc.erasing, h, h']

theorem Quiet.lending (h : Quiet s pc s' pc') : pc'.lending = pc.lending := by
  rcases h.stage with h | ⟨h, h'⟩
  · rw [Pc.lending, Pc.lending, h]
  · rw [Pc.lending, Pc.lending, h, h']

theorem Quiet.receiving (h : Quiet s pc s' pc') : pc'.receiving ≤ pc.receiving := by
  rcases h.stage with h | ⟨-, h'⟩
  · rw [Pc.receiving, Pc.receiving, h]
  · rw [Pc.receiving, h']
    exact Nat.zero_le _

/-- Quiet actions stay in the phase. -/
theorem Phase.quiet (hI : Phase s (l ++ pc :: r)) (h : Quiet s pc s' pc') :
    Phase s' (l ++ pc' :: r) := by
  have hleaving := h.leaving
  have hreceiving := h.receiving
  cases hI with
  | unreleased hI =>
    refine .unreleased ⟨h.releases.trans hI.releases, h.packetError.trans hI.packetError, ?_⟩
    have := hI.leaving
    simp only [load_append, load_cons] at this ⊢
    omega
  | countReleased hI =>
    refine .countReleased ⟨h.ioCount.trans hI.ioCount, ?_, ?_⟩
    · have := hI.once
      rw [h.releases]
      simp only [load_append, load_cons] at this ⊢
      omega
    · have := hI.lending
      simp only [load_append, load_cons, h.lending] at this ⊢
      omega
  | errorReleased hI =>
    refine .errorReleased ⟨?_, ?_, ?_, ?_⟩
    · have := hI.once
      rw [h.releases]
      simp only [load_append, load_cons] at this ⊢
      omega
    · have := hI.packetError
      simp only [load_append, load_cons, h.leavingError, h.packetError] at this ⊢
      exact this
    · have := hI.receiving
      simp only [load_append, load_cons] at this ⊢
      omega
    · have := hI.erased
      simp only [load_append, load_cons, h.erasing, h.inSessionMap] at this ⊢
      exact this

/-! ## One action -/

/-- Once the count has reached zero, no thread holds a reference. -/
theorem CountReleased.holds_eq_zero {ts : List Pc} (hI : CountReleased s ts)
    (hcount : Counted s ts) {q : Pc} (hq : q ∈ ts) : q.holds = 0 := by
  have hle := le_load_of_mem (f := Pc.holds) hq
  have hzero := hI.ioCount
  simp only [Counted] at hcount
  omega

@[simp] theorem SendPostCaller.next_stage (caller : SendPostCaller) (result : IoPostError) :
    (caller.next result).stage = .none := by
  cases caller <;> rfl

@[simp] theorem ReleaseCaller.next_stage (caller : ReleaseCaller) :
    caller.next.stage = .none := by
  cases caller with
  | sendPost caller => exact caller.next_stage _
  | _ => rfl

theorem erasing_le_handles (pc : Pc) : pc.erasing ≤ pc.handles := by
  unfold Pc.erasing
  fun_cases Pc.stage pc <;> simp [Pc.handles, ReleaseCaller.handles]

theorem receiving_le_handles (pc : Pc) : pc.receiving ≤ pc.handles := by
  unfold Pc.receiving
  fun_cases Pc.stage pc <;> simp [Pc.handles, RecvPostCaller.handles]

theorem leavingError_le_holds (pc : Pc) : pc.leavingError ≤ pc.holds := by
  unfold Pc.leavingError
  fun_cases Pc.stage pc <;> simp [ReleasePc.holds, ReleaseCaller.holds]

/-- What may change in a phase that counts nothing: only `CountReleased` minds
the count, and only `ErrorReleased` minds a new receiver. -/
theorem Phase.congr (hI : Phase s (l ++ pc :: r))
    (hreleases : s'.releases = s.releases)
    (hpacket : s'.packetErrorReleased = s.packetErrorReleased)
    (hmap : s'.inSessionMap = s.inSessionMap)
    (hleaving : pc'.leaving = pc.leaving) (hleavingError : pc'.leavingError = pc.leavingError)
    (herasing : pc'.erasing = pc.erasing)
    (hreceiving : ErrorReleased s (l ++ pc :: r) → pc'.receiving = 0)
    (hcount : ¬ CountReleased s (l ++ pc :: r)) : Phase s' (l ++ pc' :: r) := by
  cases hI with
  | unreleased hI =>
    refine .unreleased ⟨hreleases.trans hI.releases, hpacket.trans hI.packetError, ?_⟩
    have := hI.leaving
    simp only [load_append, load_cons, hleaving] at this ⊢
    exact this
  | countReleased hI => exact absurd hI hcount
  | errorReleased hI =>
    have honce := hI.once
    have herr := hI.packetError
    have hrec := hI.receiving
    have hera := hI.erased
    have hnew := hreceiving hI
    simp only [load_append, load_cons] at honce herr hrec hera
    refine .errorReleased ⟨?_, ?_, ?_, ?_⟩ <;> simp only [load_append, load_cons]
    · omega
    · rw [hpacket, hleavingError]
      exact herr
    · omega
    · rw [hmap, herasing]
      exact hera

/-- A thread that holds a reference acts before the count is zero. -/
theorem not_countReleased (hcount : Counted s (l ++ pc :: r)) (hpc : pc.holds ≠ 0) :
    ¬ CountReleased s (l ++ pc :: r) :=
  fun hI => hpc (hI.holds_eq_zero hcount (by simp))

theorem execSendPost_quiet {pc : SendPostPc} {caller : SendPostCaller}
    (hpc : ∀ context, pc ≠ .incrementIoCount context)
    (h : execSendPost o s caller pc = some (s', pc')) : Quiet s (.sendPost pc caller) s' pc' := by
  revert h
  fun_cases execSendPost o s caller pc <;> rintro ⟨⟩ <;>
    first
    | exact ⟨rfl, rfl, rfl, rfl, .inl rfl⟩
    | exact ⟨rfl, rfl, rfl, rfl, .inl (caller.next_stage _)⟩
    | exact absurd rfl (hpc _)

/-- `SendPost` raises the count; only a count of zero would mind. -/
theorem execSendPost_phase {pc : SendPostPc} {caller : SendPostCaller}
    (hG : ReleaseGuard (.sendPost pc caller) o s (l ++ .sendPost pc caller :: r))
    (hI : Phase s (l ++ .sendPost pc caller :: r))
    (h : execSendPost o s caller pc = some (s', pc')) : Phase s' (l ++ pc' :: r) := by
  cases pc with
  | incrementIoCount context =>
    cases h
    exact hI.congr rfl rfl rfl rfl rfl rfl (fun _ => rfl) fun hzero => hG hzero.ioCount
  | _ => exact hI.quiet (execSendPost_quiet (by simp) h)

/-- A receive is posted for someone who holds a reference. A failed one is the
worker's way to `ReleaseSession` after a packet error. -/
theorem execRecvPost_phase {pc : RecvPostPc} {caller : RecvPostCaller}
    (hreach : (server spec).Reachable server.init ⟨s, l ++ .recvPost pc caller :: r⟩)
    (hI : Phase s (l ++ .recvPost pc caller :: r))
    (h : execRecvPost spec o s caller pc = some (s', pc')) : Phase s' (l ++ pc' :: r) := by
  have hcount := ioCount_ge hreach
  have hworker := handles_add_le hreach
  have hzero : ¬ CountReleased s (l ++ .recvPost pc caller :: r) := by
    cases pc with
    | rioReceive => exact not_countReleased hcount (by simp [RecvPostPc.holds])
    | incrementIoCount =>
      intro hI
      have := hI.lending
      have hpos : (Pc.recvPost .incrementIoCount caller).lending = 1 := by cases caller <;> rfl
      simp only [load_append, load_cons] at this
      omega
  have hnone : ∀ context err,
      caller = .recvCompleted context err → ¬ ErrorReleased s (l ++ .recvPost pc caller :: r) := by
    rintro context err rfl hI
    have := hI.receiving
    have hpos : (Pc.recvPost pc (.recvCompleted context err)).receiving = 1 := by cases pc <;> rfl
    simp only [load_append, load_cons] at this
    omega
  -- the worker at the end of `RecvPost`, with or without a packet error
  have hend : ∀ context err result, caller = .recvCompleted context err →
      s'.releases = s.releases → s'.packetErrorReleased = s.packetErrorReleased →
      s'.inSessionMap = s.inSessionMap → pc' = caller.next result → Phase s' (l ++ pc' :: r) := by
    rintro context err result rfl hrel hpacket hmap rfl
    have hnot := hnone context err rfl
    cases err with
    | false =>
      refine hI.congr hrel hpacket hmap ?_ ?_ ?_ (fun _ => rfl) hzero <;> cases pc <;> rfl
    | true =>
      cases hI with
      | unreleased hI =>
        have hleaving := hI.leaving
        -- a packet error on an unreleased session: this worker will release it,
        -- and there is no other worker
        have hother : load Pc.receiving (l ++ r) = 0 := by
          have := load_mono receiving_le_handles (l ++ r)
          have hself : (Pc.recvPost pc (.recvCompleted context true)).handles = 1 := rfl
          omega
        simp only [load_append, load_cons] at hleaving hother
        refine .errorReleased ⟨?_, .inr ?_, ?_, .inr ?_⟩ <;> simp only [load_append, load_cons]
        · rw [hrel, hI.releases]
          show 0 + (load Pc.leaving l + (1 + load Pc.leaving r)) = 1
          omega
        · show 1 ≤ load Pc.leavingError l + (1 + load Pc.leavingError r)
          omega
        · show load Pc.receiving l + (0 + load Pc.receiving r) = 0
          omega
        · show 1 ≤ load Pc.erasing l + (1 + load Pc.erasing r)
          omega
      | countReleased hI => exact absurd hI hzero
      | errorReleased hI => exact absurd hI hnot
  cases pc with
  | rioReceive =>
    simp only [execRecvPost] at h
    split at h
    · cases h
    · split at h <;> cases h
      · cases caller with
        | makeNewSession => exact hI.congr rfl rfl rfl rfl rfl rfl (fun _ => rfl) hzero
        | recvCompleted context err =>
          exact hI.congr rfl rfl rfl rfl rfl rfl (fun he => absurd he (hnone _ _ rfl)) hzero
      · cases caller with
        | makeNewSession => exact hI.congr rfl rfl rfl rfl rfl rfl (fun _ => rfl) hzero
        | recvCompleted context err => exact hend context err _ rfl rfl rfl rfl rfl
  | incrementIoCount =>
    cases h
    cases caller with
    | makeNewSession => exact hI.congr rfl rfl rfl rfl rfl rfl (fun _ => rfl) hzero
    | recvCompleted context err => exact hend context err _ rfl rfl rfl rfl rfl

/-- The decrement that reaches zero is the count's way to `ReleaseSession`. -/
theorem ioCountDecrement_phase {caller : ReleaseCaller}
    (hreach : (server spec).Reachable server.init ⟨s, l ++ .release .ioCountDecrement caller :: r⟩)
    (hG : ReleaseGuard (.release .ioCountDecrement caller) o s
      (l ++ .release .ioCountDecrement caller :: r))
    (hI : Phase s (l ++ .release .ioCountDecrement caller :: r))
    (h : execRelease s caller .ioCountDecrement = some (s', pc')) :
    Phase s' (l ++ pc' :: r) := by
  have hcount := ioCount_ge hreach
  have hzero := not_countReleased hcount (by simp [ReleasePc.holds])
  simp only [execRelease] at h
  split at h
  · next hone =>
    cases h
    -- the count was 1, which is where the guard speaks
    obtain ⟨hlending, hpacket⟩ := hG (by omega)
    simp only [Counted, load_append, load_cons, Pc.holds_release, ReleasePc.holds] at hcount
    have hleavingError : load Pc.leavingError l + load Pc.leavingError r = 0 := by
      have hl := load_mono leavingError_le_holds l
      have hr := load_mono leavingError_le_holds r
      omega
    have hself : (Pc.release .onSessionLeaved caller).leaving = 1 := by
      cases caller <;> rfl
    cases hI with
    | unreleased hI =>
      have hleaving := hI.leaving
      refine .countReleased ⟨by simpa using hone, ?_, ?_⟩
      · simp only [load_append, load_cons, hself, hI.releases] at hleaving ⊢
        omega
      · simp only [load_append, load_cons] at hlending ⊢
        show load Pc.lending l + ((Pc.release .onSessionLeaved caller).lending +
          load Pc.lending r) = 0
        have : (Pc.release .onSessionLeaved caller).lending = 0 := by cases caller <;> rfl
        omega
    | countReleased hI => exact absurd hI hzero
    | errorReleased hI =>
      have hself : (Pc.release .ioCountDecrement caller).leavingError = 0 := by
        cases caller <;> rfl
      -- an error release that is still to come would hold a reference of its own
      rcases hI.packetError with herr | herr
      · rw [hpacket] at herr
        cases herr
      · simp only [load_append, load_cons] at herr
        omega
  · cases h
    have hstage : caller.next.stage = (Pc.release .ioCountDecrement caller).stage := by
      rw [caller.next_stage]
      cases caller <;> rfl
    exact hI.congr rfl rfl rfl (by rw [Pc.leaving, hstage]; rfl)
      (by rw [Pc.leavingError, hstage]; rfl) (by rw [Pc.erasing, hstage]; rfl)
      (fun _ => by rw [Pc.receiving, caller.next_stage]) hzero

/-- Entering `ReleaseSession` uses up the one thread that stood before it. -/
theorem releaseSession_phase {caller : ReleaseCaller}
    (hI : Phase s (l ++ .release .releaseSession caller :: r))
    (h : execRelease s caller .releaseSession = some (s', pc')) :
    Phase s' (l ++ pc' :: r) := by
  cases h
  have hself : (Pc.release .releaseSession caller).leaving = 1 := by cases caller <;> rfl
  have hnext : (Pc.release .decrementNumOfSession caller).leaving = 0 := by cases caller <;> rfl
  have hreceiving : (Pc.release .releaseSession caller).receiving = 0 := by cases caller <;> rfl
  have hreceiving' : (Pc.release .decrementNumOfSession caller).receiving = 0 := by
    cases caller <;> rfl
  have herasing : (Pc.release .decrementNumOfSession caller).erasing =
      (Pc.release .releaseSession caller).erasing := by
    cases caller <;> rfl
  have hlending : (Pc.release .releaseSession caller).lending = 0 := by cases caller <;> rfl
  have hlending' : (Pc.release .decrementNumOfSession caller).lending = 0 := by cases caller <;> rfl
  cases hI with
  | unreleased hI =>
    -- this thread itself stands before `ReleaseSession`
    have := hI.leaving
    simp only [load_append, load_cons] at this
    omega
  | countReleased hI =>
    have honce := hI.once
    have hlend := hI.lending
    simp only [load_append, load_cons] at honce hlend
    refine .countReleased ⟨hI.ioCount, ?_, ?_⟩ <;> simp only [load_append, load_cons] <;> omega
  | errorReleased hI =>
    have honce := hI.once
    have hrec := hI.receiving
    have hera := hI.erased
    have herr := hI.packetError
    simp only [load_append, load_cons] at honce hrec hera herr
    refine .errorReleased ⟨?_, ?_, ?_, ?_⟩ <;> simp only [load_append, load_cons]
    · omega
    · cases caller with
      | recvCompleted context result => exact .inl (by simp)
      | _ =>
        rcases herr with herr | herr
        · exact .inl (by simp [herr])
        · exact .inr herr
    · omega
    · rw [herasing]
      exact hera

/-- `IOCountDecrement` and `ReleaseSession` keep the phases. -/
theorem execRelease_phase {pc : ReleasePc} {caller : ReleaseCaller}
    (hreach : (server spec).Reachable server.init ⟨s, l ++ .release pc caller :: r⟩)
    (hG : ReleaseGuard (.release pc caller) o s (l ++ .release pc caller :: r))
    (hI : Phase s (l ++ .release pc caller :: r))
    (h : execRelease s caller pc = some (s', pc')) : Phase s' (l ++ pc' :: r) := by
  cases pc with
  | ioCountDecrement => exact ioCountDecrement_phase hreach hG hI h
  | releaseSession => exact releaseSession_phase hI h
  | onSessionLeaved | decrementNumOfSession | decrementSessionCount =>
    cases h
    refine hI.quiet ⟨rfl, rfl, rfl, rfl, .inl ?_⟩
    cases caller <;> rfl
  | onSessionReleased =>
    cases h
    refine hI.quiet ⟨rfl, rfl, rfl, rfl, .inl ?_⟩
    cases caller <;> rfl
  | invalidateSocket =>
    cases h
    refine hI.quiet ⟨rfl, rfl, rfl, rfl, .inl ?_⟩
    rw [caller.next_stage]
    cases caller <;> rfl
  | eraseSession =>
    simp only [execRelease] at h
    split at h <;> cases h
    have hself : (Pc.release .eraseSession caller).leaving = 0 ∧
        (Pc.release .eraseSession caller).leavingError = 0 ∧
        (Pc.release .eraseSession caller).lending = 0 ∧
        (Pc.release .eraseSession caller).receiving = 0 := by
      cases caller <;> exact ⟨rfl, rfl, rfl, rfl⟩
    have hnext : (Pc.release .onSessionReleased caller).leaving = 0 ∧
        (Pc.release .onSessionReleased caller).leavingError = 0 ∧
        (Pc.release .onSessionReleased caller).lending = 0 ∧
        (Pc.release .onSessionReleased caller).receiving = 0 := by
      cases caller <;> exact ⟨rfl, rfl, rfl, rfl⟩
    cases hI with
    | unreleased hI =>
      have hleaving := hI.leaving
      refine .unreleased ⟨hI.releases, hI.packetError, ?_⟩
      simp only [load_append, load_cons] at hleaving ⊢
      omega
    | countReleased hI =>
      have honce := hI.once
      have hlend := hI.lending
      simp only [load_append, load_cons] at honce hlend
      refine .countReleased ⟨hI.ioCount, ?_, ?_⟩ <;> simp only [load_append, load_cons] <;> omega
    | errorReleased hI =>
      have honce := hI.once
      have hrec := hI.receiving
      have herr := hI.packetError
      simp only [load_append, load_cons] at honce hrec herr
      refine .errorReleased ⟨?_, ?_, ?_, .inl rfl⟩ <;> simp only [load_append, load_cons]
      · omega
      · rcases herr with herr | herr
        · exact .inl herr
        · exact .inr (by omega)
      · omega

/-- The worker starts to receive only for a session that is still in the map,
and then no other worker is erasing it. -/
theorem execWorker_phase {pc : WorkerPc}
    (hreach : (server spec).Reachable server.init ⟨s, l ++ .worker pc :: r⟩)
    (hI : Phase s (l ++ .worker pc :: r))
    (h : execWorker spec s pc = some (s', pc')) : Phase s' (l ++ pc' :: r) := by
  cases pc with
  | getIoCompletedContext context bytes =>
    have hzero := not_countReleased (ioCount_ge hreach) (by simp [WorkerPc.holds])
    have hworker := handles_add_le hreach
    simp only [execWorker] at h
    split at h
    · cases h
    · split at h <;> cases h
      · next hmap =>
        refine hI.congr rfl rfl rfl rfl rfl rfl (fun he => ?_) hzero
        -- found in the map, so an error release would have its eraser at work:
        -- but the only worker is this one
        have hle := load_mono erasing_le_handles (l ++ r)
        have hself : (Pc.worker (.getIoCompletedContext context bytes)).erasing = 0 := rfl
        have hhandles : (Pc.worker (.getIoCompletedContext context bytes)).handles = 1 := rfl
        rcases he.erased with hgone | hera
        · rw [hmap] at hgone
          cases hgone
        · simp only [load_append, load_cons] at hera hle hworker
          omega
      · exact hI.congr rfl rfl rfl rfl rfl rfl (fun _ => rfl) hzero
  | testTransferred context bytes =>
    refine hI.quiet ?_
    revert h
    simp only [execWorker]
    split
    · rintro ⟨⟩
      exact ⟨rfl, rfl, rfl, rfl, .inr ⟨rfl, rfl⟩⟩
    · split <;> rintro ⟨⟩ <;>
        first
        | exact ⟨rfl, rfl, rfl, rfl, .inl rfl⟩
        | exact ⟨rfl, rfl, rfl, rfl, .inr ⟨rfl, rfl⟩⟩
  | recvCompleted context bytes =>
    cases h
    exact hI.quiet ⟨rfl, rfl, rfl, rfl, .inl rfl⟩
  | _ =>
    refine hI.quiet ?_
    revert h
    simp only [execWorker]
    repeat' split
    all_goals rintro ⟨⟩
    all_goals exact ⟨rfl, rfl, rfl, rfl, .inl rfl⟩

/-- **One guarded action keeps the phases** of a published session. -/
theorem exec_phase
    (hreach : (server spec).Reachable server.init ⟨s, l ++ pc :: r⟩)
    (hpc : pc.beforePublication = false) (hG : ReleaseGuard pc o s (l ++ pc :: r))
    (hI : Phase s (l ++ pc :: r)) (h : exec spec pc o s = some (s', pc')) :
    Phase s' (l ++ pc' :: r) := by
  cases pc with
  | makeNewSession pc =>
    cases pc with
    | onSessionEntered | incrementSessionCount =>
      cases h
      exact hI.quiet ⟨rfl, rfl, rfl, rfl, .inl rfl⟩
    | _ => cases hpc
  | sendPacket pc isEncoded packet =>
    refine hI.quiet ?_
    revert h
    simp only [exec]
    fun_cases execSendPacket spec s isEncoded packet pc <;> rintro ⟨⟩ <;>
      exact ⟨rfl, rfl, rfl, rfl, .inl rfl⟩
  | sendPost pc caller => exact execSendPost_phase hG hI h
  | recvPost pc caller => exact execRecvPost_phase hreach hI h
  | release pc caller => exact execRelease_phase hreach hG hI h
  | worker pc => exact execWorker_phase hreach hI h
  | finished => cases h

theorem spawn_phase {ts : List Pc} {e : Event} (hI : Phase s ts)
    (h : spawn e s = some (s', pc)) : Phase s' (ts ++ [pc]) := by
  -- a new thread counts for nothing, and the completion leaves the phase alone
  have hnew : s'.ioCount = s.ioCount ∧ s'.releases = s.releases ∧
      s'.packetErrorReleased = s.packetErrorReleased ∧ s'.inSessionMap = s.inSessionMap ∧
      pc.stage = .none := by
    cases e with
    | completion i bytes =>
      obtain ⟨context, -, -, -, rfl, rfl⟩ := spawn_completion h
      exact ⟨rfl, rfl, rfl, rfl, rfl⟩
    | _ =>
      obtain ⟨-, rfl, rfl⟩ := Option.ite_none_right_eq_some.mp h
      exact ⟨rfl, rfl, rfl, rfl, rfl⟩
  obtain ⟨hcount, hreleases, hpacket, hmap, hstage⟩ := hnew
  have hloads : load Pc.leaving (ts ++ [pc]) = load Pc.leaving ts ∧
      load Pc.leavingError (ts ++ [pc]) = load Pc.leavingError ts ∧
      load Pc.erasing (ts ++ [pc]) = load Pc.erasing ts ∧
      load Pc.receiving (ts ++ [pc]) = load Pc.receiving ts ∧
      load Pc.lending (ts ++ [pc]) = load Pc.lending ts := by
    simp [Pc.leaving, Pc.leavingError, Pc.erasing, Pc.receiving, Pc.lending, hstage]
  obtain ⟨hleaving, hleavingError, herasing, hreceiving, hlending⟩ := hloads
  cases hI with
  | unreleased hI =>
    exact .unreleased ⟨hreleases.trans hI.releases, hpacket.trans hI.packetError,
      hleaving.trans hI.leaving⟩
  | countReleased hI =>
    exact .countReleased ⟨hcount.trans hI.ioCount, by rw [hreleases, hleaving]; exact hI.once,
      hlending.trans hI.lending⟩
  | errorReleased hI =>
    exact .errorReleased ⟨by rw [hreleases, hleaving]; exact hI.once,
      by rw [hpacket, hleavingError]; exact hI.packetError, hreceiving.trans hI.receiving,
      by rw [hmap, herasing]; exact hI.erased⟩

/-! ## Every guarded run -/

/-- A published session is in one of the phases, along every guarded run. -/
theorem phase_of_run {c : Config State Pc} (h : (server spec).Run ReleaseGuard server.init c) :
    c.shared.published = true → Phase c.shared c.threads := by
  refine Run.induct (I := fun s ts => s.published = true → Phase s ts) h
    (fun hpub => Bool.noConfusion hpub) ?_ ?_
  · intro s l pc r o s' pc' hrun hI hG hexec hpub'
    rcases exec_publishes hexec hpub' with hpub | hemplace
    · have hpc := (publication hrun.anywhere).of_published hpub pc (by simp)
      exact exec_phase hrun.anywhere hpc hG (hI hpub) hexec
    · obtain ⟨rfl, rfl, hreleases, hs, rfl, rfl⟩ :=
        (publication hrun.anywhere).of_emplace hemplace
      exact .unreleased ⟨hreleases, hs.packetErrorReleased, rfl⟩
  · intro s ts e s' pc hrun hI hspawn hpub'
    have hsame := (spawn_published hspawn).2.1
    exact spawn_phase (hI (hsame ▸ hpub')) hspawn

/-- **Released at most once**: in every run that keeps to `ReleaseGuard`,
`ReleaseSession` is entered at most once. -/
theorem releases_le_one {c : Config State Pc}
    (h : (server spec).Run ReleaseGuard server.init c) : c.shared.releases ≤ 1 := by
  cases hpub : c.shared.published with
  | true => exact (phase_of_run h hpub).releases_le
  | false =>
    -- before the session is in the map only its accepter can release it
    obtain ⟨-, pc, -, hat⟩ := (publication h.anywhere).of_unpublished hpub
    exact hat.releases_le

/-- A client that closes at once: one release. -/
theorem releases_le_one_closed :
    ∃ c, c.shared.releases = 1 ∧ (server plainSpec).Run ReleaseGuard server.init c ∧
      c.shared.releases ≤ 1 := by
  obtain ⟨c, hrun, hc⟩ := exists_run (server plainSpec) ReleaseGuard server.init
    (server.accept ++ .event (.completion 0 []) :: List.replicate 6 (.run 1 ⟨true, 1⟩))
    (P := fun c => c.shared.releases = 1) (by decide +kernel)
  exact ⟨c, hc, hrun, releases_le_one hrun⟩

/-- A frame with a wrong checksum, and a `RIOReceive` that fails behind it: the
packet error releases the session, and the worker's decrement does so again. -/
theorem released_twice :
    ∃ c, (server plainSpec).Reachable server.init c ∧ c.shared.releases = 2 := by
  obtain ⟨c, hrun, hc⟩ := exists_run (server plainSpec) unguarded server.init
    (server.accept ++ .event (.completion 0 [119, 1, 0, 0, 9, 7]) ::
      List.replicate 14 (.run 1 ⟨false, 1⟩))
    (P := fun c => c.shared.releases = 2) (by decide +kernel)
  exact ⟨c, hrun, hc⟩

end RioServer
