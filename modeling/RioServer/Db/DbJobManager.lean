import RioServer.Lib.Interleaving
import RioServer.Lib.UnorderedMap

/-!
# The registry of batched DB jobs (DBJob.cpp, DBJobUtil.cpp)

`DBJobManager` files a `BatchedDBJob` so that the reply to it, which carries the
batch's key, finds it again. `State` is the manager, the shared pointers to
batches that are alive, and a record of what happened (`RegisterHistory`); `Pc`
says where a call of `MakeBatchedDBJob`, of `RegisterDBJob`, of
`GetRegistedDBJob` or of a shared pointer's destructor stands. `manager` puts
any number of such calls together, in any order.

The key that a batch carries is drawn by its constructor; `RegisterDBJob` draws
another one to file it under. `KeysAgree` says what the registry is for, and
`keysAgree` that it holds as long as these two draws give one number. Before
the counter wraps they never do (`not_ownKey_of_lt`), and the first batch is
already out of reach (`misfiled_first_batch`).

An action is one access to shared data. What `RegisterDBJob`,
`GetRegistedDBJob` and `DeregisterDBJob` do under `jobMapLock` is one action:
beside the counter, which other threads only advance, nothing they touch there
is accessed without the lock.
-/

namespace RioServer.Db

open Machine

/-! ## State -/

/-- `BatchedDBJob` (DBJob.h:57), as far as the registry knows it: the key its
constructor drew. Objects are told apart by `id`, the number of keys that had
been drawn before. -/
structure BatchedDbJob where
  id : Nat
  dbJobKey : UInt64
  deriving DecidableEq, Repr

/-- `DBJobManager` (DBJob.h:96). -/
structure DbJobManager where
  jobKey : UInt64
  jobMap : UnorderedMap UInt64 BatchedDbJob
  jobMapLock : Bool
  deriving Repr

/-- The shared pointers to batches beside those in `jobMap`: what callers hold
(an element stands for a pointer and its copies), and what running calls hold
as locals and parameters. -/
structure References where
  callers : List BatchedDbJob
  locals : List BatchedDbJob
  deriving Repr

/-- How many keys were drawn, which batches `MakeBatchedDBJob` returned and
were not deregistered since, and which were destroyed. -/
structure RegisterHistory where
  drawn : Nat
  made : List BatchedDbJob
  destroyed : List BatchedDbJob
  deriving Repr

structure State extends DbJobManager, References, RegisterHistory
  deriving Repr

/-- The manager before its first use. -/
def State.initial : State where
  jobKey := 1
  jobMap := .empty
  jobMapLock := false
  callers := []
  locals := []
  drawn := 0
  made := []
  destroyed := []

/-- A shared pointer to `b` is alive. -/
def State.Referenced (s : State) (b : BatchedDbJob) : Prop :=
  b ∈ s.jobMap.values ∨ b ∈ s.callers ∨ b ∈ s.locals

instance (s : State) (b : BatchedDbJob) : Decidable (s.Referenced b) :=
  inferInstanceAs (Decidable (_ ∨ _ ∨ _))

/-! ## The calls -/

/-- Who constructs or registers a batch. -/
inductive Caller where
  | makeBatchedDbJob
  | other
  deriving DecidableEq, Repr

/-- Where a call stands. A batch in a counter is held by a shared pointer of
the call, except in `deregisterDbJob`, which the destructor runs. -/
inductive Pc where
  | batchedDbJob (caller : Caller)
  | registerDbJob (job : BatchedDbJob) (caller : Caller)
  | getRegistedDbJob (jobKey : UInt64)
  | releaseSharedPtr (job : BatchedDbJob)
  | deregisterDbJob (job : BatchedDbJob)
  | finished
  deriving DecidableEq, Repr

/-- `DBJobManager::GetDBJobKey` and the first line of `RegisterDBJob`
(DBJob.cpp:111, 136): `jobKey.fetch_add(1)`. -/
def State.fetchAddJobKey (s : State) : State :=
  { s with jobKey := s.jobKey + 1, drawn := s.drawn + 1 }

/-- One atomic action of a call. -/
def exec : Pc → Unit → State → Option (State × Pc)
  -- the constructor (DBJob.cpp:43), directly or within `MakeBatchedDBJob`
  | .batchedDbJob caller, _, s =>
    let job := { id := s.drawn, dbJobKey := s.jobKey }
    let t := s.fetchAddJobKey
    match caller with
    | .makeBatchedDbJob =>
      some ({ t with locals := job :: t.locals }, .registerDbJob job .makeBatchedDbJob)
    | .other => some ({ t with callers := job :: t.callers }, .finished)
  -- `RegisterDBJob` (DBJob.cpp:108); its caller `MakeBatchedDBJob` returns the
  -- batch, any other has its parameter destroyed
  | .registerDbJob job caller, _, s =>
    if s.jobMapLock then none
    else
      let t := { s.fetchAddJobKey with jobMap := s.jobMap.insert s.jobKey job }
      match caller with
      | .makeBatchedDbJob =>
        some ({ t with locals := t.locals.erase job, callers := job :: t.callers,
                       made := job :: t.made }, .finished)
      | .other => some (t, .releaseSharedPtr job)
  -- `GetRegistedDBJob` (DBJob.cpp:116)
  | .getRegistedDbJob jobKey, _, s =>
    if s.jobMapLock then none
    else
      match s.jobMap.find jobKey with
      | some job => some ({ s with callers := job :: s.callers }, .finished)
      | none => some (s, .finished)
  -- the last shared pointer runs the batch's destructor
  | .releaseSharedPtr job, _, s =>
    let t := { s with locals := s.locals.erase job }
    some (t, if t.Referenced job then .finished else .deregisterDbJob job)
  -- `DeregisterDBJob` (DBJob.cpp:128), called by `~BatchedDBJob` (DBJob.cpp:49)
  | .deregisterDbJob job, _, s =>
    if s.jobMapLock then none
    else
      let t := { s with jobMap := s.jobMap.erase job.dbJobKey,
                        made := s.made.filter (· ≠ job),
                        destroyed := job :: s.destroyed }
      match s.jobMap.find job.dbJobKey with
      | none => some (t, .finished)
      | some erased =>
        if t.Referenced erased then some (t, .finished)
        -- the erased entry was the last pointer to another batch: that batch's
        -- destructor waits for the lock this call holds
        else some ({ t with jobMapLock := true }, .deregisterDbJob erased)
  | .finished, _, _ => none

/-- What a caller may begin. -/
inductive Event where
  | makeBatchedDbJob
  | batchedDbJob
  | registerDbJob (job : BatchedDbJob)
  | getRegistedDbJob (jobKey : UInt64)
  | releaseSharedPtr (job : BatchedDbJob)
  deriving DecidableEq, Repr

/-- A caller registers or lets go of batches that it holds. -/
def spawn : Event → State → Option (State × Pc)
  | .makeBatchedDbJob, s => some (s, .batchedDbJob .makeBatchedDbJob)
  | .batchedDbJob, s => some (s, .batchedDbJob .other)
  | .registerDbJob job, s =>
    if job ∈ s.callers then
      some ({ s with locals := job :: s.locals }, .registerDbJob job .other)
    else none
  | .getRegistedDbJob jobKey, s => some (s, .getRegistedDbJob jobKey)
  | .releaseSharedPtr job, s =>
    if job ∈ s.callers then
      some ({ s with callers := s.callers.erase job, locals := job :: s.locals },
        .releaseSharedPtr job)
    else none

/-- Calls of the manager in any number and order. -/
def manager : Machine State Pc Unit Event := ⟨exec, spawn⟩

def manager.init : Config State Pc := ⟨.initial, []⟩

/-! ## Shared pointers -/

/-- One for a counter whose call holds a shared pointer to `b`. -/
def Pc.owns (b : BatchedDbJob) : Pc → Nat
  | .registerDbJob job _ | .releaseSharedPtr job => if job = b then 1 else 0
  | .batchedDbJob _ | .getRegistedDbJob _ | .deregisterDbJob _ | .finished => 0

/-- The destructor of `b` has begun. -/
def Gone (s : State) (ts : List Pc) (b : BatchedDbJob) : Prop :=
  b ∈ s.destroyed ∨ .deregisterDbJob b ∈ ts

/-- **Reference counting**: a running call's pointer is among the locals, no
pointer leads to a batch whose destructor has begun, and new batches are new. -/
structure Counted (s : State) (ts : List Pc) : Prop where
  owned : ∀ b, load (Pc.owns b) ts ≤ s.locals.count b
  gone : ∀ b, Gone s ts b → ¬s.Referenced b
  known : ∀ b, s.Referenced b ∨ Gone s ts b → b.id < s.drawn

variable {s s' : State} {pc pc' : Pc} {l r ts : List Pc} {b : BatchedDbJob}

/-- The batch of a running call is alive. -/
theorem Counted.referenced (h : Counted s (l ++ pc :: r)) (hb : 0 < pc.owns b) :
    s.Referenced b := by
  have hle := h.owned b
  rw [load_append, load_cons] at hle
  exact .inr (.inr (List.count_pos_iff.mp (by omega)))

/-- A step that drops no batch silently, and refers to nothing new, keeps the
count. -/
theorem Counted.keep {ts' : List Pc} (h : Counted s ts)
    (howned : ∀ b, load (Pc.owns b) ts' ≤ s'.locals.count b)
    (href : ∀ b, s'.Referenced b → s.Referenced b)
    (hgone : ∀ b, Gone s' ts' b → Gone s ts b ∨ s.Referenced b ∧ ¬s'.Referenced b)
    (hdrawn : s.drawn ≤ s'.drawn) : Counted s' ts' where
  owned := howned
  gone := by
    intro b hb hr
    rcases hgone b hb with hold | ⟨-, hnr⟩
    · exact h.gone b hold (href b hr)
    · exact hnr hr
  known := by
    rintro b (hr | hb)
    · exact Nat.lt_of_lt_of_le (h.known b (.inl (href b hr))) hdrawn
    · rcases hgone b hb with hold | ⟨hr, -⟩
      · exact Nat.lt_of_lt_of_le (h.known b (.inr hold)) hdrawn
      · exact Nat.lt_of_lt_of_le (h.known b (.inl hr)) hdrawn

/-- Constructing a batch refers to a new one, whose destructor has not begun. -/
theorem Counted.construct {ts' : List Pc} (h : Counted s ts)
    (howned : ∀ b, load (Pc.owns b) ts' ≤ s'.locals.count b)
    (href : ∀ b, s'.Referenced b → s.Referenced b ∨ b.id = s.drawn)
    (hgone : ∀ b, Gone s' ts' b → Gone s ts b) (hdrawn : s'.drawn = s.drawn + 1) :
    Counted s' ts' where
  owned := howned
  gone := by
    intro b hb hr
    rcases href b hr with hr | hid
    · exact h.gone b (hgone b hb) hr
    · have hlt := h.known b (.inr (hgone b hb))
      omega
  known := by
    rw [hdrawn]
    rintro b (hr | hb)
    · rcases href b hr with hr | hid
      · exact Nat.lt_succ_of_lt (h.known b (.inl hr))
      · omega
    · exact Nat.lt_succ_of_lt (h.known b (.inr (hgone b hb)))

/-- A destructor that neither begins nor ends in the action had begun before. -/
theorem gone_of_gone (hd : b ∈ s'.destroyed → Gone s (l ++ pc :: r) b)
    (hpc' : pc' ≠ .deregisterDbJob b) (h : Gone s' (l ++ pc' :: r) b) :
    Gone s (l ++ pc :: r) b := by
  rcases h with h | h
  · exact hd h
  · refine .inr ?_
    rcases List.mem_append.mp h with hl | hr
    · exact List.mem_append_left _ hl
    · rcases List.mem_cons.mp hr with he | hr
      · exact absurd he.symm hpc'
      · exact List.mem_append_right _ (List.mem_cons_of_mem _ hr)

/-- Where another entry is inserted, only its batch becomes referenced. -/
theorem mem_values_insert {m : UnorderedMap UInt64 BatchedDbJob} {k : UInt64}
    {job : BatchedDbJob} (h : b ∈ (m.insert k job).values) : b ∈ m.values ∨ b = job := by
  obtain ⟨k', hk⟩ := UnorderedMap.mem_values.mp h
  cases hfind : m.find k with
  | some c =>
    rw [UnorderedMap.insert_of_some hfind] at hk
    exact .inl (UnorderedMap.mem_values.mpr ⟨k', hk⟩)
  | none =>
    rw [UnorderedMap.find_insert_of_none hfind] at hk
    split at hk
    · exact .inr (Option.some.inj hk).symm
    · exact .inl (UnorderedMap.mem_values.mpr ⟨k', hk⟩)

theorem mem_values_erase {m : UnorderedMap UInt64 BatchedDbJob} {k : UInt64}
    (h : b ∈ (m.erase k).values) : b ∈ m.values := by
  obtain ⟨k', hk⟩ := UnorderedMap.mem_values.mp h
  rw [UnorderedMap.find_erase] at hk
  split at hk
  · cases hk
  · exact UnorderedMap.mem_values.mpr ⟨k', hk⟩

/-- The pointers of one call and the locals change together. -/
theorem Counted.owned_step (h : Counted s (l ++ pc :: r))
    (hstep : ∀ b, pc'.owns b + s.locals.count b ≤ pc.owns b + s'.locals.count b) (b) :
    load (Pc.owns b) (l ++ pc' :: r) ≤ s'.locals.count b := by
  have hle := h.owned b
  have hb := hstep b
  rw [load_append, load_cons] at hle ⊢
  omega

/-- Letting go of one pointer to `job`. -/
theorem count_erase_le (job b : BatchedDbJob) (locals : List BatchedDbJob) :
    locals.count b ≤ (if job = b then 1 else 0) + (locals.erase job).count b := by
  rw [List.count_erase]
  simp only [beq_iff_eq]
  split <;> omega

/-- Only the constructor refers to a batch that nothing referred to. -/
theorem exec_referenced {o : Unit} (h : Counted s (l ++ pc :: r))
    (hexec : exec pc o s = some (s', pc')) (hpc : ∀ caller, pc ≠ .batchedDbJob caller)
    (hb : s'.Referenced b) : s.Referenced b := by
  cases pc with
  | batchedDbJob caller => exact absurd rfl (hpc caller)
  | registerDbJob job caller =>
    have hjob : s.Referenced job := h.referenced (by simp [Pc.owns])
    have hinsert : b ∈ (s.jobMap.insert s.jobKey job).values → s.Referenced b := by
      intro hb
      rcases mem_values_insert hb with hb | rfl
      · exact .inl hb
      · exact hjob
    simp only [Db.exec] at hexec
    split at hexec
    · cases hexec
    · cases caller with
      | makeBatchedDbJob =>
        cases hexec
        rcases hb with hb | hb | hb
        · exact hinsert hb
        · rcases List.mem_cons.mp hb with rfl | hb
          · exact hjob
          · exact .inr (.inl hb)
        · exact .inr (.inr (List.mem_of_mem_erase hb))
      | other =>
        cases hexec
        exact hb.elim hinsert .inr
  | getRegistedDbJob jobKey =>
    simp only [Db.exec] at hexec
    split at hexec
    · cases hexec
    · split at hexec
      · next job hfind =>
        cases hexec
        rcases hb with hb | hb | hb
        · exact .inl hb
        · rcases List.mem_cons.mp hb with rfl | hb
          · exact .inl (UnorderedMap.mem_values.mpr ⟨jobKey, hfind⟩)
          · exact .inr (.inl hb)
        · exact .inr (.inr hb)
      · cases hexec
        exact hb
  | releaseSharedPtr job =>
    cases hexec
    exact hb.imp_right (.imp_right List.mem_of_mem_erase)
  | deregisterDbJob job =>
    simp only [Db.exec] at hexec
    split at hexec
    · cases hexec
    · split at hexec
      · cases hexec
        exact hb.imp_left mem_values_erase
      · split at hexec <;> cases hexec <;> exact hb.imp_left mem_values_erase
  | finished => cases hexec

/-- Every action keeps the count. -/
theorem Counted.exec {o : Unit} (h : Counted s (l ++ pc :: r))
    (hexec : exec pc o s = some (s', pc')) : Counted s' (l ++ pc' :: r) := by
  have href : (∀ caller, pc ≠ .batchedDbJob caller) →
      ∀ b, s'.Referenced b → s.Referenced b := fun hpc b => exec_referenced h hexec hpc
  cases pc with
  | batchedDbJob caller =>
    -- the new batch carries a number no other batch has
    cases caller with
    | makeBatchedDbJob =>
      cases hexec
      refine h.construct (h.owned_step fun b => ?_) ?_
        (fun b => gone_of_gone .inl Pc.noConfusion) rfl
      · simp only [Pc.owns, List.count_cons, beq_iff_eq]
        exact Nat.le_of_eq (by rw [Nat.zero_add, Nat.add_comm]; rfl)
      · rintro b (hb | hb | hb)
        · exact .inl (.inl hb)
        · exact .inl (.inr (.inl hb))
        · rcases List.mem_cons.mp hb with rfl | hb
          · exact .inr rfl
          · exact .inl (.inr (.inr hb))
    | other =>
      cases hexec
      refine h.construct (h.owned_step fun b => Nat.le_refl _) ?_
        (fun b => gone_of_gone .inl Pc.noConfusion) rfl
      rintro b (hb | hb | hb)
      · exact .inl (.inl hb)
      · rcases List.mem_cons.mp hb with rfl | hb
        · exact .inr rfl
        · exact .inl (.inr (.inl hb))
      · exact .inl (.inr (.inr hb))
  | registerDbJob job caller =>
    replace href := href fun _ => Pc.noConfusion
    simp only [Db.exec] at hexec
    split at hexec
    · cases hexec
    · cases caller with
      | makeBatchedDbJob =>
        cases hexec
        refine h.keep (h.owned_step fun b => ?_) href
          (fun b hb => .inl (gone_of_gone .inl Pc.noConfusion hb)) (Nat.le_succ _)
        show 0 + s.locals.count b ≤ (if job = b then 1 else 0) + (s.locals.erase job).count b
        rw [Nat.zero_add]
        exact count_erase_le job b s.locals
      | other =>
        cases hexec
        exact h.keep (h.owned_step fun b => Nat.le_refl _) href
          (fun b hb => .inl (gone_of_gone .inl Pc.noConfusion hb)) (Nat.le_succ _)
  | getRegistedDbJob jobKey =>
    replace href := href fun _ => Pc.noConfusion
    simp only [Db.exec] at hexec
    split at hexec
    · cases hexec
    · split at hexec <;> cases hexec <;>
        exact h.keep (h.owned_step fun b => Nat.le_refl _) href
          (fun b hb => .inl (gone_of_gone .inl Pc.noConfusion hb)) (Nat.le_refl _)
  | releaseSharedPtr job =>
    have hjob : s.Referenced job := h.referenced (by simp [Pc.owns])
    replace href := href fun _ => Pc.noConfusion
    cases hexec
    refine h.keep (h.owned_step fun b => ?_) href ?_ (Nat.le_refl _)
    · have howns : ∀ q : Prop, ∀ _ : Decidable q,
          (if q then Pc.finished else .deregisterDbJob job).owns b = 0 := by
        intro q _
        split <;> rfl
      rw [howns, Nat.zero_add]
      exact count_erase_le job b s.locals
    · intro b hb
      -- the destructor that may begin is that of `job`, which was alive until now
      by_cases hr : State.Referenced { s with locals := s.locals.erase job } job
      · rw [if_pos hr] at hb
        exact .inl (gone_of_gone .inl Pc.noConfusion hb)
      · rw [if_neg hr] at hb
        by_cases hbj : b = job
        · subst hbj
          exact .inr ⟨hjob, hr⟩
        · exact .inl (gone_of_gone .inl (fun he => hbj (Pc.deregisterDbJob.inj he).symm) hb)
  | deregisterDbJob job =>
    replace href := href fun _ => Pc.noConfusion
    have hd : ∀ b ∈ job :: s.destroyed, Gone s (l ++ .deregisterDbJob job :: r) b := by
      intro b hb
      rcases List.mem_cons.mp hb with rfl | hb
      · exact .inr (List.mem_append_right _ List.mem_cons_self)
      · exact .inl hb
    simp only [Db.exec] at hexec
    split at hexec
    · cases hexec
    · split at hexec
      · cases hexec
        exact h.keep (h.owned_step fun b => Nat.le_refl _) href
          (fun b hb => .inl (gone_of_gone (hd b) Pc.noConfusion hb)) (Nat.le_refl _)
      · -- the erased pointer may have been the last one to its batch
        next erased hfind =>
        split at hexec
        · cases hexec
          exact h.keep (h.owned_step fun b => Nat.le_refl _) href
            (fun b hb => .inl (gone_of_gone (hd b) Pc.noConfusion hb)) (Nat.le_refl _)
        · next hnr =>
          cases hexec
          refine h.keep (h.owned_step fun b => Nat.le_refl _) href (fun b hb => ?_)
            (Nat.le_refl _)
          by_cases hbe : b = erased
          · subst hbe
            exact .inr ⟨.inl (UnorderedMap.mem_values.mpr ⟨_, hfind⟩), hnr⟩
          · exact .inl (gone_of_gone (hd b) (fun he => hbe (Pc.deregisterDbJob.inj he).symm) hb)
  | finished => cases hexec

/-- A new call leaves the manager alone and refers to what a caller held. -/
theorem spawn_frame {e : Event} (hspawn : spawn e s = some (s', pc)) :
    s'.toDbJobManager = s.toDbJobManager ∧ s'.toRegisterHistory = s.toRegisterHistory ∧
      ∀ b, s'.Referenced b → s.Referenced b := by
  cases e with
  | registerDbJob job =>
    obtain ⟨hjob, hspawn⟩ := Option.ite_none_right_eq_some.mp hspawn
    cases hspawn
    refine ⟨rfl, rfl, ?_⟩
    rintro b (hb | hb | hb)
    · exact .inl hb
    · exact .inr (.inl hb)
    · rcases List.mem_cons.mp hb with rfl | hb
      · exact .inr (.inl hjob)
      · exact .inr (.inr hb)
  | releaseSharedPtr job =>
    obtain ⟨hjob, hspawn⟩ := Option.ite_none_right_eq_some.mp hspawn
    cases hspawn
    refine ⟨rfl, rfl, ?_⟩
    rintro b (hb | hb | hb)
    · exact .inl hb
    · exact .inr (.inl (List.mem_of_mem_erase hb))
    · rcases List.mem_cons.mp hb with rfl | hb
      · exact .inr (.inl hjob)
      · exact .inr (.inr hb)
  | makeBatchedDbJob | batchedDbJob | getRegistedDbJob jobKey =>
    cases hspawn
    exact ⟨rfl, rfl, fun b hb => hb⟩

/-- A new call keeps the count. -/
theorem Counted.spawn {e : Event} (h : Counted s ts) (hspawn : spawn e s = some (s', pc)) :
    Counted s' (ts ++ [pc]) := by
  obtain ⟨-, hhistory, href⟩ := spawn_frame hspawn
  have hdrawn : s.drawn ≤ s'.drawn := Nat.le_of_eq (congrArg RegisterHistory.drawn hhistory).symm
  have hgone : (∀ b, pc ≠ .deregisterDbJob b) →
      ∀ b, Gone s' (ts ++ [pc]) b → Gone s ts b := by
    rintro hpc b (hb | hb)
    · exact .inl (congrArg RegisterHistory.destroyed hhistory ▸ hb)
    · rcases List.mem_append.mp hb with hb | hb
      · exact .inr hb
      · exact absurd (List.mem_singleton.mp hb).symm (hpc b)
  have howned : (∀ b, pc.owns b + s.locals.count b ≤ s'.locals.count b) →
      ∀ b, load (Pc.owns b) (ts ++ [pc]) ≤ s'.locals.count b := by
    intro hstep b
    have hle := h.owned b
    have hb := hstep b
    rw [load_append, load_cons, load_nil]
    omega
  have hcons : ∀ job b : BatchedDbJob, (if job = b then 1 else 0) + s.locals.count b ≤
      (job :: s.locals).count b := by
    intro job b
    rw [List.count_cons, Nat.add_comm]
    simp only [beq_iff_eq]
    exact Nat.le_refl _
  cases e with
  | registerDbJob job | releaseSharedPtr job =>
    obtain ⟨-, hspawn⟩ := Option.ite_none_right_eq_some.mp hspawn
    cases hspawn
    exact h.keep (howned (hcons job)) href
      (fun b hb => .inl (hgone (fun _ => Pc.noConfusion) b hb)) hdrawn
  | makeBatchedDbJob | batchedDbJob | getRegistedDbJob jobKey =>
    cases hspawn
    exact h.keep (howned fun b => Nat.le_of_eq (Nat.zero_add _)) href
      (fun b hb => .inl (hgone (fun _ => Pc.noConfusion) b hb)) hdrawn

/-- **Reference counting** holds along every run. -/
theorem counted {c : Config State Pc} (h : manager.Reachable manager.init c) :
    Counted c.shared c.threads := by
  refine Run.induct h ?_ ?_ ?_
  · refine ⟨fun b => Nat.zero_le _, fun b _ hr => ?_, ?_⟩
    · rcases hr with hr | hr | hr <;> cases hr
    · rintro b ((hr | hr | hr) | (hr | hr)) <;> cases hr
  · intro s l pc r o s' pc' _ hI _ hexec
    exact hI.exec hexec
  · intro s ts e s' pc _ hI hspawn
    exact hI.spawn hspawn

/-! ## What the registry is for -/

/-- A batch that `MakeBatchedDBJob` returned is found under its own key, no key
leads to a batch with another one, and a destroyed batch has no entry. -/
structure KeysAgree (s : State) : Prop where
  made_found : ∀ b ∈ s.made, s.jobMap.find b.dbJobKey = some b
  found_key : ∀ k b, s.jobMap.find k = some b → b.dbJobKey = k
  destroyed_gone : ∀ b ∈ s.destroyed, ∀ k, s.jobMap.find k ≠ some b

/-- `RegisterDBJob` files a batch under the key the batch carries, or files
nothing and the batch is there already; and no destructor removes the entry of
another batch that is still registered. -/
def OwnKey : Guard State Pc Unit
  | .registerDbJob job caller, _, s, _ =>
    (s.jobMap.find s.jobKey = none → s.jobKey = job.dbJobKey) ∧
      (s.jobMap.find s.jobKey ≠ none → caller = .makeBatchedDbJob →
        s.jobMap.find job.dbJobKey = some job)
  | .deregisterDbJob job, _, s, _ => ∀ b ∈ s.made, s.jobMap.find job.dbJobKey ≠ some b
  | _, _, _, _ => True

instance : ∀ pc o s ts, Decidable (OwnKey pc o s ts)
  | .registerDbJob _ _, _, _, _ => inferInstanceAs (Decidable (_ ∧ _))
  | .deregisterDbJob _, _, s, _ => inferInstanceAs (Decidable (∀ b ∈ s.made, _))
  | .batchedDbJob _, _, _, _ | .getRegistedDbJob _, _, _, _ | .releaseSharedPtr _, _, _, _
  | .finished, _, _, _ => .isTrue trivial

/-- The registry and the record of it stay as they are. -/
theorem KeysAgree.keep (h : KeysAgree s) (hmap : s'.jobMap = s.jobMap)
    (hmade : s'.made = s.made) (hdestroyed : s'.destroyed = s.destroyed) : KeysAgree s' := by
  constructor
  · rw [hmap, hmade]
    exact h.made_found
  · rw [hmap]
    exact h.found_key
  · rw [hmap, hdestroyed]
    exact h.destroyed_gone

/-- Filing a live batch under its own key. -/
theorem KeysAgree.insert {k : UInt64} {job : BatchedDbJob} (h : KeysAgree s)
    (hlive : job ∉ s.destroyed) (hkey : s.jobMap.find k = none → k = job.dbJobKey)
    (hmap : s'.jobMap = s.jobMap.insert k job)
    (hmade : ∀ b ∈ s'.made, b ∈ s.made ∨ s'.jobMap.find b.dbJobKey = some b)
    (hdestroyed : s'.destroyed = s.destroyed) : KeysAgree s' := by
  have hfound : ∀ k' b, s'.jobMap.find k' = some b →
      s.jobMap.find k' = some b ∨ job.dbJobKey = k' ∧ job = b := by
    intro k' b hb
    rw [hmap] at hb
    cases hfind : s.jobMap.find k with
    | some c =>
      rw [UnorderedMap.insert_of_some hfind] at hb
      exact .inl hb
    | none =>
      rw [UnorderedMap.find_insert_of_none hfind] at hb
      split at hb
      · next hk => exact .inr ⟨(hkey hfind).symm.trans hk, Option.some.inj hb⟩
      · exact .inl hb
  constructor
  · intro b hb
    rcases hmade b hb with hb | hb
    · rw [hmap]
      exact UnorderedMap.find_insert_of_found (h.made_found b hb) _ _
    · exact hb
  · intro k' b hb
    rcases hfound k' b hb with hb | ⟨hk, rfl⟩
    · exact h.found_key k' b hb
    · exact hk
  · intro b hb k' hk'
    rw [hdestroyed] at hb
    rcases hfound k' b hk' with hk' | ⟨-, rfl⟩
    · exact h.destroyed_gone b hb k' hk'
    · exact hlive hb

/-- Removing the entry under a key that leads to no registered batch. -/
theorem KeysAgree.erase {k : UInt64} (h : KeysAgree s)
    (hkey : ∀ b ∈ s.made, s.jobMap.find k ≠ some b) (hmap : s'.jobMap = s.jobMap.erase k)
    (hmade : ∀ b ∈ s'.made, b ∈ s.made)
    (hdestroyed : ∀ b ∈ s'.destroyed, b ∈ s.destroyed ∨ ∀ k', s.jobMap.find k' ≠ some b) :
    KeysAgree s' := by
  have hfound : ∀ k' b, s'.jobMap.find k' = some b → s.jobMap.find k' = some b := by
    intro k' b hb
    rw [hmap, UnorderedMap.find_erase] at hb
    split at hb
    · cases hb
    · exact hb
  constructor
  · intro b hb
    have hb := hmade b hb
    rw [hmap, UnorderedMap.find_erase, if_neg, h.made_found b hb]
    rintro rfl
    exact hkey b hb (h.made_found b hb)
  · exact fun k' b hb => h.found_key k' b (hfound k' b hb)
  · intro b hb k' hk'
    rcases hdestroyed b hb with hb | hb
    · exact h.destroyed_gone b hb k' (hfound k' b hk')
    · exact hb k' (hfound k' b hk')

/-- Every allowed action keeps the keys in agreement. -/
theorem KeysAgree.exec {o : Unit} (h : KeysAgree s) (hcount : Counted s (l ++ pc :: r))
    (hG : OwnKey pc o s (l ++ pc :: r)) (hexec : exec pc o s = some (s', pc')) :
    KeysAgree s' := by
  cases pc with
  | batchedDbJob caller =>
    cases caller <;> cases hexec <;> exact h.keep rfl rfl rfl
  | registerDbJob job caller =>
    have hlive : job ∉ s.destroyed := fun hd =>
      hcount.gone job (.inl hd) (hcount.referenced (by simp [Pc.owns]))
    simp only [Db.exec] at hexec
    split at hexec
    · cases hexec
    · cases caller with
      | makeBatchedDbJob =>
        cases hexec
        refine h.insert hlive hG.1 rfl (fun b hb => ?_) rfl
        rcases List.mem_cons.mp hb with rfl | hb
        · right
          show (s.jobMap.insert s.jobKey b).find b.dbJobKey = some b
          by_cases hfree : s.jobMap.find s.jobKey = none
          · rw [UnorderedMap.find_insert_of_none hfree, if_pos (hG.1 hfree)]
          · exact UnorderedMap.find_insert_of_found (hG.2 hfree rfl) _ _
        · exact .inl hb
      | other =>
        cases hexec
        exact h.insert hlive hG.1 rfl (fun b hb => .inl hb) rfl
  | getRegistedDbJob jobKey =>
    simp only [Db.exec] at hexec
    split at hexec
    · cases hexec
    · split at hexec <;> cases hexec <;> exact h.keep rfl rfl rfl
  | releaseSharedPtr job =>
    cases hexec
    exact h.keep rfl rfl rfl
  | deregisterDbJob job =>
    -- the batch being destroyed has no entry: nothing refers to it any more
    have hjob : ∀ k, s.jobMap.find k ≠ some job := fun k hk =>
      hcount.gone job (.inr (List.mem_append_right _ List.mem_cons_self))
        (.inl (UnorderedMap.mem_values.mpr ⟨k, hk⟩))
    have hmade : ∀ b ∈ s.made.filter (· ≠ job), b ∈ s.made := fun b hb =>
      List.mem_of_mem_filter hb
    have hdestroyed : ∀ b ∈ job :: s.destroyed,
        b ∈ s.destroyed ∨ ∀ k', s.jobMap.find k' ≠ some b := by
      intro b hb
      rcases List.mem_cons.mp hb with rfl | hb
      · exact .inr hjob
      · exact .inl hb
    simp only [Db.exec] at hexec
    split at hexec
    · cases hexec
    · split at hexec
      · cases hexec
        exact h.erase hG rfl hmade hdestroyed
      · split at hexec <;> cases hexec <;> exact h.erase hG rfl hmade hdestroyed
  | finished => cases hexec

/-- `OwnKey` asks for nothing more than agreement does: an action that leaves the
keys in agreement was allowed. -/
theorem KeysAgree.ownKey {o : Unit} (h : KeysAgree s) (hcount : Counted s (l ++ pc :: r))
    (hexec : Db.exec pc o s = some (s', pc')) (h' : KeysAgree s') :
    OwnKey pc o s (l ++ pc :: r) := by
  cases pc with
  | registerDbJob job caller =>
    have hmap : s'.jobMap = s.jobMap.insert s.jobKey job := by
      simp only [Db.exec] at hexec
      split at hexec
      · cases hexec
      · cases caller <;> cases hexec <;> rfl
    constructor
    · intro hfree
      refine (h'.found_key s.jobKey job ?_).symm
      rw [hmap, UnorderedMap.find_insert_of_none hfree, if_pos rfl]
    · rintro htaken rfl
      obtain ⟨c, hc⟩ := Option.ne_none_iff_exists'.mp htaken
      have hmade : job ∈ s'.made := by
        simp only [Db.exec] at hexec
        split at hexec <;> cases hexec
        exact List.mem_cons_self
      have hfind := h'.made_found job hmade
      rwa [hmap, UnorderedMap.insert_of_some hc] at hfind
  | deregisterDbJob job =>
    intro b hb hfind
    have hne : b ≠ job := by
      rintro rfl
      exact hcount.gone b (.inr (List.mem_append_right _ List.mem_cons_self))
        (.inl (UnorderedMap.mem_values.mpr ⟨_, hfind⟩))
    have hboth : s'.jobMap = s.jobMap.erase job.dbJobKey ∧
        s'.made = s.made.filter (· ≠ job) := by
      simp only [Db.exec] at hexec
      split at hexec
      · cases hexec
      · split at hexec
        · cases hexec
          exact ⟨rfl, rfl⟩
        · split at hexec <;> cases hexec <;> exact ⟨rfl, rfl⟩
    obtain ⟨hmap, hmade⟩ := hboth
    have hkey := h'.made_found b (hmade ▸ List.mem_filter.mpr ⟨hb, by simpa using hne⟩)
    rw [hmap, UnorderedMap.find_erase, if_pos (h.found_key _ b hfind).symm] at hkey
    cases hkey
  | _ => trivial

/-- **The registry resolves a batch's key to that batch**, in every state
reached by registrations and destructors that meet `OwnKey`. -/
theorem keysAgree {c : Config State Pc} (h : manager.Run OwnKey manager.init c) :
    KeysAgree c.shared := by
  refine Run.induct (I := fun s _ => KeysAgree s) h ?_ ?_ ?_
  · constructor
    · intro b hb
      cases hb
    · intro k b hb
      cases hb
    · intro b hb
      cases hb
  · intro s l pc r o s' pc' hrun hI hG hexec
    exact hI.exec (counted hrun.anywhere) hG hexec
  · intro s ts e s' pc _ hI hspawn
    obtain ⟨hmanager, hhistory, -⟩ := spawn_frame hspawn
    exact hI.keep (congrArg DbJobManager.jobMap hmanager)
      (congrArg RegisterHistory.made hhistory) (congrArg RegisterHistory.destroyed hhistory)

/-- A batch that is constructed, never registered, looked for and destroyed. -/
theorem keysAgree_unregistered :
    ∃ c, manager.Run OwnKey manager.init c ∧ KeysAgree c.shared ∧
      c.shared.destroyed = [⟨0, 1⟩] := by
  obtain ⟨c, hc, hd⟩ := exists_run manager OwnKey manager.init
    [.event .batchedDbJob, .run 0 (), .event (.getRegistedDbJob 1), .run 1 (),
      .event (.releaseSharedPtr ⟨0, 1⟩), .run 2 (), .run 2 ()]
    (P := fun c => c.shared.destroyed = [⟨0, 1⟩]) (by decide +kernel)
  exact ⟨c, hc, keysAgree hc, hd⟩

/-- The first batch that `MakeBatchedDBJob` returns carries the key 1 and is
filed under 2: its own key leads nowhere. -/
theorem misfiled_first_batch :
    ∃ c, manager.Reachable manager.init c ∧ ¬KeysAgree c.shared := by
  obtain ⟨c, hc, b, hb, hfind⟩ := exists_run manager unguarded manager.init
    [.event .makeBatchedDbJob, .run 0 (), .run 0 ()]
    (P := fun c => ∃ b ∈ c.shared.made, c.shared.jobMap.find b.dbJobKey ≠ some b)
    (by decide +kernel)
  exact ⟨c, hc, fun h => hfind (h.made_found b hb)⟩

/-! ## Before the counter wraps -/

/-- The `n`-th key that is drawn is `n + 1`: the counter, the key of every
batch that is alive, and the keys of the entries. -/
structure Numbered (s : State) : Prop where
  counter : s.jobKey = .ofNat (s.drawn + 1)
  batch : ∀ b, s.Referenced b → b.dbJobKey = .ofNat (b.id + 1)
  entry : ∀ k b, s.jobMap.find k = some b → ∃ n < s.drawn, k = .ofNat (n + 1)

theorem ofNat_add_one (n : Nat) : UInt64.ofNat (n + 1) + 1 = .ofNat (n + 1 + 1) :=
  (UInt64.ofNat_add _ _).symm

/-- An action draws no key and files nothing, or draws one and files at most
under that one. -/
theorem exec_draws {o : Unit} (hexec : exec pc o s = some (s', pc')) :
    (s'.drawn = s.drawn ∧ s'.jobKey = s.jobKey ∧
      ∀ k b, s'.jobMap.find k = some b → s.jobMap.find k = some b) ∨
    (s'.drawn = s.drawn + 1 ∧ s'.jobKey = s.jobKey + 1 ∧
      ∀ k b, s'.jobMap.find k = some b → s.jobMap.find k = some b ∨ k = s.jobKey) := by
  cases pc with
  | batchedDbJob caller =>
    cases caller <;> cases hexec <;> exact .inr ⟨rfl, rfl, fun k b hb => .inl hb⟩
  | registerDbJob job caller =>
    have hinsert : ∀ k b, (s.jobMap.insert s.jobKey job).find k = some b →
        s.jobMap.find k = some b ∨ k = s.jobKey := by
      intro k b hb
      cases hfind : s.jobMap.find s.jobKey with
      | some c =>
        rw [UnorderedMap.insert_of_some hfind] at hb
        exact .inl hb
      | none =>
        rw [UnorderedMap.find_insert_of_none hfind] at hb
        split at hb
        · next hk => exact .inr hk.symm
        · exact .inl hb
    simp only [Db.exec] at hexec
    split at hexec
    · cases hexec
    · cases caller <;> cases hexec <;> exact .inr ⟨rfl, rfl, hinsert⟩
  | getRegistedDbJob jobKey =>
    simp only [Db.exec] at hexec
    split at hexec
    · cases hexec
    · split at hexec <;> cases hexec <;> exact .inl ⟨rfl, rfl, fun k b hb => hb⟩
  | releaseSharedPtr job =>
    cases hexec
    exact .inl ⟨rfl, rfl, fun k b hb => hb⟩
  | deregisterDbJob job =>
    have herase : ∀ k b, (s.jobMap.erase job.dbJobKey).find k = some b →
        s.jobMap.find k = some b := by
      intro k b hb
      rw [UnorderedMap.find_erase] at hb
      split at hb
      · cases hb
      · exact hb
    simp only [Db.exec] at hexec
    split at hexec
    · cases hexec
    · split at hexec
      · cases hexec
        exact .inl ⟨rfl, rfl, herase⟩
      · split at hexec <;> cases hexec <;> exact .inl ⟨rfl, rfl, herase⟩
  | finished => cases hexec

/-- Every action keeps the numbering. -/
theorem Numbered.exec {o : Unit} (h : Numbered s) (hcount : Counted s (l ++ pc :: r))
    (hexec : exec pc o s = some (s', pc')) : Numbered s' := by
  have hbatch : ∀ b, s'.Referenced b → b.dbJobKey = .ofNat (b.id + 1) := by
    intro b hb
    by_cases hpc : ∃ caller, pc = .batchedDbJob caller
    · obtain ⟨caller, rfl⟩ := hpc
      cases caller <;> cases hexec <;> rcases hb with hb | hb | hb <;>
        first
          | exact h.batch b (.inl hb)
          | exact h.batch b (.inr (.inl hb))
          | exact h.batch b (.inr (.inr hb))
          | (rcases List.mem_cons.mp hb with rfl | hb
             · exact h.counter
             · first
                 | exact h.batch b (.inr (.inl hb))
                 | exact h.batch b (.inr (.inr hb)))
    · exact h.batch b (exec_referenced hcount hexec (fun caller he => hpc ⟨caller, he⟩) hb)
  rcases exec_draws hexec with ⟨hdrawn, hkey, hfind⟩ | ⟨hdrawn, hkey, hfind⟩
  · refine ⟨by rw [hkey, hdrawn, h.counter], hbatch, fun k b hb => ?_⟩
    rw [hdrawn]
    exact h.entry k b (hfind k b hb)
  · refine ⟨by rw [hkey, hdrawn, h.counter, ofNat_add_one], hbatch, fun k b hb => ?_⟩
    rw [hdrawn]
    rcases hfind k b hb with hb | rfl
    · obtain ⟨n, hn, hk⟩ := h.entry k b hb
      exact ⟨n, Nat.lt_succ_of_lt hn, hk⟩
    · exact ⟨s.drawn, Nat.lt_succ_self _, h.counter⟩

/-- The numbering holds along every run. -/
theorem numbered {c : Config State Pc} (h : manager.Reachable manager.init c) :
    Numbered c.shared := by
  refine Run.induct (I := fun s _ => Numbered s) h ?_ ?_ ?_
  · refine ⟨rfl, ?_, ?_⟩
    · rintro b (hb | hb | hb) <;> cases hb
    · intro k b hb
      cases hb
  · intro s l pc r o s' pc' hrun hI _ hexec
    exact hI.exec (counted hrun) hexec
  · intro s ts e s' pc hrun hI hspawn
    obtain ⟨hmanager, hhistory, href⟩ := spawn_frame hspawn
    have hmap := congrArg DbJobManager.jobMap hmanager
    have hkey := congrArg DbJobManager.jobKey hmanager
    have hdrawn := congrArg RegisterHistory.drawn hhistory
    refine ⟨?_, fun b hb => hI.batch b (href b hb), fun k b hb => ?_⟩
    · rw [hkey, hdrawn]
      exact hI.counter
    · rw [hmap] at hb
      rw [hdrawn]
      exact hI.entry k b hb

/-- Two keys drawn before the counter wraps are different. -/
theorem ofNat_ne_of_lt {m n : Nat} (hmn : m < n) (hn : n < 2 ^ 64) :
    UInt64.ofNat n ≠ .ofNat m := by
  intro he
  have hnat := congrArg UInt64.toNat he
  rw [UInt64.toNat_ofNat_of_lt' hn, UInt64.toNat_ofNat_of_lt' (hmn.trans hn)] at hnat
  omega

/-- **Until `2 ^ 64 - 1` keys are drawn, `RegisterDBJob` never files a batch
under its own key.** -/
theorem not_ownKey_of_lt {o : Unit} {job : BatchedDbJob} {caller : Caller}
    (h : manager.Reachable manager.init ⟨s, l ++ .registerDbJob job caller :: r⟩)
    (hdrawn : s.drawn + 1 < 2 ^ 64) :
    ¬OwnKey (.registerDbJob job caller) o s (l ++ .registerDbJob job caller :: r) := by
  rintro ⟨hfree, -⟩
  have hnum := numbered h
  have hcount := counted h
  have hjob : s.Referenced job := hcount.referenced (by simp [Pc.owns])
  have hid := hcount.known job (.inl hjob)
  have hnone : s.jobMap.find s.jobKey = none := by
    rw [Option.eq_none_iff_forall_ne_some]
    intro b hb
    obtain ⟨n, hn, hk⟩ := hnum.entry _ _ hb
    rw [hnum.counter] at hk
    exact ofNat_ne_of_lt (Nat.succ_lt_succ hn) hdrawn hk
  have hkey := hfree hnone
  rw [hnum.counter, hnum.batch job hjob] at hkey
  exact ofNat_ne_of_lt (Nat.succ_lt_succ hid) hdrawn hkey

end RioServer.Db
