import RioServer.Server.Tables

/-!
# The session counters

`sessionCount` and `numOfSessionInWorkerThread` are changed by other functions
than `sessionMap`, on other threads. The accounts below say, for one session,
what each counter still owes: `Accounted` holds along every run in which the
session is released once and no release decrements `sessionCount` before the
accepter has counted the session.

Without the second condition the decrement can come first: the accepter's own
failed `RecvPost` is enough, and the unsigned counter wraps (`count_wrapped`).
`counters_exact` is the result for the server: the counters are the sums of
the sessions' shares (`Shares`), so they are never negative, and they count the
map when nothing is in progress.
-/

namespace RioServer

open Machine

variable {spec : NetBufferSpec} {s s' : State} {pc pc' : Pc} {l r ts : List Pc}

/-- **The exception**: a session is released once, and not past the
decrement of `sessionCount` while its accepter is in front of the increment. -/
def ReleasesCounted (pc : Pc) (s : State) (ts : List Pc) : Prop :=
  match pc with
  | .release .releaseSession _ => s.releases = 0
  | .release .decrementSessionCount _ =>
    load (Pc.accepts .entering) ts + load (Pc.accepts .counting) ts = 0
  | _ => True

instance (pc : Pc) (s : State) (ts : List Pc) : Decidable (ReleasesCounted pc s ts) :=
  decidable_of_iff
    ((match pc with
      | .release .releaseSession _ => decide (s.releases = 0)
      | .release .decrementSessionCount _ =>
        decide (load (Pc.accepts .entering) ts + load (Pc.accepts .counting) ts = 0)
      | _ => true) = true)
    (by unfold ReleasesCounted; split <;> simp)

/-! ## The accounts of one session -/

/-- What each table still owes: to the accepter on its way in, to the release on
its way out. -/
structure Accounted (s : State) (ts : List Pc) : Prop where
  numOfSession : s.numOfSessionInWorkerThread + s.releases = s.published.toNat +
    load (Pc.accepts .emplacing) ts + load (Pc.leaves .decrementNum) ts
  sessionCount : s.sessionCount + s.releases + load (Pc.accepts .entering) ts +
    load (Pc.accepts .counting) ts = s.published.toNat +
      load (Pc.leaves .decrementNum) ts + load (Pc.leaves .decrementCount) ts
  sessionMap : s.inSessionMap.toNat + s.releases = s.published.toNat +
    load (Pc.leaves .decrementNum) ts + load (Pc.leaves .decrementCount) ts +
      load (Pc.leaves .erasing) ts
  once : s.releases ≤ s.published.toNat
  accepting : load (Pc.accepts .entering) ts + load (Pc.accepts .counting) ts ≤
    s.published.toNat
  uncounted : 1 ≤ load (Pc.accepts .entering) ts + load (Pc.accepts .counting) ts →
    s.releases ≤ load (Pc.leaves .decrementNum) ts + load (Pc.leaves .decrementCount) ts

/-- Accounts of the same tables with the same debts. -/
theorem Accounted.congr (hI : Accounted s (l ++ pc :: r)) (hpub : s'.published = s.published)
    (hreleases : s'.releases = s.releases) (hmap : s'.inSessionMap = s.inSessionMap)
    (hcount : s'.sessionCount = s.sessionCount)
    (hnum : s'.numOfSessionInWorkerThread = s.numOfSessionInWorkerThread)
    (haccepts : ∀ stage, pc'.accepts stage = pc.accepts stage)
    (hleaves : ∀ stage, stage ≠ .none → stage ≠ .left → stage ≠ .direct →
      pc'.leaves stage = pc.leaves stage) : Accounted s' (l ++ pc' :: r) := by
  have hemplacing := load_place (haccepts .emplacing) l r
  have hentering := load_place (haccepts .entering) l r
  have hcounting := load_place (haccepts .counting) l r
  have hdecNum := load_place (hleaves .decrementNum (by decide) (by decide) (by decide)) l r
  have hdecCount := load_place (hleaves .decrementCount (by decide) (by decide) (by decide)) l r
  have herasing := load_place (hleaves .erasing (by decide) (by decide) (by decide)) l r
  obtain ⟨hI₁, hI₂, hI₃, hI₄, hI₅, hI₆⟩ := hI
  refine ⟨?_, ?_, ?_, ?_, ?_, ?_⟩ <;>
    simp only [hpub, hreleases, hmap, hcount, hnum, hemplacing, hentering, hcounting, hdecNum,
      hdecCount, herasing] <;>
    assumption

/-- **One action keeps the accounts.** -/
theorem TablesEffect.accounted (h : TablesEffect s pc s' pc')
    (hI : Accounted s (l ++ pc :: r)) (hP : Publication s (l ++ pc :: r))
    (hrelease : ∀ p caller, pc = .release p caller → s.published = true)
    (hG : ReleasesCounted pc s (l ++ pc :: r)) : Accounted s' (l ++ pc' :: r) := by
  cases h with
  | quiet same accept leave =>
    exact hI.congr same.published same.releases same.inSessionMap same.sessionCount
      same.numOfSession (accepts_of_eq accept) fun stage hnone _ hdirect =>
        leaves_of_quiet leave hnone hdirect
  | onSessionEntered hpc hs hpc' | incrementNumOfSession hpc hs hpc'
  | incrementSessionCount hpc hs hpc' =>
    subst hpc hs hpc'
    obtain ⟨hI₁, hI₂, hI₃, hI₄, hI₅, hI₆⟩ := hI
    refine ⟨?_, ?_, ?_, ?_, ?_, ?_⟩ <;>
      simp only [load_append, load_cons, Pc.accepts, Pc.leaves, Pc.acceptStage,
        Pc.leaveStage, reduceCtorEq, if_true, if_false] at hI₁ hI₂ hI₃ hI₄ hI₅ hI₆ ⊢ <;>
      omega
  | emplace hpc hs hpc' =>
    have hunpublished : s.published = false :=
      hP.unpublished_of_mem (List.mem_append_right l List.mem_cons_self) (by rw [hpc]; rfl)
    obtain ⟨rfl, rfl, hreleases, -, rfl, rfl⟩ := hP.of_emplace ⟨hpc, hs, hpc'⟩
    obtain ⟨hI₁, hI₂, hI₃, hI₄, hI₅, hI₆⟩ := hI
    subst hpc
    refine ⟨?_, ?_, ?_, ?_, ?_, ?_⟩ <;>
      simp only [hunpublished, hreleases, List.nil_append, load_cons, load_nil, Pc.accepts,
        Pc.leaves, Pc.acceptStage, Pc.leaveStage, reduceCtorEq, if_true, if_false,
        Bool.toNat_false, Bool.toNat_true] at hI₁ hI₂ hI₃ hI₄ hI₅ hI₆ ⊢ <;>
      omega
  | onSessionLeaved caller hpc hs hpc' =>
    subst hpc hs hpc'
    refine hI.congr rfl rfl rfl rfl rfl (accepts_release _ _ caller) ?_
    intro stage hnone hleft hdirect
    cases caller <;> simp [Pc.leaves, Pc.leaveStage, hnone.symm, hleft.symm, hdirect.symm]
  | releaseSession caller hs hpc hpc' =>
    have hpub := hrelease _ _ hpc
    subst hpc hs hpc'
    have hreleases : s.releases = 0 := hG
    have hleaves : ∀ stage, stage ≠ .left → stage ≠ .direct →
        (Pc.release .releaseSession caller).leaves stage = 0 := by
      intro stage hleft hdirect
      cases caller <;> simp [Pc.leaves, Pc.leaveStage, hleft.symm, hdirect.symm]
    have hnum : (Pc.release .decrementNumOfSession caller).leaves .decrementNum = 1 := rfl
    have hcount : (Pc.release .decrementNumOfSession caller).leaves .decrementCount = 0 := rfl
    have herasing : (Pc.release .decrementNumOfSession caller).leaves .erasing = 0 := rfl
    obtain ⟨hI₁, hI₂, hI₃, hI₄, hI₅, hI₆⟩ := hI
    refine ⟨?_, ?_, ?_, ?_, ?_, ?_⟩ <;>
      simp only [load_append, load_cons, accepts_release .decrementNumOfSession .releaseSession,
        hleaves .decrementNum (by decide) (by decide),
        hleaves .decrementCount (by decide) (by decide),
        hleaves .erasing (by decide) (by decide), hnum, hcount, herasing, hpub,
        Bool.toNat_true] at hI₁ hI₂ hI₃ hI₄ hI₅ hI₆ ⊢ <;>
      omega
  | decrementNumOfSession caller hpc hs hpc' =>
    subst hpc hs hpc'
    obtain ⟨hI₁, hI₂, hI₃, hI₄, hI₅, hI₆⟩ := hI
    refine ⟨?_, ?_, ?_, ?_, ?_, ?_⟩ <;>
      simp only [load_append, load_cons,
        accepts_release .decrementSessionCount .decrementNumOfSession, Pc.leaves, Pc.leaveStage,
        reduceCtorEq, if_true, if_false] at hI₁ hI₂ hI₃ hI₄ hI₅ hI₆ ⊢ <;>
      omega
  | decrementSessionCount caller hpc hs hpc' =>
    subst hpc hs hpc'
    have hcounted : load (Pc.accepts .entering) _ + load (Pc.accepts .counting) _ = 0 := hG
    obtain ⟨hI₁, hI₂, hI₃, hI₄, hI₅, hI₆⟩ := hI
    refine ⟨?_, ?_, ?_, ?_, ?_, ?_⟩ <;>
      simp only [load_append, load_cons, accepts_release .eraseSession .decrementSessionCount,
        Pc.leaves, Pc.leaveStage, reduceCtorEq, if_true, if_false]
          at hcounted hI₁ hI₂ hI₃ hI₄ hI₅ hI₆ ⊢ <;>
      omega
  | eraseSession caller hpc hs hpc' =>
    subst hpc hs hpc'
    have hin : s.inSessionMap.toNat ≤ 1 := Bool.toNat_le _
    obtain ⟨hI₁, hI₂, hI₃, hI₄, hI₅, hI₆⟩ := hI
    refine ⟨?_, ?_, ?_, ?_, ?_, ?_⟩ <;>
      simp only [load_append, load_cons, accepts_release .onSessionReleased .eraseSession,
        Bool.toNat_false, Pc.leaves, Pc.leaveStage, reduceCtorEq, if_true, if_false]
          at hI₁ hI₂ hI₃ hI₄ hI₅ hI₆ ⊢ <;>
      omega

/-- **The accounts hold**, along every guarded run of the session. -/
theorem accounted_of_run {c : Config State Pc}
    (h : (server spec).Run (RioTestServer.emplacing ReleasesCounted) server.init c) :
    Accounted c.shared c.threads := by
  refine Run.induct h ?_ ?_ ?_
  · refine ⟨?_, ?_, ?_, ?_, ?_, ?_⟩ <;>
      simp [server.init, State.initial, Pc.accepts, Pc.leaves, Pc.acceptStage, Pc.leaveStage]
  · intro s l pc r o s' pc' hrun hI hG hexec
    refine (run_tables hrun hG hexec).accounted hI (publication hrun.anywhere) ?_ hG.1
    intro p caller hpc
    have hmem : Pc.release p caller ∈ l ++ pc :: r := by simp [hpc]
    exact published_of_release hrun hmem
  · intro s ts e s' pc _ hI hspawn
    obtain ⟨same, haccept, hleave⟩ := spawn_tables hspawn
    have haccepts : ∀ stage, stage ≠ .none → pc.accepts stage = 0 := fun stage hne => by
      rw [Pc.accepts, haccept, if_neg hne.symm]
    have hleaves : ∀ stage, stage ≠ .none → pc.leaves stage = 0 := fun stage hne => by
      rw [Pc.leaves, hleave, if_neg hne.symm]
    obtain ⟨hI₁, hI₂, hI₃, hI₄, hI₅, hI₆⟩ := hI
    refine ⟨?_, ?_, ?_, ?_, ?_, ?_⟩ <;>
      simp only [same.published, same.releases, same.inSessionMap, same.sessionCount,
        same.numOfSession, load_append, load_cons, load_nil, haccepts .emplacing (by decide),
        haccepts .entering (by decide), haccepts .counting (by decide),
        hleaves .decrementNum (by decide), hleaves .decrementCount (by decide),
        hleaves .erasing (by decide), Nat.add_zero] <;>
      assumption

/-- A session's share is never negative. -/
theorem Accounted.nonneg (hI : Accounted s ts) :
    0 ≤ s.numOfSessionInWorkerThread ∧ 0 ≤ s.sessionCount := by
  obtain ⟨hnum, hcount, -, honce, haccepting, huncounted⟩ := hI
  constructor
  · omega
  · by_cases hle : 1 ≤ load (Pc.accepts .entering) ts + load (Pc.accepts .counting) ts
    · have := huncounted hle
      omega
    · omega

/-! ## When nothing is in progress -/

/-- The counters inside `Accepter`'s handling of a connection, or a release. -/
def Pc.accepting : Pc → Bool
  | .makeNewSession _ | .recvPost _ .makeNewSession | .release _ .makeNewSession
  | .release _ .emplaceFailed | .release _ .makeNewSessionFailed => true
  | .release .ioCountDecrement _ => false
  | .release _ _ => true
  | _ => false

theorem Pc.stages_of_accepting (h : pc.accepting = false) :
    pc.acceptStage = .none ∧ pc.leaveStage = .none := by
  revert h
  fun_cases Pc.accepting pc <;> intro h <;>
    first
      | exact Bool.noConfusion h
      | simp_all [Pc.leaveStage, Pc.acceptStage]

/-- A settled session's share is its entry in the map. -/
theorem Accounted.settled (hI : Accounted s ts) (hquiet : ∀ pc ∈ ts, pc.accepting = false) :
    s.numOfSessionInWorkerThread = s.inSessionMap.toNat ∧
      s.sessionCount = s.inSessionMap.toNat := by
  have haccepts : ∀ stage, stage ≠ .none → load (Pc.accepts stage) ts = 0 :=
    fun stage hne => load_eq_zero_iff.mpr fun pc hpc => by
      rw [Pc.accepts, (Pc.stages_of_accepting (hquiet pc hpc)).1, if_neg hne.symm]
  have hleaves : ∀ stage, stage ≠ .none → load (Pc.leaves stage) ts = 0 :=
    fun stage hne => load_eq_zero_iff.mpr fun pc hpc => by
      rw [Pc.leaves, (Pc.stages_of_accepting (hquiet pc hpc)).2, if_neg hne.symm]
  have hemplacing := haccepts .emplacing (by decide)
  have hentering := haccepts .entering (by decide)
  have hcounting := haccepts .counting (by decide)
  have hnum := hleaves .decrementNum (by decide)
  have hcount := hleaves .decrementCount (by decide)
  have herasing := hleaves .erasing (by decide)
  obtain ⟨hI₁, hI₂, hI₃, -, -, -⟩ := hI
  constructor <;> omega

/-! ## The counters of the server -/

namespace RioTestServer

variable {numOfWorkerThread : Nat} {g g' : RioTestServer} {ts : List Thread} {i : Nat}
  {e : Entry}

/-- The counters are the sums of what the sessions have added to them. -/
structure Shares (g : RioTestServer) : Prop where
  sessionCount : g.sessionCount = (g.sessions.map fun e => e.state.sessionCount).sum
  numOfSession : ∀ threadId, g.numOfSessionInWorkerThread threadId =
    (g.sessions.map fun e =>
      if threadId = e.threadId then e.state.numOfSessionInWorkerThread else 0).sum

/-- Replacing one term of a sum. -/
theorem sum_map_set (f : Entry → Int) {l : List Entry} (he : l[i]? = some e) (d : Entry) :
    ((l.set i d).map f).sum = (l.map f).sum + (f d - f e) := by
  obtain ⟨a, b, rfl, -, hset⟩ := split_of_getElem? he
  rw [hset]
  simp only [List.map_append, List.map_cons, List.sum_append, List.sum_cons]
  omega

theorem Shares.commit (hI : Shares g) (he : g.sessions[i]? = some e) {s s' : State}
    (hcount : s.sessionCount = e.state.sessionCount)
    (hnum : s.numOfSessionInWorkerThread = e.state.numOfSessionInWorkerThread) :
    Shares (g.commit i e s s') where
  sessionCount := by
    refine Eq.trans ?_ (sum_map_set (fun e => e.state.sessionCount) he _).symm
    rw [← hI.sessionCount, ← hcount]
    rfl
  numOfSession threadId := by
    refine Eq.trans ?_ (sum_map_set (fun e =>
      if threadId = e.threadId then e.state.numOfSessionInWorkerThread else 0) he _).symm
    rw [← hI.numOfSession threadId]
    show (if threadId = e.threadId then _ else _) = _
    by_cases ht : threadId = e.threadId
    · simp only [if_pos ht, hnum]
    · simp only [if_neg ht]
      omega

/-- **The counters are sums of shares**, along every run. -/
theorem shares {c : Config RioTestServer Thread}
    (h : (server spec numOfWorkerThread).Reachable server.init c) : Shares c.shared := by
  refine Run.induct (I := fun g _ => Shares g) h ⟨rfl, fun _ => rfl⟩ ?_ ?_
  · intro g l t r o g' t' _ hI _ hexec
    obtain ⟨e, s', pc', he, -, rfl, -⟩ := exec_eq_some hexec
    have hcommit : Shares (g.commit (target t) e (g.view e (g.lookedUp e t.pc)) s') :=
      hI.commit he rfl rfl
    exact ⟨hcommit.sessionCount, hcommit.numOfSession⟩
  · intro g ts ev g' t _ hI hspawn
    rcases spawn_eq_some hspawn with
      ⟨threadId, -, -, -, haccept⟩ | ⟨i, ev', e, s', pc, -, he, -, -, rfl, -⟩
    · obtain ⟨hcount, hnum⟩ := hI
      simp only [accept] at haccept
      split at haccept <;> cases haccept
      · exact ⟨hcount, hnum⟩
      · exact ⟨by simpa [State.initial] using hcount,
          fun t => by simpa [State.initial] using hnum t⟩
    · exact hI.commit he rfl rfl

/-! ## Counting the map -/

/-- The session is in the map. -/
def inMap (g : RioTestServer) (e : Entry) : Bool := (g.sessionMap.find e.sessionId).isSome

/-- `threadId` of the session a map entry points to. -/
def threadOf (g : RioTestServer) (i : Nat) : Option Nat := g.sessions[i]?.map Entry.threadId

theorem countP_range (P : Entry → Bool) (l : List Entry) :
    (List.range l.length).countP (fun i => l[i]?.any P) = l.countP P := by
  have hmap : (List.range l.length).map (fun i => l[i]?) = l.map some := by
    refine List.ext_getElem (by simp) fun i hi hi' => ?_
    simp at hi hi' ⊢
  have hcount := congrArg (List.countP (Option.any P)) hmap
  rw [List.countP_map, List.countP_map] at hcount
  exact hcount

/-- The map's entries are the sessions in the map, each once. -/
theorem Consistent.values_perm (hI : Consistent g ts) (hacc : g.accepted < 2 ^ 64 - 2) :
    g.sessionMap.values.Perm
      ((List.range g.sessions.length).filter fun i => g.sessions[i]?.any g.inMap) := by
  have hnodup : g.sessionMap.values.Nodup := by
    refine UnorderedMap.nodup_values (f := fun i => UInt64.ofNat (i + 2)) fun id i hfind => ?_
    obtain ⟨e, he, rfl⟩ := hI.mapped id i hfind
    exact (hI.issued i e he).symm
  refine (List.perm_ext_iff_of_nodup hnodup (List.nodup_range.filter _)).mpr fun i => ?_
  rw [UnorderedMap.mem_values, List.mem_filter, List.mem_range]
  constructor
  · rintro ⟨id, hfind⟩
    obtain ⟨e, he, rfl⟩ := hI.mapped id i hfind
    refine ⟨lt_length he, ?_⟩
    rw [he, Option.any_some, inMap, hfind]
    rfl
  · rintro ⟨hi, hany⟩
    obtain ⟨e, he⟩ : ∃ e, g.sessions[i]? = some e := ⟨_, List.getElem?_eq_getElem hi⟩
    rw [he, Option.any_some] at hany
    obtain ⟨j, hfind⟩ := Option.isSome_iff_exists.mp hany
    have hj := hI.find_own hacc he hfind
    exact ⟨e.sessionId, hj ▸ hfind⟩

/-- Counting over the map is counting over the sessions. -/
theorem Consistent.countP_values (hI : Consistent g ts) (hacc : g.accepted < 2 ^ 64 - 2)
    (P : Entry → Bool) :
    g.sessionMap.values.countP (fun i => g.sessions[i]?.any P) =
      g.sessions.countP fun e => P e && g.inMap e := by
  rw [(hI.values_perm hacc).countP_eq, List.countP_filter, ← countP_range]
  refine List.countP_congr fun i _ => ?_
  cases g.sessions[i]? <;> simp

theorem sum_map_countP {f : Entry → Int} {P : Entry → Bool} {l : List Entry}
    (h : ∀ e ∈ l, f e = if P e then 1 else 0) : (l.map f).sum = l.countP P := by
  induction l with
  | nil => rfl
  | cons e l ih =>
    rw [List.map_cons, List.sum_cons, ih fun d hd => h d (List.mem_cons_of_mem _ hd),
      h e List.mem_cons_self, List.countP_cons]
    split <;> push_cast <;> omega

/-- No counter is ever negative, and both count the map when no connection is
being accepted and no session released. -/
structure CountersExact (g : RioTestServer) (ts : List Thread) : Prop where
  sessionCount_nonneg : 0 ≤ g.sessionCount
  numOfSession_nonneg : ∀ threadId, 0 ≤ g.numOfSessionInWorkerThread threadId
  sessionCount : (∀ t ∈ ts, t.pc.accepting = false) →
    g.sessionCount = g.sessionMap.entries.length
  numOfSession : (∀ t ∈ ts, t.pc.accepting = false) → ∀ threadId,
    g.numOfSessionInWorkerThread threadId =
      g.sessionMap.values.countP fun i => g.threadOf i = some threadId

/-- Every session of the server keeps its accounts. -/
theorem EachSession.accounted (h : EachSession spec ReleasesCounted g ts)
    (he : e ∈ g.sessions) :
    ∃ i, g.sessions[i]? = some e ∧ Accounted (g.project e) (pcsOf i ts) := by
  obtain ⟨i, hi⟩ := List.getElem?_of_mem he
  exact ⟨i, hi, accounted_of_run (h.runs i e hi)⟩

/-- A settled session has added its entry in the map to each counter. -/
theorem EachSession.settled (h : EachSession spec ReleasesCounted g ts)
    (hquiet : ∀ t ∈ ts, t.pc.accepting = false) (he : e ∈ g.sessions) :
    e.state.numOfSessionInWorkerThread = (if g.inMap e then 1 else 0) ∧
      e.state.sessionCount = (if g.inMap e then 1 else 0) := by
  obtain ⟨i, hi, hI⟩ := h.accounted he
  have hpcs : ∀ pc ∈ pcsOf i ts, pc.accepting = false := by
    intro pc hpc
    obtain ⟨t, ht, -, rfl⟩ := mem_pcsOf.mp hpc
    exact hquiet t ht
  obtain ⟨hnum, hcount⟩ := hI.settled hpcs
  have hmap : (g.project e).inSessionMap = g.inMap e := rfl
  rw [hmap] at hnum hcount
  cases hin : g.inMap e <;> rw [hin] at hnum hcount <;> exact ⟨hnum, hcount⟩

/-- Every entry of the map counts. -/
theorem Consistent.length_values (hI : Consistent g ts) (hacc : g.accepted < 2 ^ 64 - 2) :
    g.sessionMap.entries.length = g.sessions.countP g.inMap := by
  have hall : g.sessionMap.values.countP (fun i => g.sessions[i]?.any fun _ => true) =
      g.sessionMap.values.length := by
    refine List.countP_eq_length.mpr fun i hi => ?_
    obtain ⟨id, hfind⟩ := UnorderedMap.mem_values.mp hi
    obtain ⟨e, he, -⟩ := hI.mapped id i hfind
    rw [he, Option.any_some]
  rw [← UnorderedMap.length_values, ← hall, hI.countP_values hacc]
  simp only [Bool.true_and]

/-- The entries of one worker. -/
theorem Consistent.countP_threadOf (hI : Consistent g ts) (hacc : g.accepted < 2 ^ 64 - 2)
    (threadId : Nat) :
    g.sessionMap.values.countP (fun i => g.threadOf i = some threadId) =
      g.sessions.countP fun e => decide (e.threadId = threadId) && g.inMap e := by
  rw [← hI.countP_values hacc]
  refine List.countP_congr fun i _ => ?_
  rw [threadOf]
  cases g.sessions[i]? <;> simp

/-- **The counters are exact** in every run that keeps to `ReleasesCounted` and
whose ids do not repeat. -/
theorem counters_exact {c : Config RioTestServer Thread}
    (h : (server spec numOfWorkerThread).Run (eachSession ReleasesCounted) server.init c)
    (hacc : c.shared.accepted < 2 ^ 64 - 2) : CountersExact c.shared c.threads := by
  have heach := each_session h hacc
  have hshares := shares h.anywhere
  refine ⟨?_, fun threadId => ?_, fun hquiet => ?_, fun hquiet threadId => ?_⟩
  · rw [hshares.sessionCount]
    refine List.sum_nonneg fun x hx => ?_
    obtain ⟨e, he, rfl⟩ := List.mem_map.mp hx
    obtain ⟨i, -, hI⟩ := heach.accounted he
    exact hI.nonneg.2
  · rw [hshares.numOfSession]
    refine List.sum_nonneg fun x hx => ?_
    obtain ⟨e, he, rfl⟩ := List.mem_map.mp hx
    obtain ⟨i, -, hI⟩ := heach.accounted he
    split
    · exact hI.nonneg.1
    · exact Int.le_refl 0
  · rw [hshares.sessionCount, heach.toConsistent.length_values hacc]
    exact sum_map_countP fun e he => (heach.settled hquiet he).2
  · rw [hshares.numOfSession, heach.toConsistent.countP_threadOf hacc]
    refine sum_map_countP fun e he => ?_
    rw [(heach.settled hquiet he).1]
    by_cases ht : threadId = e.threadId
    · simp [ht]
    · simp [ht, Ne.symm ht]

/-- Two clients connect, the first one closes: one session is counted. -/
theorem counters_exact_closed :
    ∃ c, (∀ t ∈ c.threads, t.pc.accepting = false) ∧ c.shared.sessionCount = 1 ∧
      (server plainSpec 1).Run (eachSession ReleasesCounted) server.init c ∧
      CountersExact c.shared c.threads := by
  obtain ⟨c, hrun, hquiet, hcount, hlt⟩ := exists_run (server plainSpec 1)
    (eachSession ReleasesCounted) server.init
    (server.connect 0 ++ List.replicate 5 (.run 0 ⟨true, 0⟩) ++
      server.connect 1 ++ List.replicate 5 (.run 1 ⟨true, 1⟩) ++
      .event (.session 0 (.completion 0 [])) :: List.replicate 11 (.run 2 ⟨true, 0⟩))
    (P := fun c => (∀ t ∈ c.threads, t.pc.accepting = false) ∧ c.shared.sessionCount = 1 ∧
      c.shared.accepted < 2 ^ 64 - 2) (by decide +kernel)
  exact ⟨c, hquiet, hcount, hrun, counters_exact hrun hlt⟩

/-- The first `RIOReceive` fails: the accepter releases the session before it
counts it. -/
theorem count_wrapped :
    ∃ c, (server plainSpec 1).Reachable server.init c ∧ c.shared.sessionCount < 0 := by
  obtain ⟨c, hrun, hneg⟩ := exists_run (server plainSpec 1) unguarded server.init
    (server.connect 0 ++ List.replicate 6 (.run 0 ⟨false, 0⟩))
    (P := fun c => c.shared.sessionCount < 0) (by decide +kernel)
  exact ⟨c, hrun, hneg⟩

end RioTestServer

end RioServer
