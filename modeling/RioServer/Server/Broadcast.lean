import RioServer.Server.Tables

/-!
# Broadcast targets and the session map (Broadcaster.cpp)

`sessionIdSet` should hold the ids of `sessionMap`. Two orders break this. The
accepter calls `OnSessionEntered` after it has given up its own reference, so
the session may have left already, and then its id is put back for ever; its own
failed `RecvPost` is enough. And `RecvCompleted` calls `ReleaseSession` itself
after a packet error, past `OnSessionLeaved`.

`EntersUnreleased` excludes these two and nothing else: the session's own
machine keeps `Listed` (`listed_of_run`), and when nothing is on its way in or
out the two tables agree, for every session of the server (`broadcast_targets`).
-/

namespace RioServer

open Machine

variable {spec : NetBufferSpec} {s s' : State} {pc pc' : Pc} {l r ts : List Pc}

/-- **The exception**: `OnSessionEntered` comes before the session has
left, and `RecvCompleted` releases only a session that is not a target. -/
def EntersUnreleased (pc : Pc) (s : State) (ts : List Pc) : Prop :=
  match pc with
  | .makeNewSession .onSessionEntered => s.releases = 0 ∧ load (Pc.leaves .left) ts = 0
  | .release .releaseSession (.recvCompleted _ _) => s.inSessionIdSet = false
  | _ => True

instance (pc : Pc) (s : State) (ts : List Pc) : Decidable (EntersUnreleased pc s ts) :=
  decidable_of_iff
    ((match pc with
      | .makeNewSession .onSessionEntered =>
        decide (s.releases = 0 ∧ load (Pc.leaves .left) ts = 0)
      | .release .releaseSession (.recvCompleted _ _) => decide (s.inSessionIdSet = false)
      | _ => true) = true)
    (by unfold EntersUnreleased; split <;> simp)

/-! ## One session -/

/-- Threads in front of `ReleaseSession`, whichever way they came. -/
def Pc.releasing (pc : Pc) : Nat := pc.leaves .left + pc.leaves .direct

/-- How the two tables keep together: a target is in the map and not leaving,
and a session that is not a target is about to become one or is leaving. -/
structure Listed (s : State) (ts : List Pc) : Prop where
  entered : s.inSessionIdSet = true →
    s.published = true ∧ s.releases = 0 ∧ load (Pc.leaves .left) ts = 0
  kept : s.published = true → s.inSessionMap = true ∨ 1 ≤ s.releases
  removing : 1 ≤ load Pc.removing ts → 1 ≤ s.releases
  erased : 1 ≤ s.releases → s.inSessionMap = false ∨ 1 ≤ load Pc.removing ts
  listed : s.published = true → s.inSessionIdSet = true ∨
    1 ≤ s.releases + load Pc.releasing ts + load (Pc.accepts .entering) ts

/-- Actions that neither add nor remove a session. -/
theorem Listed.congr (hI : Listed s (l ++ pc :: r)) (hpub : s'.published = s.published)
    (hreleases : s'.releases = s.releases) (hmap : s'.inSessionMap = s.inSessionMap)
    (hset : s'.inSessionIdSet = s.inSessionIdSet)
    (hleft : pc'.leaves .left = pc.leaves .left) (hremoving : pc'.removing = pc.removing)
    (hreleasing : pc.releasing ≤ pc'.releasing)
    (hentering : pc'.accepts .entering = pc.accepts .entering) :
    Listed s' (l ++ pc' :: r) := by
  obtain ⟨hentered, hkept, hremoving', herased, hlisted⟩ := hI
  refine ⟨?_, ?_, ?_, ?_, ?_⟩
  · rw [hset, hpub, hreleases, load_place hleft]
    exact hentered
  · rw [hpub, hmap, hreleases]
    exact hkept
  · rw [load_place hremoving, hreleases]
    exact hremoving'
  · rw [hreleases, hmap, load_place hremoving]
    exact herased
  · rw [hpub, hset, hreleases, load_place hentering]
    intro hp
    refine (hlisted hp).imp id fun hle => ?_
    simp only [load_append, load_cons] at hle ⊢
    omega

/-- A target is not released: its id was removed first, or the guard says so. -/
theorem Listed.not_target {caller : ReleaseCaller}
    (hI : Listed s (l ++ .release .releaseSession caller :: r))
    (hG : EntersUnreleased (.release .releaseSession caller) s
      (l ++ .release .releaseSession caller :: r)) : s.inSessionIdSet = false := by
  by_contra hnot
  have hin := Bool.eq_true_of_not_eq_false hnot
  obtain ⟨-, -, hleft⟩ := hI.entered hin
  simp only [load_append, load_cons] at hleft
  cases caller with
  | recvCompleted context result => exact hnot hG
  | _ => simp [Pc.leaves, Pc.leaveStage] at hleft

/-- `ReleaseSession` is entered. -/
theorem Listed.release {caller : ReleaseCaller}
    (hI : Listed s (l ++ .release .releaseSession caller :: r))
    (hG : EntersUnreleased (.release .releaseSession caller) s
      (l ++ .release .releaseSession caller :: r))
    (hset : s'.inSessionIdSet = s.inSessionIdSet) (hreleases : s'.releases = s.releases + 1) :
    Listed s' (l ++ .release .decrementNumOfSession caller :: r) := by
  have hone : (Pc.release .decrementNumOfSession caller).removing = 1 := rfl
  have hremoving : 1 ≤ load Pc.removing (l ++ .release .decrementNumOfSession caller :: r) := by
    rw [load_append, load_cons, hone]
    omega
  refine ⟨fun hin => ?_, fun _ => .inr ?_, fun _ => ?_, fun _ => .inr hremoving,
    fun _ => .inr ?_⟩
  · rw [hset, hI.not_target hG] at hin
    cases hin
  all_goals
    rw [hreleases]
    omega

/-- The entry in `sessionMap` is erased. -/
theorem Listed.erase {caller : ReleaseCaller}
    (hI : Listed s (l ++ .release .eraseSession caller :: r))
    (hpub : s'.published = s.published) (hreleases : s'.releases = s.releases)
    (hset : s'.inSessionIdSet = s.inSessionIdSet) (hmap : s'.inSessionMap = false) :
    Listed s' (l ++ .release .onSessionReleased caller :: r) := by
  have hone : (Pc.release .eraseSession caller).removing = 1 := rfl
  have hreleased : 1 ≤ s'.releases := by
    rw [hreleases]
    refine hI.removing ?_
    rw [load_append, load_cons, hone]
    omega
  have hleft : (Pc.release .onSessionReleased caller).leaves .left =
      (Pc.release .eraseSession caller).leaves .left := rfl
  refine ⟨fun hin => ?_, fun _ => .inr hreleased, fun _ => hreleased, fun _ => .inl hmap,
    fun _ => .inr (by omega)⟩
  rw [hpub, hreleases, load_place hleft]
  exact hI.entered (hset ▸ hin)

/-- **One action keeps the tables together.** -/
theorem TablesEffect.listed (h : TablesEffect s pc s' pc') (hI : Listed s (l ++ pc :: r))
    (hP : Publication s (l ++ pc :: r)) (hpub : pc = .makeNewSession .onSessionEntered →
      s.published = true) (hG : EntersUnreleased pc s (l ++ pc :: r)) :
    Listed s' (l ++ pc' :: r) := by
  cases h with
  | quiet same accept leave =>
    refine hI.congr same.published same.releases same.inSessionMap same.inSessionIdSet
      (leaves_of_quiet leave (by decide) (by decide)) (removing_of_quiet leave) ?_
      (accepts_of_eq accept _)
    rw [Pc.releasing, Pc.releasing, leaves_of_quiet leave (by decide) (by decide)]
    rcases leave with leave | ⟨leave, -⟩
    · rw [Pc.leaves, Pc.leaves, Pc.leaves, leave]
    · simp [Pc.leaves, leave]
  | incrementNumOfSession hpc hs hpc' | incrementSessionCount hpc hs hpc' =>
    subst hpc hs hpc'
    exact hI.congr rfl rfl rfl rfl rfl rfl (Nat.le_refl _) rfl
  | decrementNumOfSession caller hpc hs hpc' | decrementSessionCount caller hpc hs hpc' =>
    subst hpc hs hpc'
    exact hI.congr rfl rfl rfl rfl rfl rfl (Nat.le_refl _) (accepts_release _ _ caller _)
  | emplace hpc hs hpc' =>
    obtain ⟨rfl, rfl, hreleases, hs', rfl, rfl⟩ := hP.of_emplace ⟨hpc, hs, hpc'⟩
    have hset := hs'.inSessionIdSet
    refine ⟨fun hin => ?_, fun _ => .inl rfl, fun hle => ?_, fun hle => ?_, fun _ => .inr ?_⟩
    · rw [show s.inSessionIdSet = true from hin] at hset
      cases hset
    · simp [Pc.removing, Pc.leaves, Pc.leaveStage] at hle
    · rw [show s.releases = 0 from hreleases] at hle
      omega
    · simp [Pc.accepts, Pc.acceptStage]
  | onSessionEntered hpc hs hpc' =>
    have hpublished := hpub hpc
    subst hpc hs hpc'
    obtain ⟨hreleases, hleft⟩ := hG
    have hleaves : (Pc.makeNewSession .incrementSessionCount).leaves .left =
        (Pc.makeNewSession .onSessionEntered).leaves .left := rfl
    have hremoving : (Pc.makeNewSession .incrementSessionCount).removing =
        (Pc.makeNewSession .onSessionEntered).removing := rfl
    refine ⟨fun _ => ⟨hpublished, hreleases, ?_⟩, hI.kept, ?_, ?_, fun _ => .inl rfl⟩
    · rw [load_place hleaves]
      exact hleft
    · rw [load_place hremoving]
      exact hI.removing
    · rw [load_place hremoving]
      exact hI.erased
  | onSessionLeaved caller hpc hs hpc' =>
    subst hpc hs hpc'
    have hremoving : (Pc.release .releaseSession caller).removing =
        (Pc.release .onSessionLeaved caller).removing := by
      cases caller <;> rfl
    refine ⟨fun hin => Bool.noConfusion hin, hI.kept, ?_, ?_, fun _ => .inr ?_⟩
    · rw [load_place hremoving]
      exact hI.removing
    · rw [load_place hremoving]
      exact hI.erased
    · have hone : (Pc.release .releaseSession caller).releasing = 1 := by
        cases caller <;> rfl
      simp only [load_append, load_cons, hone]
      omega
  | releaseSession caller hs hpc hpc' =>
    subst hpc hs hpc'
    exact hI.release hG rfl rfl
  | eraseSession caller hpc hs hpc' =>
    subst hpc hs hpc'
    exact hI.erase rfl rfl rfl rfl

/-- **The tables keep together**, along every guarded run of the session. -/
theorem listed_of_run {c : Config State Pc}
    (h : (server spec).Run (RioTestServer.emplacing EntersUnreleased) server.init c) :
    Listed c.shared c.threads := by
  refine Run.induct h ?_ ?_ ?_
  · exact ⟨fun hin => Bool.noConfusion hin, fun hp => Bool.noConfusion hp, fun hle => by
      simp [server.init, Pc.removing, Pc.leaves, Pc.leaveStage] at hle, fun hle => by
      simp [server.init, State.initial] at hle, fun hp => Bool.noConfusion hp⟩
  · intro s l pc r o s' pc' hrun hI hG hexec
    refine (run_tables hrun hG hexec).listed hI (publication hrun.anywhere) ?_ hG.1
    intro hpc
    exact published_of_entered hrun (by simp [hpc])
  · intro s ts e s' pc _ hI hspawn
    obtain ⟨same, haccept, hleave⟩ := spawn_tables hspawn
    have hzero : pc.leaves .left = 0 ∧ pc.removing = 0 ∧ pc.releasing = 0 ∧
        pc.accepts .entering = 0 := by
      simp [Pc.removing, Pc.releasing, Pc.leaves, Pc.accepts, haccept, hleave]
    obtain ⟨hleft, hremoving, hreleasing, hentering⟩ := hzero
    obtain ⟨hentered, hkept, hremoving', herased, hlisted⟩ := hI
    refine ⟨?_, ?_, ?_, ?_, ?_⟩ <;>
      simp only [same.published, same.releases, same.inSessionMap, same.inSessionIdSet,
        load_append, load_cons, load_nil, hleft, hremoving, hreleasing, hentering,
        Nat.add_zero] <;> assumption

/-! ## When nothing is in progress -/

/-- The counters inside `MakeNewSession` or a release. -/
def Pc.inProgress : Pc → Bool
  | .makeNewSession .incrementSessionCount | .makeNewSession .closeEnteredSocket => false
  | .makeNewSession _ | .recvPost _ .makeNewSession | .release _ .makeNewSession
  | .release _ .emplaceFailed | .release _ .makeNewSessionFailed => true
  | .release .ioCountDecrement _ => false
  | .release _ _ => true
  | _ => false

/-- Nobody else is on the way in or out. -/
theorem Pc.stages_of_inProgress (h : pc.inProgress = false) :
    pc.removing = 0 ∧ pc.releasing = 0 ∧ pc.accepts .entering = 0 := by
  revert h
  fun_cases Pc.inProgress pc <;> intro h <;>
    first
      | exact Bool.noConfusion h
      | simp_all [Pc.removing, Pc.releasing, Pc.leaves, Pc.accepts, Pc.leaveStage, Pc.acceptStage]

/-- A session is a target exactly when it is in the map. -/
theorem Listed.settled (hI : Listed s ts) (hmap : s.inSessionMap = true → s.published = true)
    (hquiet : ∀ pc ∈ ts, pc.inProgress = false) :
    s.inSessionIdSet = true ↔ s.inSessionMap = true := by
  have hremoving : load Pc.removing ts = 0 :=
    load_eq_zero_iff.mpr fun pc hpc => (Pc.stages_of_inProgress (hquiet pc hpc)).1
  have hreleasing : load Pc.releasing ts = 0 :=
    load_eq_zero_iff.mpr fun pc hpc => (Pc.stages_of_inProgress (hquiet pc hpc)).2.1
  have hentering : load (Pc.accepts .entering) ts = 0 :=
    load_eq_zero_iff.mpr fun pc hpc => (Pc.stages_of_inProgress (hquiet pc hpc)).2.2
  constructor
  · intro hin
    obtain ⟨hpub, hreleases, -⟩ := hI.entered hin
    exact (hI.kept hpub).resolve_right (by omega)
  · intro hin
    refine (hI.listed (hmap hin)).resolve_right fun hle => ?_
    -- a released session would have been erased by now
    rcases hI.erased (by omega) with herased | herasing
    · rw [hin] at herased
      cases herased
    · omega

namespace RioTestServer

variable {numOfWorkerThread : Nat}

/-- **The broadcast targets are the sessions of the map** whenever no
`MakeNewSession` and no release is in progress, in every run that keeps to
`EntersUnreleased` and whose ids do not repeat. -/
theorem broadcast_targets {c : Config RioTestServer Thread}
    (h : (server spec numOfWorkerThread).Run (eachSession EntersUnreleased) server.init c)
    (hacc : c.shared.accepted < 2 ^ 64 - 2)
    (hquiet : ∀ t ∈ c.threads, t.pc.inProgress = false) (id : UInt64) :
    id ∈ c.shared.sessionIdSet ↔ (c.shared.sessionMap.find id).isSome = true := by
  have heach := each_session h hacc
  -- what the session's own machine says about its two entries
  have hsettled : ∀ (i : Nat) (e : Entry), c.shared.sessions[i]? = some e →
      (e.sessionId ∈ c.shared.sessionIdSet ↔
        (c.shared.sessionMap.find e.sessionId).isSome = true) := by
    intro i e he
    have hrun := heach.runs i e he
    have hpcs : ∀ pc ∈ pcsOf i c.threads, pc.inProgress = false := by
      intro pc hpc
      obtain ⟨t, ht, -, rfl⟩ := mem_pcsOf.mp hpc
      exact hquiet t ht
    have hiff := (listed_of_run hrun).settled (inSessionMap_published hrun.anywhere) hpcs
    exact decide_eq_true_iff.symm.trans hiff
  constructor
  · intro hin
    obtain ⟨i, e, he, rfl⟩ := heach.listed id hin
    exact (hsettled i e he).mp hin
  · intro hin
    obtain ⟨i, hfind⟩ := Option.isSome_iff_exists.mp hin
    obtain ⟨e, he, rfl⟩ := heach.mapped id i hfind
    exact (hsettled i e he).mpr hin

/-- A client that connects and closes is a target and is none any more. -/
theorem broadcast_targets_closed :
    ∃ c, c.shared.accepted = 1 ∧
      (server plainSpec 1).Run (eachSession EntersUnreleased) server.init c ∧
      ∀ id, id ∈ c.shared.sessionIdSet ↔ (c.shared.sessionMap.find id).isSome = true := by
  obtain ⟨c, hrun, hacc, hlt, hquiet⟩ := exists_run (server plainSpec 1)
    (eachSession EntersUnreleased) server.init
    (server.connect 0 ++ List.replicate 5 (.run 0 ⟨true, 0⟩) ++
      .event (.session 0 (.completion 0 [])) :: List.replicate 11 (.run 1 ⟨true, 0⟩))
    (P := fun c => c.shared.accepted = 1 ∧ c.shared.accepted < 2 ^ 64 - 2 ∧
      ∀ t ∈ c.threads, t.pc.inProgress = false) (by decide +kernel)
  exact ⟨c, hacc, hrun, broadcast_targets hrun hlt hquiet⟩

/-- The first `RIOReceive` fails: the accepter's decrement releases the session,
and `OnSessionEntered` puts its id into the set afterwards. -/
theorem entered_after_release :
    ∃ c, (server plainSpec 1).Reachable server.init c ∧
      (∀ t ∈ c.threads, t.pc.inProgress = false) ∧
      ∃ id ∈ c.shared.sessionIdSet, c.shared.sessionMap.find id = none := by
  obtain ⟨c, hrun, hquiet, hex⟩ := exists_run (server plainSpec 1) unguarded server.init
    (server.connect 0 ++ List.replicate 11 (.run 0 ⟨false, 0⟩))
    (P := fun c => (∀ t ∈ c.threads, t.pc.inProgress = false) ∧
      ∃ id ∈ c.shared.sessionIdSet, c.shared.sessionMap.find id = none) (by decide +kernel)
  exact ⟨c, hrun, hquiet, hex⟩

end RioTestServer

end RioServer
