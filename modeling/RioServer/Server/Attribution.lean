import RioServer.Server.EachSession

/-!
# Whose completion it is

A completion says nothing but which pooled context it belongs to, and sessions
come and go while it waits. `completions_attributed` is the guarantee that
`GetIOCompletedContext` gives all the same: as long as ids do not repeat, what
it looks up finds the session that posted the request, or nothing, and nothing
only when `ReleaseSession` has erased that session. No step frees or rewrites a
context while its request is outstanding.

The first half is what `Consistent` says of the memory and of `sessionMap`; the
second needs one more invariant, that a published session is in the map until it
is erased.
-/

namespace RioServer

open Machine

/-- The context whose owner a thread is about to look up. -/
def Pc.identifies : Pc → Option IoContext
  | .worker (.getIoCompletedContext context _) | .worker (.invalidIoCompleted context) =>
    some context
  | _ => none

/-- It is a worker's, and the worker has the context in hand. -/
theorem Pc.of_identifies {pc : Pc} {context : IoContext} (h : context ∈ pc.identifies) :
    ∃ workerPc, pc = .worker workerPc ∧ context ∈ pc.hand := by
  revert h
  fun_cases Pc.identifies pc <;> intro h
  · cases h
    exact ⟨_, rfl, List.mem_singleton_self _⟩
  · cases h
    exact ⟨_, rfl, List.mem_singleton_self _⟩
  · cases h

namespace RioTestServer

variable {spec : NetBufferSpec} {numOfWorkerThread : Nat} {g g' : RioTestServer}
  {ts l r : List Thread} {t t' : Thread} {o : Oracle} {i : Nat} {e : Entry} {s' : State}

/-! ## In the map until erased -/

/-- A published session is in the map, or was erased from it. -/
def KeptOrErased (g : RioTestServer) (e : Entry) : Prop :=
  e.state.published = true → (g.sessionMap.find e.sessionId).isSome = true ∨ e.erased = true

/-- A write records what it erases. -/
theorem keptOrErased_write {contexts : Nat → PooledContext} {leaked : List Nat}
    {accepterBusy : Bool} (hI : Consistent g ts) (hacc : g.accepted < 2 ^ 64 - 2)
    (he : g.sessions[i]? = some e)
    (hkept : ∀ (j : Nat) (d : Entry), g.sessions[j]? = some d → KeptOrErased g d)
    (hpub : s'.published = true → e.state.published = true ∨ s'.inSessionMap = true)
    (j : Nat) (d : Entry)
    (hd : (g.write i e s' contexts leaked accepterBusy).sessions[j]? = some d) :
    KeptOrErased (g.write i e s' contexts leaked accepterBusy) d := by
  have hown := fun j => hI.find_own (j := j) hacc he
  intro hdpub
  rcases sessions_write_cases he hd with ⟨-, rfl⟩ | ⟨hij, hd⟩
  · rw [show (g.written e s').sessionId = e.sessionId from rfl, find_write hown, if_pos rfl]
    by_cases hmap : s'.inSessionMap = true
    · left
      rw [if_pos hmap]
      rfl
    · right
      have hmap' : s'.inSessionMap = false := Bool.eq_false_iff.mpr hmap
      show (e.erased || ((g.sessionMap.find e.sessionId).isSome && !s'.inSessionMap)) = true
      rcases hpub hdpub with hpub | hpub
      · rcases hkept i e he hpub with hin | herased
        · rw [hin, hmap', Bool.not_false, Bool.and_true, Bool.or_true]
        · rw [herased, Bool.true_or]
      · exact absurd hpub hmap
  · have hid : e.sessionId ≠ d.sessionId := fun hid => hij (hI.unique hacc he hd hid)
    rw [find_write hown, if_neg hid]
    exact hkept j d hd hdpub

/-- **In the map until erased**, along every run whose ids do not repeat. -/
theorem keptOrErased {c : Config RioTestServer Thread}
    (h : (server spec numOfWorkerThread).Reachable server.init c)
    (hacc : c.shared.accepted < 2 ^ 64 - 2) :
    ∀ (i : Nat) (e : Entry), c.shared.sessions[i]? = some e → KeptOrErased c.shared e := by
  refine Run.induct (I := fun g _ => g.accepted < 2 ^ 64 - 2 →
    ∀ (i : Nat) (e : Entry), g.sessions[i]? = some e → KeptOrErased g e) h ?_ ?_ ?_ hacc
  · intro _ i e he
    cases he
  · intro g l t r o g' t' hrun hI _ hexec hacc'
    obtain ⟨d, s', pc', -, -, rfl, -⟩ := exec_eq_some hexec
    have hcons := (each_session_of_reachable hrun hacc').toConsistent
    obtain ⟨e, o', s'', pc'', he, hexec', -, hwrite, -⟩ := exec_own hcons hacc' hexec
    rw [hwrite]
    refine keptOrErased_write hcons hacc' he (hI hacc') fun hpub => ?_
    rcases exec_publishes hexec' hpub with hpub | ⟨-, rfl, -⟩
    · exact .inl hpub
    · exact .inr rfl
  · intro g ts ev g' t hrun hI hspawn hacc'
    rcases spawn_eq_some hspawn with
      ⟨threadId, -, -, -, haccept⟩ | ⟨i, ev', e, s', pc, -, he, -, hspawn', rfl, rfl⟩
    · have hcount : g'.accepted = g.accepted + 1 := by
        rw [← accept_accepted g threadId, ← haccept]
      rw [hcount] at hacc'
      have hlt : g.accepted < 2 ^ 64 - 2 := by omega
      have hcons := (each_session_of_reachable hrun hlt).toConsistent
      rw [hcons.accept_eq hacc'] at haccept
      cases haccept
      intro i d hd
      rcases sessions_new_cases hd with hd | ⟨rfl, rfl⟩
      · exact hI hlt i d hd
      · exact fun hpub => Bool.noConfusion hpub
    · have hcons := (each_session_of_reachable hrun hacc').toConsistent
      refine keptOrErased_write hcons hacc' he (hI hacc') fun hpub => .inl ?_
      rw [(spawn_published hspawn').2.1] at hpub
      exact hpub

/-! ## Every completion -/

/-- Completions go to the session that posted the request or to none, and the
context of an outstanding request is as it was posted. -/
structure Attributed (g : RioTestServer) (ts : List Thread) : Prop where
  session : ∀ t ∈ ts, t.session = t.origin
  found : ∀ t ∈ ts, ∀ context ∈ t.pc.identifies, ∀ i,
    g.sessionMap.find (g.contexts context.id).ownerSessionId = some i → i = t.origin
  dropped : ∀ t ∈ ts, ∀ context ∈ t.pc.identifies,
    g.sessionMap.find (g.contexts context.id).ownerSessionId = none →
      ∃ e, g.sessions[t.origin]? = some e ∧ e.erased = true
  intact : ∀ (i : Nat) (e : Entry), g.sessions[i]? = some e →
    ∀ context ∈ e.state.outstanding, context.id ∈ g.contextPool ∧
      g.contexts context.id = ⟨e.sessionId, context.ioType⟩
  once : (g.outstandingIds ++ handIds ts).Nodup

/-- **No completion is attributed to another session**, along every run with
fewer than 2^64 - 2 accepts. -/
theorem completions_attributed {c : Config RioTestServer Thread}
    (h : (server spec numOfWorkerThread).Reachable server.init c)
    (hacc : c.shared.accepted < 2 ^ 64 - 2) : Attributed c.shared c.threads := by
  have heach := each_session_of_reachable h hacc
  have hledger := ledger h
  -- the memory of a context in hand names the session the thread came from
  have howner : ∀ t ∈ c.threads, ∀ context ∈ t.pc.identifies,
      ∃ e, c.shared.sessions[t.origin]? = some e ∧
        (c.shared.contexts context.id).ownerSessionId = e.sessionId := by
    intro t ht context hc
    obtain ⟨-, -, hhand⟩ := Pc.of_identifies hc
    have hthread := heach.threads t ht
    obtain ⟨e, he⟩ : ∃ e, c.shared.sessions[t.origin]? = some e :=
      ⟨_, List.getElem?_eq_getElem hthread.origin⟩
    exact ⟨e, he, by rw [hthread.hand e he context hhand]⟩
  refine ⟨fun t ht => (heach.threads t ht).session, ?_, ?_, ?_, ?_⟩
  · intro t ht context hc i hfind
    obtain ⟨e, he, hid⟩ := howner t ht context hc
    rw [hid] at hfind
    exact heach.toConsistent.find_own hacc he hfind
  · intro t ht context hc hfind
    obtain ⟨e, he, hid⟩ := howner t ht context hc
    obtain ⟨workerPc, hpc, -⟩ := Pc.of_identifies hc
    have hpub : (c.shared.project e).published = true :=
      (publication (heach.runs _ e he).anywhere).published_of_mem
        (mem_pcsOf.mpr ⟨t, ht, rfl, hpc⟩) id
    rw [hid] at hfind
    rcases keptOrErased h hacc _ e he hpub with hin | herased
    · rw [hfind] at hin
      cases hin
    · exact ⟨e, he, herased⟩
  · intro i e he context hc
    refine ⟨hledger.mem_pool (List.mem_append_left _ ?_),
      heach.outstanding i e he context hc⟩
    exact List.mem_flatMap.mpr ⟨e, List.mem_of_getElem? he, List.mem_map_of_mem hc⟩
  · exact (List.nodup_append.mp (hledger.perm.nodup_iff.mp hledger.nodup)).1

/-- A second connection reuses the context of the first one, which has closed,
and waits for its completion. -/
theorem completions_attributed_reused :
    ∃ c, c.shared.outstandingIds = [0] ∧ (c.shared.contexts 0).ownerSessionId = 3 ∧
      (server plainSpec 1).Reachable server.init c ∧ c.shared.accepted < 2 ^ 64 - 2 ∧
      Attributed c.shared c.threads := by
  obtain ⟨c, hrun, hout, howner, hacc⟩ := exists_run (server plainSpec 1) unguarded server.init
    (server.connect 0 ++ List.replicate 5 (.run 0 ⟨true, 0⟩) ++
      .event (.session 0 (.completion 0 [])) :: List.replicate 11 (.run 1 ⟨true, 0⟩) ++
      server.connect 2 ++ List.replicate 5 (.run 2 ⟨true, 0⟩))
    (P := fun c => c.shared.outstandingIds = [0] ∧
      (c.shared.contexts 0).ownerSessionId = 3 ∧ c.shared.accepted < 2 ^ 64 - 2)
    (by decide +kernel)
  exact ⟨c, hout, howner, hrun, hacc, completions_attributed hrun hacc⟩

end RioTestServer

end RioServer
