import RioServer.Server.Contexts
import RioServer.Server.Ownership

/-!
# Each session of the server runs by itself

A step of the server touches one session's slice of the shared state: its own
fields, its entry of `sessionMap`, its id in `sessionIdSet` and the pooled
contexts that carry its id. So as long as ids do not repeat, what the server
does to a session is a run of that session's own machine (Session.lean), and
what is known of such runs holds for every session of the server.

- `project`: a session's slice, as a `State`.
- `Consistent`: ids name sessions, contexts carry the id of the session they are
  posted for, and a thread works for the session it came from.
- `each_session`: along every run with fewer than 2^64 - 2 accepts the server is
  consistent and every slice is reached by a run of `server spec`, guarded as the
  server's run is and with every `emplace` succeeding.
-/

namespace RioServer

open Machine

/-! ## What a session sees of the tables -/

variable {spec : NetBufferSpec} {o : Oracle} {s s' : State} {pc' : Pc}

/-- The counters whose action takes an object from `contextPool`. -/
def Pc.allocates : Pc → Bool
  | .sendPost .makeSendStream _ | .recvPost .rioReceive _ => true
  | _ => false

/-- An action on a part of the pool: it needs the objects that it frees and a
new one that is counted to the part. -/
theorem exec_filterPool {pc : Pc} {p : Nat → Bool} (h : exec spec pc o s = some (s', pc'))
    (hnew : pc.allocates = true → p o.context = true) :
    exec spec pc o { s with contextPool := s.contextPool.filter p } =
      some ({ s' with contextPool := s'.contextPool.filter p }, pc') := by
  revert h
  cases pc with
  | makeNewSession pc =>
    simp only [exec, Option.some.injEq]
    fun_cases execMakeNewSession o s pc <;> rintro ⟨⟩ <;> simp [execMakeNewSession, *]
  | sendPacket pc isEncoded packet =>
    simp only [exec]
    fun_cases execSendPacket spec s isEncoded packet pc <;> rintro ⟨⟩ <;>
      simp [execSendPacket, *]
  | sendPost pc caller =>
    simp only [exec]
    fun_cases execSendPost o s caller pc <;> rintro ⟨⟩ <;>
      simp_all [execSendPost, Pc.allocates]
  | recvPost pc caller =>
    simp only [exec]
    fun_cases execRecvPost spec o s caller pc <;> rintro ⟨⟩ <;>
      simp_all [execRecvPost, recvContext, Pc.allocates]
  | release pc caller =>
    simp only [exec]
    fun_cases execRelease s caller pc <;> rintro ⟨⟩ <;> simp [execRelease, *]
  | worker pc =>
    simp only [exec]
    fun_cases execWorker spec s pc <;> rintro ⟨⟩ <;>
      first | rfl | simp_all [execWorker, List.erase_filter]
  | finished => rintro ⟨⟩

/-- Events do not look at the pool. -/
theorem spawn_filterPool {e : Event} {pc : Pc} (p : Nat → Bool)
    (h : spawn e s = some (s', pc)) :
    spawn e { s with contextPool := s.contextPool.filter p } =
      some ({ s' with contextPool := s'.contextPool.filter p }, pc) := by
  cases e with
  | completion i bytes =>
    obtain ⟨context, hbusy, hi, hlen, rfl, rfl⟩ := spawn_completion h
    have hlen' : ¬ context.length < bytes.length := by omega
    simp [spawn, hbusy, hi, hlen']
  | _ =>
    obtain ⟨hif, rfl, rfl⟩ := Option.ite_none_right_eq_some.mp h
    simp [spawn, hif, startSend]

/-- Where `emplace` succeeds, nobody takes the map's lock for longer. -/
theorem exec_lock {pc : Pc} (h : exec spec pc o s = some (s', pc'))
    (hok : pc = .makeNewSession .emplace → o.ok = true) (hlock : s.sessionMapLocked = false) :
    s'.sessionMapLocked = false := by
  cases exec_map h with
  | same _ _ locked | erase _ _ locked => exact locked.trans hlock
  | emplace _ hs =>
    rw [hs]
    exact hlock
  | emplaceFailed hpc failed => exact absurd (hok hpc) failed
  | leaveEmplace _ _ locked => exact locked

/-- What is in the map has been published. -/
theorem exec_inSessionMap_published {pc : Pc} (h : exec spec pc o s = some (s', pc'))
    (hI : s.inSessionMap = true → s.published = true) :
    s'.inSessionMap = true → s'.published = true := by
  cases exec_map h with
  | same published inSessionMap | emplaceFailed _ _ published inSessionMap
  | leaveEmplace published inSessionMap =>
    rw [published, inSessionMap]
    exact hI
  | emplace _ hs =>
    rw [hs]
    exact fun _ => rfl
  | erase _ inSessionMap =>
    rw [inSessionMap]
    exact fun hmap => Bool.noConfusion hmap

theorem inSessionMap_published {c : Config State Pc}
    (h : (server spec).Reachable server.init c) :
    c.shared.inSessionMap = true → c.shared.published = true := by
  refine Run.induct (I := fun s _ => s.inSessionMap = true → s.published = true) h
    (fun hmap => Bool.noConfusion hmap) ?_ ?_
  · intro s l pc r o s' pc' _ hI _ hexec
    exact exec_inSessionMap_published hexec hI
  · intro s ts e s' pc _ hI hspawn hmap
    obtain ⟨-, htables, hhistory⟩ := spawn_frame hspawn
    rw [htables] at hmap
    rw [hhistory]
    exact hI hmap

/-! ## What an action does to the part of the pool with an id -/

section

variable {pc : Pc} {contexts : Nat → PooledContext} {e : Entry}

/-- `InitContext` writes to an object that was free. -/
theorem ContextEffect.memory_of_mem (h : ContextEffect o s pc s' pc') {a : Nat}
    (ha : a ∈ s.contextPool) : RioTestServer.initContext contexts e o pc a = contexts a := by
  cases h with
  | keep _ _ _ _ memory | post _ _ _ _ _ memory | leak _ _ _ _ _ memory
  | free _ _ _ _ _ memory => rw [memory]
  | make _ _ fresh _ _ _ _ memory | receive _ _ fresh _ _ _ _ memory
  | lose _ fresh _ _ _ _ memory =>
    rw [memory, Function.update_of_ne]
    exact fun heq => fresh (heq ▸ ha)

/-- What the pool gains carries the id of the session. -/
theorem ContextEffect.mem_pool (h : ContextEffect o s pc s' pc') {a : Nat}
    (ha : a ∈ s'.contextPool) :
    a ∈ s.contextPool ∨
      (RioTestServer.initContext contexts e o pc a).ownerSessionId = e.sessionId := by
  cases h with
  | keep pool | post _ pool | leak _ pool => exact .inl (pool ▸ ha)
  | free _ pool => exact .inl (List.mem_of_mem_erase (pool ▸ ha))
  | make _ _ _ pool _ _ _ memory | receive _ _ _ pool _ _ _ memory
  | lose _ _ pool _ _ _ memory =>
    rcases List.mem_cons.mp (pool ▸ ha) with rfl | ha
    · right
      rw [memory, Function.update_self]
    · exact .inl ha

/-- Requests and hands carry the id of the session and their own type. -/
theorem ContextEffect.carries (h : ContextEffect o s pc s' pc')
    (hold : ∀ context ∈ s.outstanding ++ pc.hand, context.id ∈ s.contextPool ∧
      contexts context.id = ⟨e.sessionId, context.ioType⟩)
    {context : IoContext} (hc : context ∈ s'.outstanding ++ pc'.hand) :
    RioTestServer.initContext contexts e o pc context.id =
      ⟨e.sessionId, context.ioType⟩ := by
  have hkeep : ∀ d ∈ s.outstanding ++ pc.hand,
      RioTestServer.initContext contexts e o pc d.id = ⟨e.sessionId, d.ioType⟩ := by
    intro d hd
    rw [h.memory_of_mem (hold d hd).1]
    exact (hold d hd).2
  cases h with
  | keep _ outstanding hand | lose _ _ _ outstanding hand =>
    rw [outstanding, hand] at hc
    exact hkeep context hc
  | leak d _ outstanding hand | free d _ outstanding hand =>
    rw [outstanding] at hc
    refine hkeep context ?_
    rw [hand]
    exact (List.mem_append.mp hc).elim (fun hc => List.mem_append_left _ hc)
      fun hc => List.mem_append_right _ (List.mem_cons_of_mem _ hc)
  | post d _ outstanding hand =>
    refine hkeep context ?_
    rw [outstanding, List.append_assoc] at hc
    rw [hand]
    exact hc
  | make d id _ _ outstanding hand _ memory =>
    rw [outstanding, hand] at hc
    rcases List.mem_append.mp hc with hc | hc
    · exact hkeep context (List.mem_append_left _ hc)
    · rcases List.mem_cons.mp hc with rfl | hc
      · rw [memory, id, Function.update_self]
      · exact hkeep context (List.mem_append_right _ hc)
  | receive d id _ _ outstanding hand _ memory =>
    rw [outstanding, hand, List.append_assoc] at hc
    rcases List.mem_append.mp hc with hc | hc
    · exact hkeep context (List.mem_append_left _ hc)
    · rcases List.mem_cons.mp hc with rfl | hc
      · rw [memory, id, Function.update_self]
      · exact hkeep context (List.mem_append_right _ hc)

/-- The part of the pool with another id stays as it is. -/
theorem ContextEffect.filter_other (h : ContextEffect o s pc s' pc') {id : UInt64}
    (hid : e.sessionId ≠ id)
    (hhand : ∀ context ∈ pc.hand, (contexts context.id).ownerSessionId = e.sessionId) :
    (s'.contextPool.filter fun a =>
        (RioTestServer.initContext contexts e o pc a).ownerSessionId = id) =
      s.contextPool.filter fun a => (contexts a).ownerSessionId = id := by
  have hcongr : (s.contextPool.filter fun a =>
        (RioTestServer.initContext contexts e o pc a).ownerSessionId = id) =
      s.contextPool.filter fun a => (contexts a).ownerSessionId = id := by
    refine List.filter_congr fun a ha => ?_
    rw [h.memory_of_mem ha]
  rw [← hcongr]
  cases h with
  | keep pool | post _ pool | leak _ pool => rw [pool]
  | make _ _ _ pool _ _ _ memory | receive _ _ _ pool _ _ _ memory
  | lose _ _ pool _ _ _ memory =>
    rw [pool, List.filter_cons_of_neg]
    rw [memory, Function.update_self]
    simpa using hid
  | free context pool _ hand _ memory =>
    rw [pool, ← List.erase_filter, List.erase_of_not_mem]
    intro hmem
    have howner := (List.mem_filter.mp hmem).2
    rw [memory, hhand context (by rw [hand]; exact List.mem_cons_self)] at howner
    exact hid (of_decide_eq_true howner)

/-- A new object is counted to the session. -/
theorem initContext_allocates (h : pc.allocates = true) :
    (RioTestServer.initContext contexts e o pc o.context).ownerSessionId = e.sessionId := by
  cases pc with
  | sendPost pc caller =>
    cases pc with
    | makeSendStream => simp [RioTestServer.initContext]
    | _ => cases h
  | recvPost pc caller =>
    cases pc with
    | rioReceive => simp [RioTestServer.initContext]
    | incrementIoCount => cases h
  | _ => cases h

end

namespace RioTestServer

/-! ## Slices -/

/-- The session's own slice of the server. -/
def project (g : RioTestServer) (e : Entry) : State :=
  { g.view e e.sessionId with
    contextPool := g.contextPool.filter fun a => (g.contexts a).ownerSessionId = e.sessionId }

/-- The counters of the threads that came from session `i`. -/
def pcsOf (i : Nat) (ts : List Thread) : List Pc :=
  ts.filterMap fun t => if t.origin = i then some t.pc else none

@[simp] theorem pcsOf_nil (i : Nat) : pcsOf i [] = [] := rfl

@[simp] theorem pcsOf_append (i : Nat) (l r : List Thread) :
    pcsOf i (l ++ r) = pcsOf i l ++ pcsOf i r :=
  List.filterMap_append

theorem pcsOf_cons_self {i : Nat} {t : Thread} (h : t.origin = i) (ts : List Thread) :
    pcsOf i (t :: ts) = t.pc :: pcsOf i ts := by
  simp [pcsOf, h]

theorem pcsOf_cons_other {i : Nat} {t : Thread} (h : t.origin ≠ i) (ts : List Thread) :
    pcsOf i (t :: ts) = pcsOf i ts := by
  simp [pcsOf, h]

theorem mem_pcsOf {i : Nat} {pc : Pc} {ts : List Thread} :
    pc ∈ pcsOf i ts ↔ ∃ t ∈ ts, t.origin = i ∧ t.pc = pc := by
  simp [pcsOf]

/-- A condition on the actions of one session, put on each session's threads. -/
def eachSession (H : Pc → State → List Pc → Prop) : Guard RioTestServer Thread Oracle :=
  fun t _ g ts => ∀ e ∈ g.sessions[t.origin]?, H t.pc (g.project e) (pcsOf t.origin ts)

instance (H : Pc → State → List Pc → Prop) [∀ pc s ts, Decidable (H pc s ts)] (t : Thread)
    (o : Oracle) (g : RioTestServer) (ts : List Thread) :
    Decidable (eachSession H t o g ts) :=
  inferInstanceAs (Decidable (∀ e ∈ g.sessions[t.origin]?,
    H t.pc (g.project e) (pcsOf t.origin ts)))

/-- The same condition on the session's own machine, where `emplace` succeeds. -/
def emplacing (H : Pc → State → List Pc → Prop) : Guard State Pc Oracle :=
  fun pc o s ts => H pc s ts ∧ (pc = .makeNewSession .emplace → o.ok = true)

/-! ## Consistency -/

/-- A thread works for the session it came from, with contexts that carry the
session's id. -/
structure ThreadAt (g : RioTestServer) (t : Thread) : Prop where
  session : t.session = t.origin
  origin : t.origin < g.sessions.length
  hand : ∀ e : Entry, g.sessions[t.origin]? = some e → ∀ context ∈ t.pc.hand,
    g.contexts context.id = ⟨e.sessionId, context.ioType⟩

/-- Ids name sessions, and everything that carries an id was given it by a
session. -/
structure Consistent (g : RioTestServer) (ts : List Thread) : Prop where
  length : g.sessions.length = g.accepted
  nextId : g.nextSessionId = UInt64.ofNat (g.accepted + 1)
  issued : ∀ (i : Nat) (e : Entry), g.sessions[i]? = some e → e.sessionId = UInt64.ofNat (i + 2)
  unlocked : g.sessionMapLocked = false
  mapped : ∀ id i, g.sessionMap.find id = some i →
    ∃ e : Entry, g.sessions[i]? = some e ∧ e.sessionId = id
  listed : ∀ id ∈ g.sessionIdSet,
    ∃ (i : Nat) (e : Entry), g.sessions[i]? = some e ∧ e.sessionId = id
  pooled : ∀ a ∈ g.contextPool,
    ∃ (i : Nat) (e : Entry), g.sessions[i]? = some e ∧ e.sessionId = (g.contexts a).ownerSessionId
  outstanding : ∀ (i : Nat) (e : Entry), g.sessions[i]? = some e →
    ∀ context ∈ e.state.outstanding, g.contexts context.id = ⟨e.sessionId, context.ioType⟩
  threads : ∀ t ∈ ts, ThreadAt g t

variable {numOfWorkerThread : Nat} {g g' : RioTestServer} {ts l r : List Thread}
  {t t' : Thread} {i j : Nat} {e d : Entry}

/-- Fewer than 2^64 - 2 ids do not repeat. -/
theorem ofNat_add_two_inj {m n : Nat} (hm : m < 2 ^ 64 - 2) (hn : n < 2 ^ 64 - 2)
    (h : UInt64.ofNat (m + 2) = UInt64.ofNat (n + 2)) : m = n := by
  have hnat := congrArg UInt64.toNat h
  rw [UInt64.toNat_ofNat', UInt64.toNat_ofNat'] at hnat
  omega

theorem lt_length (h : g.sessions[i]? = some e) : i < g.sessions.length :=
  (List.getElem?_eq_some_iff.mp h).1

/-- An id names one session. -/
theorem Consistent.unique (hI : Consistent g ts) (hacc : g.accepted < 2 ^ 64 - 2)
    (he : g.sessions[i]? = some e) (hd : g.sessions[j]? = some d)
    (hid : e.sessionId = d.sessionId) : i = j := by
  have hi := lt_length he
  have hj := lt_length hd
  rw [hI.length] at hi hj
  rw [hI.issued i e he, hI.issued j d hd] at hid
  exact ofNat_add_two_inj (by omega) (by omega) hid

/-- `sessionMap` finds the session of an id, or nothing. -/
theorem Consistent.find_own (hI : Consistent g ts) (hacc : g.accepted < 2 ^ 64 - 2)
    (he : g.sessions[i]? = some e) (hfind : g.sessionMap.find e.sessionId = some j) :
    j = i := by
  obtain ⟨d, hd, hid⟩ := hI.mapped _ _ hfind
  exact hI.unique hacc hd he hid

theorem Consistent.found_getD (hI : Consistent g ts) (hacc : g.accepted < 2 ^ 64 - 2)
    (he : g.sessions[i]? = some e) : (g.sessionMap.find e.sessionId).getD i = i := by
  cases hfind : g.sessionMap.find e.sessionId with
  | none => rfl
  | some j => exact hI.find_own hacc he hfind

/-! ## One action is an action of its session -/

/-- Write back that session `i` has gone to `s'`, with what else changes. -/
def write (g : RioTestServer) (i : Nat) (e : Entry) (s' : State)
    (contexts : Nat → PooledContext) (leaked : List Nat) (accepterBusy : Bool) :
    RioTestServer :=
  { g.commit i e (g.view e e.sessionId) s' with
    contexts := contexts
    leaked := leaked
    accepterBusy := accepterBusy }

/-- **A thread acts on the session it came from**: the id it looks up is the
session's own, and so is the type it reads. -/
theorem exec_own (hI : Consistent g (l ++ t :: r)) (hacc : g.accepted < 2 ^ 64 - 2)
    (h : exec spec t o g = some (g', t')) :
    ∃ e o' s' pc', g.sessions[t.origin]? = some e ∧
      RioServer.exec spec t.pc o' (g.view e e.sessionId) = some (s', pc') ∧
      (t.pc = .makeNewSession .emplace → o'.ok = !(g.view e e.sessionId).inSessionMap) ∧
      g' = g.write t.origin e s' (initContext g.contexts e o' t.pc) (g.leaked ++ lost o t.pc)
        (g.accepterBusy && !endsAccept t.pc) ∧
      t' = ⟨t.origin, t.origin, pc'⟩ := by
  obtain ⟨e, s', pc', he, hexec, rfl, rfl⟩ := exec_eq_some h
  have hthread := hI.threads t (by simp)
  have htarget : target t = t.origin := by
    unfold target
    split
    · rfl
    · exact hthread.session
  rw [htarget] at he
  have hlookedUp : g.lookedUp e t.pc = e.sessionId := by
    have hhand := hthread.hand e he
    unfold lookedUp
    split
    · next context bytes hpc => rw [hhand context (by rw [hpc]; exact List.mem_singleton_self _)]
    · next context hpc => rw [hhand context (by rw [hpc]; exact List.mem_singleton_self _)]
    · rfl
  have hreread : g.reread t.pc = t.pc := by
    have hhand := hthread.hand e he
    unfold reread
    split
    · next context bytes hpc =>
      rw [hhand context (by rw [hpc]; exact List.mem_singleton_self _), hpc]
    · rfl
  have hfound : g.found e t = t.origin := by
    unfold found
    rw [hlookedUp, hthread.session, hI.found_getD hacc he]
    split <;> rfl
  have hmemory : initContext g.contexts e o t.pc =
      initContext g.contexts e (emplaceResult (g.view e e.sessionId) o t.pc) t.pc := by
    cases t.pc with
    | makeNewSession pc => cases pc <;> rfl
    | _ => rfl
  rw [hlookedUp, hreread] at hexec
  rw [hlookedUp, htarget, hfound, hmemory]
  exact ⟨e, _, s', pc', he, hexec, fun hpc => by rw [hpc, emplaceResult], rfl, rfl⟩

/-! ## Writing one slice -/

/-- The session after the write. -/
def written (g : RioTestServer) (e : Entry) (s' : State) : Entry :=
  { e with
    state := s'
    erased := e.erased || ((g.view e e.sessionId).inSessionMap && !s'.inSessionMap) }

section

variable {contexts : Nat → PooledContext} {leaked : List Nat} {accepterBusy : Bool}

theorem sessions_write_self (he : g.sessions[i]? = some e) :
    (g.write i e s' contexts leaked accepterBusy).sessions[i]? = some (g.written e s') :=
  List.getElem?_set_self (lt_length he)

theorem sessions_write_other (hij : i ≠ j) :
    (g.write i e s' contexts leaked accepterBusy).sessions[j]? = g.sessions[j]? :=
  List.getElem?_set_ne hij

/-- A session after the write is the written one or an old one. -/
theorem sessions_write_cases (he : g.sessions[i]? = some e)
    (hd : (g.write i e s' contexts leaked accepterBusy).sessions[j]? = some d) :
    (j = i ∧ d = g.written e s') ∨ (i ≠ j ∧ g.sessions[j]? = some d) := by
  by_cases hij : i = j
  · subst hij
    rw [sessions_write_self he] at hd
    exact .inl ⟨rfl, (Option.some.inj hd).symm⟩
  · rw [sessions_write_other hij] at hd
    exact .inr ⟨hij, hd⟩

/-- Every session is there after the write, with its id. -/
theorem exists_write (he : g.sessions[i]? = some e) (hd : g.sessions[j]? = some d) :
    ∃ d', (g.write i e s' contexts leaked accepterBusy).sessions[j]? = some d' ∧
      d'.sessionId = d.sessionId := by
  by_cases hij : i = j
  · subst hij
    rw [he] at hd
    cases hd
    exact ⟨_, sessions_write_self he, rfl⟩
  · exact ⟨d, (sessions_write_other hij).trans hd, rfl⟩

/-- The map after the write: the session's own flag, and the rest as before. -/
theorem find_write (hown : ∀ j, g.sessionMap.find e.sessionId = some j → j = i)
    (id : UInt64) :
    (g.write i e s' contexts leaked accepterBusy).sessionMap.find id =
      if e.sessionId = id then (if s'.inSessionMap then some i else none)
      else g.sessionMap.find id := by
  show (if s'.inSessionMap = (g.sessionMap.find e.sessionId).isSome then g.sessionMap
    else if s'.inSessionMap then g.sessionMap.insert e.sessionId i
    else g.sessionMap.erase e.sessionId).find id = _
  cases hfind : g.sessionMap.find e.sessionId with
  | none =>
    cases s'.inSessionMap with
    | true =>
      rw [if_neg (by simp), if_pos rfl, UnorderedMap.find_insert_of_none hfind, if_pos rfl]
    | false =>
      rw [if_pos (by simp), if_neg Bool.false_ne_true]
      split
      · next hid => rw [← hid, hfind]
      · rfl
  | some j =>
    have hj := hown j hfind
    subst hj
    cases s'.inSessionMap with
    | true =>
      rw [if_pos (by simp), if_pos rfl]
      split
      · next hid => rw [← hid, hfind]
      · rfl
    | false =>
      rw [if_neg (by simp), if_neg Bool.false_ne_true, UnorderedMap.find_erase,
        if_neg Bool.false_ne_true]

/-- The set after the write, the same way. -/
theorem mem_sessionIdSet_write {id : UInt64} :
    id ∈ (g.write i e s' contexts leaked accepterBusy).sessionIdSet ↔
      if e.sessionId = id then s'.inSessionIdSet = true else id ∈ g.sessionIdSet := by
  show id ∈ (if s'.inSessionIdSet then insert e.sessionId g.sessionIdSet
    else g.sessionIdSet.erase e.sessionId) ↔ _
  by_cases hid : e.sessionId = id
  · subst hid
    cases s'.inSessionIdSet <;> simp
  · cases s'.inSessionIdSet <;> simp [hid, Ne.symm hid]

/-- The written session's slice. -/
theorem project_write_self (hown : ∀ j, g.sessionMap.find e.sessionId = some j → j = i) :
    (g.write i e s' contexts leaked accepterBusy).project (g.written e s') =
      { s' with contextPool :=
          s'.contextPool.filter fun a => (contexts a).ownerSessionId = e.sessionId } := by
  have hmap : ((g.write i e s' contexts leaked accepterBusy).sessionMap.find
      e.sessionId).isSome = s'.inSessionMap := by
    rw [find_write hown, if_pos rfl]
    cases s'.inSessionMap <;> rfl
  have hset : decide (e.sessionId ∈
      (g.write i e s' contexts leaked accepterBusy).sessionIdSet) = s'.inSessionIdSet := by
    rw [Bool.eq_iff_iff, decide_eq_true_iff, mem_sessionIdSet_write, if_pos rfl]
  show ({ s' with
    inSessionMap := ((g.write i e s' contexts leaked accepterBusy).sessionMap.find
      e.sessionId).isSome
    sessionMapLocked := s'.sessionMapLocked
    inSessionIdSet := decide (e.sessionId ∈
      (g.write i e s' contexts leaked accepterBusy).sessionIdSet)
    contextPool :=
      s'.contextPool.filter fun a => (contexts a).ownerSessionId = e.sessionId } : State) = _
  rw [hmap, hset]

/-- Every other slice. -/
theorem project_write_other (hown : ∀ j, g.sessionMap.find e.sessionId = some j → j = i)
    (hid : e.sessionId ≠ d.sessionId) (hlock : s'.sessionMapLocked = g.sessionMapLocked)
    (hpool : (s'.contextPool.filter fun a => (contexts a).ownerSessionId = d.sessionId) =
      g.contextPool.filter fun a => (g.contexts a).ownerSessionId = d.sessionId) :
    (g.write i e s' contexts leaked accepterBusy).project d = g.project d := by
  have hmap : (g.write i e s' contexts leaked accepterBusy).sessionMap.find d.sessionId =
      g.sessionMap.find d.sessionId := by
    rw [find_write hown, if_neg hid]
  have hset : decide (d.sessionId ∈
      (g.write i e s' contexts leaked accepterBusy).sessionIdSet) =
        decide (d.sessionId ∈ g.sessionIdSet) := by
    rw [decide_eq_decide, mem_sessionIdSet_write, if_neg hid]
  show ({ d.state with
    inSessionMap := ((g.write i e s' contexts leaked accepterBusy).sessionMap.find
      d.sessionId).isSome
    sessionMapLocked := s'.sessionMapLocked
    inSessionIdSet := decide (d.sessionId ∈
      (g.write i e s' contexts leaked accepterBusy).sessionIdSet)
    contextPool :=
      s'.contextPool.filter fun a => (contexts a).ownerSessionId = d.sessionId } : State) = _
  rw [hmap, hset, hlock, hpool]
  rfl

/-- **A write keeps the server consistent** when what the session has at hand
carries its id and nothing that is allocated is overwritten. -/
theorem Consistent.write {ts' : List Thread} (hI : Consistent g ts) (hledger : Ledger g ts)
    (hacc : g.accepted < 2 ^ 64 - 2) (he : g.sessions[i]? = some e)
    (hlock : s'.sessionMapLocked = false)
    (hmemory : ∀ a ∈ g.contextPool, contexts a = g.contexts a)
    (hpool : ∀ a ∈ s'.contextPool,
      a ∈ g.contextPool ∨ (contexts a).ownerSessionId = e.sessionId)
    (hout : ∀ context ∈ s'.outstanding,
      contexts context.id = ⟨e.sessionId, context.ioType⟩)
    (hts : ∀ t ∈ ts', t ∈ ts ∨ (t.session = t.origin ∧ t.origin = i ∧
      ∀ context ∈ t.pc.hand, contexts context.id = ⟨e.sessionId, context.ioType⟩)) :
    Consistent (g.write i e s' contexts leaked accepterBusy) ts' where
  length := by
    show (g.sessions.set i _).length = g.accepted
    rw [List.length_set, hI.length]
  nextId := hI.nextId
  issued j d hd := by
    rcases sessions_write_cases he hd with ⟨rfl, rfl⟩ | ⟨-, hd⟩
    · exact hI.issued j e he
    · exact hI.issued j d hd
  unlocked := hlock
  mapped id j hfind := by
    rw [find_write (fun j => hI.find_own hacc he)] at hfind
    split at hfind
    · next hid =>
      obtain ⟨-, hj⟩ := Option.ite_none_right_eq_some.mp hfind
      cases hj
      exact ⟨_, sessions_write_self he, hid⟩
    · obtain ⟨d, hd, rfl⟩ := hI.mapped id j hfind
      exact exists_write he hd
  listed id hid := by
    rw [mem_sessionIdSet_write] at hid
    split at hid
    · next heq => exact ⟨i, _, sessions_write_self he, heq⟩
    · obtain ⟨j, d, hd, rfl⟩ := hI.listed id hid
      exact ⟨j, exists_write he hd⟩
  pooled a ha := by
    rcases hpool a ha with ha | howner
    · obtain ⟨j, d, hd, hid⟩ := hI.pooled a ha
      obtain ⟨d', hd', hid'⟩ := exists_write he hd
      exact ⟨j, d', hd', by rw [hid', hid]; exact congrArg _ (hmemory a ha).symm⟩
    · exact ⟨i, _, sessions_write_self he, howner.symm⟩
  outstanding j d hd context hc := by
    rcases sessions_write_cases he hd with ⟨rfl, rfl⟩ | ⟨-, hd⟩
    · exact hout context hc
    · have ha : context.id ∈ g.contextPool := by
        refine hledger.mem_pool (List.mem_append_left _ ?_)
        exact List.mem_flatMap.mpr ⟨d, List.mem_of_getElem? hd, List.mem_map_of_mem hc⟩
      exact (hmemory _ ha).trans (hI.outstanding j d hd context hc)
  threads t ht := by
    rcases hts t ht with ht | ⟨hsession, horigin, hhand⟩
    · have hthread := hI.threads t ht
      refine ⟨hthread.session, ?_, fun d hd context hc => ?_⟩
      · show t.origin < (g.sessions.set i _).length
        rw [List.length_set]
        exact hthread.origin
      · have ha : context.id ∈ g.contextPool := by
          refine hledger.mem_pool (List.mem_append_right _ ?_)
          exact List.mem_flatMap.mpr ⟨t, ht, List.mem_map_of_mem hc⟩
        refine (hmemory _ ha).trans ?_
        rcases sessions_write_cases he hd with ⟨hi, rfl⟩ | ⟨-, hd⟩
        · exact hthread.hand e (hi ▸ he) context hc
        · exact hthread.hand d hd context hc
    · refine ⟨hsession, ?_, fun d hd context hc => ?_⟩
      · show t.origin < (g.sessions.set i _).length
        rw [List.length_set, horigin]
        exact lt_length he
      · rw [horigin, sessions_write_self he] at hd
        cases hd
        exact hhand context hc

end

/-! ## Every run -/

/-- The server is consistent, and each slice is reached by a run of its own. -/
structure EachSession (spec : NetBufferSpec) (H : Pc → State → List Pc → Prop)
    (g : RioTestServer) (ts : List Thread) : Prop extends Consistent g ts where
  runs : ∀ (i : Nat) (e : Entry), g.sessions[i]? = some e →
    (RioServer.server spec).Run (emplacing H) RioServer.server.init ⟨g.project e, pcsOf i ts⟩

variable {H : Pc → State → List Pc → Prop}

/-- The session of an accepter that stands before `emplace` is not in the map. -/
theorem inSessionMap_of_emplace {pcs : List Pc}
    (hrun : (RioServer.server spec).Reachable RioServer.server.init ⟨s, pcs⟩)
    (hpc : .makeNewSession .emplace ∈ pcs) : s.inSessionMap = false := by
  cases hmap : s.inSessionMap with
  | false => rfl
  | true =>
    have hpub := inSessionMap_published hrun hmap
    rw [show s.published = false from (publication hrun).unpublished_of_mem hpc rfl] at hpub
    cases hpub

/-- What the session and a thread of it have at hand is allocated and carries the
session's id. -/
theorem Consistent.at_hand (hI : Consistent g (l ++ t :: r)) (hledger : Ledger g (l ++ t :: r))
    (he : g.sessions[t.origin]? = some e) :
    ∀ context ∈ e.state.outstanding ++ t.pc.hand, context.id ∈ g.contextPool ∧
      g.contexts context.id = ⟨e.sessionId, context.ioType⟩ := by
  have hthread := hI.threads t (by simp)
  intro context hc
  rcases List.mem_append.mp hc with hc | hc
  · exact ⟨hledger.place he _ (List.mem_append_right _ (List.mem_map_of_mem hc)),
      hI.outstanding _ e he context hc⟩
  · exact ⟨hledger.place he _ (List.mem_append_left _ (List.mem_map_of_mem hc)),
      hthread.hand e he context hc⟩

theorem exec_eachSession (hI : EachSession spec H g (l ++ t :: r))
    (hledger : Ledger g (l ++ t :: r)) (hacc : g.accepted < 2 ^ 64 - 2)
    (hG : eachSession H t o g (l ++ t :: r)) (h : exec spec t o g = some (g', t')) :
    EachSession spec H g' (l ++ t' :: r) := by
  obtain ⟨e, o', s', pc', he, hexec, hemplace, rfl, rfl⟩ := exec_own hI.toConsistent hacc h
  have hown := fun j => hI.toConsistent.find_own (j := j) hacc he
  have hthread := hI.threads t (by simp)
  have hrun := hI.runs _ e he
  have hpcs : pcsOf t.origin (l ++ t :: r) =
      pcsOf t.origin l ++ t.pc :: pcsOf t.origin r := by
    rw [pcsOf_append, pcsOf_cons_self rfl]
  rw [hpcs] at hrun
  have hok : t.pc = .makeNewSession .emplace → o'.ok = true := by
    intro hpc
    have hmap := inSessionMap_of_emplace hrun.anywhere (by simp [hpc])
    rw [hemplace hpc, show (g.view e e.sessionId).inSessionMap = false from hmap]
    rfl
  have hlock := exec_lock hexec hok hI.unlocked
  have heffect := exec_contexts hexec
  have hold := hI.toConsistent.at_hand hledger he
  refine ⟨hI.toConsistent.write hledger hacc he hlock (fun a ha => heffect.memory_of_mem ha)
    (fun a ha => heffect.mem_pool ha)
    (fun context hc => heffect.carries hold (List.mem_append_left _ hc)) ?_, ?_⟩
  · intro q hq
    rcases List.mem_append.mp hq with hq | hq
    · exact .inl (List.mem_append_left _ hq)
    · rcases List.mem_cons.mp hq with rfl | hq
      · exact .inr ⟨rfl, rfl, fun context hc =>
          heffect.carries hold (List.mem_append_right _ hc)⟩
      · exact .inl (List.mem_append_right _ (List.mem_cons_of_mem _ hq))
  · intro j d hd
    rcases sessions_write_cases he hd with ⟨rfl, rfl⟩ | ⟨hij, hd⟩
    · -- the session's own machine makes the same step
      have hfilter : (g.contextPool.filter fun a =>
          (initContext g.contexts e o' t.pc a).ownerSessionId = e.sessionId) =
          g.contextPool.filter fun a => (g.contexts a).ownerSessionId = e.sessionId :=
        List.filter_congr fun a ha => by rw [heffect.memory_of_mem ha]
      have hstep := exec_filterPool (p := fun a =>
        (initContext g.contexts e o' t.pc a).ownerSessionId = e.sessionId) hexec
        fun hpc => decide_eq_true (initContext_allocates hpc)
      rw [show (g.view e e.sessionId).contextPool = g.contextPool from rfl, hfilter] at hstep
      rw [project_write_self hown, pcsOf_append,
        pcsOf_cons_self (t := ⟨t.origin, t.origin, pc'⟩) rfl]
      refine hrun.place ⟨?_, hok⟩ hstep
      rw [← hpcs]
      exact hG e he
    · have hid : e.sessionId ≠ d.sessionId := fun hid =>
        hij (hI.toConsistent.unique hacc he hd hid)
      have hsame := hI.runs j d hd
      rw [pcsOf_append, pcsOf_cons_other hij] at hsame
      rw [pcsOf_append, pcsOf_cons_other (t := ⟨t.origin, t.origin, pc'⟩) hij,
        project_write_other hown hid (hlock.trans hI.unlocked.symm)
          (heffect.filter_other hid fun context hc => by rw [hthread.hand e he context hc])]
      exact hsame

theorem session_eachSession {ev : RioServer.Event} {pc : Pc} (hI : EachSession spec H g ts)
    (hledger : Ledger g ts) (hacc : g.accepted < 2 ^ 64 - 2) (he : g.sessions[i]? = some e)
    (h : RioServer.spawn ev (g.view e e.sessionId) = some (s', pc)) :
    EachSession spec H (g.commit i e (g.view e e.sessionId) s') (ts ++ [⟨i, i, pc⟩]) := by
  have hown := fun j => hI.toConsistent.find_own (j := j) hacc he
  obtain ⟨hpool, hperm⟩ := spawn_contexts h
  have hpool : s'.contextPool = g.contextPool := hpool
  have hlock : s'.sessionMapLocked = false := (spawn_published h).2.2.1.trans hI.unlocked
  have hold : ∀ context ∈ pc.hand ++ s'.outstanding,
      g.contexts context.id = ⟨e.sessionId, context.ioType⟩ := fun context hc =>
    hI.outstanding i e he context (hperm.mem_iff.mp hc)
  have hwrite : g.commit i e (g.view e e.sessionId) s' =
      g.write i e s' g.contexts g.leaked g.accepterBusy := rfl
  rw [hwrite]
  refine ⟨hI.toConsistent.write hledger hacc he hlock (fun _ _ => rfl)
    (fun a ha => .inl (hpool ▸ ha)) (fun context hc => hold context (List.mem_append_right _ hc))
    ?_, ?_⟩
  · intro q hq
    rcases List.mem_append.mp hq with hq | hq
    · exact .inl hq
    · cases List.mem_singleton.mp hq
      exact .inr ⟨rfl, rfl, fun context hc => hold context (List.mem_append_left _ hc)⟩
  · intro j d hd
    rcases sessions_write_cases he hd with ⟨hji, rfl⟩ | ⟨hij, hd⟩
    · rw [hji, project_write_self hown, pcsOf_append, pcsOf_cons_self (t := ⟨i, i, pc⟩) rfl]
      exact (hI.runs _ e he).started (spawn_filterPool (fun a =>
        (g.contexts a).ownerSessionId = e.sessionId) h)
    · have hid : e.sessionId ≠ d.sessionId := fun hid =>
        hij (hI.toConsistent.unique hacc he hd hid)
      rw [pcsOf_append, pcsOf_cons_other (t := ⟨i, i, pc⟩) hij, pcsOf_nil, List.append_nil,
        project_write_other hown hid (hlock.trans hI.unlocked.symm) (by rw [hpool])]
      exact hI.runs j d hd

/-! ## A new session -/

/-- The session that `GetNewSession` makes next. -/
def newSession (g : RioTestServer) (threadId : Nat) : Entry :=
  ⟨UInt64.ofNat (g.accepted + 2), threadId, State.initial, false⟩

/-- The server with it, before `InitSession`. -/
def withNewSession (g : RioTestServer) (threadId : Nat) : RioTestServer :=
  { g with
    nextSessionId := UInt64.ofNat (g.accepted + 2)
    accepted := g.accepted + 1
    accepterBusy := true
    sessions := g.sessions ++ [g.newSession threadId] }

/-- The id of a new session is not `INVALID_SESSION_ID`. -/
theorem Consistent.accept_eq {threadId : Nat} (hI : Consistent g ts)
    (hacc : g.accepted + 1 < 2 ^ 64 - 2) :
    g.accept threadId = (g.withNewSession threadId,
      ⟨g.sessions.length, g.sessions.length, .makeNewSession .registerRecvBuffer⟩) := by
  have hid : g.nextSessionId + 1 = UInt64.ofNat (g.accepted + 2) := by
    rw [hI.nextId]
    exact (UInt64.ofNat_add (g.accepted + 1) 1).symm
  have hvalid : UInt64.ofNat (g.accepted + 2) ≠ invalidSessionId := by
    intro heq
    have hnat := congrArg UInt64.toNat heq
    rw [UInt64.toNat_ofNat'] at hnat
    simp only [invalidSessionId, UInt64.toNat_zero] at hnat
    omega
  simp only [accept, hid, if_neg hvalid]
  rfl

/-- No session has the new id. -/
theorem Consistent.fresh (hI : Consistent g ts) (hacc : g.accepted + 1 < 2 ^ 64 - 2)
    (he : g.sessions[i]? = some e) : e.sessionId ≠ UInt64.ofNat (g.accepted + 2) := by
  intro heq
  have hi := lt_length he
  rw [hI.length] at hi
  rw [hI.issued i e he] at heq
  have := ofNat_add_two_inj (by omega) (by omega) heq
  omega

theorem sessions_new_old (threadId : Nat) (he : g.sessions[i]? = some e) :
    (g.withNewSession threadId).sessions[i]? = some e := by
  show (g.sessions ++ [g.newSession threadId])[i]? = some e
  rw [List.getElem?_append_left (lt_length he)]
  exact he

theorem sessions_new_cases {threadId : Nat}
    (hd : (g.withNewSession threadId).sessions[i]? = some d) :
    g.sessions[i]? = some d ∨ (i = g.sessions.length ∧ d = g.newSession threadId) := by
  change (g.sessions ++ [g.newSession threadId])[i]? = some d at hd
  rcases Nat.lt_or_ge i g.sessions.length with hi | hi
  · rw [List.getElem?_append_left hi] at hd
    exact .inl hd
  · rw [List.getElem?_append_right hi] at hd
    obtain ⟨hlt, hd⟩ := List.getElem?_eq_some_iff.mp hd
    have hzero : i - g.sessions.length = 0 := by simpa using hlt
    refine .inr ⟨by omega, ?_⟩
    rw [← hd]
    simp [hzero]

/-- Nothing in the server carries the new id, so the slice is the initial one. -/
theorem Consistent.project_new {threadId : Nat} (hI : Consistent g ts)
    (hacc : g.accepted + 1 < 2 ^ 64 - 2) :
    (g.withNewSession threadId).project (g.newSession threadId) = State.initial := by
  have hfind : g.sessionMap.find (UInt64.ofNat (g.accepted + 2)) = none := by
    cases hfind : g.sessionMap.find (UInt64.ofNat (g.accepted + 2)) with
    | none => rfl
    | some i =>
      obtain ⟨e, he, heq⟩ := hI.mapped _ _ hfind
      exact absurd heq (hI.fresh hacc he)
  have hset : decide (UInt64.ofNat (g.accepted + 2) ∈ g.sessionIdSet) = false := by
    refine decide_eq_false fun hmem => ?_
    obtain ⟨i, e, he, heq⟩ := hI.listed _ hmem
    exact hI.fresh hacc he heq
  have hpool : (g.contextPool.filter fun a =>
      (g.contexts a).ownerSessionId = UInt64.ofNat (g.accepted + 2)) = [] := by
    refine List.filter_eq_nil_iff.mpr fun a ha => ?_
    obtain ⟨i, e, he, heq⟩ := hI.pooled a ha
    rw [decide_eq_true_iff, ← heq]
    exact hI.fresh hacc he
  simp only [project, view, withNewSession, newSession, hfind, hset, hpool, hI.unlocked]
  rfl

theorem Consistent.accept {threadId : Nat} (hI : Consistent g ts) :
    Consistent (g.withNewSession threadId) (ts ++
      [⟨g.sessions.length, g.sessions.length, .makeNewSession .registerRecvBuffer⟩]) where
  length := by simp [withNewSession, hI.length]
  nextId := rfl
  issued i d hd := by
    rcases sessions_new_cases hd with hd | ⟨rfl, rfl⟩
    · exact hI.issued i d hd
    · rw [hI.length]
      rfl
  unlocked := hI.unlocked
  mapped id i hi := by
    obtain ⟨e, he, heq⟩ := hI.mapped id i hi
    exact ⟨e, sessions_new_old threadId he, heq⟩
  listed id hid := by
    obtain ⟨i, e, he, heq⟩ := hI.listed id hid
    exact ⟨i, e, sessions_new_old threadId he, heq⟩
  pooled a ha := by
    obtain ⟨i, e, he, heq⟩ := hI.pooled a ha
    exact ⟨i, e, sessions_new_old threadId he, heq⟩
  outstanding i d hd context hc := by
    rcases sessions_new_cases hd with hd | ⟨rfl, rfl⟩
    · exact hI.outstanding i d hd context hc
    · cases hc
  threads q hq := by
    have hlen : (g.withNewSession threadId).sessions.length = g.sessions.length + 1 := by
      simp [withNewSession]
    rcases List.mem_append.mp hq with hq | hq
    · obtain ⟨hsession, horigin, hhand⟩ := hI.threads q hq
      refine ⟨hsession, by omega, fun d hd => ?_⟩
      rcases sessions_new_cases hd with hd | ⟨heq, -⟩
      · exact hhand d hd
      · omega
    · cases List.mem_singleton.mp hq
      exact ⟨rfl, hlen ▸ Nat.lt_succ_self _, fun _ _ context hc => absurd hc List.not_mem_nil⟩

/-- A new session starts from the beginning of its own machine. -/
theorem accept_eachSession {threadId : Nat} (hI : EachSession spec H g ts)
    (hacc : g.accepted + 1 < 2 ^ 64 - 2) (h : (g', t) = g.accept threadId) :
    EachSession spec H g' (ts ++ [t]) := by
  rw [hI.toConsistent.accept_eq hacc] at h
  cases h
  refine ⟨hI.toConsistent.accept, fun i d hd => ?_⟩
  rcases sessions_new_cases hd with hd | ⟨rfl, rfl⟩
  · have hi := lt_length hd
    have hne : g.sessions.length ≠ i := by omega
    rw [pcsOf_append, pcsOf_cons_other hne, pcsOf_nil, List.append_nil]
    exact hI.runs i d hd
  · have hnone : pcsOf g.sessions.length ts = [] := by
      refine List.filterMap_eq_nil_iff.mpr fun q hq => if_neg ?_
      have := (hI.threads q hq).origin
      omega
    rw [pcsOf_append, hnone, hI.toConsistent.project_new hacc, List.nil_append,
      pcsOf_cons_self (t := ⟨_, g.sessions.length, _⟩) rfl]
    exact .refl

/-! ## All sessions -/

/-- **Each session by itself**, along every run whose ids do not repeat. -/
theorem each_session {c : Config RioTestServer Thread}
    (h : (server spec numOfWorkerThread).Run (eachSession H) server.init c)
    (hacc : c.shared.accepted < 2 ^ 64 - 2) : EachSession spec H c.shared c.threads := by
  refine Run.induct (I := fun g ts => g.accepted < 2 ^ 64 - 2 → EachSession spec H g ts)
    h ?_ ?_ ?_ hacc
  · intro _
    refine ⟨⟨rfl, rfl, ?_, rfl, ?_, ?_, ?_, ?_, ?_⟩, ?_⟩ <;> simp [server.init, initial]
  · intro g l t r o g' t' hrun hI hG hexec hacc'
    obtain ⟨e, s', pc', -, -, rfl, -⟩ := exec_eq_some hexec
    exact exec_eachSession (hI hacc') (ledger hrun.anywhere) hacc' hG hexec
  · intro g ts ev g' t hrun hI hspawn hacc'
    rcases spawn_eq_some hspawn with
      ⟨threadId, -, -, -, haccept⟩ | ⟨i, ev', e, s', pc, -, he, -, hspawn', rfl, rfl⟩
    · have hcount : g'.accepted = g.accepted + 1 := by
        rw [← accept_accepted g threadId, ← haccept]
      rw [hcount] at hacc'
      exact accept_eachSession (hI (by omega)) hacc' haccept
    · exact session_eachSession (hI hacc') (ledger hrun.anywhere) hacc' he hspawn'

/-- The same for runs under any other guard. -/
theorem each_session_of_reachable {c : Config RioTestServer Thread}
    (h : (server spec numOfWorkerThread).Reachable server.init c)
    (hacc : c.shared.accepted < 2 ^ 64 - 2) :
    EachSession spec (fun _ _ _ => True) c.shared c.threads :=
  each_session (h.mono fun _ _ _ _ _ _ _ => trivial) hacc

end RioTestServer

end RioServer
