import RioServer.Client.MultiLanClient

/-!
# The list of released sessions, over whole runs of the DB client

`Coherent` is what the sessions, the list and the threads of the client always
agree on: an id is the index of its session, only ids of sessions that are set up
are in `sessionReconnectIdList`, its first one is the one the `Reconnecter` works
for, and there is one `Start` and one `Reconnecter`. `exec_cases` and
`spawn_cases` say what a step of the client can be, and each keeps this.

`reconnect_order` follows the ids through the list: sessions are reconnected in
the order in which they were released, none is lost and none is skipped.
-/

namespace RioServer.Client

open Machine

variable {spec : ClientSpec} {options : Db.LanClientOptions} {o : CallResult}

/-- What an action does to the entries of the list that name the session. -/
def Pc.entries : Pc → Nat → Nat
  | .release .emplaceBack _, n => n + 1
  | .reconnecter (.popFront _), n => n - 1
  | _, n => n

/-- The list changes in two places, and `stopClient` in none. -/
theorem exec_entries {s s' : State} {pc pc' : Pc} (h : exec spec pc o s = some (s', pc')) :
    s'.sessionReconnectIdList = pc.entries s.sessionReconnectIdList ∧
      s'.stopClient = s.stopClient := by
  revert h
  cases pc with
  | recvPost pc caller =>
    simp only [exec, Option.some.injEq]
    fun_cases execRecvPost spec o s caller pc <;> rintro ⟨⟩ <;> exact ⟨rfl, rfl⟩
  | sendPost pc caller =>
    simp only [exec]
    fun_cases execSendPost o s caller pc <;> rintro ⟨⟩ <;> exact ⟨rfl, rfl⟩
  | ioCountDecrement site =>
    simp only [exec, Option.some.injEq]
    fun_cases execDecrement s site <;> rintro ⟨⟩ <;> exact ⟨rfl, rfl⟩
  | release pc site =>
    simp only [exec, Option.some.injEq]
    fun_cases execRelease spec s site pc <;> rintro ⟨⟩ <;> exact ⟨rfl, rfl⟩
  | worker pc =>
    simp only [exec, Option.some.injEq]
    fun_cases execWorker spec s pc <;> rintro ⟨⟩ <;> exact ⟨rfl, rfl⟩
  | sendPacketImpl buf =>
    rintro ⟨⟩
    exact ⟨rfl, rfl⟩
  | reconnecter pc =>
    simp only [exec]
    fun_cases execReconnecter o s pc <;> rintro ⟨⟩ <;> exact ⟨rfl, rfl⟩
  | finished =>
    intro h
    cases h

/-- Between two turns of the `Reconnecter`. -/
def Pc.sleeps : Pc → Bool
  | .reconnecter .takeFirst => true
  | _ => false

/-- In front of `pop_front`. -/
def Pc.pops : Pc → Bool
  | .reconnecter (.popFront _) => true
  | _ => false

theorem RecvPostCaller.next_sleeps (caller : RecvPostCaller) (retval : PostRetval) :
    (caller.next retval).sleeps = false := by
  cases caller with
  | worker => cases retval <;> rfl
  | _ => rfl

theorem SendPostCaller.next_sleeps (caller : SendPostCaller) (retval : PostRetval) :
    (caller.next retval).sleeps = false := by
  cases caller with
  | sendPacketImpl => rfl
  | worker => cases retval <;> rfl

theorem DecrementSite.otherwise_sleeps (site : DecrementSite) :
    site.otherwise.sleeps = false := by
  cases site with
  | ringFull caller | recvFailed caller => exact caller.next_sleeps _
  | sendFailed caller => exact caller.next_sleeps _
  | _ => rfl

theorem DecrementSite.released_sleeps (site : DecrementSite) : site.released.sleeps = false := by
  cases site with
  | ringFull caller | recvFailed caller => exact caller.next_sleeps _
  | restNegative caller | sendFailed caller => exact caller.next_sleeps _
  | _ => rfl

/-- The `Reconnecter` goes back to sleep exactly when it takes an id off the
list. -/
theorem exec_sleeps {s s' : State} {pc pc' : Pc} (h : exec spec pc o s = some (s', pc')) :
    pc'.sleeps = pc.pops := by
  revert h
  cases pc with
  | recvPost pc caller =>
    simp only [exec, Option.some.injEq]
    fun_cases execRecvPost spec o s caller pc <;> rintro ⟨⟩ <;>
      first | rfl | exact caller.next_sleeps _
  | sendPost pc caller =>
    simp only [exec]
    fun_cases execSendPost o s caller pc <;> rintro ⟨⟩ <;>
      first | rfl | exact caller.next_sleeps _
  | ioCountDecrement site =>
    simp only [exec, Option.some.injEq]
    fun_cases execDecrement s site <;> rintro ⟨⟩
    · rfl
    · exact site.otherwise_sleeps
  | release pc site =>
    intro h
    obtain ⟨-, ⟨q, rfl, -⟩ | ⟨rfl, -, -⟩⟩ := execRelease_cases (Option.some.inj h)
    · rfl
    · exact site.released_sleeps
  | worker pc =>
    simp only [exec, Option.some.injEq]
    fun_cases execWorker spec s pc <;> rintro ⟨⟩ <;> rfl
  | sendPacketImpl buf =>
    rintro ⟨⟩
    rfl
  | reconnecter pc =>
    simp only [exec]
    fun_cases execReconnecter o s pc <;> rintro ⟨⟩ <;> rfl
  | finished =>
    intro h
    cases h

namespace MultiLanClient

variable {g g' : MultiLanClient} {i j : Nat} {conn : Connection} {p p' : ClientPc}
variable {pc pc' : Pc} {s s' : State}

/-! ## What a step of the client is -/

/-- The session a thread acts at next, and where it stands there. -/
def acts (g : MultiLanClient) : ClientPc → Option (Nat × Pc)
  | .startRecvPost i pc | .reconnecter i pc | .session i pc => some (i, pc)
  | .sleeping =>
    if g.stopClient then none
    else g.sessionReconnectIdList.head?.map fun i => (i, .reconnecter .takeFirst)
  | _ => none

/-- A thread behind an action at session `i`. -/
def resume (i : Nat) (pc : Pc) : ClientPc → ClientPc
  | .startRecvPost _ _ => startNext i pc
  | .session _ _ => .session i pc
  | _ => reconnecterNext i pc

/-- Steps of `Start` and of the `Reconnecter` that are at no session. -/
inductive Quiet (g : MultiLanClient) : ClientPc → MultiLanClient → ClientPc → Prop where
  | start (i : Nat) (pc pc' : StartPc) : Quiet g (.start i pc) g (.start i pc')
  | startFailed (i : Nat) (pc : StartPc) : Quiet g (.start i pc) g .startReturned
  | started (i : Nat) (pc : StartPc) :
    Quiet g (.start i pc) { g with started := true } .startReturned
  | stopped (h : g.stopClient = true) : Quiet g .sleeping g .stopped

/-- **What a step of the client is**: an action at a session, the set-up of the
next one, or neither. -/
theorem exec_cases (h : exec spec options p o g = some (g', p')) :
    (∃ i pc conn s' pc', g.acts p = some (i, pc) ∧ g.sessionList[i]? = some conn ∧
      Client.exec spec pc o (g.view conn) = some (s', pc') ∧
      g' = g.commit i conn pc s' ∧ p' = resume i pc' p) ∨
    (∃ i, p = .start i .setSockOpt ∧ g' = g.setUp ∧
      p' = .startRecvPost i (.recvPost .isFull .start)) ∨
    Quiet g p g' p' := by
  have hact : ∀ {i pc} {f : MultiLanClient × Pc → MultiLanClient × ClientPc},
      g.acts p = some (i, pc) → (∀ r, f r = (r.1, resume i r.2 p)) →
      (g.act spec i pc o).map f = some (g', p') →
      ∃ i pc conn s' pc', g.acts p = some (i, pc) ∧ g.sessionList[i]? = some conn ∧
        Client.exec spec pc o (g.view conn) = some (s', pc') ∧
        g' = g.commit i conn pc s' ∧ p' = resume i pc' p := by
    intro i pc f hp hf hact
    obtain ⟨r, hr, heq⟩ := Option.map_eq_some_iff.mp hact
    rw [hf] at heq
    simp only [act] at hr
    split at hr
    · cases hr
    · next conn hconn =>
      obtain ⟨⟨s', pc'⟩, hexec, rfl⟩ := Option.map_eq_some_iff.mp hr
      cases heq
      exact ⟨i, pc, conn, s', pc', hp, hconn, hexec, rfl, rfl⟩
  cases p with
  | start i pc =>
    right
    cases pc with
    | socket =>
      simp only [exec] at h
      split at h
      · split at h
        · cases h
          exact .inr (.start i _ _)
        · cases h
          exact .inr (.startFailed i _)
      · cases h
        exact .inr (.started i _)
    | connect =>
      simp only [exec] at h
      split at h <;> cases h <;> exact .inr (.start i _ _)
    | setSockOpt =>
      simp only [exec] at h
      split at h
      · cases h
        exact .inl ⟨i, rfl, rfl, rfl⟩
      · cases h
        exact .inr (.startFailed i _)
  | startRecvPost i pc => exact .inl (hact rfl (fun _ => rfl) h)
  | sleeping =>
    simp only [exec] at h
    split at h
    · next hstop =>
      cases h
      exact .inr (.inr (.stopped hstop))
    · next hstop =>
      split at h
      · cases h
      · next i rest hlist =>
        have hacts : g.acts .sleeping = some (i, .reconnecter .takeFirst) := by
          simp [acts, hstop, hlist]
        exact .inl (hact hacts (fun _ => rfl) h)
  | reconnecter i pc => exact .inl (hact rfl (fun _ => rfl) h)
  | session i pc => exact .inl (hact rfl (fun _ => rfl) h)
  | startReturned | stopped | returned | stop => cases h

/-! ## What always holds of the client -/

/-- What a thread stands for. -/
inductive ThreadKind where
  | start
  | reconnecter
  | other
  deriving DecidableEq

/-- The kind of a thread, which no step changes. -/
def kind : ClientPc → ThreadKind
  | .start _ _ | .startRecvPost _ _ | .startReturned => .start
  | .sleeping | .reconnecter _ _ | .stopped => .reconnecter
  | .session _ _ | .returned | .stop => .other

/-- What a thread knows of the sessions. -/
def Knows (g : MultiLanClient) : ClientPc → Prop
  | .start i _ => g.sessionList.length = i ∧ g.started = false
  | .startRecvPost i pc => g.sessionList.length = i + 1 ∧ g.started = false ∧ pc.reconnects = 0
  | .reconnecter i pc =>
    i < g.sessionList.length ∧ g.sessionReconnectIdList.head? = some i ∧ pc.sleeps = false
  | .session i pc => i < g.sessionList.length ∧ pc.reconnects = 0
  | .stop => g.started = true
  | .startReturned | .sleeping | .stopped | .returned => True

/-- What the sessions and the threads always agree on. -/
structure Coherent (g : MultiLanClient) (ts : List ClientPc) : Prop where
  generator : g.sessionIdGenerator = g.sessionList.length
  sessionId : ∀ {i} {conn : Connection}, g.sessionList[i]? = some conn → conn.sessionId = i
  listed : ∀ id ∈ g.sessionReconnectIdList, id < g.sessionList.length
  stopClient : g.stopClient = true → g.started = true
  kinds : ∃ n, ts.map kind = .start :: .reconnecter :: List.replicate n .other
  knows : ∀ p ∈ ts, g.Knows p

/-- The thread that is `Start` stands in front. -/
theorem start_in_front {l r : List ClientPc} (hp : kind p = .start)
    (h : ∃ n, (l ++ p :: r).map kind = .start :: .reconnecter :: List.replicate n .other) :
    l = [] := by
  obtain ⟨n, h⟩ := h
  cases l with
  | nil => rfl
  | cons q l =>
    have hmem : ThreadKind.start ∈ ThreadKind.reconnecter :: List.replicate n .other := by
      rw [← (List.cons.inj h).2, ← hp]
      simp
    rcases List.mem_cons.mp hmem with h | h
    · cases h
    · cases List.eq_of_mem_replicate h

/-- There is one `Start` and one `Reconnecter`. -/
theorem one_of_kind {l r : List ClientPc} {k : ThreadKind} (hp : kind p = k) (hk : k ≠ .other)
    (h : ∃ n, (l ++ p :: r).map kind = .start :: .reconnecter :: List.replicate n .other) :
    ∀ q, q ∈ l ∨ q ∈ r → kind q ≠ k := by
  obtain ⟨n, h⟩ := h
  have hother : List.count k (List.replicate n .other) = 0 :=
    List.count_eq_zero.mpr fun hmem => hk (List.eq_of_mem_replicate hmem)
  have hone : List.count k (.start :: .reconnecter :: List.replicate n .other) = 1 := by
    simp only [List.count_cons, hother]
    cases k with
    | other => exact absurd rfl hk
    | start | reconnecter => rfl
  rw [← h, List.map_append, List.map_cons, hp, List.count_append, List.count_cons_self] at hone
  rintro q (hq | hq) hkind
  · have := List.count_pos_iff.mpr (hkind ▸ List.mem_map_of_mem (f := kind) hq)
    omega
  · have := List.count_pos_iff.mpr (hkind ▸ List.mem_map_of_mem (f := kind) hq)
    omega

/-- Where a thread that acts at a session stands. -/
theorem acts_cases (h : g.acts p = some (i, pc)) :
    p = .startRecvPost i pc ∨ p = .session i pc ∨ p = .reconnecter i pc ∨
      (p = .sleeping ∧ g.sessionReconnectIdList.head? = some i ∧
        pc = .reconnecter .takeFirst) := by
  cases p with
  | startRecvPost | session | reconnecter =>
    cases h
    simp
  | sleeping =>
    simp only [acts] at h
    split at h
    · cases h
    · obtain ⟨i', hhead, heq⟩ := Option.map_eq_some_iff.mp h
      cases heq
      exact .inr (.inr (.inr ⟨rfl, hhead, rfl⟩))
  | start | startReturned | stopped | returned | stop => cases h

@[simp] theorem kind_resume (h : g.acts p = some (i, pc)) : kind (resume i pc' p) = kind p := by
  rcases acts_cases h with rfl | rfl | rfl | ⟨rfl, -, -⟩
  · simp only [resume, startNext]
    split <;> rfl
  · rfl
  all_goals
    simp only [resume, reconnecterNext]
    split <;> rfl

/-! ## Writing back -/

@[simp] theorem commit_started : (g.commit i conn pc s).started = g.started := rfl

@[simp] theorem commit_length :
    (g.commit i conn pc s).sessionList.length = g.sessionList.length :=
  List.length_set

theorem commit_getElem?_self (h : g.sessionList[i]? = some conn) :
    (g.commit i conn pc s).sessionList[i]? = some { conn with state := s } := by
  obtain ⟨hi, -⟩ := List.getElem?_eq_some_iff.mp h
  exact List.getElem?_set_self hi

theorem commit_getElem?_ne (h : i ≠ j) :
    (g.commit i conn pc s).sessionList[j]? = g.sessionList[j]? :=
  List.getElem?_set_ne h

/-- The entries of the acting session behind its action. -/
theorem count_listed_self (hpops : pc.pops = true →
      g.sessionReconnectIdList.head? = some conn.sessionId) :
    (g.listed conn pc).count conn.sessionId =
      pc.entries (g.sessionReconnectIdList.count conn.sessionId) := by
  fun_cases listed g conn pc with
  | case1 site => simp [Pc.entries]
  | case2 retval =>
    obtain ⟨rest, hrest⟩ := List.head?_eq_some_iff.mp (hpops rfl)
    simp [Pc.entries, hrest]
  | case3 _ h h' =>
    fun_cases Pc.entries pc (g.sessionReconnectIdList.count conn.sessionId)
    · exact absurd rfl (h _)
    · exact absurd rfl (h' _)
    · rfl

/-- The entries of every other session stay. -/
theorem count_listed_ne {id : Nat} (hid : conn.sessionId ≠ id) (hpops : pc.pops = true →
      g.sessionReconnectIdList.head? = some conn.sessionId) :
    (g.listed conn pc).count id = g.sessionReconnectIdList.count id := by
  fun_cases listed g conn pc with
  | case1 site => simp [hid]
  | case2 retval =>
    obtain ⟨rest, hrest⟩ := List.head?_eq_some_iff.mp (hpops rfl)
    simp [hrest, hid]
  | case3 => rfl

/-- What is written back is what the session shows. -/
theorem view_commit (hexec : Client.exec spec pc o (g.view conn) = some (s', pc'))
    (hpops : pc.pops = true → g.sessionReconnectIdList.head? = some conn.sessionId) :
    (g.commit i conn pc s').view { conn with state := s' } = s' := by
  obtain ⟨hlist, hstop⟩ := exec_entries hexec
  have hlist' : (g.listed conn pc).count conn.sessionId = s'.sessionReconnectIdList :=
    (count_listed_self hpops).trans hlist.symm
  have hstop' : g.stopClient = s'.stopClient := hstop.symm
  show ({ s' with
    sessionReconnectIdList := (g.listed conn pc).count conn.sessionId
    stopClient := g.stopClient } : State) = s'
  rw [hlist', hstop']

/-- Another session does not see it. -/
theorem view_commit_ne {conn' : Connection} (hid : conn.sessionId ≠ conn'.sessionId)
    (hpops : pc.pops = true → g.sessionReconnectIdList.head? = some conn.sessionId) :
    (g.commit i conn pc s').view conn' = g.view conn' := by
  show ({ conn'.state with
    sessionReconnectIdList := (g.listed conn pc).count conn'.sessionId
    stopClient := g.stopClient } : State) = _
  rw [count_listed_ne hid hpops]
  rfl

/-! ## It holds in every run -/

/-- What another thread knows, it knows behind an action at a session. -/
theorem Knows.commit (hk : g.Knows p) (hpops : pc.pops = true → kind p ≠ .reconnecter) :
    (g.commit i conn pc s).Knows p := by
  cases p with
  | start | startRecvPost | session => simpa [Knows] using hk
  | reconnecter j pc' =>
    obtain ⟨hj, hhead, hsleeps⟩ := hk
    refine ⟨by simpa using hj, ?_, hsleeps⟩
    show (g.listed conn pc).head? = some j
    fun_cases MultiLanClient.listed g conn pc with
    | case1 site => simp [hhead]
    | case2 retval => exact absurd rfl (hpops rfl)
    | case3 => exact hhead
  | stop => exact hk
  | startReturned | sleeping | stopped | returned => trivial

/-- Writing back keeps the client coherent if the threads are. -/
theorem Coherent.written {ts ts' : List ClientPc} (hC : Coherent g ts)
    (hconn : g.sessionList[i]? = some conn)
    (hkinds : ∃ n, ts'.map kind = .start :: .reconnecter :: List.replicate n .other)
    (hknows : ∀ q ∈ ts', (g.commit i conn pc s).Knows q) :
    Coherent (g.commit i conn pc s) ts' where
  generator := by simpa [MultiLanClient.commit] using hC.generator
  sessionId := by
    intro j conn' hj
    by_cases hij : i = j
    · subst hij
      rw [commit_getElem?_self hconn] at hj
      cases hj
      show conn.sessionId = i
      exact hC.sessionId hconn
    · rw [commit_getElem?_ne hij] at hj
      exact hC.sessionId hj
  listed := by
    intro id hid
    rw [commit_length]
    change id ∈ g.listed conn pc at hid
    revert hid
    fun_cases MultiLanClient.listed g conn pc with
    | case1 site =>
      intro hid
      rcases List.mem_append.mp hid with hid | hid
      · exact hC.listed id hid
      · rw [List.mem_singleton.mp hid, hC.sessionId hconn]
        exact (List.getElem?_eq_some_iff.mp hconn).1
    | case2 retval => exact fun hid => hC.listed id (List.mem_of_mem_tail hid)
    | case3 => exact hC.listed id
  stopClient := hC.stopClient
  kinds := hkinds
  knows := hknows

section

variable {l r ts : List ClientPc} (hC : Coherent g (l ++ p :: r))
include hC

/-- The id that is taken off the list is the first one, and the `Reconnecter`
takes it. -/
theorem Coherent.pops (hacts : g.acts p = some (i, pc)) (hpc : pc.pops = true) :
    g.sessionReconnectIdList.head? = some i ∧ kind p = .reconnecter := by
  have hk := hC.knows p (by simp)
  have hreconnects : pc.reconnects = 1 := by
    revert hpc
    fun_cases Pc.pops pc
    · exact fun _ => rfl
    · exact fun h => nomatch h
  rcases acts_cases hacts with rfl | rfl | rfl | ⟨rfl, -, rfl⟩
  · rw [hk.2.2] at hreconnects
    cases hreconnects
  · rw [hk.2] at hreconnects
    cases hreconnects
  · exact ⟨hk.2.1, rfl⟩
  · cases hpc

/-- What the acting thread knows behind its action at a session. -/
theorem Coherent.knows_resume (hacts : g.acts p = some (i, pc))
    (hconn : g.sessionList[i]? = some conn)
    (hexec : Client.exec spec pc o (g.view conn) = some (s', pc')) :
    (g.commit i conn pc s').Knows (resume i pc' p) := by
  have hk := hC.knows p (by simp)
  have hreconnects := exec_reconnects hexec
  obtain ⟨hi, -⟩ := List.getElem?_eq_some_iff.mp hconn
  -- the `Reconnecter` keeps its entry in front until it takes it off
  have hreconnecter : g.sessionReconnectIdList.head? = some i → pc.sleeps = false ∨
      pc = .reconnecter .takeFirst →
      (g.commit i conn pc s').Knows (reconnecterNext i pc') := by
    intro hhead hpc
    simp only [reconnecterNext]
    split
    · trivial
    · next hne =>
      have hsleeps : pc'.sleeps = false := by
        fun_cases Pc.sleeps pc'
        · exact absurd rfl hne
        · rfl
      refine ⟨by simpa using hi, ?_, hsleeps⟩
      show (g.listed conn pc).head? = some i
      fun_cases MultiLanClient.listed g conn pc with
      | case1 site => simp [hhead]
      | case2 retval =>
        have hpops := exec_sleeps hexec
        rw [hsleeps] at hpops
        cases hpops
      | case3 => exact hhead
  rcases acts_cases hacts with rfl | rfl | rfl | ⟨rfl, hhead, rfl⟩
  · obtain ⟨hlength, hstarted, hzero⟩ := hk
    simp only [resume, startNext]
    split
    · exact ⟨by simpa using hlength, hstarted⟩
    · exact ⟨by simpa using hlength, hstarted, by omega⟩
  · obtain ⟨-, hzero⟩ := hk
    exact ⟨by simpa using hi, by omega⟩
  · exact hreconnecter hk.2.1 (.inl hk.2.2)
  · exact hreconnecter hhead (.inr rfl)

/-- An action at a session keeps the client coherent. -/
theorem Coherent.commit (hacts : g.acts p = some (i, pc))
    (hconn : g.sessionList[i]? = some conn)
    (hexec : Client.exec spec pc o (g.view conn) = some (s', pc')) :
    Coherent (g.commit i conn pc s') (l ++ resume i pc' p :: r) := by
  have hothers : ∀ q, q ∈ l ∨ q ∈ r → (g.commit i conn pc s').Knows q := by
    intro q hq
    refine Knows.commit (hC.knows q ?_) fun hpops => ?_
    · simp only [List.mem_append, List.mem_cons]
      tauto
    · exact one_of_kind (hC.pops hacts hpops).2 (by decide) hC.kinds q hq
  refine hC.written hconn ?_ (forall_mem_place.mpr ⟨fun q hq => hothers q (.inl hq),
    hC.knows_resume hacts hconn hexec, fun q hq => hothers q (.inr hq)⟩)
  obtain ⟨n, hn⟩ := hC.kinds
  refine ⟨n, ?_⟩
  rw [← hn]
  simp [kind_resume hacts]

/-- `Start` sets the next session up. -/
theorem Coherent.setUp (hp : p = .start i .setSockOpt) :
    Coherent g.setUp (l ++ .startRecvPost i (.recvPost .isFull .start) :: r) := by
  subst hp
  obtain ⟨hlength, hstarted⟩ := hC.knows (.start i .setSockOpt) (by simp)
  have hone := one_of_kind (k := .start) rfl (by decide) hC.kinds
  have hlength' : g.setUp.sessionList.length = g.sessionList.length + 1 := by
    simp [MultiLanClient.setUp]
  have hothers : ∀ q, q ∈ l ∨ q ∈ r → g.setUp.Knows q := by
    intro q hq
    have hk : g.Knows q := hC.knows q (by simp only [List.mem_append, List.mem_cons]; tauto)
    cases q with
    | start | startRecvPost | startReturned => exact absurd rfl (hone _ hq)
    | reconnecter j pc =>
      obtain ⟨hj, hhead, hsleeps⟩ := hk
      exact ⟨by omega, hhead, hsleeps⟩
    | session j pc =>
      obtain ⟨hj, hzero⟩ := hk
      exact ⟨by omega, hzero⟩
    | stop => exact hk
    | sleeping | stopped | returned => trivial
  constructor
  · show g.sessionIdGenerator + 1 = g.setUp.sessionList.length
    rw [hlength', hC.generator]
  · intro j conn hj
    simp only [MultiLanClient.setUp] at hj
    by_cases hlt : j < g.sessionList.length
    · rw [List.getElem?_append_left hlt] at hj
      exact hC.sessionId hj
    · rw [List.getElem?_append_right (Nat.le_of_not_lt hlt)] at hj
      obtain ⟨hj', rfl⟩ := List.getElem?_eq_some_iff.mp hj
      simp only [List.length_singleton] at hj'
      simp only [List.getElem_singleton, hC.generator]
      omega
  · intro id hid
    have := hC.listed id hid
    omega
  · exact hC.stopClient
  · obtain ⟨n, hn⟩ := hC.kinds
    refine ⟨n, ?_⟩
    rw [← hn]
    simp [kind]
  · refine forall_mem_place.mpr ⟨fun q hq => hothers q (.inl hq), ⟨by omega, hstarted, rfl⟩,
      fun q hq => hothers q (.inr hq)⟩

/-- The rest of `Start` and of the `Reconnecter` keeps the client coherent. -/
theorem Coherent.quiet (hquiet : Quiet g p g' p') : Coherent g' (l ++ p' :: r) := by
  obtain ⟨hl, hk, hr⟩ := forall_mem_place.mp hC.knows
  obtain ⟨n, hn⟩ := hC.kinds
  have hkinds : kind p' = kind p → ∃ n, (l ++ p' :: r).map kind =
      .start :: .reconnecter :: List.replicate n .other := by
    intro hkind
    refine ⟨n, ?_⟩
    rw [← hn]
    simp [hkind]
  cases hquiet with
  | start i pc pc' =>
    exact { hC with
      kinds := hkinds rfl
      knows := forall_mem_place.mpr ⟨hl, hk, hr⟩ }
  | startFailed i pc =>
    exact { hC with
      kinds := hkinds rfl
      knows := forall_mem_place.mpr ⟨hl, trivial, hr⟩ }
  | started i pc =>
    have hone := one_of_kind (k := .start) rfl (by decide) hC.kinds
    have hothers : ∀ q, q ∈ l ∨ q ∈ r → g.Knows q → Knows { g with started := true } q := by
      intro q hq hk
      cases q with
      | start | startRecvPost | startReturned => exact absurd rfl (hone _ hq)
      | stop => rfl
      | _ => exact hk
    exact {
      generator := hC.generator
      sessionId := hC.sessionId
      listed := hC.listed
      stopClient := fun _ => rfl
      kinds := hkinds rfl
      knows := forall_mem_place.mpr ⟨fun q hq => hothers q (.inl hq) (hl q hq), trivial,
        fun q hq => hothers q (.inr hq) (hr q hq)⟩ }
  | stopped hstop =>
    exact { hC with
      kinds := hkinds rfl
      knows := forall_mem_place.mpr ⟨hl, trivial, hr⟩ }

end

/-- What an event at a session is. -/
theorem begin_cases {e : Client.Event} (h : g.begin i e = some (g', p)) :
    ∃ conn s' pc', g.sessionList[i]? = some conn ∧
      Client.spawn e (g.view conn) = some (s', pc') ∧ g' = g.commit i conn .finished s' ∧
      p = .session i pc' := by
  simp only [begin] at h
  split at h
  · cases h
  · next conn hconn =>
    obtain ⟨⟨s', pc'⟩, hspawn, heq⟩ := Option.map_eq_some_iff.mp h
    cases heq
    exact ⟨conn, s', pc', hconn, hspawn, rfl, rfl⟩

/-- **What an event of the client is**: an event at one session, `SendPacket` of
a null pointer, or `Stop`. -/
theorem spawn_cases {e : Event} (h : spawn options e g = some (g', p)) :
    (∃ channelSelector i e', e' ≠ .stop ∧
      { g with channelSelector := channelSelector }.begin i e' = some (g', p)) ∨
    (∃ channelSelector, g' = { g with channelSelector := channelSelector } ∧ p = .returned) ∨
    (g.started = true ∧ g' = { g with stopClient := true } ∧ p = .stop) := by
  cases e with
  | sendPacket =>
    obtain ⟨-, h⟩ := Option.ite_none_right_eq_some.mp h
    exact .inl ⟨_, _, _, by simp, h⟩
  | sendNull =>
    obtain ⟨-, h⟩ := Option.ite_none_right_eq_some.mp h
    cases h
    exact .inr (.inl ⟨_, rfl, rfl⟩)
  | sendPacketFixed fixedId =>
    obtain ⟨-, h⟩ := Option.ite_none_right_eq_some.mp h
    exact .inl ⟨g.channelSelector, _, _, by simp, h⟩
  | recvCompletion i k bytes => exact .inl ⟨g.channelSelector, _, _, by simp, h⟩
  | sendCompletion i k => exact .inl ⟨g.channelSelector, _, _, by simp, h⟩
  | stop =>
    obtain ⟨hstarted, h⟩ := Option.ite_none_right_eq_some.mp h
    cases h
    exact .inr (.inr ⟨hstarted, rfl, rfl⟩)

/-- The channel that is chosen next is nobody's business. -/
theorem Coherent.channelSelector {ts : List ClientPc} (hC : Coherent g ts)
    (channelSelector : UInt64) :
    Coherent { g with channelSelector := channelSelector } ts :=
  { hC with knows := fun q hq => by cases q <;> exact hC.knows _ hq }

theorem kinds_spawned {ts : List ClientPc} (hp : kind p = .other)
    (h : ∃ n, ts.map kind = .start :: .reconnecter :: List.replicate n .other) :
    ∃ n, (ts ++ [p]).map kind = .start :: .reconnecter :: List.replicate n .other := by
  obtain ⟨n, h⟩ := h
  refine ⟨n + 1, ?_⟩
  rw [List.map_append, h, List.replicate_succ']
  simp [hp]

/-- Events keep the client coherent. -/
theorem Coherent.event {ts : List ClientPc} {e : Event} (hC : Coherent g ts)
    (h : spawn options e g = some (g', p)) : Coherent g' (ts ++ [p]) := by
  rcases spawn_cases h with ⟨channelSelector, i, e', he', h⟩ |
    ⟨channelSelector, rfl, rfl⟩ | ⟨hstarted, rfl, rfl⟩
  · obtain ⟨conn, s', pc', hconn, hspawn, rfl, rfl⟩ := begin_cases h
    have hC' := hC.channelSelector channelSelector
    have hzero : pc'.reconnects = 0 := by
      rcases spawn_pc hspawn with ⟨_, rfl⟩ | ⟨_, rfl⟩ | rfl | rfl <;> rfl
    obtain ⟨hi, -⟩ := List.getElem?_eq_some_iff.mp hconn
    refine hC'.written hconn (kinds_spawned rfl hC.kinds) (forall_mem_spawned.mpr ⟨?_, ?_⟩)
    · exact fun q hq => Knows.commit (hC'.knows q hq) fun hpops => nomatch hpops
    · exact ⟨by simpa using hi, hzero⟩
  · have hC' := hC.channelSelector channelSelector
    exact { hC' with
      kinds := kinds_spawned rfl hC.kinds
      knows := forall_mem_spawned.mpr ⟨hC'.knows, trivial⟩ }
  · have hk : ∀ q ∈ ts, Knows { g with stopClient := true } q := by
      intro q hq
      cases q <;> exact hC.knows _ hq
    exact {
      generator := hC.generator
      sessionId := hC.sessionId
      listed := hC.listed
      stopClient := fun _ => hstarted
      kinds := kinds_spawned rfl hC.kinds
      knows := forall_mem_spawned.mpr ⟨hk, hstarted⟩ }

end MultiLanClient

open MultiLanClient

/-- The client is coherent in every run. -/
theorem coherent {G : Guard MultiLanClient ClientPc CallResult}
    {c : Config MultiLanClient ClientPc}
    (h : (multiLanClient spec options).Run G multiLanClient.init c) :
    Coherent c.shared c.threads := by
  refine Run.induct (I := Coherent) h ?_ ?_ ?_
  · exact {
      generator := rfl
      sessionId := fun h => nomatch h
      listed := fun _ h => nomatch h
      stopClient := fun h => nomatch h
      kinds := ⟨0, rfl⟩
      knows := by
        intro p hp
        simp only [multiLanClient.init, List.mem_cons, List.not_mem_nil, or_false] at hp
        rcases hp with rfl | rfl
        · exact ⟨rfl, rfl⟩
        · trivial }
  · intro g l p r o g' p' _ hC _ hexec
    rcases exec_cases hexec with ⟨i, pc, conn, s', pc', hacts, hconn, hx, rfl, rfl⟩ |
      ⟨i, hp, rfl, rfl⟩ | hquiet
    · exact hC.commit hacts hconn hx
    · exact hC.setUp hp
    · exact hC.quiet hquiet
  · intro g ts e g' p _ hC hspawn
    exact hC.event hspawn

/-- The ids that went through the list: those that were put on it are those that
were taken off it and those that are still there, in order. -/
structure MultiLanClient.InOrder (g : MultiLanClient) : Prop where
  order : g.reconnected ++ g.sessionReconnectIdList = g.released
  ids : ∀ id ∈ g.released, id < g.sessionList.length

namespace MultiLanClient

variable {g g' : MultiLanClient} {i : Nat} {conn : Connection} {pc : Pc} {s : State}

/-- An action at a session keeps the order. -/
theorem InOrder.commit (hO : InOrder g) (hid : conn.sessionId = i)
    (hi : i < g.sessionList.length)
    (hpops : pc.pops = true → g.sessionReconnectIdList.head? = some i) :
    InOrder (g.commit i conn pc s) := by
  have hlength : (g.commit i conn pc s).sessionList.length = g.sessionList.length :=
    commit_length
  by_cases hrelease : ∃ site, pc = .release .emplaceBack site
  · obtain ⟨site, rfl⟩ := hrelease
    constructor
    · show g.reconnected ++ (g.sessionReconnectIdList ++ [conn.sessionId]) =
        g.released ++ [conn.sessionId]
      rw [← hO.order, List.append_assoc]
    · intro id hmem
      rw [hlength]
      rcases List.mem_append.mp hmem with hmem | hmem
      · exact hO.ids id hmem
      · rw [List.mem_singleton.mp hmem, hid]
        exact hi
  · have henlisted : g.enlisted conn pc = g.released := by
      fun_cases enlisted g conn pc
      · exact absurd ⟨_, rfl⟩ hrelease
      · rfl
    constructor
    · show g.delisted pc ++ g.listed conn pc = g.enlisted conn pc
      rw [henlisted]
      fun_cases MultiLanClient.listed g conn pc with
      | case1 site => exact absurd ⟨site, rfl⟩ hrelease
      | case2 retval =>
        obtain ⟨rest, hrest⟩ := List.head?_eq_some_iff.mp (hpops rfl)
        rw [← hO.order, hrest]
        simp [delisted, hrest]
      | case3 _ _ hpop =>
        fun_cases delisted g pc
        · exact absurd rfl (hpop _)
        · exact hO.order
    · intro id hmem
      rw [hlength]
      change id ∈ g.enlisted conn pc at hmem
      rw [henlisted] at hmem
      exact hO.ids id hmem

end MultiLanClient

/-- The ids are in order in every run. -/
theorem inOrder {G : Guard MultiLanClient ClientPc CallResult}
    {c : Config MultiLanClient ClientPc}
    (h : (multiLanClient spec options).Run G multiLanClient.init c) : InOrder c.shared := by
  refine Run.induct (I := fun g _ => InOrder g) h ⟨rfl, fun _ h => nomatch h⟩ ?_ ?_
  · intro g l p r o g' p' hrun hO _ hexec
    have hC := coherent hrun
    rcases exec_cases hexec with ⟨i, pc, conn, s', pc', hacts, hconn, hx, rfl, rfl⟩ |
      ⟨i, -, rfl, rfl⟩ | hquiet
    · obtain ⟨hi, -⟩ := List.getElem?_eq_some_iff.mp hconn
      exact hO.commit (hC.sessionId hconn) hi fun hpops => (hC.pops hacts hpops).1
    · refine ⟨hO.order, fun id hid => ?_⟩
      have := hO.ids id hid
      simp only [MultiLanClient.setUp, List.length_append, List.length_singleton]
      omega
    · cases hquiet <;> exact ⟨hO.order, hO.ids⟩
  · intro g ts e g' p hrun hO hspawn
    have hC := coherent hrun
    rcases spawn_cases hspawn with ⟨channelSelector, i, e', -, h⟩ |
      ⟨channelSelector, rfl, rfl⟩ | ⟨-, rfl, rfl⟩
    · obtain ⟨conn, s', pc', hconn, -, rfl, rfl⟩ := begin_cases h
      obtain ⟨hi, -⟩ := List.getElem?_eq_some_iff.mp hconn
      exact InOrder.commit ⟨hO.order, hO.ids⟩ (hC.sessionId hconn) hi fun hpops => nomatch hpops
    · exact ⟨hO.order, hO.ids⟩
    · exact ⟨hO.order, hO.ids⟩

/-- **First released, first reconnected**: in every run of the client the ids that
`ReleaseSession` has put on `sessionReconnectIdList` are, in this order, those
that the `Reconnecter` has taken off and those that are still there; each is the
id of a session of `sessionList`; and the id that the `Reconnecter` works for is
the first of the list all the time. -/
theorem reconnect_order {G : Guard MultiLanClient ClientPc CallResult}
    {c : Config MultiLanClient ClientPc}
    (h : (multiLanClient spec options).Run G multiLanClient.init c) :
    c.shared.reconnected ++ c.shared.sessionReconnectIdList = c.shared.released ∧
      (∀ id ∈ c.shared.released, ∃ conn, c.shared.sessionList[id]? = some conn ∧
        conn.sessionId = id) ∧
      ∀ id pc, ClientPc.reconnecter id pc ∈ c.threads →
        c.shared.sessionReconnectIdList.head? = some id := by
  have hC := coherent h
  have hO := inOrder h
  refine ⟨hO.order, fun id hid => ?_, fun id pc hpc => (hC.knows _ hpc).2.1⟩
  have hconn := List.getElem?_eq_getElem (hO.ids id hid)
  exact ⟨_, hconn, hC.sessionId hconn⟩

/-- Two sessions, set up. -/
def multiLanClient.start : List (Machine.Act CallResult MultiLanClient.Event) :=
  List.replicate 13 (.run 0 .success)

/-- A client of two sessions. -/
def twoSessions : Db.LanClientOptions := ⟨1, 1, 2⟩

/-- Session 1 is released, then session 0; the first is reconnected, then it is
the other's turn. -/
theorem reconnect_order_two :
    ∃ c, (multiLanClient reconnectingSpec twoSessions).Reachable multiLanClient.init c ∧
      c.shared.reconnected = [1] ∧ c.shared.sessionReconnectIdList = [0] ∧
      c.shared.reconnected ++ c.shared.sessionReconnectIdList = c.shared.released ∧
      (∀ id ∈ c.shared.released, ∃ conn, c.shared.sessionList[id]? = some conn ∧
        conn.sessionId = id) ∧
      ∀ id pc, ClientPc.reconnecter id pc ∈ c.threads →
        c.shared.sessionReconnectIdList.head? = some id := by
  obtain ⟨c, hrun, hc⟩ := exists_run (multiLanClient reconnectingSpec twoSessions) unguarded
    multiLanClient.init
    (multiLanClient.start ++
      .event (.recvCompletion 1 0 []) :: List.replicate 10 (.run 2 .success) ++
      .event (.recvCompletion 0 0 []) :: List.replicate 10 (.run 3 .success) ++
      List.replicate 9 (.run 1 .success))
    (P := fun c => c.shared.reconnected = [1] ∧ c.shared.sessionReconnectIdList = [0])
    (by decide +kernel)
  exact ⟨c, hrun, hc.1, hc.2, reconnect_order hrun⟩

end RioServer.Client
