import RioServer.Server.RioTestServer

/-!
# Where the pooled contexts are

Every object of `contextPool` that is allocated is in exactly one place: it
belongs to a request whose completion no worker has taken, or to a thread that
will post or free it, or it was lost. `exec_contexts` says once what an action
can do with contexts, and `ledger` is the account along every run: the allocated
objects are, up to order, the ones outstanding, the ones in hand and the leaked
ones.

The two posting functions return on failure without `contextPool.Free`, so what
is leaked is exactly what failed to be posted (`context_leaked`), and a server
whose posts all succeed has as many allocated contexts as outstanding requests
whenever no thread has one in hand (`contexts_balanced`).
-/

namespace RioServer

open Machine

/-! ## What a thread has in hand -/

def SendPostCaller.hand : SendPostCaller → List IoContext
  | .sendPacket => []
  | .sendCompleted context => [context]

def RecvPostCaller.hand : RecvPostCaller → List IoContext
  | .makeNewSession => []
  | .recvCompleted context _ => [context]

def ReleaseCaller.hand : ReleaseCaller → List IoContext
  | .sendPost caller => caller.hand
  | .recvCompleted context _ | .invalidIoCompleted context => [context]
  | .worker | .makeNewSession | .emplaceFailed | .makeNewSessionFailed => []

/-- The context that `SendPost` has allocated and not posted. -/
def SendPostPc.hand : SendPostPc → List IoContext
  | .incrementIoCount context | .rioSend context => [context]
  | _ => []

/-- The context of the completion that a worker has not freed. -/
def WorkerPc.hand : WorkerPc → List IoContext
  | .getIoCompletedContext context _ | .testTransferred context _ | .recvCompleted context _
  | .sendIoCompleted context | .sendCompleted context | .disconnect context
  | .invalidIoCompleted context | .freeInvalidContext context | .freeContext context _ =>
    [context]
  | .endCompletion => []

/-- The contexts that the thread at a counter will post or free. -/
def Pc.hand : Pc → List IoContext
  | .sendPost pc caller => pc.hand ++ caller.hand
  | .recvPost _ caller => caller.hand
  | .release _ caller => caller.hand
  | .worker pc => pc.hand
  | .makeNewSession _ | .sendPacket _ _ _ | .finished => []

@[simp] theorem Pc.hand_sendPost (pc : SendPostPc) (caller : SendPostCaller) :
    (Pc.sendPost pc caller).hand = pc.hand ++ caller.hand := rfl

@[simp] theorem Pc.hand_recvPost (pc : RecvPostPc) (caller : RecvPostCaller) :
    (Pc.recvPost pc caller).hand = caller.hand := rfl

@[simp] theorem Pc.hand_release (pc : ReleasePc) (caller : ReleaseCaller) :
    (Pc.release pc caller).hand = caller.hand := rfl

@[simp] theorem Pc.hand_worker (pc : WorkerPc) : (Pc.worker pc).hand = pc.hand := rfl

/-- Returning keeps what is in hand. -/
@[simp] theorem SendPostCaller.hand_next (caller : SendPostCaller) (result : IoPostError) :
    (caller.next result).hand = caller.hand := by
  cases caller <;> rfl

@[simp] theorem RecvPostCaller.hand_next (caller : RecvPostCaller) (result : IoPostError) :
    (caller.next result).hand = caller.hand := by
  rcases caller with _ | ⟨_, _ | _⟩ <;> rfl

@[simp] theorem ReleaseCaller.hand_next (caller : ReleaseCaller) :
    caller.next.hand = caller.hand := by
  cases caller with
  | sendPost caller => exact caller.hand_next _
  | _ => rfl

/-! ## One action -/

variable {spec : NetBufferSpec} {o : Oracle} {s s' : State} {pc' : Pc}

/-- What an action does with contexts: nothing; a new one stays in hand, is
posted at once or is lost; the one in hand is posted, lost or freed. -/
inductive ContextEffect (o : Oracle) (s : State) (pc : Pc) (s' : State) (pc' : Pc) : Prop where
  | keep (pool : s'.contextPool = s.contextPool) (outstanding : s'.outstanding = s.outstanding)
      (hand : pc'.hand = pc.hand) (lost : RioTestServer.lost o pc = [])
      (memory : ∀ contexts e, RioTestServer.initContext contexts e o pc = contexts)
  | make (context : IoContext) (id : context.id = o.context) (fresh : o.context ∉ s.contextPool)
      (pool : s'.contextPool = o.context :: s.contextPool)
      (outstanding : s'.outstanding = s.outstanding) (hand : pc'.hand = context :: pc.hand)
      (lost : RioTestServer.lost o pc = [])
      (memory : ∀ contexts e, RioTestServer.initContext contexts e o pc =
        Function.update contexts o.context ⟨e.sessionId, context.ioType⟩)
  | receive (context : IoContext) (id : context.id = o.context)
      (fresh : o.context ∉ s.contextPool) (pool : s'.contextPool = o.context :: s.contextPool)
      (outstanding : s'.outstanding = s.outstanding ++ [context]) (hand : pc'.hand = pc.hand)
      (lost : RioTestServer.lost o pc = [])
      (memory : ∀ contexts e, RioTestServer.initContext contexts e o pc =
        Function.update contexts o.context ⟨e.sessionId, context.ioType⟩)
  | lose (ioType : RioOperationType) (fresh : o.context ∉ s.contextPool)
      (pool : s'.contextPool = o.context :: s.contextPool)
      (outstanding : s'.outstanding = s.outstanding) (hand : pc'.hand = pc.hand)
      (lost : RioTestServer.lost o pc = [o.context])
      (memory : ∀ contexts e, RioTestServer.initContext contexts e o pc =
        Function.update contexts o.context ⟨e.sessionId, ioType⟩)
  | post (context : IoContext) (pool : s'.contextPool = s.contextPool)
      (outstanding : s'.outstanding = s.outstanding ++ [context])
      (hand : pc.hand = context :: pc'.hand) (lost : RioTestServer.lost o pc = [])
      (memory : ∀ contexts e, RioTestServer.initContext contexts e o pc = contexts)
  | leak (context : IoContext) (pool : s'.contextPool = s.contextPool)
      (outstanding : s'.outstanding = s.outstanding) (hand : pc.hand = context :: pc'.hand)
      (lost : RioTestServer.lost o pc = [context.id])
      (memory : ∀ contexts e, RioTestServer.initContext contexts e o pc = contexts)
  | free (context : IoContext) (pool : s'.contextPool = s.contextPool.erase context.id)
      (outstanding : s'.outstanding = s.outstanding) (hand : pc.hand = context :: pc'.hand)
      (lost : RioTestServer.lost o pc = [])
      (memory : ∀ contexts e, RioTestServer.initContext contexts e o pc = contexts)

theorem execSendPost_contexts {pc : SendPostPc} {caller : SendPostCaller}
    (h : execSendPost o s caller pc = some (s', pc')) :
    ContextEffect o s (.sendPost pc caller) s' pc' := by
  cases pc with
  | makeSendStream =>
    simp only [execSendPost] at h
    split at h
    · cases h
    · next hfresh =>
      split at h
      · cases h
      · next r hr =>
        cases h
        exact .make ⟨o.context, .opSend, r.length, 0, r.copied⟩ rfl hfresh rfl rfl rfl rfl
          fun _ _ => rfl
  | rioSend context =>
    simp only [execSendPost] at h
    split at h
    · next hok =>
      cases h
      exact .post context rfl rfl rfl (if_pos hok) fun _ _ => rfl
    · next hok =>
      -- `IOCountDecrement` and return: the context is not freed
      cases h
      exact .leak context rfl rfl rfl (if_neg hok) fun _ _ => rfl
  | resetIoMode | incrementIoCount context =>
    cases h
    exact .keep rfl rfl rfl rfl fun _ _ => rfl
  | _ =>
    simp only [execSendPost] at h
    split at h <;> cases h <;>
      exact .keep rfl rfl (by simp [SendPostPc.hand]) rfl fun _ _ => rfl

theorem execRecvPost_contexts {pc : RecvPostPc} {caller : RecvPostCaller}
    (h : execRecvPost spec o s caller pc = some (s', pc')) :
    ContextEffect o s (.recvPost pc caller) s' pc' := by
  cases pc with
  | rioReceive =>
    simp only [execRecvPost] at h
    split at h
    · cases h
    · next hfresh =>
      split at h
      · next hok =>
        cases h
        exact .receive (recvContext spec o.context s) rfl hfresh rfl rfl rfl (if_pos hok)
          fun _ _ => rfl
      · next hok =>
        cases h
        exact .lose .opRecv hfresh rfl rfl (caller.hand_next _) (if_neg hok) fun _ _ => rfl
  | incrementIoCount =>
    cases h
    exact .keep rfl rfl (caller.hand_next _) rfl fun _ _ => rfl

theorem execWorker_contexts {pc : WorkerPc} (h : execWorker spec s pc = some (s', pc')) :
    ContextEffect o s (.worker pc) s' pc' := by
  revert h
  fun_cases execWorker spec s pc <;> rintro ⟨⟩ <;>
    first
      | exact .keep rfl rfl rfl rfl fun _ _ => rfl
      | exact .free _ rfl rfl rfl rfl fun _ _ => rfl

/-- **One action** moves one context at most. -/
theorem exec_contexts {pc : Pc} (h : exec spec pc o s = some (s', pc')) :
    ContextEffect o s pc s' pc' := by
  cases pc with
  | makeNewSession pc =>
    revert h
    simp only [exec, Option.some.injEq]
    fun_cases execMakeNewSession o s pc <;> rintro ⟨⟩ <;>
      exact .keep rfl rfl rfl rfl fun _ _ => rfl
  | sendPacket pc isEncoded packet =>
    revert h
    simp only [exec]
    fun_cases execSendPacket spec s isEncoded packet pc <;> rintro ⟨⟩ <;>
      exact .keep rfl rfl rfl rfl fun _ _ => rfl
  | sendPost pc caller => exact execSendPost_contexts h
  | recvPost pc caller => exact execRecvPost_contexts h
  | release pc caller =>
    revert h
    simp only [exec]
    fun_cases execRelease s caller pc <;> rintro ⟨⟩ <;>
      exact .keep rfl rfl (by simp) rfl fun _ _ => rfl
  | worker pc => exact execWorker_contexts h
  | finished => cases h

/-- An event takes a context from the outstanding requests, or none. -/
theorem spawn_contexts {e : Event} {pc : Pc} (h : spawn e s = some (s', pc)) :
    s'.contextPool = s.contextPool ∧ (pc.hand ++ s'.outstanding).Perm s.outstanding := by
  cases e with
  | completion i bytes =>
    obtain ⟨context, -, hi, -, rfl, rfl⟩ := spawn_completion h
    obtain ⟨hlt, rfl⟩ := List.getElem?_eq_some_iff.mp hi
    exact ⟨rfl, List.getElem_cons_eraseIdx_perm hlt⟩
  | _ =>
    obtain ⟨-, rfl, rfl⟩ := Option.ite_none_right_eq_some.mp h
    exact ⟨rfl, .refl _⟩

/-! ## The account of one session -/

/-- The pool objects of a list of contexts. -/
def ids (contexts : List IoContext) : List Nat := contexts.map IoContext.id

@[simp] theorem ids_nil : ids [] = [] := rfl

@[simp] theorem ids_cons (context : IoContext) (contexts : List IoContext) :
    ids (context :: contexts) = context.id :: ids contexts := rfl

@[simp] theorem ids_append (l r : List IoContext) : ids (l ++ r) = ids l ++ ids r :=
  List.map_append

/-- Every object moves with its allocation: what the pool gains is outstanding,
in hand or lost afterwards. -/
theorem ContextEffect.count {pc : Pc} (h : ContextEffect o s pc s' pc')
    (hhand : ∀ a ∈ ids pc.hand, a ∈ s.contextPool) (a : Nat) :
    s'.contextPool.count a + (ids s.outstanding).count a + (ids pc.hand).count a =
      s.contextPool.count a + (ids s'.outstanding).count a + (ids pc'.hand).count a +
        (RioTestServer.lost o pc).count a := by
  cases h with
  | keep pool outstanding hand lost =>
    rw [pool, outstanding, hand, lost, List.count_nil, Nat.add_zero]
  | make context id fresh pool outstanding hand lost =>
    rw [pool, outstanding, hand, lost, ids_cons, id, List.count_cons, List.count_cons,
      List.count_nil]
    omega
  | receive context id fresh pool outstanding hand lost =>
    rw [pool, outstanding, hand, lost, ids_append, ids_cons, id, List.count_append,
      List.count_cons, List.count_cons, ids_nil, List.count_nil]
    omega
  | lose ioType fresh pool outstanding hand lost =>
    rw [pool, outstanding, hand, lost, List.count_cons, List.count_cons, List.count_nil]
    omega
  | post context pool outstanding hand lost =>
    rw [pool, outstanding, hand, lost, ids_append, ids_cons, ids_cons, ids_nil,
      List.count_append, List.count_cons, List.count_cons, List.count_nil]
    omega
  | leak context pool outstanding hand lost =>
    rw [pool, outstanding, hand, lost, ids_cons, List.count_cons, List.count_cons,
      List.count_nil]
    omega
  | free context pool outstanding hand lost =>
    have hin : context.id ∈ s.contextPool := hhand _ (by rw [hand]; exact List.mem_cons_self)
    have hpos := List.count_pos_iff.mpr hin
    rw [pool, outstanding, hand, lost, ids_cons, List.count_erase, List.count_cons,
      List.count_nil]
    by_cases ha : context.id = a
    · subst ha
      simp only [beq_self_eq_true, if_true]
      omega
    · rw [if_neg (by simpa using ha)]
      omega

/-- `Alloc` hands out a free object, so none is allocated twice. -/
theorem ContextEffect.nodup {pc : Pc} (h : ContextEffect o s pc s' pc')
    (hpool : s.contextPool.Nodup) : s'.contextPool.Nodup := by
  cases h with
  | keep pool | post _ pool | leak _ pool => exact pool ▸ hpool
  | make _ _ fresh pool | receive _ _ fresh pool | lose _ fresh pool =>
    exact pool ▸ List.nodup_cons.mpr ⟨fresh, hpool⟩
  | free _ pool => exact pool ▸ hpool.erase _

/-! ## The account of the server -/

namespace RioTestServer

variable {numOfWorkerThread : Nat} {g g' : RioTestServer}

/-- The contexts of all requests whose completion no worker has taken. -/
def outstandingIds (g : RioTestServer) : List Nat :=
  g.sessions.flatMap fun e => ids e.state.outstanding

/-- The contexts that the threads have in hand. -/
def handIds (ts : List Thread) : List Nat := ts.flatMap fun t => ids t.pc.hand

/-- **The account**: what is allocated is outstanding, in hand or leaked. -/
structure Ledger (g : RioTestServer) (ts : List Thread) : Prop where
  nodup : g.contextPool.Nodup
  perm : g.contextPool.Perm (g.outstandingIds ++ handIds ts ++ g.leaked)

/-- What is outstanding or in hand is allocated. -/
theorem Ledger.mem_pool {ts : List Thread} (h : Ledger g ts) {a : Nat}
    (ha : a ∈ g.outstandingIds ++ handIds ts) : a ∈ g.contextPool :=
  h.perm.mem_iff.mpr (List.mem_append_left _ ha)

/-- The place of a session in the account. -/
theorem count_outstandingIds_commit {i : Nat} {e : Entry} (he : g.sessions[i]? = some e)
    (s s' : State) (a : Nat) :
    (outstandingIds (g.commit i e s s')).count a + (ids e.state.outstanding).count a =
      g.outstandingIds.count a + (ids s'.outstanding).count a := by
  obtain ⟨l, r, hsplit, -, hset⟩ := split_of_getElem? he
  simp only [outstandingIds, commit, hset]
  rw [hsplit]
  simp only [List.flatMap_append, List.flatMap_cons, List.count_append]
  omega

/-- Rereading the type of a context changes no object. -/
theorem ids_hand_reread (g : RioTestServer) (pc : Pc) :
    ids (g.reread pc).hand = ids pc.hand := by
  cases pc with
  | worker pc => cases pc <;> rfl
  | _ => rfl

theorem lost_reread (g : RioTestServer) (s : State) (pc : Pc) (o : Oracle) :
    lost (emplaceResult s o pc) (g.reread pc) = lost o pc := by
  cases pc with
  | worker pc => cases pc <;> rfl
  | makeNewSession pc => cases pc <;> rfl
  | _ => rfl

/-- The account at the place of a session and a thread. -/
theorem Ledger.place {l r : List Thread} {t : Thread} {i : Nat} {e : Entry}
    (h : Ledger g (l ++ t :: r)) (he : g.sessions[i]? = some e) :
    ∀ a ∈ ids t.pc.hand ++ ids e.state.outstanding, a ∈ g.contextPool := by
  intro a ha
  refine h.mem_pool ?_
  rcases List.mem_append.mp ha with ha | ha
  · exact List.mem_append_right _ (List.mem_flatMap.mpr ⟨t, by simp, ha⟩)
  · exact List.mem_append_left _
      (List.mem_flatMap.mpr ⟨e, List.mem_of_getElem? he, ha⟩)

/-- **One action keeps the account.** -/
theorem exec_ledger {l r : List Thread} {t t' : Thread} (hI : Ledger g (l ++ t :: r))
    (h : exec spec t o g = some (g', t')) : Ledger g' (l ++ t' :: r) := by
  obtain ⟨e, s', pc', he, hexec, rfl, rfl⟩ := exec_eq_some h
  have heffect := exec_contexts hexec
  have hhand : ∀ a ∈ ids (g.reread t.pc).hand, a ∈ g.contextPool := by
    rw [ids_hand_reread]
    exact fun a ha => hI.place he a (List.mem_append_left _ ha)
  refine ⟨heffect.nodup hI.nodup, List.perm_iff_count.mpr fun a => ?_⟩
  have hbefore := List.perm_iff_count.mp hI.perm a
  have hmove := heffect.count hhand a
  have hsession := count_outstandingIds_commit he (g.view e (g.lookedUp e t.pc)) s' a
  rw [ids_hand_reread, lost_reread] at hmove
  simp only [handIds, List.flatMap_append, List.flatMap_cons, List.count_append] at hbefore ⊢
  show s'.contextPool.count a = _
  have hview : (g.view e (g.lookedUp e t.pc)).contextPool = g.contextPool ∧
      (g.view e (g.lookedUp e t.pc)).outstanding = e.state.outstanding := ⟨rfl, rfl⟩
  rw [hview.1, hview.2] at hmove
  have hsessions : outstandingIds { g.commit (target t) e (g.view e (g.lookedUp e t.pc)) s' with
      contexts := initContext g.contexts e o t.pc
      leaked := g.leaked ++ lost o t.pc
      accepterBusy := g.accepterBusy && !endsAccept t.pc } =
      outstandingIds (g.commit (target t) e (g.view e (g.lookedUp e t.pc)) s') := rfl
  rw [hsessions]
  omega

theorem spawn_ledger {ts : List Thread} {t : Thread} {ev : Event} (hI : Ledger g ts)
    (h : spawn numOfWorkerThread ev g = some (g', t)) : Ledger g' (ts ++ [t]) := by
  rcases spawn_eq_some h with
    ⟨threadId, -, -, -, hacc⟩ | ⟨i, ev', e, s', pc, -, he, -, hspawn, rfl, rfl⟩
  · -- a new session has no request yet
    simp only [accept] at hacc
    split at hacc <;> cases hacc <;>
      exact ⟨hI.nodup, by simpa [outstandingIds, handIds, State.initial, Pc.hand] using hI.perm⟩
  · obtain ⟨hpool, hperm⟩ := spawn_contexts hspawn
    have hpool' : (g.commit i e (g.view e e.sessionId) s').contextPool = g.contextPool := hpool
    refine ⟨hpool' ▸ hI.nodup, List.perm_iff_count.mpr fun a => ?_⟩
    have hbefore := List.perm_iff_count.mp hI.perm a
    have hmove := List.perm_iff_count.mp (hperm.map IoContext.id) a
    have hsession := count_outstandingIds_commit he (g.view e e.sessionId) s' a
    have hleaked : (g.commit i e (g.view e e.sessionId) s').leaked = g.leaked := rfl
    have hview : (g.view e e.sessionId).outstanding = e.state.outstanding := rfl
    rw [hpool', hleaked]
    rw [hview, List.map_append, List.count_append] at hmove
    simp only [handIds, List.flatMap_append, List.flatMap_cons, List.flatMap_nil,
      List.append_nil, List.count_append, ids] at hbefore hsession hmove ⊢
    omega

/-- **Every context is in one place**, along every run. -/
theorem ledger {c : Config RioTestServer Thread}
    (h : (server spec numOfWorkerThread).Reachable server.init c) :
    Ledger c.shared c.threads := by
  refine Run.induct h ⟨List.nodup_nil, .refl _⟩ ?_ ?_
  · intro g l t r o g' t' _ hI _ hexec
    exact exec_ledger hI hexec
  · intro g ts ev g' t _ hI hspawn
    exact spawn_ledger hI hspawn

/-! ## Balanced or leaking -/

end RioTestServer

def ReleaseCaller.posting : ReleaseCaller → Bool
  | .worker | .sendPost _ | .recvCompleted _ _ | .invalidIoCompleted _ => true
  | .makeNewSession | .emplaceFailed | .makeNewSessionFailed => false

/-- The counters inside `SendPost`, `RecvPost` or an iteration of `Worker`. -/
def Pc.posting : Pc → Bool
  | .sendPost _ _ | .recvPost _ _ | .worker _ => true
  | .release _ caller => caller.posting
  | .makeNewSession _ | .sendPacket _ _ _ | .finished => false

/-- Nobody else has a context in hand. -/
theorem Pc.hand_eq_nil {pc : Pc} (h : pc.posting = false) : pc.hand = [] := by
  cases pc with
  | sendPost _ _ | recvPost _ _ | worker _ => cases h
  | release pc caller =>
    cases caller with
    | worker | sendPost _ | recvCompleted _ _ | invalidIoCompleted _ => cases h
    | makeNewSession | emplaceFailed | makeNewSessionFailed => rfl
  | makeNewSession _ | sendPacket _ _ _ | finished => rfl

namespace RioTestServer

/-- No thread is inside `RecvPost`, `SendPost` or a `Worker` iteration. -/
def Idle (ts : List Thread) : Prop := ∀ t ∈ ts, t.pc.posting = false

instance (ts : List Thread) : Decidable (Idle ts) :=
  inferInstanceAs (Decidable (∀ t ∈ ts, t.pc.posting = false))

/-- The requests that were posted and whose completion is not processed, when no
worker has one. -/
def outstandingCount (g : RioTestServer) : Nat :=
  (g.sessions.map fun e => e.state.outstanding.length).sum

theorem handIds_eq_nil {ts : List Thread} (h : Idle ts) : handIds ts = [] := by
  refine List.flatMap_eq_nil_iff.mpr fun t ht => ?_
  rw [Pc.hand_eq_nil (h t ht)]
  rfl

theorem length_outstandingIds (g : RioTestServer) :
    g.outstandingIds.length = g.outstandingCount := by
  simp [outstandingIds, outstandingCount, List.length_flatMap, ids]

/-- An idle server has allocated what is outstanding and what has leaked. -/
theorem length_contextPool {c : Config RioTestServer Thread}
    (h : (server spec numOfWorkerThread).Reachable server.init c) (hidle : Idle c.threads) :
    c.shared.contextPool.length = c.shared.outstandingCount + c.shared.leaked.length := by
  rw [(ledger h).perm.length_eq, handIds_eq_nil hidle, List.append_nil, List.length_append,
    length_outstandingIds]

/-- Every `RIOReceive` and every `RIOSend` succeeds. -/
def PostsSucceed : Guard RioTestServer Thread Oracle := fun t o _ _ => lost o t.pc = []

instance (t : Thread) (o : Oracle) (g : RioTestServer) (ts : List Thread) :
    Decidable (PostsSucceed t o g ts) :=
  inferInstanceAs (Decidable (lost o t.pc = []))

theorem leaked_eq_nil {c : Config RioTestServer Thread}
    (h : (server spec numOfWorkerThread).Run PostsSucceed server.init c) :
    c.shared.leaked = [] := by
  refine Run.induct (I := fun g _ => g.leaked = []) h rfl ?_ ?_
  · intro g l t r o g' t' _ hI hG hexec
    obtain ⟨e, s', pc', -, -, rfl, -⟩ := exec_eq_some hexec
    show g.leaked ++ lost o t.pc = []
    rw [hI, List.nil_append]
    exact hG
  · intro g ts ev g' t _ hI hspawn
    rcases spawn_eq_some hspawn with
      ⟨threadId, -, -, -, hacc⟩ | ⟨i, ev', e, s', pc, -, -, -, -, rfl, -⟩
    · simp only [accept] at hacc
      split at hacc <;> cases hacc <;> exact hI
    · exact hI

/-- An idle server has one allocated context for each outstanding request, and
no context is outstanding or in hand twice, or free while it is. -/
structure ContextsBalanced (g : RioTestServer) (ts : List Thread) : Prop where
  balanced : Idle ts → g.contextPool.length = g.outstandingCount
  once : (g.outstandingIds ++ handIds ts).Nodup
  allocated : ∀ a ∈ g.outstandingIds ++ handIds ts, a ∈ g.contextPool

/-- **No context leaks or is freed twice** as long as every post succeeds. -/
theorem contexts_balanced {c : Config RioTestServer Thread}
    (h : (server spec numOfWorkerThread).Run PostsSucceed server.init c) :
    ContextsBalanced c.shared c.threads where
  balanced hidle := by
    rw [length_contextPool h.anywhere hidle, leaked_eq_nil h, List.length_nil, Nat.add_zero]
  once := by
    have hall := (ledger h.anywhere).perm.nodup_iff.mp (ledger h.anywhere).nodup
    exact (List.nodup_append.mp hall).1
  allocated _ ha := (ledger h.anywhere).mem_pool ha

/-- A connection and the actions of its accepter up to `RecvPost`. -/
def server.connect (i : Nat) : List (Machine.Act Oracle Event) :=
  .event (.accept 0) :: List.replicate 5 (.run i ⟨true, 0⟩)

/-- A client that connects and closes: one context was allocated, and freed. -/
theorem contexts_balanced_closed :
    ∃ c, c.shared.accepted = 1 ∧ c.shared.contextPool = [] ∧
      (server plainSpec 1).Run PostsSucceed server.init c ∧
      ContextsBalanced c.shared c.threads := by
  obtain ⟨c, hrun, hacc, hpool⟩ := exists_run (server plainSpec 1) PostsSucceed server.init
    (server.connect 0 ++ List.replicate 5 (.run 0 ⟨true, 0⟩) ++
      .event (.session 0 (.completion 0 [])) :: List.replicate 10 (.run 1 ⟨true, 0⟩))
    (P := fun c => c.shared.accepted = 1 ∧ c.shared.contextPool = []) (by decide +kernel)
  exact ⟨c, hacc, hpool, hrun, contexts_balanced hrun⟩

/-- The first `RIOReceive` of a session fails: its context stays allocated. -/
theorem context_leaked :
    ∃ c, (server plainSpec 1).Reachable server.init c ∧ Idle c.threads ∧
      c.shared.contextPool.length ≠ c.shared.outstandingCount := by
  obtain ⟨c, hrun, hidle, hne⟩ := exists_run (server plainSpec 1) unguarded server.init
    (server.connect 0 ++ [.run 0 ⟨false, 0⟩])
    (P := fun c => Idle c.threads ∧
      c.shared.contextPool.length ≠ c.shared.outstandingCount) (by decide +kernel)
  exact ⟨c, hrun, hidle, hne⟩

end RioTestServer

end RioServer
