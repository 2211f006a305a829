import RioServer.Client.ReconnectList
import RioServer.Lib.Part

/-!
# Each session of the whole DB client

`multiLanClient` runs all sessions at once. What a run of it does to one of
them is a run of that session's own machine (`each_connection`), from the moment
`Start` has set the session up: the steps of the other sessions leave it alone,
and what the client keeps for all sessions (the list of ids, `stopClient`) shows
in it as its own. So what holds of every run of a session holds of every session
of the client, as `released_once_each` shows.
-/

namespace RioServer.Client

open Machine MultiLanClient

variable {spec : ClientSpec} {options : Db.LanClientOptions} {o : CallResult}

/-! ## One session of it -/

/-- Where a thread stands in session `i`. For a session `Start` has finished when
its first receive is posted, and the `Reconnecter` waits unless it works for that
session. -/
def ClientPc.atSession (i : Nat) : ClientPc → Option Pc
  | .start j _ => if i < j then some .finished else none
  | .startRecvPost j pc =>
    if i = j then some pc else if i < j then some .finished else none
  | .startReturned | .stop => some .finished
  | .sleeping | .stopped => some (.reconnecter .takeFirst)
  | .reconnecter j pc => if i = j then some pc else some (.reconnecter .takeFirst)
  | .session j pc => if i = j then some pc else none
  | .returned => none

/-- **One session of the client**. -/
def MultiLanClient.connection (i : Nat) : Part MultiLanClient ClientPc State Pc where
  view g := g.sessionList[i]?.map g.view
  proj := ClientPc.atSession i

/-- A condition on what is done at a session, at all of them. -/
def onEach (H : Guard State Pc CallResult) : Guard MultiLanClient ClientPc CallResult :=
  fun p o g ts =>
    match g.acts p with
    | none => True
    | some (i, pc) =>
      match g.sessionList[i]? with
      | none => True
      | some conn => H pc o (g.view conn) (ts.filterMap (ClientPc.atSession i))

instance (H : Guard State Pc CallResult) [∀ pc o s ts, Decidable (H pc o s ts)]
    (p : ClientPc) (o : CallResult) (g : MultiLanClient) (ts : List ClientPc) :
    Decidable (onEach H p o g ts) :=
  match hacts : g.acts p with
  | none => .isTrue (by simp [onEach, hacts])
  | some (i, pc) =>
    match hconn : g.sessionList[i]? with
    | none => .isTrue (by simp [onEach, hacts, hconn])
    | some conn =>
      decidable_of_iff (H pc o (g.view conn) (ts.filterMap (ClientPc.atSession i)))
        (by simp [onEach, hacts, hconn])

namespace MultiLanClient

variable {g g' : MultiLanClient} {i j : Nat} {conn : Connection} {p p' : ClientPc}
variable {pc pc' : Pc} {s s' : State} {l r ts : List ClientPc}
variable {H : Guard State Pc CallResult}

/-- The acting thread stands where it acts. -/
theorem atSession_self (hacts : g.acts p = some (i, pc)) : p.atSession i = some pc := by
  rcases acts_cases hacts with rfl | rfl | rfl | ⟨rfl, -, rfl⟩ <;> simp [ClientPc.atSession]

/-- It still does behind its action. -/
theorem atSession_resume (hacts : g.acts p = some (i, pc)) :
    (resume i pc' p).atSession i = some pc' := by
  have hreconnecter : (reconnecterNext i pc').atSession i = some pc' := by
    simp only [reconnecterNext]
    split
    · next h => rw [h, ClientPc.atSession]
    · simp [ClientPc.atSession]
  rcases acts_cases hacts with rfl | rfl | rfl | ⟨rfl, -, -⟩
  · simp only [resume, startNext]
    split
    · next h => simp [ClientPc.atSession, h]
    · simp [ClientPc.atSession]
  · simp [resume, ClientPc.atSession]
  · exact hreconnecter
  · exact hreconnecter

/-- For every other session it has not moved. -/
theorem atSession_resume_ne (hacts : g.acts p = some (i, pc)) (hij : i ≠ j) :
    (resume i pc' p).atSession j = p.atSession j := by
  have hji : j ≠ i := hij.symm
  have hreconnecter : (reconnecterNext i pc').atSession j = some (.reconnecter .takeFirst) := by
    simp only [reconnecterNext]
    split <;> simp [ClientPc.atSession, hji]
  rcases acts_cases hacts with rfl | rfl | rfl | ⟨rfl, -, -⟩
  · simp only [resume, startNext]
    split
    · by_cases hlt : j < i
      · simp [ClientPc.atSession, hji, hlt, Nat.lt_succ_of_lt hlt]
      · have hlt' : ¬ j < i + 1 := by omega
        simp [ClientPc.atSession, hji, hlt, hlt']
    · simp [ClientPc.atSession, hji]
  · simp [resume, ClientPc.atSession, hji]
  · show (reconnecterNext i pc').atSession j = _
    rw [hreconnecter]
    simp [ClientPc.atSession, hji]
  · show (reconnecterNext i pc').atSession j = _
    rw [hreconnecter, ClientPc.atSession]

/-- An action at a session is an action of that session, and nothing to the
others. -/
theorem connection_act (hC : Coherent g (l ++ p :: r)) (hacts : g.acts p = some (i, pc))
    (hconn : g.sessionList[i]? = some conn)
    (hexec : Client.exec spec pc o (g.view conn) = some (s', pc'))
    (hG : onEach H p o g (l ++ p :: r)) :
    (connection j).Step (client spec) H client.init ⟨g, l ++ p :: r⟩
      ⟨g.commit i conn pc s', l ++ resume i pc' p :: r⟩ := by
  have hid := hC.sessionId hconn
  have hpops : pc.pops = true → g.sessionReconnectIdList.head? = some conn.sessionId := by
    intro h
    rw [hid]
    exact (hC.pops hacts h).1
  by_cases hij : i = j
  · subst hij
    have hH : H pc o (g.view conn) ((l ++ p :: r).filterMap (ClientPc.atSession i)) := by
      simpa only [onEach, hacts, hconn] using hG
    refine .act (a := g.view conn) ?_ (atSession_self hacts) hH hexec ?_
      (atSession_resume hacts)
    · simp [connection, hconn]
    · simp only [connection, commit_getElem?_self hconn, Option.map_some]
      rw [view_commit hexec hpops]
  · refine .stutter ?_ (atSession_resume_ne hacts hij)
    simp only [connection, commit_getElem?_ne hij]
    cases hj : g.sessionList[j]? with
    | none => rfl
    | some conn' =>
      have hne : conn.sessionId ≠ conn'.sessionId := by
        rw [hid, hC.sessionId hj]
        exact hij
      simp only [Option.map_some, view_commit_ne hne hpops]

/-- The set-up of a session is its beginning, and nothing to the others. -/
theorem connection_setUp (hC : Coherent g (l ++ .start i .setSockOpt :: r)) :
    (connection j).Step (client spec) H client.init ⟨g, l ++ .start i .setSockOpt :: r⟩
      ⟨g.setUp, l ++ .startRecvPost i (.recvPost .isFull .start) :: r⟩ := by
  obtain ⟨hlength, hstarted⟩ := hC.knows (.start i .setSockOpt) (by simp)
  by_cases hji : j = i
  · subst hji
    have hl := start_in_front rfl hC.kinds
    subst hl
    -- no id of the list and no thread but the `Reconnecter` has to do with it yet
    have hcount : g.sessionReconnectIdList.count g.sessionIdGenerator = 0 := by
      refine List.count_eq_zero.mpr fun hmem => ?_
      have := hC.listed _ hmem
      rw [hC.generator] at this
      exact Nat.lt_irrefl _ this
    have hstop : g.stopClient = false := by
      by_contra h
      have := hC.stopClient (by simpa using h)
      rw [hstarted] at this
      cases this
    have hthreads : r.filterMap (ClientPc.atSession j) = [.reconnecter .takeFirst] := by
      obtain ⟨n, hn⟩ := hC.kinds
      have hknows := hC.knows
      cases r with
      | nil => simp at hn
      | cons q rest =>
        simp only [List.nil_append, List.map_cons, List.cons.injEq] at hn
        have hq : q.atSession j = some (.reconnecter .takeFirst) := by
          have hk := hknows q (by simp)
          cases q with
          | sleeping | stopped => rfl
          | reconnecter k pc =>
            obtain ⟨hk, -, -⟩ := hk
            have hne : j ≠ k := by omega
            simp [ClientPc.atSession, hne]
          | _ => cases hn.2.1
        have hrest : rest.filterMap (ClientPc.atSession j) = [] := by
          refine List.filterMap_eq_nil_iff.mpr fun q hq => ?_
          have hk := hknows q (by simp [hq])
          have hkind : kind q = .other := by
            refine List.eq_of_mem_replicate (n := n) ?_
            rw [← hn.2.2]
            exact List.mem_map_of_mem hq
          cases q with
          | session k pc =>
            obtain ⟨hk, -⟩ := hk
            have hne : j ≠ k := by omega
            simp [ClientPc.atSession, hne]
          | returned => rfl
          | stop =>
            rw [Knows, hstarted] at hk
            cases hk
          | _ => cases hkind
        rw [List.filterMap_cons, hq, hrest]
    refine .begins ?_ ?_
    · show g.sessionList[j]?.map _ = none
      rw [List.getElem?_eq_none hlength.le]
      rfl
    have hview : (connection j).view g.setUp = some State.initial := by
      simp only [connection, MultiLanClient.setUp, ← hlength, List.getElem?_concat_length,
        Option.map_some, view, hcount, hstop]
      rfl
    have hproj : (connection j).proj (.startRecvPost j (.recvPost .isFull .start)) =
        some (.recvPost .isFull .start) := by
      simp [connection, ClientPc.atSession]
    simp only [Part.slice, hview, List.nil_append, List.filterMap_cons, hproj, Option.map_some]
    show some (⟨_, _ :: r.filterMap (ClientPc.atSession j)⟩ : Config State Pc) = _
    rw [hthreads]
    rfl
  · by_cases hlt : j < i
    · refine .stutter ?_ ?_
      · simp only [connection, MultiLanClient.setUp]
        rw [List.getElem?_append_left (by omega)]
        rfl
      · simp [connection, ClientPc.atSession, hji, hlt]
    · have hlen : g.setUp.sessionList.length ≤ j := by
        simp only [MultiLanClient.setUp, List.length_append, List.length_singleton]
        omega
      refine .absent ?_ ?_
      · show g.sessionList[j]?.map _ = none
        rw [List.getElem?_eq_none (by omega)]
        rfl
      · show g.setUp.sessionList[j]?.map _ = none
        rw [List.getElem?_eq_none hlen]
        rfl

/-- The rest of `Start` and of the `Reconnecter` is nothing to a session. -/
theorem connection_quiet (hC : Coherent g (l ++ p :: r)) (hquiet : Quiet g p g' p') :
    (connection j).Step (client spec) H client.init ⟨g, l ++ p :: r⟩
      ⟨g', l ++ p' :: r⟩ := by
  have hk := hC.knows p (by simp)
  by_cases hj : j < g.sessionList.length
  · refine .stutter ?_ ?_
    · cases hquiet <;> rfl
    · cases hquiet with
      | start => rfl
      | startFailed i pc | started i pc =>
        have hlt : j < i := by rw [← hk.1]; exact hj
        simp [connection, ClientPc.atSession, hlt]
      | stopped => rfl
  · have hsame : g'.sessionList = g.sessionList := by cases hquiet <;> rfl
    have hnone : g.sessionList[j]? = none := List.getElem?_eq_none (Nat.le_of_not_lt hj)
    refine .absent ?_ ?_
    · simp only [connection, hnone, Option.map_none]
    · simp only [connection, hsame, hnone, Option.map_none]

/-- An event keeps the entries of the list. -/
theorem spawn_entries {e : Client.Event} (he : e ≠ .stop)
    (h : Client.spawn e s = some (s', pc)) :
    s'.sessionReconnectIdList = s.sessionReconnectIdList ∧ s'.stopClient = s.stopClient := by
  cases e with
  | sendPacket =>
    cases h
    exact ⟨rfl, rfl⟩
  | recvCompletion k bytes =>
    obtain ⟨-, -, -, rfl, -⟩ := spawn_recvCompletion h
    exact ⟨rfl, rfl⟩
  | sendCompletion k =>
    obtain ⟨-, -, rfl, -⟩ := spawn_sendCompletion h
    exact ⟨rfl, rfl⟩
  | stop => exact absurd rfl he

/-- An event of the client is an event of one session and nothing to the others,
or one of all sessions. -/
theorem connection_event {e : Event} (h : spawn options e g = some (g', p)) :
    (connection j).Step (client spec) H client.init ⟨g, ts⟩ ⟨g', ts ++ [p]⟩ := by
  rcases spawn_cases h with ⟨channelSelector, i, e', he', h⟩ |
    ⟨channelSelector, rfl, rfl⟩ | ⟨-, rfl, rfl⟩
  · obtain ⟨conn, s', pc', hconn, hspawn, rfl, rfl⟩ := begin_cases h
    by_cases hij : i = j
    · subst hij
      obtain ⟨hlist, hstop⟩ := spawn_entries he' hspawn
      refine .event (a := g.view conn) ?_ hspawn ?_ ?_
      · simp only [connection]
        rw [show g.sessionList[i]? = some conn from hconn]
        rfl
      · simp only [connection]
        rw [commit_getElem?_self hconn]
        show some ({ s' with
          sessionReconnectIdList := (g.view conn).sessionReconnectIdList
          stopClient := (g.view conn).stopClient } : State) = some s'
        rw [show (g.view conn).sessionReconnectIdList = _ from hlist.symm,
          show (g.view conn).stopClient = _ from hstop.symm]
      · simp [connection, ClientPc.atSession]
    · refine .elsewhere ?_ ?_
      · simp only [connection]
        rw [commit_getElem?_ne hij]
        rfl
      · simp [connection, ClientPc.atSession, Ne.symm hij]
  · exact .elsewhere rfl rfl
  · cases hj : g.sessionList[j]? with
    | none =>
      exact .absent (by simp [connection, hj]) (by simp [connection, hj])
    | some conn =>
      refine .event (a := g.view conn) (e := .stop) ?_ rfl ?_ rfl
      · simp [connection, hj]
      · simp only [connection, hj, Option.map_some]
        rfl

end MultiLanClient

section

variable {H : Guard State Pc CallResult} {c d : Config MultiLanClient ClientPc} {i : Nat}
variable {conn : Connection}

/-- An action of the client, for the session at a place. -/
theorem connection_exec {g g' : MultiLanClient} {l r : List ClientPc} {p p' : ClientPc}
    {o : CallResult}
    (hrun : (multiLanClient spec options).Run (onEach H) multiLanClient.init ⟨g, l ++ p :: r⟩)
    (hG : onEach H p o g (l ++ p :: r))
    (hexec : (multiLanClient spec options).exec p o g = some (g', p')) :
    (MultiLanClient.connection i).Step (client spec) H client.init ⟨g, l ++ p :: r⟩
      ⟨g', l ++ p' :: r⟩ := by
  have hC := coherent hrun
  rcases MultiLanClient.exec_cases hexec with
    ⟨j, pc, conn, s', pc', hacts, hconn, hx, rfl, rfl⟩ | ⟨j, rfl, rfl, rfl⟩ | hquiet
  · exact MultiLanClient.connection_act hC hacts hconn hx hG
  · exact MultiLanClient.connection_setUp hC
  · exact MultiLanClient.connection_quiet hC hquiet

/-- **Each session of the client runs as it would alone**: what any run of the
whole client shows of a session that has been set up is a run of that session's
machine, under the condition that the client's run keeps at every session. -/
theorem each_connection
    (h : (multiLanClient spec options).Run (onEach H) multiLanClient.init c)
    (hconn : c.shared.sessionList[i]? = some conn) :
    (client spec).Run H client.init
      ⟨c.shared.view conn, c.threads.filterMap (ClientPc.atSession i)⟩ := by
  refine Run.part (MultiLanClient.connection i) connection_exec ?_ h rfl ?_
  · intro g ts e g' p _ hspawn
    exact MultiLanClient.connection_event hspawn
  · simp [Part.slice, MultiLanClient.connection, hconn]

/-- A session that has been set up goes on with its run. -/
theorem connection_goes_on
    (h : (multiLanClient spec options).Run (onEach H) multiLanClient.init c)
    (hd : (multiLanClient spec options).Run (onEach H) c d)
    (hconn : c.shared.sessionList[i]? = some conn) :
    ∃ conn', d.shared.sessionList[i]? = some conn' ∧
      (client spec).Run H ⟨c.shared.view conn, c.threads.filterMap (ClientPc.atSession i)⟩
        ⟨d.shared.view conn', d.threads.filterMap (ClientPc.atSession i)⟩ := by
  obtain ⟨e, he, hrun⟩ := Run.part_on (MultiLanClient.connection i) connection_exec
    (fun _ hspawn => MultiLanClient.connection_event hspawn) h hd
    (d := ⟨c.shared.view conn, c.threads.filterMap (ClientPc.atSession i)⟩)
    (by simp [Part.slice, MultiLanClient.connection, hconn])
  cases hconn' : d.shared.sessionList[i]? with
  | none => simp [Part.slice, MultiLanClient.connection, hconn'] at he
  | some conn' =>
    refine ⟨conn', rfl, ?_⟩
    simp only [Part.slice, MultiLanClient.connection, hconn', Option.map_some,
      Option.some.injEq] at he
    rw [he]
    exact hrun

end

/-- The server closes the connection of session 1; meanwhile session 0 is handed a
packet, and then session 1 is reconnected. -/
def multiLanClient.crossed : List (Machine.Act CallResult MultiLanClient.Event) :=
  multiLanClient.start ++
    [.event (.recvCompletion 1 0 []), .event (.sendPacketFixed 0)] ++
    List.replicate 10 (.run 2 .success) ++ List.replicate 8 (.run 3 .success) ++
    List.replicate 8 (.run 1 .success)

/-- Session 1 in that run, reconnected. -/
theorem each_connection_reconnected :
    ∃ c conn, (multiLanClient reconnectingSpec twoSessions).Run (onEach ReleaseGuard)
        multiLanClient.init c ∧
      c.shared.sessionList[1]? = some conn ∧ c.shared.reconnected = [1] ∧
      (client reconnectingSpec).Run ReleaseGuard client.init
        ⟨c.shared.view conn, c.threads.filterMap (ClientPc.atSession 1)⟩ := by
  obtain ⟨c, hrun, hc⟩ := exists_run (multiLanClient reconnectingSpec twoSessions)
    (onEach ReleaseGuard) multiLanClient.init multiLanClient.crossed
    (P := fun c => c.shared.reconnected = [1] ∧ 1 < c.shared.sessionList.length)
    (by decide +kernel)
  have hconn := List.getElem?_eq_getElem hc.2
  exact ⟨c, _, hrun, hconn, hc.1, each_connection hrun hconn⟩

/-- **Every session of the client is released once for a connection**: where
every action at a session keeps to `ReleaseGuard`, no session is released twice, none
of them has a request outstanding while a thread is in its `ReleaseSession`, and
`sessionReconnectIdList` holds no id twice, so never more ids than there are
sessions. -/
theorem released_once_each {c : Config MultiLanClient ClientPc}
    (h : (multiLanClient spec options).Run (onEach ReleaseGuard) multiLanClient.init c) :
    (∀ conn ∈ c.shared.sessionList, conn.state.releases ≤ 1) ∧
      (∀ i pc conn, ClientPc.session i pc ∈ c.threads → pc.releasing = 1 →
        c.shared.sessionList[i]? = some conn →
        conn.state.outstandingRecv = [] ∧ conn.state.outstandingSend = []) ∧
      c.shared.sessionReconnectIdList.Nodup ∧
      c.shared.sessionReconnectIdList.length ≤ c.shared.sessionList.length := by
  have hC := coherent h
  have hnodup : c.shared.sessionReconnectIdList.Nodup := by
    refine List.nodup_iff_count_le_one.mpr fun id => ?_
    by_cases hid : id ∈ c.shared.sessionReconnectIdList
    · have hconn := List.getElem?_eq_getElem (hC.listed id hid)
      have honce := (connection_released_once (each_connection h hconn)).2.2.2
      rw [← hC.sessionId hconn]
      exact honce
    · rw [List.count_eq_zero.mpr hid]
      exact Nat.zero_le 1
  refine ⟨fun conn hmem => ?_, fun i pc conn hpc hreleasing hconn => ?_, hnodup, ?_⟩
  · obtain ⟨i, hconn⟩ := List.getElem?_of_mem hmem
    exact (connection_released_once (each_connection h hconn)).1
  · have hat : pc ∈ c.threads.filterMap (ClientPc.atSession i) :=
      List.mem_filterMap.mpr ⟨_, hpc, by simp [ClientPc.atSession]⟩
    exact (connection_released_once (each_connection h hconn)).2.1 pc hat hreleasing
  · have hsub : c.shared.sessionReconnectIdList ⊆ List.range c.shared.sessionList.length :=
      fun id hid => List.mem_range.mpr (hC.listed id hid)
    simpa using (List.subperm_of_subset hnodup hsub).length_le

/-- The same run, with session 0 having sent its packet. -/
theorem released_once_each_crossed :
    ∃ c, (multiLanClient reconnectingSpec twoSessions).Run (onEach ReleaseGuard)
        multiLanClient.init c ∧
      c.shared.released = [1] ∧
      (∀ conn ∈ c.shared.sessionList, conn.state.releases ≤ 1) ∧
      (∀ i pc conn, ClientPc.session i pc ∈ c.threads → pc.releasing = 1 →
        c.shared.sessionList[i]? = some conn →
        conn.state.outstandingRecv = [] ∧ conn.state.outstandingSend = []) ∧
      c.shared.sessionReconnectIdList.Nodup ∧
      c.shared.sessionReconnectIdList.length ≤ c.shared.sessionList.length := by
  obtain ⟨c, hrun, hc⟩ := exists_run (multiLanClient reconnectingSpec twoSessions)
    (onEach ReleaseGuard) multiLanClient.init multiLanClient.crossed
    (P := fun c => c.shared.released = [1]) (by decide +kernel)
  exact ⟨c, hrun, hc, released_once_each hrun⟩

end RioServer.Client
