import RioServer.Server.NetBuffers
import RioServer.Server.Ownership

/-!
# What is enqueued, and where an id leads (RIOTestServer.cpp:608–657)

Only `SendPacket` has a packet in hand, and it enqueues the one it has
(`exec_enqueue`, and `exec_sends` for the threads of the whole server).

The tables name the sessions: an id in `sessionMap` finds a session that has
this id and takes packets (`named`), and a session that takes packets goes on
doing so under its id (`Keeps`).
-/

namespace RioServer

open Machine

/-! ## One session -/

/-- The packet of a sender that has not enqueued it. -/
def Pc.inHand : Pc → Option NetBuffer
  | .sendPacket .setSendDisconnect _ packet | .sendPacket .encode _ packet
  | .sendPacket .enqueue _ packet => some packet
  | _ => none

/-- The sender looks its session up, which none of `bufferServer` does. -/
def Pc.looksUp : Pc → Bool
  | .sendPacket .getSession _ _ | .sendPacket .isReleasedSession _ _ => true
  | _ => false

/-- What an action does to the packets of a session. -/
inductive EnqueueEffect (s : State) : Pc → State → Pc → Prop
  | enqueue {packet : NetBuffer} {s' : State} {pc' : Pc} {isEncoded : Bool}
      (enqueued : s'.enqueued = s.enqueued ++ [packet]) (hand : pc'.inHand = none)
      (looksUp : pc'.looksUp = false) :
      EnqueueEffect s (.sendPacket .enqueue isEncoded packet) s' pc'
  | carry {packet packet' : NetBuffer} {s' : State} {pc pc' : Pc}
      (hand : pc.inHand = some packet) (enqueued : s'.enqueued = s.enqueued)
      (hand' : pc'.inHand = some packet') (serial : packet'.serial = packet.serial)
      (looksUp : pc'.looksUp = false) : EnqueueEffect s pc s' pc'
  | other {s' : State} {pc pc' : Pc} (hand : pc.inHand = none)
      (enqueued : s'.enqueued = s.enqueued)
      (looksUp : pc.looksUp = false → pc'.inHand = none ∧ pc'.looksUp = false) :
      EnqueueEffect s pc s' pc'

theorem SendPostCaller.inHand_next (caller : SendPostCaller) (result : IoPostError) :
    (caller.next result).inHand = none ∧ (caller.next result).looksUp = false := by
  cases caller <;> exact ⟨rfl, rfl⟩

theorem RecvPostCaller.inHand_next (caller : RecvPostCaller) (result : IoPostError) :
    (caller.next result).inHand = none ∧ (caller.next result).looksUp = false := by
  rcases caller with _ | ⟨_, _ | _⟩ <;> exact ⟨rfl, rfl⟩

theorem ReleaseCaller.inHand_next (caller : ReleaseCaller) :
    caller.next.inHand = none ∧ caller.next.looksUp = false := by
  cases caller with
  | sendPost caller => exact caller.inHand_next _
  | _ => exact ⟨rfl, rfl⟩

variable {spec : NetBufferSpec} {o : Oracle} {s s' : State} {pc pc' : Pc}

/-- Only `SendPacket` has a packet in hand, and it enqueues the one it has. -/
theorem exec_enqueue (h : exec spec pc o s = some (s', pc')) :
    s'.nextSerial = s.nextSerial ∧ EnqueueEffect s pc s' pc' := by
  revert h
  cases pc with
  | makeNewSession pc =>
    simp only [exec, Option.some.injEq]
    fun_cases execMakeNewSession o s pc <;> rintro ⟨⟩ <;>
      exact ⟨rfl, .other rfl rfl fun _ => ⟨rfl, rfl⟩⟩
  | sendPacket pc isEncoded packet =>
    simp only [exec]
    fun_cases execSendPacket spec s isEncoded packet pc <;> rintro ⟨⟩
    case case9 => exact ⟨rfl, .enqueue rfl rfl rfl⟩
    all_goals first
      | exact ⟨rfl, .carry rfl rfl rfl rfl rfl⟩
      | exact ⟨rfl, .other rfl rfl fun hlook => Bool.noConfusion hlook⟩
  | sendPost pc caller =>
    simp only [exec]
    fun_cases execSendPost o s caller pc <;> rintro ⟨⟩ <;>
      first
        | exact ⟨rfl, .other rfl rfl fun _ => ⟨rfl, rfl⟩⟩
        | exact ⟨rfl, .other rfl rfl fun _ => caller.inHand_next _⟩
  | recvPost pc caller =>
    simp only [exec]
    fun_cases execRecvPost spec o s caller pc <;> rintro ⟨⟩ <;>
      first
        | exact ⟨rfl, .other rfl rfl fun _ => ⟨rfl, rfl⟩⟩
        | exact ⟨rfl, .other rfl rfl fun _ => caller.inHand_next _⟩
  | release pc caller =>
    simp only [exec]
    fun_cases execRelease s caller pc <;> rintro ⟨⟩ <;>
      first
        | exact ⟨rfl, .other rfl rfl fun _ => ⟨rfl, rfl⟩⟩
        | exact ⟨rfl, .other rfl rfl fun _ => caller.inHand_next⟩
  | worker pc =>
    simp only [exec]
    fun_cases execWorker spec s pc <;> rintro ⟨⟩ <;>
      exact ⟨rfl, .other rfl rfl fun _ => ⟨rfl, rfl⟩⟩
  | finished => rintro ⟨⟩

/-- Nobody takes a session's publication back. -/
theorem exec_stays_published (h : exec spec pc o s = some (s', pc'))
    (hpub : s.published = true) : s'.published = true := by
  cases exec_map h with
  | same published | emplaceFailed _ _ published | leaveEmplace published | erase published =>
    exact published.trans hpub
  | emplace _ hs => rw [hs]

/-- A session enters the map when it is published. -/
theorem exec_enters (h : exec spec pc o s = some (s', pc')) (hin : s'.inSessionMap = true) :
    s.inSessionMap = true ∨ s'.published = true := by
  cases exec_map h with
  | same _ inSessionMap | emplaceFailed _ _ _ inSessionMap | leaveEmplace _ inSessionMap =>
    exact .inl (inSessionMap ▸ hin)
  | emplace _ hs => exact .inr (by rw [hs])
  | erase _ inSessionMap =>
    rw [inSessionMap] at hin
    cases hin

/-! ## The sessions of the server -/

/-- What sending reads and writes of a session. -/
structure SessionSends where
  sessionId : UInt64
  nextSerial : Nat
  enqueued : List NetBuffer

namespace RioTestServer

variable {numOfWorkerThread : Nat} {g g' : RioTestServer} {t t' : Thread} {i j : Nat}

def sends (g : RioTestServer) (i : Nat) : Option SessionSends :=
  g.sessions[i]?.map fun e => ⟨e.sessionId, e.state.nextSerial, e.state.enqueued⟩

theorem sends_eq_some {x : SessionSends} (h : g.sends i = some x) :
    ∃ e, g.sessions[i]? = some e ∧ x = ⟨e.sessionId, e.state.nextSerial, e.state.enqueued⟩ := by
  obtain ⟨e, he, rfl⟩ := Option.map_eq_some_iff.mp h
  exact ⟨e, he, rfl⟩

/-- The sessions after one of them is written back. -/
theorem sends_commit {e : Entry} {s s' : State} (he : g.sessions[i]? = some e) (j : Nat) :
    (g.commit i e s s').sends j =
      if j = i then some ⟨e.sessionId, s'.nextSerial, s'.enqueued⟩ else g.sends j := by
  have hi := (List.getElem?_eq_some_iff.mp he).1
  by_cases hj : j = i
  · subst hj
    rw [if_pos rfl]
    exact congrArg (Option.map _) (List.getElem?_set_self hi)
  · rw [if_neg hj]
    exact congrArg (Option.map _) (List.getElem?_set_ne (Ne.symm hj))

/-- Nothing happened to the packets of the sessions, but there may be a new one. -/
def SendsKept (g g' : RioTestServer) : Prop :=
  ∀ j, g'.sends j = g.sends j ∨ (g.sends j = none ∧ ∃ id, g'.sends j = some ⟨id, 0, []⟩)

/-- A write that leaves the session's packets alone. -/
theorem sends_commit_same {e : Entry} {s s' : State} (he : g.sessions[i]? = some e)
    (hserial : s'.nextSerial = e.state.nextSerial) (henqueued : s'.enqueued = e.state.enqueued) :
    SendsKept g (g.commit i e s s') := by
  intro j
  left
  rw [sends_commit he, hserial, henqueued]
  split
  · next hj => rw [hj, sends, he]; rfl
  · rfl

/-- What a thread's action does to the packets of the sessions. -/
inductive SendsEffect (g : RioTestServer) (t : Thread) (g' : RioTestServer) (t' : Thread) : Prop
  | enqueue {isEncoded : Bool} {packet : NetBuffer} {x : SessionSends}
      (hpc : t.pc = .sendPacket .enqueue isEncoded packet) (hx : g.sends t.session = some x)
      (sends : ∀ j, g'.sends j =
        if j = t.session then some { x with enqueued := x.enqueued ++ [packet] } else g.sends j)
      (hand : t'.pc.inHand = none)
  | carry {packet packet' : NetBuffer} (hand : t.pc.inHand = some packet)
      (sends : SendsKept g g') (hand' : t'.pc.inHand = some packet')
      (serial : packet'.serial = packet.serial) (session : t'.session = t.session)
  | other (hand : t.pc.inHand = none) (sends : SendsKept g g') (hand' : t'.pc.inHand = none)

theorem inHand_reread (g : RioTestServer) (pc : Pc) :
    (g.reread pc).inHand = pc.inHand ∧ (g.reread pc).looksUp = pc.looksUp := by
  unfold reread
  split <;> exact ⟨rfl, rfl⟩

theorem reread_eq_sendPacket {pc : Pc} {q : SendPacketPc} {isEncoded : Bool} {packet : NetBuffer}
    (h : g.reread pc = .sendPacket q isEncoded packet) : pc = .sendPacket q isEncoded packet := by
  unfold reread at h
  split at h
  · cases h
  · exact h

/-- A sender with its packet in hand stays with its session. -/
theorem target_of_inHand {packet : NetBuffer} (h : t.pc.inHand = some packet) (e : Entry) :
    target t = t.session ∧ g.found e t = t.session := by
  obtain ⟨session, origin, pc⟩ := t
  cases pc with
  | sendPacket q isEncoded p => cases q <;> first | exact ⟨rfl, rfl⟩ | cases h
  | _ => cases h

theorem exec_sends (h : exec spec t o g = some (g', t')) (hlook : t.pc.looksUp = false) :
    SendsEffect g t g' t' ∧ t'.pc.looksUp = false := by
  obtain ⟨e, s', pc', he, hexec, rfl, rfl⟩ := exec_eq_some h
  obtain ⟨hserial, heffect⟩ := exec_enqueue hexec
  obtain ⟨hhand, hlook'⟩ := g.inHand_reread t.pc
  generalize hpc : g.reread t.pc = pc at heffect hhand hlook'
  cases heffect with
  | enqueue enqueued hand looksUp =>
    have hpc' := reread_eq_sendPacket hpc
    have htarget := (target_of_inHand (g := g) (by rw [hpc']; rfl) e).1
    refine ⟨.enqueue (x := ⟨e.sessionId, e.state.nextSerial, e.state.enqueued⟩) hpc' ?_ ?_ hand,
      looksUp⟩
    · rw [← htarget, sends, he]
      rfl
    · intro j
      rw [← htarget]
      refine (sends_commit he j).trans ?_
      rw [hserial, enqueued]
      rfl
  | carry hand enqueued hand' serial looksUp =>
    rw [hhand] at hand
    exact ⟨.carry hand (sends_commit_same he hserial enqueued) hand' serial
      (target_of_inHand (g := g) hand e).2, looksUp⟩
  | other hand enqueued looksUp =>
    rw [hhand] at hand
    obtain ⟨hand', hlooks⟩ := looksUp (hlook'.trans hlook)
    exact ⟨.other hand (sends_commit_same he hserial enqueued) hand', hlooks⟩

/-- What `Encode` makes of the packet goes on to `Enqueue`. -/
theorem exec_encode {session origin : Nat} {isEncoded : Bool} {packet : NetBuffer}
    (h : exec spec ⟨session, origin, .sendPacket .encode isEncoded packet⟩ o g = some (g', t')) :
    t' = ⟨session, origin, .sendPacket .enqueue true
      (if isEncoded then packet else { packet with bytes := spec.encode packet.bytes })⟩ := by
  obtain ⟨e, s', pc', -, hexec, -, rfl⟩ := exec_eq_some h
  cases isEncoded <;> cases hexec <;> rfl

/-- Behind `Enqueue` comes `SendPost`. -/
theorem exec_toSendPost {session origin : Nat} {isEncoded : Bool} {packet : NetBuffer}
    (h : exec spec ⟨session, origin, .sendPacket .enqueue isEncoded packet⟩ o g = some (g', t')) :
    t' = ⟨session, origin, .sendPost .compareExchange .sendPacket⟩ := by
  obtain ⟨e, s', pc', -, hexec, -, rfl⟩ := exec_eq_some h
  cases hexec
  rfl

/-- A connection or a completion. -/
theorem spawn_sends {ev : Event} (h : spawn numOfWorkerThread ev g = some (g', t'))
    (hev : (∃ threadId, ev = .accept threadId) ∨
      ∃ i k bytes, ev = .session i (.completion k bytes)) :
    SendsKept g g' ∧ t'.pc.inHand = none ∧ t'.pc.looksUp = false := by
  rcases spawn_eq_some h with ⟨threadId, -, -, -, hacc⟩ |
    ⟨i, ev', e, s', pc', rfl, he, -, hspawn, rfl, rfl⟩
  · rw [show g' = (g.accept threadId).1 from congrArg Prod.fst hacc,
      show t' = (g.accept threadId).2 from congrArg Prod.snd hacc]
    simp only [accept]
    split
    · exact ⟨fun j => .inl rfl, rfl, rfl⟩
    · refine ⟨fun j => ?_, rfl, rfl⟩
      rcases Nat.lt_trichotomy j g.sessions.length with hlt | rfl | hgt
      · exact .inl (congrArg (Option.map _) (List.getElem?_append_left hlt))
      · refine .inr ⟨congrArg (Option.map _) (List.getElem?_eq_none (Nat.le_refl _)), ?_⟩
        exact ⟨_, congrArg (Option.map _) List.getElem?_concat_length⟩
      · refine .inl (congrArg (Option.map _) ?_)
        rw [List.getElem?_eq_none (by simpa using hgt), List.getElem?_eq_none hgt.le]
  · obtain ⟨k, bytes, rfl⟩ : ∃ k bytes, ev' = .completion k bytes := by
      rcases hev with ⟨threadId, hev⟩ | ⟨i', k, bytes, hev⟩
      · cases hev
      · cases hev
        exact ⟨k, bytes, rfl⟩
    obtain ⟨context, -, -, -, rfl, rfl⟩ := spawn_completion hspawn
    exact ⟨sends_commit_same he rfl rfl, rfl, rfl⟩

/-- A buffer is handed to a session: the packet gets the session's next number. -/
theorem spawn_handOver {b : PooledBuffer} {andDisconnect : Bool}
    (h : spawn numOfWorkerThread (.session i (handOverEvent andDisconnect b)) g = some (g', t')) :
    ∃ e, g.sessions[i]? = some e ∧
      (∀ j, g'.sends j =
        if j = i then some ⟨e.sessionId, e.state.nextSerial + 1, e.state.enqueued⟩ else g.sends j) ∧
      t' = ⟨i, i, .sendPacket (if andDisconnect then .setSendDisconnect else .encode) b.isEncoded
        ⟨e.state.nextSerial, b.bytes⟩⟩ := by
  rcases spawn_eq_some h with ⟨threadId, hev, -⟩ |
    ⟨i', ev', e, s', pc', hev, he, -, hspawn, rfl, rfl⟩
  · cases hev
  · cases hev
    refine ⟨e, he, ?_⟩
    cases andDisconnect with
    | false =>
      obtain ⟨-, hs⟩ := Option.ite_none_right_eq_some.mp hspawn
      cases hs
      exact ⟨sends_commit he, rfl⟩
    | true =>
      obtain ⟨-, hs⟩ := Option.ite_none_right_eq_some.mp hspawn
      cases hs
      exact ⟨sends_commit he, rfl⟩

/-! ## Names of sessions -/

/-- An id in the map finds a session that has it and takes packets, and no
session is marked as released. -/
structure Named (g : RioTestServer) : Prop where
  found : ∀ id i, g.sessionMap.find id = some i →
    ∃ e, g.sessions[i]? = some e ∧ e.sessionId = id ∧ e.state.published = true
  unreleased : ∀ (i : Nat) (e : Entry), g.sessions[i]? = some e → e.state.isReleasedSession = false

/-- A session keeps its id and stays published. -/
def Keeps (g g' : RioTestServer) : Prop :=
  ∀ (i : Nat) (e : Entry), g.sessions[i]? = some e → e.state.published = true →
    ∃ e', g'.sessions[i]? = some e' ∧ e'.sessionId = e.sessionId ∧ e'.state.published = true

theorem Keeps.refl (g : RioTestServer) : Keeps g g := fun _ e he hpub => ⟨e, he, rfl, hpub⟩

/-- A write that takes no publication back. -/
theorem keeps_commit {e : Entry} {s s' : State} (he : g.sessions[i]? = some e)
    (hpub : e.state.published = true → s'.published = true) : Keeps g (g.commit i e s s') := by
  have hi := (List.getElem?_eq_some_iff.mp he).1
  intro j d hd hdpub
  by_cases hj : i = j
  · subst hj
    rw [he] at hd
    cases hd
    exact ⟨_, List.getElem?_set_self hi, rfl, hpub hdpub⟩
  · exact ⟨d, (List.getElem?_set_ne hj).trans hd, rfl, hdpub⟩

/-- A write that enters a session into the map only under its own id, published. -/
theorem Named.commit {e : Entry} {s s' : State} (hI : Named g) (he : g.sessions[i]? = some e)
    (hpub : e.state.published = true → s'.published = true)
    (hreleased : s'.isReleasedSession = false)
    (henter : s'.inSessionMap = true → s.inSessionMap = true ∨ s'.published = true) :
    Named (g.commit i e s s') where
  found id j hfind := by
    have hi := (List.getElem?_eq_some_iff.mp he).1
    have hkeeps := keeps_commit (s := s) he hpub
    have hold : g.sessionMap.find id = some j →
        ∃ e', (g.commit i e s s').sessions[j]? = some e' ∧ e'.sessionId = id ∧
          e'.state.published = true := by
      intro hfind'
      obtain ⟨d, hd, rfl, hdpub⟩ := hI.found id j hfind'
      exact hkeeps j d hd hdpub
    change (if s'.inSessionMap = s.inSessionMap then g.sessionMap
      else if s'.inSessionMap then g.sessionMap.insert e.sessionId i
      else g.sessionMap.erase e.sessionId).find id = some j at hfind
    split at hfind
    · exact hold hfind
    · next hne =>
      split at hfind
      · next hin =>
        have hpub' := (henter hin).resolve_left fun h => hne (hin.trans h.symm)
        cases hfree : g.sessionMap.find e.sessionId with
        | some k =>
          rw [UnorderedMap.insert_of_some hfree] at hfind
          exact hold hfind
        | none =>
          rw [UnorderedMap.find_insert_of_none hfree] at hfind
          split at hfind
          · next hid =>
            cases hfind
            exact ⟨_, List.getElem?_set_self hi, hid, hpub'⟩
          · exact hold hfind
      · rw [UnorderedMap.find_erase] at hfind
        split at hfind
        · cases hfind
        · exact hold hfind
  unreleased j d hd := by
    have hi := (List.getElem?_eq_some_iff.mp he).1
    by_cases hj : i = j
    · subst hj
      rw [show (g.commit i e s s').sessions[i]? = some _ from List.getElem?_set_self hi] at hd
      cases hd
      exact hreleased
    · rw [show (g.commit i e s s').sessions[j]? = _ from List.getElem?_set_ne hj] at hd
      exact hI.unreleased j d hd

theorem exec_named (hI : Named g) (h : exec spec t o g = some (g', t')) :
    Named g' ∧ Keeps g g' := by
  obtain ⟨e, s', pc', he, hexec, rfl, -⟩ := exec_eq_some h
  have hpub : e.state.published = true → s'.published = true := fun hpub =>
    exec_stays_published hexec hpub
  have hreleased : s'.isReleasedSession = false :=
    (exec_flags hexec).2.trans (hI.unreleased _ e he)
  obtain ⟨hfound, hunreleased⟩ := hI.commit he hpub hreleased (exec_enters hexec)
  exact ⟨⟨hfound, hunreleased⟩, keeps_commit he hpub⟩

theorem Named.accept (hI : Named g) (threadId : Nat) :
    Named (g.accept threadId).1 ∧ Keeps g (g.accept threadId).1 := by
  simp only [RioTestServer.accept]
  split
  · exact ⟨⟨hI.found, hI.unreleased⟩, Keeps.refl g⟩
  · have hold : ∀ {i : Nat} {e : Entry}, g.sessions[i]? = some e →
        (g.sessions ++ [⟨g.nextSessionId + 1, threadId, State.initial, false⟩])[i]? = some e := by
      intro i e he
      rw [List.getElem?_append_left (List.getElem?_eq_some_iff.mp he).1, he]
    refine ⟨⟨fun id i hfind => ?_, fun i e he => ?_⟩, fun i e he hpub => ⟨e, hold he, rfl, hpub⟩⟩
    · obtain ⟨e, he, hid⟩ := hI.found id i hfind
      exact ⟨e, hold he, hid⟩
    · rcases List.mem_append.mp (List.mem_of_getElem? he) with hin | hin
      · obtain ⟨j, hj⟩ := List.mem_iff_getElem?.mp hin
        exact hI.unreleased j e hj
      · rw [List.mem_singleton.mp hin]
        rfl

theorem spawn_named {ev : Event} (hI : Named g)
    (h : spawn numOfWorkerThread ev g = some (g', t')) : Named g' ∧ Keeps g g' := by
  rcases spawn_eq_some h with ⟨threadId, -, -, -, hacc⟩ |
    ⟨i, ev', e, s', pc', -, he, -, hspawn, rfl, -⟩
  · rw [show g' = (g.accept threadId).1 from congrArg Prod.fst hacc]
    exact hI.accept threadId
  · obtain ⟨hsession, htables, hhistory⟩ := spawn_frame hspawn
    have hpub : e.state.published = true → s'.published = true := fun hpub => by
      rw [hhistory]
      exact hpub
    refine ⟨hI.commit he hpub ?_ fun hin => .inl ?_, keeps_commit he hpub⟩
    · rw [hsession]
      exact hI.unreleased i e he
    · rw [← htables]
      exact hin

/-- **Ids name sessions**, in every reachable state. -/
theorem named {c : Config RioTestServer Thread}
    (h : (server spec numOfWorkerThread).Reachable server.init c) : Named c.shared := by
  refine Run.induct (I := fun g _ => Named g) h ?_ ?_ ?_
  · refine ⟨fun id i hfind => ?_, fun i e he => ?_⟩
    · cases hfind
    · cases he
  · intro g l t r o g' t' _ hI _ hexec
    exact (exec_named hI hexec).1
  · intro g ts e g' t _ hI hspawn
    exact (spawn_named hI hspawn).1

end RioTestServer

end RioServer
