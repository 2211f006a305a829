import RioServer.Server.Enqueued

/-!
# Which buffer a packet is (RIOTestServer.cpp:645–657, RIOTestSession.cpp:52)

A session numbers the packets that are handed to it, and `handed` says which
buffer has which number there. A packet that `SendPacket` enqueues has the
number its sender was given, and no other packet of the session has it
(`handedOver`). So the copies of a buffer in a session can be counted: they are
what was enqueued under the numbers that the buffer was given there
(`BufferServer.copies`), and a step adds one exactly when it enqueues a packet
that its sender has in hand (`copies_same`, `copies_enqueued`).
-/

namespace RioServer

open Machine

variable {spec : NetBufferSpec}

/-! ## The packets of a buffer -/

/-- The packets of a buffer that were enqueued in a session. -/
def BufferServer.copies (s : BufferServer) (buffer session : Nat) : List NetBuffer :=
  match s.server.sessions[session]? with
  | some e => e.state.enqueued.filter fun p => (session, p.serial, buffer) ∈ s.handed
  | none => []

/-- The session and the packet that a sender is about to enqueue. -/
def BufferPc.carries : BufferPc → Option (Nat × NetBuffer)
  | .send t _ _ => t.pc.inHand.map fun packet => (t.session, packet)
  | _ => none

theorem BufferPc.carries_of_none {t : Thread} {buffer : Nat} {rest : Option (List UInt64)}
    (h : t.pc.inHand = none) : (BufferPc.send t buffer rest).carries = none := by
  rw [BufferPc.carries, h]
  rfl

theorem BufferPc.carries_of_some {t : Thread} {buffer : Nat} {rest : Option (List UInt64)}
    {packet : NetBuffer} (h : t.pc.inHand = some packet) :
    (BufferPc.send t buffer rest).carries = some (t.session, packet) := by
  rw [BufferPc.carries, h]
  rfl

/-- Only senders send. -/
def BufferPc.InPlace : BufferPc → Prop
  | .server t => t.pc.inHand = none ∧ t.pc.looksUp = false
  | .send t _ _ => t.pc.looksUp = false
  | _ => True

section

variable {numOfWorkerThread : Nat} {s s' : BufferServer} {ts l r : List BufferPc}
  {pc pc' : BufferPc} {o : BufferOracle}

theorem BufferServer.copies_eq {i : Nat} {x : SessionSends} (h : s.server.sends i = some x)
    (buffer : Nat) :
    s.copies buffer i = x.enqueued.filter fun p => (i, p.serial, buffer) ∈ s.handed := by
  obtain ⟨e, he, rfl⟩ := RioTestServer.sends_eq_some h
  rw [BufferServer.copies, he]

theorem BufferServer.copies_of_none {i : Nat} (h : s.server.sends i = none) (buffer : Nat) :
    s.copies buffer i = [] := by
  rw [BufferServer.copies, Option.map_eq_none_iff.mp h]

/-- What a step does to the packets of the buffers. -/
inductive CopiesEffect (s : BufferServer) (pc : BufferPc) (s' : BufferServer) (pc' : BufferPc) :
    Prop
  | kept (sends : RioTestServer.SendsKept s.server s'.server) (handed : s'.handed = s.handed)
      (carries : (pc.carries = none ∧ pc'.carries = none) ∨
        ∃ i packet packet', pc.carries = some (i, packet) ∧ pc'.carries = some (i, packet') ∧
          packet'.serial = packet.serial ∧ pc'.buffer = pc.buffer)
  | handOver {session buffer : Nat} {x : SessionSends} {packet : NetBuffer}
      (hx : s.server.sends session = some x)
      (sends : ∀ j, s'.server.sends j =
        if j = session then some { x with nextSerial := x.nextSerial + 1 } else s.server.sends j)
      (handed : s'.handed = (session, x.nextSerial, buffer) :: s.handed)
      (hbuffer : pc.buffer = some buffer) (hbuffer' : pc'.buffer = some buffer)
      (carries : pc'.carries = some (session, packet)) (serial : packet.serial = x.nextSerial)
  | enqueue {session : Nat} {x : SessionSends} {packet : NetBuffer}
      (carried : pc.carries = some (session, packet)) (hx : s.server.sends session = some x)
      (sends : ∀ j, s'.server.sends j =
        if j = session then some { x with enqueued := x.enqueued ++ [packet] }
        else s.server.sends j)
      (handed : s'.handed = s.handed) (carries : pc'.carries = none)

/-- `SendPacket` is called with the buffer. -/
theorem execBuffer_handOver {session buffer : Nat} {andDisconnect : Bool}
    {rest : Option (List UInt64)}
    (h : execBuffer spec numOfWorkerThread (.handOver session andDisconnect buffer rest) o s =
      some (s', pc')) :
    ∃ e b, s.server.sessions[session]? = some e ∧ s.buffers[buffer]? = some b ∧
      (∀ j, s'.server.sends j =
        if j = session then some ⟨e.sessionId, e.state.nextSerial + 1, e.state.enqueued⟩
        else s.server.sends j) ∧
      s'.handed = (session, e.state.nextSerial, buffer) :: s.handed ∧ s'.buffers = s.buffers ∧
      pc' = .send ⟨session, session,
        .sendPacket (if andDisconnect then .setSendDisconnect else .encode) b.isEncoded
          ⟨e.state.nextSerial, b.bytes⟩⟩ buffer rest := by
  simp only [execBuffer] at h
  split at h
  · next e b he hb =>
    obtain ⟨⟨g', t'⟩, hspawn, heq⟩ := Option.map_eq_some_iff.mp h
    obtain ⟨e', he', hsends, rfl⟩ := RioTestServer.spawn_handOver hspawn
    rw [he] at he'
    cases he'
    cases heq
    exact ⟨e, b, he, hb, hsends, rfl, rfl, rfl⟩
  · cases h

/-- A sender that goes on without a thread has nothing in hand. -/
theorem carries_of_threads (h : execBuffer spec numOfWorkerThread pc o s = some (s', pc'))
    (hthreads : pc'.threads = []) : pc.carries = none := by
  cases pc with
  | send t buffer rest =>
    simp only [execBuffer] at h
    split at h
    · next hfinished => exact BufferPc.carries_of_none (by rw [hfinished]; rfl)
    · obtain ⟨r, -, heq⟩ := Option.map_eq_some_iff.mp h
      cases heq
      cases hthreads
  | _ => rfl

theorem RioTestServer.SendsKept.refl (g : RioTestServer) : SendsKept g g := fun _ => .inl rfl

/-- What the steps do, with the senders where they belong. -/
theorem execBuffer_copies (h : execBuffer spec numOfWorkerThread pc o s = some (s', pc'))
    (hin : pc.InPlace) : CopiesEffect s pc s' pc' ∧ pc'.InPlace := by
  cases execBuffer_effect h with
  | server hexec =>
    obtain ⟨heffect, hlook⟩ := RioTestServer.exec_sends hexec hin.2
    cases heffect with
    | enqueue hpc =>
      have hhand := hin.1
      rw [hpc] at hhand
      cases hhand
    | carry hand =>
      rw [hin.1] at hand
      cases hand
    | other _ sends hand => exact ⟨.kept sends rfl (.inl ⟨rfl, rfl⟩), hand, hlook⟩
  | @handOver session _ _ _ _ _ _ _ _ =>
    obtain ⟨e, b, he, hb, hsends, hhanded, -, hpc'⟩ := execBuffer_handOver h
    have hx : s.server.sends session =
        some ⟨e.sessionId, e.state.nextSerial, e.state.enqueued⟩ := by
      rw [RioTestServer.sends, he]
      rfl
    rw [hpc']
    split
    · exact ⟨.handOver hx hsends hhanded rfl rfl rfl rfl, rfl⟩
    · exact ⟨.handOver hx hsends hhanded rfl rfl rfl rfl, rfl⟩
  | @send _ _ t _ _ _ hexec =>
    obtain ⟨heffect, hlook⟩ := RioTestServer.exec_sends hexec hin
    cases heffect with
    | @enqueue _ packet _ hpc hx sends hand =>
      have hhand : t.pc.inHand = some packet := by
        rw [hpc]
        rfl
      exact ⟨.enqueue (BufferPc.carries_of_some hhand) hx sends rfl
        (BufferPc.carries_of_none hand), hlook⟩
    | carry hand sends hand' serial session =>
      refine ⟨.kept sends rfl (.inr ⟨t.session, _, _, BufferPc.carries_of_some hand, ?_, serial,
        rfl⟩), hlook⟩
      rw [BufferPc.carries_of_some hand', session]
    | other hand sends hand' =>
      exact ⟨.kept sends rfl (.inl ⟨BufferPc.carries_of_none hand,
        BufferPc.carries_of_none hand'⟩), hlook⟩
  | @done _ t hfinished =>
    have hhand : t.pc.inHand = none := by
      rw [hfinished]
      rfl
    exact ⟨.kept (.refl _) rfl (.inl ⟨BufferPc.carries_of_none hhand, rfl⟩), trivial⟩
  | goesOn _ _ _ _ _ hthreads =>
    have hnone := carries_of_threads h hthreads
    cases pc' with
    | server _ | send _ _ _ => cases hthreads
    | _ => exact ⟨.kept (.refl _) rfl (.inl ⟨hnone, rfl⟩), trivial⟩
  | free => exact ⟨.kept (.refl _) rfl (.inl ⟨rfl, rfl⟩), trivial⟩

/-- A sender has its buffer, or is done with it. -/
theorem BufferEffect.buffer_or (h : BufferEffect spec numOfWorkerThread o s pc s' pc') :
    pc'.buffer = pc.buffer ∨ pc'.buffer = none := by
  cases h with
  | server _ | handOver _ | send _ _ => exact .inl rfl
  | goesOn hpc _ hpc' _ _ _ => exact .inl (hpc'.trans hpc.symm)
  | done _ | free => exact .inr rfl

/-- What an event does. -/
theorem spawnBuffer_sends {ev : BufferEvent}
    (h : spawnBuffer numOfWorkerThread ev s = some (s', pc)) :
    RioTestServer.SendsKept s.server s'.server ∧ s'.handed = s.handed ∧ pc.InPlace ∧
      pc.carries = none ∧ ((s'.buffers = s.buffers ∧ pc.buffer = none) ∨
        ∃ x, s'.buffers = s.buffers ++ [x] ∧ pc.buffer = some s.buffers.length) := by
  cases ev with
  | accept threadId =>
    obtain ⟨⟨g', t⟩, hspawn, heq⟩ := Option.map_eq_some_iff.mp h
    cases heq
    obtain ⟨hsends, hhand, hlook⟩ := RioTestServer.spawn_sends hspawn (.inl ⟨_, rfl⟩)
    exact ⟨hsends, rfl, ⟨hhand, hlook⟩, rfl, .inl ⟨rfl, rfl⟩⟩
  | completion session i bytes =>
    obtain ⟨⟨g', t⟩, hspawn, heq⟩ := Option.map_eq_some_iff.mp h
    cases heq
    obtain ⟨hsends, hhand, hlook⟩ := RioTestServer.spawn_sends hspawn (.inr ⟨_, _, _, rfl⟩)
    exact ⟨hsends, rfl, ⟨hhand, hlook⟩, rfl, .inl ⟨rfl, rfl⟩⟩
  | sendPacket _ _ _ | broadcastToAllSession _ =>
    cases h
    exact ⟨.refl _, rfl, trivial, rfl, .inr ⟨_, rfl, rfl⟩⟩

/-- A number that was handed out was given to one buffer, and a session has
enqueued no number that it has not handed out. -/
structure Numbered (s : BufferServer) : Prop where
  known : ∀ i n buffer, (i, n, buffer) ∈ s.handed → buffer < s.buffers.length ∧
    ∃ x, s.server.sends i = some x ∧ n < x.nextSerial
  once : ∀ i n buffer buffer', (i, n, buffer) ∈ s.handed → (i, n, buffer') ∈ s.handed →
    buffer = buffer'
  enqueued : ∀ i x, s.server.sends i = some x → ∀ p ∈ x.enqueued, p.serial < x.nextSerial

/-- Every buffer has one sender, and the packet it has in hand has a number that
was handed out for this buffer. -/
structure HandedOver (s : BufferServer) (ts : List BufferPc) : Prop extends Numbered s where
  inPlace : ∀ pc ∈ ts, pc.InPlace
  carried : ∀ pc ∈ ts, ∀ i packet, pc.carries = some (i, packet) →
    ∃ buffer, pc.buffer = some buffer ∧ (i, packet.serial, buffer) ∈ s.handed
  own : (ts.filterMap BufferPc.buffer).Nodup
  allocated : ∀ pc ∈ ts, ∀ buffer, pc.buffer = some buffer → buffer < s.buffers.length

/-- The packet in hand of the acting thread. -/
theorem HandedOver.carried_self {i : Nat} {packet : NetBuffer}
    (hI : HandedOver s (l ++ pc :: r)) (hcarries : pc.carries = some (i, packet)) :
    ∃ buffer, pc.buffer = some buffer ∧ (i, packet.serial, buffer) ∈ s.handed :=
  hI.carried pc (List.mem_append_right l List.mem_cons_self) i packet hcarries

/-- Nothing is numbered or enqueued. -/
theorem Numbered.kept (hI : Numbered s) (hsends : RioTestServer.SendsKept s.server s'.server)
    (hhanded : s'.handed = s.handed) (hlen : s.buffers.length ≤ s'.buffers.length) :
    Numbered s' := by
  refine ⟨fun i n buffer hin => ?_, ?_, fun i x hx p hp => ?_⟩
  · rw [hhanded] at hin
    obtain ⟨hlt, x, hx, hn⟩ := hI.known i n buffer hin
    refine ⟨by omega, x, ?_, hn⟩
    rcases hsends i with hsame | ⟨hnone, -⟩
    · exact hsame.trans hx
    · rw [hnone] at hx
      cases hx
  · rw [hhanded]
    exact hI.once
  · rcases hsends i with hsame | ⟨-, id, hnew⟩
    · exact hI.enqueued i x (hsame ▸ hx) p hp
    · rw [hnew] at hx
      cases hx
      cases hp

/-- One step of a thread that has what it needs. -/
theorem CopiesEffect.numbered (h : CopiesEffect s pc s' pc') (hI : HandedOver s (l ++ pc :: r))
    (hlen : s'.buffers.length = s.buffers.length) : Numbered s' := by
  cases h with
  | kept sends handed _ => exact hI.toNumbered.kept sends handed hlen.ge
  | @handOver session buffer x packet hx sends handed hbuffer _ _ _ =>
    refine ⟨fun i n b hin => ?_, fun i n b b' hb hb' => ?_, fun i y hy p hp => ?_⟩
    · rw [handed] at hin
      rw [hlen, sends]
      rcases List.mem_cons.mp hin with heq | hin
      · cases heq
        have hlt := (forall_mem_place.mp hI.allocated).2.1 buffer hbuffer
        exact ⟨hlt, _, if_pos rfl, Nat.lt_succ_self _⟩
      · obtain ⟨hlt, y, hy, hn⟩ := hI.known i n b hin
        refine ⟨hlt, ?_⟩
        split
        · next hi =>
          rw [hi, hx] at hy
          cases hy
          exact ⟨_, rfl, Nat.lt_succ_of_lt hn⟩
        · exact ⟨y, hy, hn⟩
    · -- a new number is above all that were handed out
      have hnew : ∀ d, (session, x.nextSerial, d) ∉ s.handed := by
        intro d hd
        obtain ⟨-, y, hy, hn⟩ := hI.known _ _ _ hd
        rw [hx] at hy
        cases hy
        exact Nat.lt_irrefl _ hn
      rw [handed] at hb hb'
      rcases List.mem_cons.mp hb with heq | hb
      · cases heq
        rcases List.mem_cons.mp hb' with heq' | hb'
        · cases heq'
          rfl
        · exact absurd hb' (hnew _)
      · rcases List.mem_cons.mp hb' with heq' | hb'
        · cases heq'
          exact absurd hb (hnew _)
        · exact hI.once i n b b' hb hb'
    · rw [sends] at hy
      split at hy
      · cases hy
        exact Nat.lt_succ_of_lt (hI.enqueued session x hx p hp)
      · exact hI.enqueued i y hy p hp
  | @enqueue session x packet carried hx sends handed _ =>
    refine ⟨fun i n b hin => ?_, ?_, fun i y hy p hp => ?_⟩
    · rw [handed] at hin
      obtain ⟨hlt, y, hy, hn⟩ := hI.known i n b hin
      rw [hlen, sends]
      refine ⟨hlt, ?_⟩
      split
      · next hi =>
        rw [hi, hx] at hy
        cases hy
        exact ⟨_, rfl, hn⟩
      · exact ⟨y, hy, hn⟩
    · rw [handed]
      exact hI.once
    · rw [sends] at hy
      split at hy
      · cases hy
        rcases List.mem_append.mp hp with hp | hp
        · exact hI.enqueued session x hx p hp
        · -- the packet in hand
          obtain ⟨b, -, hin⟩ := hI.carried_self carried
          obtain ⟨-, z, hz, hn⟩ := hI.known _ _ _ hin
          rw [hx] at hz
          cases hz
          rw [List.mem_singleton.mp hp]
          exact hn
      · exact hI.enqueued i y hy p hp

/-- No number is taken back. -/
theorem CopiesEffect.handed_mono (h : CopiesEffect s pc s' pc') :
    ∀ x ∈ s.handed, x ∈ s'.handed := by
  intro x hx
  cases h with
  | kept _ handed _ | enqueue _ _ _ handed _ => exact handed ▸ hx
  | handOver _ _ handed _ _ _ _ => exact handed ▸ List.mem_cons_of_mem _ hx

theorem exec_handedOver (hI : HandedOver s (l ++ pc :: r))
    (h : execBuffer spec numOfWorkerThread pc o s = some (s', pc')) :
    HandedOver s' (l ++ pc' :: r) := by
  obtain ⟨hlIn, hpcIn, hrIn⟩ := forall_mem_place.mp hI.inPlace
  obtain ⟨hlCarried, hpcCarried, hrCarried⟩ := forall_mem_place.mp hI.carried
  obtain ⟨hlAlloc, hpcAlloc, hrAlloc⟩ := forall_mem_place.mp hI.allocated
  have heffect := execBuffer_effect h
  obtain ⟨hcopies, hin⟩ := execBuffer_copies h hpcIn
  have hlen := heffect.leaves.2.2
  have hmono := hcopies.handed_mono
  have hothers : ∀ q : BufferPc, (∀ i packet, q.carries = some (i, packet) →
      ∃ buffer, q.buffer = some buffer ∧ (i, packet.serial, buffer) ∈ s.handed) →
      ∀ i packet, q.carries = some (i, packet) →
        ∃ buffer, q.buffer = some buffer ∧ (i, packet.serial, buffer) ∈ s'.handed := by
    intro q hq i packet hcarries
    obtain ⟨buffer, hbuffer, hhanded⟩ := hq i packet hcarries
    exact ⟨buffer, hbuffer, hmono _ hhanded⟩
  refine ⟨hcopies.numbered hI hlen, forall_mem_place.mpr ⟨hlIn, hin, hrIn⟩,
    forall_mem_place.mpr ⟨fun q hq => hothers q (hlCarried q hq), ?_,
      fun q hq => hothers q (hrCarried q hq)⟩, ?_, ?_⟩
  · intro i packet hcarries
    cases hcopies with
    | kept _ handed carries =>
      rcases carries with ⟨-, hnone⟩ | ⟨j, p, p', hp, hp', hserial, hbuffer⟩
      · rw [hnone] at hcarries
        cases hcarries
      · rw [hp'] at hcarries
        cases hcarries
        rw [hbuffer, handed, hserial]
        exact hpcCarried i p hp
    | handOver _ _ handed _ hbuffer' carries serial =>
      rw [carries] at hcarries
      cases hcarries
      refine ⟨_, hbuffer', ?_⟩
      rw [handed, serial]
      exact List.mem_cons_self
    | enqueue _ _ _ _ carries =>
      rw [carries] at hcarries
      cases hcarries
  · have hown := hI.own
    rw [List.filterMap_append, List.filterMap_cons] at hown ⊢
    rcases heffect.buffer_or with hsame | hnone
    · rw [hsame]
      exact hown
    · rw [hnone]
      refine hown.sublist (List.Sublist.append_left ?_ _)
      cases pc.buffer with
      | none => exact List.Sublist.refl _
      | some buffer => exact List.sublist_cons_self _ _
  · rw [hlen]
    refine forall_mem_place.mpr ⟨hlAlloc, fun buffer hbuffer => ?_, hrAlloc⟩
    rcases heffect.buffer_or with hsame | hnone
    · exact hpcAlloc buffer (hsame ▸ hbuffer)
    · rw [hnone] at hbuffer
      cases hbuffer

theorem event_handedOver {ev : BufferEvent} (hI : HandedOver s ts)
    (h : spawnBuffer numOfWorkerThread ev s = some (s', pc)) : HandedOver s' (ts ++ [pc]) := by
  obtain ⟨hsends, hhanded, hin, hcarries, hbuffers⟩ := spawnBuffer_sends h
  have hlen : s.buffers.length ≤ s'.buffers.length := by
    rcases hbuffers with ⟨hsame, -⟩ | ⟨x, hnew, -⟩
    · rw [hsame]
    · rw [hnew, List.length_append]
      exact Nat.le_add_right _ _
  refine ⟨hI.toNumbered.kept hsends hhanded hlen, forall_mem_spawned.mpr ⟨hI.inPlace, hin⟩,
    forall_mem_spawned.mpr ⟨?_, ?_⟩, ?_, forall_mem_spawned.mpr ⟨?_, ?_⟩⟩
  · rw [hhanded]
    exact hI.carried
  · intro i packet hsome
    rw [hcarries] at hsome
    cases hsome
  · rw [List.filterMap_append, List.filterMap_cons, List.filterMap_nil]
    rcases hbuffers with ⟨-, hnone⟩ | ⟨x, -, hsome⟩
    · rw [hnone, List.append_nil]
      exact hI.own
    · -- a new buffer is nobody's
      rw [hsome]
      refine List.nodup_append'.mpr ⟨hI.own, List.nodup_singleton _,
        List.disjoint_singleton.mpr fun hold => ?_⟩
      obtain ⟨q, hq, hbuffer⟩ := List.mem_filterMap.mp hold
      exact Nat.lt_irrefl _ (hI.allocated q hq _ hbuffer)
  · intro q hq buffer hbuffer
    exact Nat.lt_of_lt_of_le (hI.allocated q hq buffer hbuffer) hlen
  · intro buffer hbuffer
    rcases hbuffers with ⟨-, hnone⟩ | ⟨x, hnew, hsome⟩
    · rw [hnone] at hbuffer
      cases hbuffer
    · rw [hsome] at hbuffer
      cases hbuffer
      rw [hnew, List.length_append]
      exact Nat.lt_succ_self _

/-- **Every packet is one buffer's**, in every reachable state. -/
theorem handedOver {c : Config BufferServer BufferPc}
    (h : (bufferServer spec numOfWorkerThread).Reachable bufferServer.init c) :
    HandedOver c.shared c.threads := by
  refine Run.induct h ⟨⟨?_, ?_, ?_⟩, ?_, ?_, List.nodup_nil, ?_⟩ ?_ ?_
  · intro i n buffer hin
    cases hin
  · intro i n buffer buffer' hin
    cases hin
  · intro i x hx
    cases hx
  · intro pc hpc
    cases hpc
  · intro pc hpc
    cases hpc
  · intro pc hpc
    cases hpc
  · intro s l pc r o s' pc' _ hI _ hexec
    exact exec_handedOver hI hexec
  · intro s ts ev s' pc _ hI hspawn
    exact event_handedOver hI hspawn

/-! ## The copies of a buffer -/

/-- A session that keeps its packets, and hands the buffer no other numbers. -/
theorem copies_congr {buffer i : Nat} (hsends : s'.server.sends i = s.server.sends i)
    (hhanded : ∀ p : NetBuffer,
      (i, p.serial, buffer) ∈ s'.handed ↔ (i, p.serial, buffer) ∈ s.handed) :
    s'.copies buffer i = s.copies buffer i := by
  cases hx : s.server.sends i with
  | none => rw [BufferServer.copies_of_none hx, BufferServer.copies_of_none (hsends.trans hx)]
  | some x =>
    rw [BufferServer.copies_eq hx, BufferServer.copies_eq (hsends.trans hx)]
    exact List.filter_congr fun p _ => decide_eq_decide.mpr (hhanded p)

/-- Sessions that keep their packets keep the copies. -/
theorem copies_kept (hsends : RioTestServer.SendsKept s.server s'.server)
    (hhanded : s'.handed = s.handed) (buffer i : Nat) : s'.copies buffer i = s.copies buffer i := by
  rcases hsends i with hsame | ⟨hnone, id, hnew⟩
  · exact copies_congr hsame fun p => by rw [hhanded]
  · rw [BufferServer.copies_of_none hnone, BufferServer.copies_eq hnew]
    rfl

/-- Only an enqueued packet is a copy more. -/
theorem CopiesEffect.copies_same (h : CopiesEffect s pc s' pc') (hI : HandedOver s (l ++ pc :: r))
    (hcarries : pc.carries = none ∨ pc'.carries ≠ none) (buffer i : Nat) :
    s'.copies buffer i = s.copies buffer i := by
  cases h with
  | kept sends handed _ => exact copies_kept sends handed buffer i
  | @handOver session _ x _ hx sends handed _ _ _ _ =>
    by_cases hi : i = session
    · -- what is enqueued has older numbers
      subst hi
      rw [BufferServer.copies_eq hx, BufferServer.copies_eq ((sends i).trans (if_pos rfl)), handed]
      refine List.filter_congr fun p hp => decide_eq_decide.mpr ?_
      rw [List.mem_cons]
      refine or_iff_right fun heq => ?_
      have hserial : p.serial = x.nextSerial := congrArg (fun y => y.2.1) heq
      have hlt := hI.enqueued i x hx p hp
      omega
    · -- the number was handed out by another session
      refine copies_congr ((sends i).trans (if_neg hi)) fun p => ?_
      rw [handed, List.mem_cons]
      exact or_iff_right fun heq => hi (congrArg Prod.fst heq)
  | enqueue carried _ _ _ carries =>
    rcases hcarries with hnone | hsome
    · rw [hnone] at carried
      cases carried
    · exact absurd carries hsome

/-- A packet that is no longer in hand was enqueued, as a copy of its buffer. -/
theorem CopiesEffect.copies_enqueued {buffer session : Nat} {packet : NetBuffer}
    (h : CopiesEffect s pc s' pc') (hI : HandedOver s (l ++ pc :: r))
    (hbuffer : pc.buffer = some buffer) (hcarries : pc.carries = some (session, packet))
    (hcarries' : pc'.carries = none) (b j : Nat) :
    s'.copies b j =
      if b = buffer ∧ j = session then s.copies b j ++ [packet] else s.copies b j := by
  cases h with
  | kept _ _ carries =>
    rcases carries with ⟨hnone, -⟩ | ⟨_, _, _, -, hsome, -⟩
    · rw [hnone] at hcarries
      cases hcarries
    · rw [hsome] at hcarries'
      cases hcarries'
  | handOver _ _ _ _ _ carries _ =>
    rw [carries] at hcarries'
    cases hcarries'
  | @enqueue _ x _ carried hx sends handed _ =>
    rw [hcarries] at carried
    cases carried
    obtain ⟨b', hb', hin⟩ := hI.carried_self hcarries
    rw [hbuffer] at hb'
    cases hb'
    by_cases hj : j = session
    · subst hj
      rw [BufferServer.copies_eq hx, BufferServer.copies_eq ((sends j).trans (if_pos rfl)), handed,
        List.filter_append]
      by_cases hb : b = buffer
      · subst hb
        rw [if_pos ⟨rfl, rfl⟩]
        simp [hin]
      · -- the number in hand was given to its own buffer
        have hnot : (j, packet.serial, b) ∉ s.handed := fun hin' =>
          hb (hI.once _ _ _ _ hin' hin)
        rw [if_neg fun hand => hb hand.1]
        simp [hnot]
    · rw [if_neg fun hand => hj hand.2]
      exact copies_congr ((sends j).trans (if_neg hj)) fun p => by rw [handed]

/-- Another sender's step enqueues none of a buffer's copies. -/
theorem CopiesEffect.copies_of_ne {buffer : Nat} (h : CopiesEffect s pc s' pc')
    (hI : HandedOver s (l ++ pc :: r)) (hne : pc.buffer ≠ some buffer) (i : Nat) :
    s'.copies buffer i = s.copies buffer i := by
  by_cases hcarries : pc.carries = none ∨ pc'.carries ≠ none
  · exact h.copies_same hI hcarries buffer i
  · obtain ⟨hsome, hnone⟩ := not_or.mp hcarries
    obtain ⟨⟨session, packet⟩, hcarried⟩ := Option.ne_none_iff_exists'.mp hsome
    obtain ⟨b, hb, -⟩ := hI.carried_self hcarried
    rw [h.copies_enqueued hI hb hcarried (not_not.mp hnone)]
    refine if_neg ?_
    rintro ⟨rfl, -⟩
    exact hne hb

/-- The server among its senders is the server. -/
theorem Simulated.named {g : RioTestServer} {us : List Thread}
    (h : Simulated spec numOfWorkerThread g us) : g.Named := by
  obtain ⟨ts, done, hrun, -⟩ := h
  exact RioTestServer.named hrun

/-- A step keeps the published sessions. -/
theorem BufferEffect.keeps (h : BufferEffect spec numOfWorkerThread o s pc s' pc')
    (hnamed : s.server.Named) : s.server.Keeps s'.server := by
  cases h with
  | server hexec | send _ hexec => exact (RioTestServer.exec_named hnamed hexec).2
  | handOver hspawn => exact (RioTestServer.spawn_named hnamed hspawn).2
  | done _ | goesOn _ _ _ _ _ _ | free => exact .refl _

/-- A sender changes its own buffer only. -/
theorem BufferEffect.buffers_of_ne {b : Nat}
    (h : BufferEffect spec numOfWorkerThread o s pc s' pc') (hne : pc.buffer ≠ some b) :
    s'.buffers[b]? = s.buffers[b]? := by
  have hother : ∀ (buffer : Nat) (f : PooledBuffer → PooledBuffer), some buffer ≠ some b →
      (s.buffers.modify buffer f)[b]? = s.buffers[b]? := by
    intro buffer f hbuffer
    have hb : buffer ≠ b := fun heq => hbuffer (congrArg some heq)
    rw [List.getElem?_modify]
    cases s.buffers[b]? with
    | none => rfl
    | some x => simp [hb]
  cases h with
  | server _ | handOver _ | done _ | goesOn _ _ _ _ _ _ => rfl
  | @send buffer _ t _ _ _ _ =>
    change (s.encoded spec buffer t.pc)[b]? = s.buffers[b]?
    unfold BufferServer.encoded
    split
    · exact hother buffer _ hne
    · rfl
  | free => exact hother _ _ hne

end

end RioServer
