import RioServer.Server.HandedOver

/-!
# Every broadcast is delivered once (Broadcaster.cpp:11–47)

`watchedServer` is `bufferServer` with a record of what is done with each
buffer (`Broadcast`; no code reads it): the ids that were registered when the
broadcast took its snapshot, the turns it has taken, each with the session that
`sessionMap` had for the id at that moment, and how often the buffer was
encoded. Watching changes nothing (`watched`, `unwatched`).

A session that was found in a turn gets the buffer once and no other session
gets it, the turns are those of the snapshot, and `Encode` is called at most
once, before anything is enqueued (`broadcast_delivered`).
-/

namespace RioServer

open Machine

/-! ## Watching -/

/-- What was done with a buffer. `packet` is what a broadcast wrote to it. -/
structure Broadcast where
  packet : Option (List UInt8)
  snapshot : Option (Finset UInt64)
  turns : List (UInt64 × Option Nat)
  encodes : Nat
  deriving DecidableEq

/-- A buffer with which nothing was done. -/
def Broadcast.none : Broadcast := ⟨.none, .none, [], 0⟩

/-- What a step does with its buffer. -/
def Broadcast.record (s : BufferServer) : BufferPc → Broadcast → Broadcast
  | .snapshot _, w => { w with snapshot := some s.server.sessionIdSet }
  | .broadcast _ (sessionId :: _), w =>
    { w with turns := w.turns ++ [(sessionId, s.server.sessionMap.find sessionId)] }
  | .send ⟨_, _, .sendPacket .encode false _⟩ _ _, w => { w with encodes := w.encodes + 1 }
  | _, w => w

/-- The server with a record for every buffer. -/
structure WatchedServer extends BufferServer where
  broadcasts : Nat → Broadcast

/-- The record after a step. -/
def WatchedServer.record (s : WatchedServer) (pc : BufferPc) : Nat → Broadcast :=
  match pc.buffer with
  | some buffer => Function.update s.broadcasts buffer
      ((s.broadcasts buffer).record s.toBufferServer pc)
  | none => s.broadcasts

/-- The record after an event: a broadcast starts. -/
def WatchedServer.start (s : WatchedServer) : BufferEvent → Nat → Broadcast
  | .broadcastToAllSession bytes =>
    Function.update s.broadcasts s.buffers.length { Broadcast.none with packet := some bytes }
  | _ => s.broadcasts

section

variable (spec : NetBufferSpec) (numOfWorkerThread : Nat)

/-- One step of a thread, watched. -/
def execWatched (pc : BufferPc) (o : BufferOracle) (s : WatchedServer) :
    Option (WatchedServer × BufferPc) :=
  (execBuffer spec numOfWorkerThread pc o s.toBufferServer).map fun r =>
    (⟨r.1, s.record pc⟩, r.2)

/-- The thread an event starts, watched. -/
def spawnWatched (ev : BufferEvent) (s : WatchedServer) : Option (WatchedServer × BufferPc) :=
  (spawnBuffer numOfWorkerThread ev s.toBufferServer).map fun r => (⟨r.1, s.start ev⟩, r.2)

/-- **The server, watched.** -/
def watchedServer : Machine WatchedServer BufferPc BufferOracle BufferEvent :=
  ⟨execWatched spec numOfWorkerThread, spawnWatched numOfWorkerThread⟩

def watchedServer.init : Config WatchedServer BufferPc :=
  ⟨⟨.initial, fun _ => .none⟩, []⟩

end

variable {spec : NetBufferSpec} {numOfWorkerThread : Nat}

theorem execWatched_eq_some {pc pc' : BufferPc} {o : BufferOracle} {s s' : WatchedServer}
    (h : execWatched spec numOfWorkerThread pc o s = some (s', pc')) :
    ∃ g', execBuffer spec numOfWorkerThread pc o s.toBufferServer = some (g', pc') ∧
      s' = ⟨g', s.record pc⟩ := by
  obtain ⟨⟨g', q⟩, hexec, heq⟩ := Option.map_eq_some_iff.mp h
  cases heq
  exact ⟨g', hexec, rfl⟩

theorem spawnWatched_eq_some {ev : BufferEvent} {pc : BufferPc} {s s' : WatchedServer}
    (h : spawnWatched numOfWorkerThread ev s = some (s', pc)) :
    ∃ g', spawnBuffer numOfWorkerThread ev s.toBufferServer = some (g', pc) ∧
      s' = ⟨g', s.start ev⟩ := by
  obtain ⟨⟨g', q⟩, hspawn, heq⟩ := Option.map_eq_some_iff.mp h
  cases heq
  exact ⟨g', hspawn, rfl⟩

/-- A step is recorded with its own buffer. -/
theorem record_of_eq {s : WatchedServer} {pc : BufferPc} {buffer : Nat}
    (h : pc.buffer = some buffer) :
    s.record pc buffer = (s.broadcasts buffer).record s.toBufferServer pc := by
  rw [WatchedServer.record, h]
  exact Function.update_self ..

theorem record_of_ne {s : WatchedServer} {pc : BufferPc} {buffer : Nat}
    (h : pc.buffer ≠ some buffer) : s.record pc buffer = s.broadcasts buffer := by
  unfold WatchedServer.record
  cases hb : pc.buffer with
  | none => rfl
  | some b =>
    refine Function.update_of_ne ?_ _ _
    rintro rfl
    exact h hb

/-- A watched run is a run. -/
theorem unwatched {c : Config WatchedServer BufferPc}
    (h : (watchedServer spec numOfWorkerThread).Reachable watchedServer.init c) :
    (bufferServer spec numOfWorkerThread).Reachable bufferServer.init
      ⟨c.shared.toBufferServer, c.threads⟩ := by
  refine Run.induct (I := fun s ts => (bufferServer spec numOfWorkerThread).Reachable
    bufferServer.init ⟨s.toBufferServer, ts⟩) h .refl ?_ ?_
  · intro s l pc r o s' pc' _ hI _ hexec
    obtain ⟨g', hg, rfl⟩ := execWatched_eq_some hexec
    exact hI.place trivial hg
  · intro s ts ev s' pc _ hI hspawn
    obtain ⟨g', hg, rfl⟩ := spawnWatched_eq_some hspawn
    exact hI.started hg

/-- Every run can be watched. -/
theorem watched {c : Config BufferServer BufferPc}
    (h : (bufferServer spec numOfWorkerThread).Reachable bufferServer.init c) :
    ∃ broadcasts, (watchedServer spec numOfWorkerThread).Reachable watchedServer.init
      ⟨⟨c.shared, broadcasts⟩, c.threads⟩ := by
  refine Run.induct (I := fun s ts => ∃ broadcasts,
    (watchedServer spec numOfWorkerThread).Reachable watchedServer.init ⟨⟨s, broadcasts⟩, ts⟩)
    h ⟨_, .refl⟩ ?_ ?_
  · rintro s l pc r o s' pc' - ⟨broadcasts, hrun⟩ - hexec
    exact ⟨WatchedServer.record ⟨s, broadcasts⟩ pc,
      hrun.place trivial (congrArg (Option.map _) hexec)⟩
  · rintro s ts ev s' pc - ⟨broadcasts, hrun⟩ hspawn
    exact ⟨WatchedServer.start ⟨s, broadcasts⟩ ev, hrun.started (congrArg (Option.map _) hspawn)⟩

/-! ## Delivery -/

/-- The session whose turn it is and which has not got the packet. -/
def BufferPc.offers : BufferPc → Option Nat
  | .handOver session _ _ _ => some session
  | pc => pc.carries.map Prod.fst

theorem BufferPc.offers_of_none {t : Thread} {buffer : Nat} {rest : Option (List UInt64)}
    (h : t.pc.inHand = none) : (BufferPc.send t buffer rest).offers = none :=
  congrArg (Option.map Prod.fst) (carries_of_none h)

theorem BufferPc.offers_of_some {t : Thread} {buffer : Nat} {rest : Option (List UInt64)}
    {packet : NetBuffer} (h : t.pc.inHand = some packet) :
    (BufferPc.send t buffer rest).offers = some t.session :=
  congrArg (Option.map Prod.fst) (carries_of_some h)

/-- The packets of a buffer that are about to be enqueued in a session. -/
def pending (buffer session : Nat) (ts : List BufferPc) : Nat :=
  ts.countP fun pc => pc.buffer = some buffer ∧ pc.offers = some session

/-- The turns that are left, of a broadcast that has taken its snapshot. -/
def Broadcast.Remaining (w : Broadcast) (sessionIdList : List UInt64) : Prop :=
  ∃ sessionIdSet, w.snapshot = some sessionIdSet ∧
    (w.turns.map Prod.fst ++ sessionIdList).Nodup ∧
    (w.turns.map Prod.fst ++ sessionIdList).toFinset = sessionIdSet

/-- What there is to say of a broadcast of `bytes`, at any time. -/
structure Delivered (spec : NetBufferSpec) (numOfWorkerThread : Nat) (bytes : List UInt8)
    (buffer : Nat) (s : WatchedServer) (ts : List BufferPc) : Prop where
  /-- No turn before the snapshot, and none twice or for an id that is not in it. -/
  turns : ((s.broadcasts buffer).snapshot = .none ∧ (s.broadcasts buffer).turns = []) ∨
    ∃ sessionIdList, (s.broadcasts buffer).Remaining sessionIdList
  /-- In the end every id has had its turn. -/
  ended : (∀ pc ∈ ts, pc.buffer ≠ some buffer) → (s.broadcasts buffer).Remaining []
  /-- A session that was found has the packet once or is about to get it, and no
  other session has it. -/
  once : ∀ session, (s.copies buffer session).length + pending buffer session ts =
    if some session ∈ (s.broadcasts buffer).turns.map Prod.snd then 1 else 0
  /-- Nobody is kept from enqueueing the packet. -/
  offered : ∀ pc ∈ ts, pc.buffer = some buffer → pc.offers.isSome = true →
    ∀ o, (execBuffer spec numOfWorkerThread pc o s.toBufferServer).isSome = true
  /-- Only the lock of `sessionMap` delays a turn. -/
  goesOn : ∀ sessionIdList, .broadcast buffer sessionIdList ∈ ts →
    s.server.sessionMapLocked = false →
    ∀ o, (execBuffer spec numOfWorkerThread (.broadcast buffer sessionIdList) o
      s.toBufferServer).isSome = true
  encodedOnce : (s.broadcasts buffer).encodes ≤ 1
  /-- All copies are the frame that the buffer holds. -/
  frames : ∀ session, ∀ p ∈ s.copies buffer session, p.bytes = spec.encode bytes ∧
    (s.buffers[buffer]?.map PooledBuffer.bytes) = some (spec.encode bytes)

/-! ## One broadcast and its thread -/

/-- `m_bIsEncoded` and the bytes of a buffer. -/
def BufferServer.content (s : BufferServer) (buffer : Nat) : Option (Bool × List UInt8) :=
  s.buffers[buffer]?.map fun x => (x.isEncoded, x.bytes)

/-- The packet in hand is what the buffer holds, encoded when it is enqueued. -/
def BufferPc.Carrying (isEncoded : Bool) (frame : List UInt8) : BufferPc → Prop
  | .send ⟨_, _, .sendPacket .encode encoded packet⟩ _ _ =>
    encoded = isEncoded ∧ packet.bytes = frame
  | .send ⟨_, _, .sendPacket .enqueue _ packet⟩ _ _ => isEncoded = true ∧ packet.bytes = frame
  | .send ⟨_, _, .sendPacket .setSendDisconnect _ _⟩ _ _ => False
  | _ => True

/-- Where the broadcast stands, by its thread; without one it has ended. -/
def Broadcast.Progress (w : Broadcast) : Option BufferPc → Prop
  | some (.snapshot _) => w.snapshot = .none ∧ w.turns = []
  | some (.broadcast _ sessionIdList) | some (.send _ _ (some sessionIdList)) =>
    w.Remaining sessionIdList
  | some (.handOver _ andDisconnect _ (some sessionIdList)) =>
    w.Remaining sessionIdList ∧ andDisconnect = false
  | .none => w.Remaining []
  | _ => False

/-- One for the session that the broadcast's thread is at. -/
def offered (holder : Option BufferPc) (session : Nat) : Nat :=
  if holder.bind BufferPc.offers = some session then 1 else 0

/-- The broadcast of `bytes`, what was done with its buffer, and its thread. -/
structure Broadcasting (spec : NetBufferSpec) (bytes : List UInt8) (buffer : Nat)
    (s : BufferServer) (w : Broadcast) (holder : Option BufferPc) : Prop where
  content : ∃ isEncoded frame, s.content buffer = some (isEncoded, frame) ∧
    (if isEncoded then frame = spec.encode bytes ∧ w.encodes = 1
      else frame = bytes ∧ w.encodes = 0) ∧
    (∀ session, ∀ p ∈ s.copies buffer session, isEncoded = true ∧ p.bytes = frame) ∧
    ∀ pc ∈ holder, pc.Carrying isEncoded frame
  progress : w.Progress holder
  found : ∀ sessionId session, (sessionId, some session) ∈ w.turns →
    ∃ e, s.server.sessions[session]? = some e ∧ e.sessionId = sessionId ∧
      e.state.published = true
  counted : ∀ session, (s.copies buffer session).length + offered holder session =
    w.turns.countP fun turn => turn.2 = some session

section

variable {s s' : BufferServer} {w w' : Broadcast} {l r ts : List BufferPc} {pc pc' : BufferPc}
  {o : BufferOracle} {bytes : List UInt8} {buffer : Nat} {holder holder' : Option BufferPc}

/-- The sessions that were found stay published. -/
theorem Broadcasting.found_kept {g : RioTestServer} (hI : Broadcasting spec bytes buffer s w holder)
    (hkeeps : s.server.Keeps g) (sessionId : UInt64) (session : Nat)
    (hin : (sessionId, some session) ∈ w.turns) :
    ∃ e, g.sessions[session]? = some e ∧ e.sessionId = sessionId ∧ e.state.published = true := by
  obtain ⟨e, he, rfl, hpub⟩ := hI.found sessionId session hin
  exact hkeeps session e he hpub

/-- A step that neither encodes nor enqueues, and takes no turn. -/
theorem Broadcasting.quiet (hI : Broadcasting spec bytes buffer s w holder)
    (hcontent : s'.content buffer = s.content buffer)
    (hcopies : ∀ session, s'.copies buffer session = s.copies buffer session)
    (hkeeps : s.server.Keeps s'.server) (hturns : w'.turns = w.turns)
    (hencodes : w'.encodes = w.encodes)
    (hcarrying : ∀ isEncoded frame, s.content buffer = some (isEncoded, frame) →
      (∀ pc ∈ holder, pc.Carrying isEncoded frame) → ∀ pc ∈ holder', pc.Carrying isEncoded frame)
    (hprogress : w'.Progress holder')
    (hoffered : ∀ session, offered holder' session = offered holder session) :
    Broadcasting spec bytes buffer s' w' holder' := by
  obtain ⟨isEncoded, frame, hc, hencoded, hframes, hcarries⟩ := hI.content
  refine ⟨⟨isEncoded, frame, hcontent.trans hc, ?_, fun session p hp => ?_,
    hcarrying isEncoded frame hc hcarries⟩, hprogress, fun sessionId session hin => ?_,
    fun session => ?_⟩
  · rw [hencodes]
    exact hencoded
  · rw [hcopies] at hp
    exact hframes session p hp
  · rw [hturns] at hin
    exact hI.found_kept hkeeps sessionId session hin
  · rw [hcopies, hturns, hoffered]
    exact hI.counted session

/-- Another sender's step. -/
theorem Broadcasting.other (hI : Broadcasting spec bytes buffer s w holder)
    (hH : HandedOver s (l ++ pc :: r)) (hnamed : s.server.Named) (hne : pc.buffer ≠ some buffer)
    (h : execBuffer spec numOfWorkerThread pc o s = some (s', pc')) :
    Broadcasting spec bytes buffer s' w holder := by
  have heffect := execBuffer_effect h
  have hcopies := (execBuffer_copies h (forall_mem_place.mp hH.inPlace).2.1).1
  exact hI.quiet (congrArg (Option.map _) (heffect.buffers_of_ne hne))
    (hcopies.copies_of_ne hH hne) (heffect.keeps hnamed) rfl rfl (fun _ _ _ => id) hI.progress
    fun _ => rfl

/-! ### The steps of its thread -/

/-- The snapshot: every registered id, once. -/
theorem Broadcasting.snapshot (hI : Broadcasting spec bytes buffer s w (some (.snapshot buffer)))
    (h : execBuffer spec numOfWorkerThread (.snapshot buffer) o s = some (s', pc')) :
    pc'.buffer = some buffer ∧
      Broadcasting spec bytes buffer s' (w.record s (.snapshot buffer)) (some pc') := by
  simp only [execBuffer] at h
  obtain ⟨⟨hnodup, hset⟩, h⟩ := Option.ite_none_right_eq_some.mp h
  cases h
  obtain ⟨-, hturns⟩ := hI.progress
  refine ⟨rfl, hI.quiet rfl (fun _ => rfl) (.refl _) rfl rfl ?_ ?_ fun _ => rfl⟩
  · rintro _ _ _ _ _ ⟨⟩
    trivial
  · refine ⟨_, rfl, ?_⟩
    simp only [Broadcast.record, hturns, List.map_nil, List.nil_append]
    exact ⟨hnodup, hset⟩

theorem Broadcast.Remaining.turn {sessionId : UInt64} {sessionIdList : List UInt64}
    (h : w.Remaining (sessionId :: sessionIdList)) (session : Option Nat) :
    Broadcast.Remaining { w with turns := w.turns ++ [(sessionId, session)] } sessionIdList := by
  obtain ⟨sessionIdSet, hset, hnodup, hall⟩ := h
  have hids : (w.turns ++ [(sessionId, session)]).map Prod.fst ++ sessionIdList =
      w.turns.map Prod.fst ++ sessionId :: sessionIdList := by
    rw [List.map_append, List.append_assoc]
    rfl
  refine ⟨sessionIdSet, hset, ?_, ?_⟩
  · rw [hids]
    exact hnodup
  · rw [hids]
    exact hall

/-- A turn: the session that is found is up next, if any. -/
theorem Broadcasting.turn {sessionId : UInt64} {sessionIdList : List UInt64}
    (hI : Broadcasting spec bytes buffer s w
      (some (.broadcast buffer (sessionId :: sessionIdList)))) (hnamed : s.server.Named)
    (h : execBuffer spec numOfWorkerThread (.broadcast buffer (sessionId :: sessionIdList)) o s =
      some (s', pc')) :
    pc'.buffer = some buffer ∧
      Broadcasting spec bytes buffer s'
        (w.record s (.broadcast buffer (sessionId :: sessionIdList))) (some pc') := by
  have hremaining := Broadcast.Remaining.turn hI.progress (s.server.sessionMap.find sessionId)
  obtain ⟨isEncoded, frame, hc, hencoded, hframes, -⟩ := hI.content
  have hcounted : ∀ session, (s.copies buffer session).length =
      w.turns.countP fun turn => turn.2 = some session := hI.counted
  rw [Broadcast.record]
  simp only [execBuffer] at h
  split at h
  · cases h
  · split at h
    · next hfind =>
      cases h
      rw [hfind] at hremaining ⊢
      refine ⟨rfl, ⟨isEncoded, frame, hc, hencoded, hframes, ?_⟩, hremaining,
        fun id session hin => ?_, fun session => ?_⟩
      · rintro _ ⟨⟩
        trivial
      · exact hI.found id session (by simpa using hin)
      · rw [List.countP_append]
        exact hcounted session
    · next i hfind =>
      rw [hfind] at hremaining ⊢
      obtain ⟨e, he, hid, hpub⟩ := hnamed.found sessionId i hfind
      rw [he] at h
      simp only [hnamed.unreleased i e he, Bool.false_eq_true, if_false] at h
      cases h
      refine ⟨rfl, ⟨isEncoded, frame, hc, hencoded, hframes, ?_⟩, ⟨hremaining, rfl⟩,
        fun id session hin => ?_, fun session => ?_⟩
      · rintro _ ⟨⟩
        trivial
      · rcases List.mem_append.mp hin with hin | hin
        · exact hI.found id session hin
        · cases List.mem_singleton.mp hin
          exact ⟨e, he, hid, hpub⟩
      · rw [List.countP_append, ← hcounted session]
        simp [offered, BufferPc.offers, List.countP_cons]

/-- `SendPacket` is called with what the buffer holds. -/
theorem Broadcasting.handOver {session : Nat} {sessionIdList : List UInt64}
    (hI : Broadcasting spec bytes buffer s w
      (some (.handOver session false buffer (some sessionIdList))))
    (hH : HandedOver s (l ++ .handOver session false buffer (some sessionIdList) :: r))
    (hnamed : s.server.Named)
    (h : execBuffer spec numOfWorkerThread (.handOver session false buffer (some sessionIdList)) o
      s = some (s', pc')) :
    pc'.buffer = some buffer ∧ Broadcasting spec bytes buffer s' w (some pc') := by
  have hcopies := (execBuffer_copies h trivial).1
  have hkeeps := (execBuffer_effect h).keeps hnamed
  obtain ⟨e, b, -, hb, -, -, hbuffers, rfl⟩ := execBuffer_handOver h
  refine ⟨rfl, hI.quiet ?_ (hcopies.copies_same hH (.inl rfl) buffer) hkeeps rfl rfl ?_
    hI.progress.1 fun _ => rfl⟩
  · rw [BufferServer.content, hbuffers]
    rfl
  · rintro isEncoded frame hc _ _ ⟨⟩
    rw [BufferServer.content, hb] at hc
    cases hc
    exact ⟨rfl, rfl⟩

/-- What a sender without a packet in hand does is not recorded, and changes no
buffer. -/
theorem record_of_inHand (spec : NetBufferSpec) (s : BufferServer) (w : Broadcast) (buffer : Nat)
    {t : Thread} (rest : Option (List UInt64)) (hhand : t.pc.inHand = none) :
    w.record s (.send t buffer rest) = w ∧ s.encoded spec buffer t.pc = s.buffers ∧
      ∀ isEncoded frame, (BufferPc.send t buffer rest).Carrying isEncoded frame := by
  obtain ⟨session, origin, pc⟩ := t
  cases pc with
  | sendPacket q isEncoded packet =>
    cases q with
    | getSession | isReleasedSession => exact ⟨rfl, rfl, fun _ _ => trivial⟩
    | _ => cases hhand
  | _ => exact ⟨rfl, rfl, fun _ _ => trivial⟩

theorem offered_of_inHand {t : Thread} {rest : Option (List UInt64)} (hhand : t.pc.inHand = none)
    (session : Nat) : offered (some (.send t buffer rest)) session = 0 := by
  rw [offered, Option.bind_some, BufferPc.offers_of_none hhand]
  exact if_neg (Option.some_ne_none session).symm

/-- Behind `Enqueue`: `SendPost`. -/
theorem Broadcasting.sendPost {t : Thread} {sessionIdList : List UInt64}
    (hI : Broadcasting spec bytes buffer s w (some (.send t buffer (some sessionIdList))))
    (hH : HandedOver s (l ++ .send t buffer (some sessionIdList) :: r)) (hnamed : s.server.Named)
    (hhand : t.pc.inHand = none)
    (h : execBuffer spec numOfWorkerThread (.send t buffer (some sessionIdList)) o s =
      some (s', pc')) :
    pc'.buffer = some buffer ∧
      Broadcasting spec bytes buffer s' (w.record s (.send t buffer (some sessionIdList)))
        (some pc') := by
  have hlook := (forall_mem_place.mp hH.inPlace).2.1
  have hcopies := (execBuffer_copies h hlook).1
  have hkeeps := (execBuffer_effect h).keeps hnamed
  have hnone : (BufferPc.send t buffer (some sessionIdList)).carries = none :=
    BufferPc.carries_of_none hhand
  rw [(record_of_inHand spec s w buffer _ hhand).1]
  simp only [execBuffer] at h
  split at h
  · -- `SendPacket` has returned, and the next id is up
    cases h
    refine ⟨rfl, hI.quiet rfl (fun _ => rfl) hkeeps rfl rfl ?_ hI.progress fun session => ?_⟩
    · rintro _ _ _ _ _ ⟨⟩
      trivial
    · rw [offered_of_inHand hhand]
      rfl
  · obtain ⟨⟨g', t'⟩, hexec, heq⟩ := Option.map_eq_some_iff.mp h
    cases heq
    have hhand' : t'.pc.inHand = none := by
      cases (RioTestServer.exec_sends hexec hlook).1 with
      | enqueue hpc =>
        rw [hpc] at hhand
        cases hhand
      | carry hand =>
        rw [hhand] at hand
        cases hand
      | other _ _ hand' => exact hand'
    refine ⟨rfl, hI.quiet ?_ (hcopies.copies_same hH (.inl hnone) buffer) hkeeps rfl rfl ?_
      hI.progress fun session => ?_⟩
    · rw [(record_of_inHand spec s w buffer none hhand).2.1]
      rfl
    · rintro _ _ _ _ _ ⟨⟩
      exact (record_of_inHand spec s w buffer _ hhand').2.2 _ _
    · rw [offered_of_inHand hhand, offered_of_inHand hhand']

/-- `Encode`, unless the buffer is encoded. -/
theorem Broadcasting.encode {session origin : Nat} {isEncoded : Bool} {packet : NetBuffer}
    {sessionIdList : List UInt64}
    (hI : Broadcasting spec bytes buffer s w (some (.send
      ⟨session, origin, .sendPacket .encode isEncoded packet⟩ buffer (some sessionIdList))))
    (hH : HandedOver s (l ++ .send
      ⟨session, origin, .sendPacket .encode isEncoded packet⟩ buffer (some sessionIdList) :: r))
    (hnamed : s.server.Named)
    (h : execBuffer spec numOfWorkerThread (.send
      ⟨session, origin, .sendPacket .encode isEncoded packet⟩ buffer (some sessionIdList)) o s =
        some (s', pc')) :
    pc'.buffer = some buffer ∧
      Broadcasting spec bytes buffer s' (w.record s (.send
        ⟨session, origin, .sendPacket .encode isEncoded packet⟩ buffer (some sessionIdList)))
        (some pc') := by
  have hcopies := (execBuffer_copies h (forall_mem_place.mp hH.inPlace).2.1).1
  have hkeeps := (execBuffer_effect h).keeps hnamed
  obtain ⟨⟨g', t'⟩, hexec, heq⟩ := Option.map_eq_some_iff.mp h
  cases heq
  obtain rfl := RioTestServer.exec_encode hexec
  have hsame := hcopies.copies_same hH (.inr (by rintro ⟨⟩)) buffer
  cases isEncoded with
  | true =>
    refine ⟨rfl, hI.quiet rfl hsame hkeeps rfl rfl ?_ hI.progress fun _ => rfl⟩
    rintro encoded frame hc hcarries _ ⟨⟩
    obtain ⟨rfl, hbytes⟩ := hcarries _ rfl
    exact ⟨rfl, hbytes⟩
  | false =>
    obtain ⟨encoded, frame, hc, hencoded, hframes, hcarries⟩ := hI.content
    obtain ⟨rfl, rfl⟩ := hcarries _ rfl
    obtain ⟨rfl, hzero⟩ := hencoded
    -- the first turn that finds a session: nobody has the buffer
    refine ⟨rfl, ⟨true, spec.encode packet.bytes, ?_, ⟨rfl, ?_⟩, fun i p hp => ?_, ?_⟩,
      hI.progress, hI.found_kept hkeeps, fun i => ?_⟩
    · obtain ⟨x, hx, hcontent⟩ := Option.map_eq_some_iff.mp hc
      have hbytes : x.bytes = packet.bytes := congrArg Prod.snd hcontent
      show Option.map _ (s.buffers.modify buffer (PooledBuffer.encode spec))[buffer]? = _
      rw [List.getElem?_modify, hx]
      simp [PooledBuffer.encode, hbytes]
    · show w.encodes + 1 = 1
      rw [hzero]
    · rw [hsame] at hp
      exact Bool.noConfusion (hframes i p hp).1
    · rintro _ ⟨⟩
      exact ⟨rfl, rfl⟩
    · rw [hsame]
      exact hI.counted i

/-- `Enqueue`: one copy more, and none on its way. -/
theorem Broadcasting.enqueue {session origin : Nat} {isEncoded : Bool} {packet : NetBuffer}
    {sessionIdList : List UInt64}
    (hI : Broadcasting spec bytes buffer s w (some (.send
      ⟨session, origin, .sendPacket .enqueue isEncoded packet⟩ buffer (some sessionIdList))))
    (hH : HandedOver s (l ++ .send
      ⟨session, origin, .sendPacket .enqueue isEncoded packet⟩ buffer (some sessionIdList) :: r))
    (hnamed : s.server.Named)
    (h : execBuffer spec numOfWorkerThread (.send
      ⟨session, origin, .sendPacket .enqueue isEncoded packet⟩ buffer (some sessionIdList)) o s =
        some (s', pc')) :
    pc'.buffer = some buffer ∧ Broadcasting spec bytes buffer s' w (some pc') := by
  have hcopies := (execBuffer_copies h (forall_mem_place.mp hH.inPlace).2.1).1
  have hkeeps := (execBuffer_effect h).keeps hnamed
  obtain ⟨⟨g', t'⟩, hexec, heq⟩ := Option.map_eq_some_iff.mp h
  cases heq
  obtain rfl := RioTestServer.exec_toSendPost hexec
  have hnew := hcopies.copies_enqueued hH rfl rfl rfl buffer
  obtain ⟨encoded, frame, hc, hencoded, hframes, hcarries⟩ := hI.content
  obtain ⟨rfl, rfl⟩ := hcarries _ rfl
  refine ⟨rfl, ⟨true, packet.bytes, hc, hencoded, fun i p hp => ?_, ?_⟩, hI.progress,
    hI.found_kept hkeeps, fun i => ?_⟩
  · rw [hnew] at hp
    split at hp
    · rcases List.mem_append.mp hp with hp | hp
      · exact hframes i p hp
      · rw [List.mem_singleton.mp hp]
        exact ⟨rfl, rfl⟩
    · exact hframes i p hp
  · rintro _ ⟨⟩
    trivial
  · rw [hnew, ← hI.counted i]
    by_cases hi : i = session
    · subst hi
      simp [offered, BufferPc.offers, BufferPc.carries, Pc.inHand]
    · have hi' : session ≠ i := fun heq => hi heq.symm
      simp [offered, BufferPc.offers, BufferPc.carries, Pc.inHand, hi, hi']

/-- The end: `Free`. -/
theorem Broadcasting.free (hI : Broadcasting spec bytes buffer s w (some (.broadcast buffer [])))
    (h : execBuffer spec numOfWorkerThread (.broadcast buffer []) o s = some (s', pc')) :
    pc'.buffer = none ∧ Broadcasting spec bytes buffer s' w none := by
  cases h
  refine ⟨rfl, hI.quiet ?_ (fun _ => rfl) (.refl _) rfl rfl ?_ hI.progress fun _ => rfl⟩
  · show Option.map _ (s.buffers.modify buffer PooledBuffer.free)[buffer]? = s.content buffer
    rw [List.getElem?_modify, BufferServer.content]
    cases s.buffers[buffer]? with
    | none => rfl
    | some x => simp [PooledBuffer.free]
  · rintro _ _ _ _ _ ⟨⟩

/-- One step of the broadcast's thread. -/
theorem Broadcasting.step (hI : Broadcasting spec bytes buffer s w (some pc))
    (hb : pc.buffer = some buffer) (hH : HandedOver s (l ++ pc :: r)) (hnamed : s.server.Named)
    (h : execBuffer spec numOfWorkerThread pc o s = some (s', pc')) :
    (pc'.buffer = some buffer ∧ Broadcasting spec bytes buffer s' (w.record s pc) (some pc')) ∨
      (pc'.buffer = none ∧ Broadcasting spec bytes buffer s' (w.record s pc) none) := by
  cases pc with
  | server _ | finished => cases hb
  | snapshot b =>
    cases hb
    exact .inl (hI.snapshot h)
  | broadcast b sessionIdList =>
    cases hb
    cases sessionIdList with
    | nil => exact .inr (hI.free h)
    | cons sessionId sessionIdList => exact .inl (hI.turn hnamed h)
  | handOver session andDisconnect b rest =>
    cases hb
    cases rest with
    | none => exact hI.progress.elim
    | some sessionIdList =>
      obtain ⟨-, rfl⟩ : w.Remaining sessionIdList ∧ andDisconnect = false := hI.progress
      exact .inl (hI.handOver hH hnamed h)
  | send t b rest =>
    cases hb
    cases rest with
    | none => exact hI.progress.elim
    | some sessionIdList =>
      left
      obtain ⟨session, origin, pc⟩ := t
      cases hhand : pc.inHand with
      | none => exact hI.sendPost hH hnamed hhand h
      | some packet =>
        cases pc with
        | sendPacket q isEncoded packet =>
          cases q with
          | encode => exact hI.encode hH hnamed h
          | enqueue => exact hI.enqueue hH hnamed h
          | setSendDisconnect =>
            obtain ⟨_, _, -, -, -, hcarries⟩ := hI.content
            exact (hcarries _ rfl).elim
          | getSession | isReleasedSession => cases hhand
        | _ => cases hhand

end

/-! ## Every broadcast -/

/-- Every buffer to which a broadcast wrote its packet has the broadcast's
thread, or the broadcast has ended. -/
def Delivering (spec : NetBufferSpec) (s : WatchedServer) (ts : List BufferPc) : Prop :=
  ∀ buffer bytes, (s.broadcasts buffer).packet = some bytes →
    ∃ holder, ts.filter (fun pc => pc.buffer = some buffer) = Option.toList holder ∧
      Broadcasting spec bytes buffer s.toBufferServer (s.broadcasts buffer) holder

section

variable {s s' : WatchedServer} {l r ts : List BufferPc} {pc pc' : BufferPc} {o : BufferOracle}

/-- What was written stays recorded. -/
theorem Broadcast.record_packet (w : Broadcast) (s : BufferServer) (pc : BufferPc) :
    (w.record s pc).packet = w.packet := by
  fun_cases Broadcast.record s pc w <;> rfl

theorem exec_delivering (hI : Delivering spec s (l ++ pc :: r))
    (hH : HandedOver s.toBufferServer (l ++ pc :: r)) (hnamed : s.server.Named)
    (h : execWatched spec numOfWorkerThread pc o s = some (s', pc')) :
    Delivering spec s' (l ++ pc' :: r) := by
  obtain ⟨g', hexec, rfl⟩ := execWatched_eq_some h
  intro buffer bytes hpacket
  by_cases hb : pc.buffer = some buffer
  · -- the broadcast's own step: no other thread has its buffer
    have hrecord := record_of_eq (s := s) hb
    change (s.record pc buffer).packet = some bytes at hpacket
    rw [hrecord, Broadcast.record_packet] at hpacket
    obtain ⟨holder, hholder, hbroadcast⟩ := hI buffer bytes hpacket
    rw [List.filter_append, List.filter_cons_of_pos (by simpa using hb)] at hholder
    obtain ⟨hl, hpc, hr⟩ : l.filter (fun pc => pc.buffer = some buffer) = [] ∧
        holder = some pc ∧ r.filter (fun pc => pc.buffer = some buffer) = [] := by
      cases holder with
      | none => simp at hholder
      | some q =>
        cases hl : l.filter (fun pc => pc.buffer = some buffer) with
        | nil =>
          rw [hl] at hholder
          simp_all
        | cons _ _ =>
          rw [hl] at hholder
          simp at hholder
    subst hpc
    rw [show (WatchedServer.mk g' (s.record pc)).broadcasts buffer = _ from hrecord]
    rcases hbroadcast.step hb hH hnamed hexec with ⟨hb', hbroadcast'⟩ | ⟨hb', hbroadcast'⟩
    · refine ⟨some pc', ?_, hbroadcast'⟩
      rw [List.filter_append, List.filter_cons_of_pos (by simpa using hb'), hl, hr]
      rfl
    · refine ⟨none, ?_, hbroadcast'⟩
      rw [List.filter_append, List.filter_cons_of_neg (by simp [hb']), hl, hr]
      rfl
  · have hrecord := record_of_ne (s := s) hb
    change (s.record pc buffer).packet = some bytes at hpacket
    rw [hrecord] at hpacket
    obtain ⟨holder, hholder, hbroadcast⟩ := hI buffer bytes hpacket
    rw [show (WatchedServer.mk g' (s.record pc)).broadcasts buffer = _ from hrecord]
    refine ⟨holder, ?_, hbroadcast.other hH hnamed hb hexec⟩
    have hb' : pc'.buffer ≠ some buffer := by
      rcases (execBuffer_effect hexec).buffer_or with hsame | hnone
      · rw [hsame]
        exact hb
      · rw [hnone]
        exact (Option.some_ne_none buffer).symm
    rw [← hholder, List.filter_append, List.filter_append,
      List.filter_cons_of_neg (by simpa using hb'), List.filter_cons_of_neg (by simpa using hb)]

/-- A new buffer has no copies. -/
theorem HandedOver.copies_length {s : BufferServer} (hH : HandedOver s ts) (session : Nat) :
    s.copies s.buffers.length session = [] := by
  unfold BufferServer.copies
  cases s.server.sessions[session]? with
  | none => rfl
  | some e =>
    refine List.filter_eq_nil_iff.mpr fun p _ hin => ?_
    exact Nat.lt_irrefl _ (hH.known session p.serial _ (of_decide_eq_true hin)).1

/-- An event keeps the published sessions. -/
theorem spawnBuffer_keeps {ev : BufferEvent} {s s' : BufferServer} (hnamed : s.server.Named)
    (h : spawnBuffer numOfWorkerThread ev s = some (s', pc)) : s.server.Keeps s'.server := by
  rcases spawnBuffer_cases h with ⟨ev', g', t, hspawn, rfl, -⟩ | ⟨_, _, -, rfl, -⟩
  · exact (RioTestServer.spawn_named hnamed hspawn).2
  · exact .refl _

/-- A broadcast starts. -/
theorem Broadcasting.start {s s' : BufferServer} {bytes : List UInt8} (hH : HandedOver s ts)
    (h : spawnBuffer numOfWorkerThread (.broadcastToAllSession bytes) s = some (s', pc)) :
    pc.buffer = some s.buffers.length ∧
      Broadcasting spec bytes s.buffers.length s' { Broadcast.none with packet := some bytes }
        (some pc) := by
  obtain ⟨hsends, hhanded, -⟩ := spawnBuffer_sends h
  have hcopies : ∀ session, s'.copies s.buffers.length session = [] := fun session =>
    (copies_kept hsends hhanded _ _).trans (hH.copies_length session)
  cases h
  refine ⟨rfl, ⟨false, bytes, ?_, ⟨rfl, rfl⟩, fun session p hp => ?_, ?_⟩, ⟨rfl, rfl⟩,
    fun sessionId session hin => ?_, fun session => ?_⟩
  · exact congrArg (Option.map _) List.getElem?_concat_length
  · rw [hcopies] at hp
    cases hp
  · rintro _ ⟨⟩
    trivial
  · cases hin
  · rw [hcopies]
    rfl

theorem event_delivering {ev : BufferEvent} (hI : Delivering spec s ts)
    (hH : HandedOver s.toBufferServer ts) (hnamed : s.server.Named)
    (h : spawnWatched numOfWorkerThread ev s = some (s', pc)) :
    Delivering spec s' (ts ++ [pc]) := by
  obtain ⟨g', hspawn, rfl⟩ := spawnWatched_eq_some h
  intro buffer bytes hpacket
  by_cases hnew : buffer = s.buffers.length ∧ ∃ bytes, ev = .broadcastToAllSession bytes
  · -- its first step is to come, and the buffer was nobody's
    obtain ⟨rfl, bytes', rfl⟩ := hnew
    have hstart : s.start (.broadcastToAllSession bytes') s.buffers.length =
        { Broadcast.none with packet := some bytes' } := Function.update_self ..
    obtain ⟨hb, hbroadcast⟩ : _ ∧ Broadcasting spec bytes' _ g' _ _ :=
      Broadcasting.start hH hspawn
    change (s.start (.broadcastToAllSession bytes') s.buffers.length).packet = some bytes at hpacket
    rw [hstart] at hpacket
    cases hpacket
    refine ⟨some pc, ?_, ?_⟩
    · have hts : ts.filter (fun pc => pc.buffer = some s.buffers.length) = [] := by
        refine List.filter_eq_nil_iff.mpr fun q hq hqb => ?_
        exact Nat.lt_irrefl _ (hH.allocated q hq _ (of_decide_eq_true hqb))
      rw [List.filter_append, hts, List.filter_cons_of_pos (by simpa using hb)]
      rfl
    · rw [show (WatchedServer.mk g' (s.start _)).broadcasts s.buffers.length = _ from hstart]
      exact hbroadcast
  · have hsame : s.start ev buffer = s.broadcasts buffer := by
      cases ev with
      | broadcastToAllSession bytes' =>
        refine Function.update_of_ne ?_ _ _
        rintro rfl
        exact hnew ⟨rfl, bytes', rfl⟩
      | _ => rfl
    change (s.start ev buffer).packet = some bytes at hpacket
    rw [hsame] at hpacket
    obtain ⟨holder, hholder, hbroadcast⟩ := hI buffer bytes hpacket
    rw [show (WatchedServer.mk g' (s.start ev)).broadcasts buffer = _ from hsame]
    obtain ⟨hsends, hhanded, -, -, hbuffers⟩ := spawnBuffer_sends hspawn
    have hlt : buffer < s.buffers.length := by
      obtain ⟨_, _, hc, -⟩ := hbroadcast.content
      obtain ⟨x, hx, -⟩ := Option.map_eq_some_iff.mp hc
      exact (List.getElem?_eq_some_iff.mp hx).1
    have hother : pc.buffer ≠ some buffer ∧ g'.content buffer = s.content buffer := by
      unfold BufferServer.content
      rcases hbuffers with ⟨hbuffers, hnone⟩ | ⟨x, hbuffers, hsome⟩
      · rw [hnone, hbuffers]
        exact ⟨(Option.some_ne_none buffer).symm, rfl⟩
      · rw [hsome, hbuffers, List.getElem?_append_left hlt]
        exact ⟨fun heq => Nat.ne_of_gt hlt (Option.some.inj heq), rfl⟩
    refine ⟨holder, ?_, hbroadcast.quiet hother.2 (copies_kept hsends hhanded buffer)
      (spawnBuffer_keeps hnamed hspawn) rfl rfl (fun _ _ _ => id) hbroadcast.progress
      fun _ => rfl⟩
    rw [List.filter_append, List.filter_cons_of_neg (by simpa using hother.1), List.filter_nil,
      List.append_nil]
    exact hholder

/-- **Every broadcast gets on**, in every reachable state. -/
theorem delivering {c : Config WatchedServer BufferPc}
    (h : (watchedServer spec numOfWorkerThread).Reachable watchedServer.init c) :
    Delivering spec c.shared c.threads := by
  refine Run.induct h ?_ ?_ ?_
  · intro buffer bytes hpacket
    cases hpacket
  · intro s l pc r o s' pc' hrun hI _ hexec
    have hbelow := unwatched hrun
    exact exec_delivering hI (handedOver hbelow) (simulated hbelow).named hexec
  · intro s ts ev s' pc hrun hI hspawn
    have hbelow := unwatched hrun
    exact event_delivering hI (handedOver hbelow) (simulated hbelow).named hspawn

/-! ## What is delivered -/

/-- Every value has one key: it occurs once, or not at all. -/
theorem countP_snd {α β : Type} [DecidableEq β] {l : List (α × Option β)} {b : β}
    (hnodup : (l.map Prod.fst).Nodup)
    (hkey : ∀ a a', (a, some b) ∈ l → (a', some b) ∈ l → a = a') :
    l.countP (fun x => x.2 = some b) = if some b ∈ l.map Prod.snd then 1 else 0 := by
  induction l with
  | nil => rfl
  | cons x l ih =>
    obtain ⟨a, b'⟩ := x
    obtain ⟨hfresh, hnodup'⟩ := List.nodup_cons.mp hnodup
    have ih := ih hnodup' fun a a' ha ha' =>
      hkey a a' (List.mem_cons_of_mem _ ha) (List.mem_cons_of_mem _ ha')
    by_cases hb : b' = some b
    · -- a second one would have the same key
      subst hb
      have hnot : some b ∉ l.map Prod.snd := by
        intro hin
        obtain ⟨⟨a', _⟩, hin', rfl⟩ := List.mem_map.mp hin
        have heq := hkey a a' List.mem_cons_self (List.mem_cons_of_mem _ hin')
        exact hfresh (List.mem_map.mpr ⟨_, hin', heq.symm⟩)
      rw [if_neg hnot] at ih
      rw [List.countP_cons_of_pos (by simp), ih]
      exact (if_pos List.mem_cons_self).symm
    · have hb' : ¬some b = b' := fun heq => hb heq.symm
      rw [List.countP_cons_of_neg (by simpa using hb), ih]
      refine if_congr ?_ rfl rfl
      rw [List.map_cons, List.mem_cons]
      exact (or_iff_right hb').symm

theorem Broadcast.Progress.turns {w : Broadcast} {holder : Option BufferPc}
    (h : w.Progress holder) :
    (w.snapshot = .none ∧ w.turns = []) ∨ ∃ sessionIdList, w.Remaining sessionIdList := by
  revert h
  fun_cases Broadcast.Progress w holder <;> intro h
  case case1 => exact .inl h
  case case4 => exact .inr ⟨_, h.1⟩
  case case6 => exact h.elim
  all_goals exact .inr ⟨_, h⟩

/-- The turns that found a session are as many as it has copies. -/
theorem Broadcasting.once {s : BufferServer} {w : Broadcast} {bytes : List UInt8} {buffer : Nat}
    {holder : Option BufferPc} (hI : Broadcasting spec bytes buffer s w holder) (session : Nat) :
    (s.copies buffer session).length + offered holder session =
      if some session ∈ w.turns.map Prod.snd then 1 else 0 := by
  rw [hI.counted session]
  have hnodup : (w.turns.map Prod.fst).Nodup := by
    rcases hI.progress.turns with ⟨-, hnil⟩ | ⟨_, _, -, hnodup, -⟩
    · rw [hnil]
      exact List.nodup_nil
    · exact (List.nodup_append'.mp hnodup).1
  refine countP_snd hnodup fun id id' hid hid' => ?_
  obtain ⟨e, he, rfl, -⟩ := hI.found id session hid
  obtain ⟨e', he', rfl, -⟩ := hI.found id' session hid'
  rw [he] at he'
  cases he'
  rfl

/-- What is pending is what the broadcast's thread offers. -/
theorem pending_eq {buffer : Nat} {holder : Option BufferPc}
    (h : ts.filter (fun pc => pc.buffer = some buffer) = holder.toList) (session : Nat) :
    pending buffer session ts = offered holder session := by
  have hfilter : pending buffer session ts =
      (ts.filter fun pc => pc.buffer = some buffer).countP fun pc => pc.offers = some session := by
    rw [List.countP_filter, pending]
    refine List.countP_congr fun pc _ => ?_
    simp [and_comm]
  rw [hfilter, h]
  cases holder with
  | none => rfl
  | some pc =>
    by_cases hpc : pc.offers = some session
    · simp [offered, hpc]
    · simp [offered, hpc]

/-- The session that is up takes packets. -/
theorem Broadcasting.published_of_offers {s : BufferServer} {w : Broadcast} {bytes : List UInt8}
    {buffer session : Nat} (hI : Broadcasting spec bytes buffer s w (some pc))
    (hoffers : pc.offers = some session) :
    ∃ e, s.server.sessions[session]? = some e ∧ e.state.published = true := by
  have hone : offered (some pc) session = 1 := if_pos hoffers
  have hcounted := hI.counted session
  rw [hone] at hcounted
  have hpos : 0 < w.turns.countP fun turn => turn.2 = some session := by omega
  obtain ⟨⟨id, found⟩, hin, hfound⟩ := List.countP_pos_iff.mp hpos
  obtain rfl : found = some session := of_decide_eq_true hfound
  obtain ⟨e, he, -, hpub⟩ := hI.found id session hin
  exact ⟨e, he, hpub⟩

/-- A sender with a packet in hand goes on. -/
theorem RioTestServer.exec_of_inHand {g : RioTestServer} {t : Thread} {o : Oracle} {e : Entry}
    {packet : NetBuffer} (hhand : t.pc.inHand = some packet)
    (he : g.sessions[t.session]? = some e) : (exec spec t o g).isSome = true := by
  obtain ⟨session, origin, pc⟩ := t
  cases pc with
  | sendPacket q isEncoded packet =>
    cases q with
    | setSendDisconnect | enqueue =>
      rw [exec, show target ⟨session, origin, _⟩ = session from rfl, he]
      rfl
    | encode =>
      rw [exec, show target ⟨session, origin, _⟩ = session from rfl, he]
      cases isEncoded <;> rfl
    | getSession | isReleasedSession => cases hhand
  | _ => cases hhand

/-- Whoever has the packet for a session is not kept from enqueueing it. -/
theorem Broadcasting.goesOn {s : BufferServer} {w : Broadcast} {bytes : List UInt8}
    {buffer session : Nat} {o : BufferOracle} (hI : Broadcasting spec bytes buffer s w (some pc))
    (hb : pc.buffer = some buffer) (hoffers : pc.offers = some session) :
    (execBuffer spec numOfWorkerThread pc o s).isSome = true := by
  obtain ⟨e, he, hpub⟩ := hI.published_of_offers hoffers
  cases pc with
  | handOver i andDisconnect b rest =>
    cases hb
    cases hoffers
    cases rest with
    | none => exact hI.progress.elim
    | some sessionIdList =>
      obtain ⟨-, rfl⟩ : w.Remaining sessionIdList ∧ andDisconnect = false := hI.progress
      obtain ⟨_, _, hc, -⟩ := hI.content
      obtain ⟨x, hx, -⟩ := Option.map_eq_some_iff.mp hc
      have hview : (s.server.view e e.sessionId).published = true := hpub
      simp [execBuffer, he, hx, RioTestServer.spawn, RioTestServer.canHappen, handOverEvent, spawn,
        hview]
  | send t b rest =>
    cases hhand : t.pc.inHand with
    | none =>
      rw [BufferPc.offers_of_none hhand] at hoffers
      cases hoffers
    | some packet =>
      have hsession : t.session = session :=
        Option.some.inj ((BufferPc.offers_of_some hhand).symm.trans hoffers)
      have hunfinished : t.pc ≠ .finished := by
        intro heq
        rw [heq] at hhand
        cases hhand
      simp only [execBuffer, if_neg hunfinished, Option.isSome_map]
      exact RioTestServer.exec_of_inHand hhand (hsession ▸ he)
  | _ => cases hoffers

/-- A turn waits for the lock of `sessionMap` and for nothing else. -/
theorem RioTestServer.Named.broadcast_goesOn {s : BufferServer} {o : BufferOracle}
    (hnamed : s.server.Named) (hlock : s.server.sessionMapLocked = false) (buffer : Nat)
    (sessionIdList : List UInt64) :
    (execBuffer spec numOfWorkerThread (.broadcast buffer sessionIdList) o s).isSome = true := by
  cases sessionIdList with
  | nil => rfl
  | cons sessionId sessionIdList =>
    cases hfind : s.server.sessionMap.find sessionId with
    | none => simp [execBuffer, hlock, hfind]
    | some i =>
      obtain ⟨e, he, -⟩ := hnamed.found sessionId i hfind
      simp [execBuffer, hlock, hfind, he, hnamed.unreleased i e he]

/-- **A broadcast is delivered once**: in every reachable state, a session that
`sessionMap` had for the id of a turn has the packet once or is about to get it,
no other session has it, the turns are those of the snapshot, and the buffer was
encoded at most once, before all copies. -/
theorem broadcast_delivered {c : Config WatchedServer BufferPc}
    (h : (watchedServer spec numOfWorkerThread).Reachable watchedServer.init c) {buffer : Nat}
    {bytes : List UInt8} (hpacket : (c.shared.broadcasts buffer).packet = some bytes) :
    Delivered spec numOfWorkerThread bytes buffer c.shared c.threads := by
  obtain ⟨holder, hholder, hI⟩ := delivering h buffer bytes hpacket
  have hnamed := (simulated (unwatched h)).named
  obtain ⟨isEncoded, frame, hc, hencoded, hframes, -⟩ := hI.content
  refine ⟨hI.progress.turns, fun hnobody => ?_, fun session => ?_, fun pc hpc hb hoffers o => ?_,
    fun sessionIdList _ hlock o => hnamed.broadcast_goesOn hlock buffer sessionIdList, ?_,
    fun session p hp => ?_⟩
  · have hnone : c.threads.filter (fun pc => pc.buffer = some buffer) = [] :=
      List.filter_eq_nil_iff.mpr fun pc hpc => by simpa using hnobody pc hpc
    rw [hnone] at hholder
    cases holder with
    | none => exact hI.progress
    | some pc => cases hholder
  · rw [pending_eq hholder]
    exact hI.once session
  · have hin : pc ∈ holder.toList := hholder ▸ List.mem_filter.mpr ⟨hpc, by simpa using hb⟩
    obtain rfl := Option.mem_toList.mp hin
    obtain ⟨session, hsession⟩ := Option.isSome_iff_exists.mp hoffers
    exact hI.goesOn hb hsession
  · split at hencoded
    · exact hencoded.2.le
    · rw [hencoded.2]
      exact Nat.zero_le 1
  · obtain ⟨rfl, hbytes⟩ := hframes session p hp
    obtain ⟨rfl, -⟩ := hencoded
    obtain ⟨x, hx, hcontent⟩ := Option.map_eq_some_iff.mp hc
    refine ⟨hbytes, ?_⟩
    rw [hx]
    exact congrArg some (congrArg Prod.snd hcontent)

/-- Two sessions, one after the other, and the buffer encoded for the first. -/
theorem broadcast_delivered_twice :
    ∃ c : Config WatchedServer BufferPc,
      (c.shared.broadcasts 0).turns = [(2, some 0), (3, some 1)] ∧
      (∀ pc ∈ c.threads, pc.buffer ≠ some 0) ∧
      Delivered plainSpec 1 [1, 2] 0 c.shared c.threads := by
  obtain ⟨c, hrun, hturns, hended, hpacket⟩ := exists_run (watchedServer plainSpec 1) unguarded
    watchedServer.init
    (bufferServer.connected ++ .event (.accept 0) :: List.replicate 10 (.run 1 ⟨⟨true, 1⟩, []⟩) ++
      .event (.broadcastToAllSession [1, 2]) :: List.replicate 12 (.run 2 ⟨⟨true, 2⟩, [2, 3]⟩) ++
      List.replicate 12 (.run 2 ⟨⟨true, 3⟩, []⟩))
    (P := fun c => (c.shared.broadcasts 0).turns = [(2, some 0), (3, some 1)] ∧
      (∀ pc ∈ c.threads, pc.buffer ≠ some 0) ∧ (c.shared.broadcasts 0).packet = some [1, 2])
    (by decide +kernel)
  exact ⟨c, hturns, hended, broadcast_delivered hrun hpacket⟩

end

end RioServer
