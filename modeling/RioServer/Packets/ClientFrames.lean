import RioServer.Lib.Interleaving
import RioServer.Packets.PacketManager

/-!
# What the clients are sent (RIOTestSession.cpp, Broadcaster.cpp, ProcedureReplyHandler.cpp:45)

A client reads a `PacketId` and then the fields of that id. Four senders
assemble payloads by hand: `SendPacket` and `SendPacketAndDisconnect` of a
packet object, `BroadcastToAllSession`, and `AssemblePacket` for the result of a
DB select. `senders` puts any number of their calls together, with sessions
that come and go.

The first three write `GetPacketId()` and then the packet. `AssemblePacket`
writes the two lists and no id, although `PACKET_ID` has one for this reply, so
the client takes the head of the first list for an id (`forwarded_unreadable`).
`frames_readable` says that this is the only sender that goes wrong.

`Encode` turns the payload of a buffer into a frame; what it does to the bytes
is not looked at here, only that it is not done twice.
-/

namespace RioServer.Packets

open Machine

/-! ## Messages and buffers -/

/-- What a client is to get out of a frame. -/
structure ClientMessage where
  packetId : PacketId
  fields : List FieldType
  values : Fields fields

/-- The message of a packet object. -/
def PacketObject.message (packet : PacketObject) : ClientMessage :=
  ⟨packet.type.packetId.toPacketId, packet.type.fields, packet.values⟩

/-- The result of a DB select: `noList`, `testStringList`, under the id that
`PACKET_ID` keeps for the reply to the client. -/
def selectResult (noList : List Int32) (testStringList : List (List UInt8)) : ClientMessage :=
  ⟨PacketIdEnum.callSelectTest2ProcedurePacketReply.toPacketId, [.intList, .stringList],
    (noList, testStringList, ())⟩

/-- A `NetBuffer` on its way to a client: the payload that was written, whether
it `m_bIsEncoded`, and a record of the message that it is for. -/
structure SendBuffer where
  payload : List UInt8
  isEncoded : Bool
  message : ClientMessage

/-- `Encode`, unless it was done before (RIOTestServer.cpp:647). -/
def SendBuffer.encode (buffer : SendBuffer) : SendBuffer :=
  if buffer.isEncoded then buffer else { buffer with isEncoded := true }

/-! ## The senders -/

/-- The sessions in `sessionMap` and `sessionIdSet`, those that were told to
disconnect, and what was queued for which session, in order. -/
structure ClientSessions where
  sessionMap : List UInt64
  sessionIdSet : List UInt64
  sendDisconnect : List UInt64
  queued : List (UInt64 × SendBuffer)

def ClientSessions.initial : ClientSessions := ⟨[], [], [], []⟩

/-- Where a sender stands. `enqueue` is `RIOTestServer::SendPacket` on one
session; a broadcast goes on to the rest of its list. -/
inductive SenderPc where
  | sendPacket (sessionId : UInt64) (packet : PacketObject)
  | sendPacketAndDisconnect (sessionId : UInt64) (packet : PacketObject)
  | broadcastToAllSession (packet : PacketObject)
  | broadcast (sessionIdList : List UInt64) (buffer : SendBuffer)
  | broadcastEnqueue (sessionId : UInt64) (sessionIdList : List UInt64) (buffer : SendBuffer)
  | assemblePacket (recvPacket : List UInt8)
  | enqueue (sessionId : UInt64) (buffer : SendBuffer)
  | finished

section

variable (codec : Codec)

/-- `*buffer << packet.GetPacketId(); packet.PacketToBuffer(*buffer)`
(RIOTestSession.cpp:61, Broadcaster.cpp:21). -/
def packetBuffer (packet : PacketObject) : SendBuffer where
  payload := (codec .uint32).put packet.type.packetId.toPacketId ++
    packet.type.packetToBuffer codec packet.values
  isEncoded := false
  message := packet.message

/-- `*sendBuffer << noList << testStringList` (ProcedureReplyHandler.cpp:64). -/
def selectResultBuffer (noList : List Int32) (testStringList : List (List UInt8)) :
    SendBuffer where
  payload := (codec .intList).put noList ++ (codec .stringList).put testStringList
  isEncoded := false
  message := selectResult noList testStringList

/-- `RIOTestServer::SendPacket` up to its `SendPost` (RIOTestServer.cpp:645): the
encoded buffer, and the sessions with it queued. -/
def sendBuffer (sessionId : UInt64) (buffer : SendBuffer) (s : ClientSessions) :
    SendBuffer × ClientSessions :=
  (buffer.encode, { s with queued := s.queued ++ [(sessionId, buffer.encode)] })

/-- `recvPacket >> ownerSessionId`. -/
def readSessionId (recvPacket : List UInt8) : UInt64 × List UInt8 := (codec .uint64).get recvPacket

/-- One action of a sender; the oracle says whether `NetBuffer::Alloc` returns
an object. -/
def execSender : SenderPc → Bool → ClientSessions → Option (ClientSessions × SenderPc)
  -- RIOTestSession.cpp:52
  | .sendPacket sessionId packet, alloc, s =>
    if alloc then some (s, .enqueue sessionId (packetBuffer codec packet))
    else some (s, .finished)
  -- RIOTestSession.cpp:72
  | .sendPacketAndDisconnect sessionId packet, alloc, s =>
    let s := { s with sendDisconnect := sessionId :: s.sendDisconnect }
    if alloc then some (s, .enqueue sessionId (packetBuffer codec packet))
    else some (s, .finished)
  -- Broadcaster.cpp:11; `AddRefCount` comes before the test for a null pointer
  | .broadcastToAllSession packet, alloc, s =>
    if alloc then some (s, .broadcast s.sessionIdSet (packetBuffer codec packet)) else none
  | .broadcast [] _, _, s => some (s, .finished)
  | .broadcast (sessionId :: sessionIdList) buffer, _, s =>
    if sessionId ∈ s.sessionMap then some (s, .broadcastEnqueue sessionId sessionIdList buffer)
    else some (s, .broadcast sessionIdList buffer)
  | .broadcastEnqueue sessionId sessionIdList buffer, _, s =>
    let (buffer, s) := sendBuffer sessionId buffer s
    some (s, .broadcast sessionIdList buffer)
  -- ProcedureReplyHandler.cpp:45
  | .assemblePacket recvPacket, alloc, s =>
    let (ownerSessionId, recvPacket) := readSessionId codec recvPacket
    if ownerSessionId ∈ s.sessionMap then
      let (noList, recvPacket) := (codec .intList).get recvPacket
      let (testStringList, _) := (codec .stringList).get recvPacket
      if alloc then
        some (s, .enqueue ownerSessionId (selectResultBuffer codec noList testStringList))
      else none
    else some (s, .finished)
  | .enqueue sessionId buffer, _, s => some ((sendBuffer sessionId buffer s).2, .finished)
  | .finished, _, _ => none

/-- A sender is called, or a session enters or leaves. -/
inductive SenderEvent where
  | sendPacket (sessionId : UInt64) (packet : PacketObject)
  | sendPacketAndDisconnect (sessionId : UInt64) (packet : PacketObject)
  | broadcastToAllSession (packet : PacketObject)
  | assemblePacket (recvPacket : List UInt8)
  | entered (sessionId : UInt64)
  | leaved (sessionId : UInt64)

def spawnSender : SenderEvent → ClientSessions → Option (ClientSessions × SenderPc)
  | .sendPacket sessionId packet, s => some (s, .sendPacket sessionId packet)
  | .sendPacketAndDisconnect sessionId packet, s =>
    some (s, .sendPacketAndDisconnect sessionId packet)
  | .broadcastToAllSession packet, s => some (s, .broadcastToAllSession packet)
  | .assemblePacket recvPacket, s => some (s, .assemblePacket recvPacket)
  | .entered sessionId, s =>
    some ({ s with
      sessionMap := s.sessionMap.insert sessionId
      sessionIdSet := s.sessionIdSet.insert sessionId }, .finished)
  | .leaved sessionId, s =>
    some ({ s with
      sessionMap := s.sessionMap.erase sessionId
      sessionIdSet := s.sessionIdSet.erase sessionId }, .finished)

/-- The senders, in any number and order. -/
def senders : Machine ClientSessions SenderPc Bool SenderEvent := ⟨execSender codec, spawnSender⟩

def senders.init : Config ClientSessions SenderPc := ⟨.initial, []⟩

/-! ## What a client reads -/

/-- A payload is the message's id, in four bytes, and the fields of that id, and
a client that reads the one and then the others has the message. -/
structure Readable (buffer : SendBuffer) : Prop where
  layout : buffer.payload = (codec .uint32).put buffer.message.packetId ++
    (codec.parameters buffer.message.fields).put buffer.message.values
  idLength : ((codec .uint32).put buffer.message.packetId).length = 4
  read : ∃ rest, (codec .uint32).get buffer.payload = (buffer.message.packetId, rest) ∧
    (codec.parameters buffer.message.fields).get rest = (buffer.message.values, [])

/-- **The exact exception**: no `AssemblePacket` finds the session that a select
result is for. -/
def NotForwarded : Guard ClientSessions SenderPc Bool := fun pc _ s _ =>
  match pc with
  | .assemblePacket recvPacket => (readSessionId codec recvPacket).1 ∉ s.sessionMap
  | _ => True

instance (pc : SenderPc) (o : Bool) (s : ClientSessions) (ts : List SenderPc) :
    Decidable (NotForwarded codec pc o s ts) :=
  match pc with
  | .assemblePacket recvPacket =>
    inferInstanceAs (Decidable ((readSessionId codec recvPacket).1 ∉ s.sessionMap))
  | .sendPacket _ _ | .sendPacketAndDisconnect _ _ | .broadcastToAllSession _ | .broadcast _ _
  | .broadcastEnqueue _ _ _ | .enqueue _ _ | .finished => .isTrue trivial

variable {codec} {s s' : ClientSessions} {pc pc' : SenderPc} {l r : List SenderPc} {o : Bool}

/-- Encoding a buffer leaves its payload to the client. -/
theorem Readable.encode {buffer : SendBuffer} (h : Readable codec buffer) :
    Readable codec buffer.encode := by
  rw [SendBuffer.encode]
  split
  · exact h
  · exact ⟨h.layout, h.idLength, h.read⟩

/-- What `PacketToBuffer` writes for a client are the fields of the packet. -/
theorem packetToBuffer_eq (packet : PacketObject) :
    packet.type.packetToBuffer codec packet.values =
      (codec.parameters packet.type.fields).put packet.values := by
  obtain ⟨⟨⟨packetId, fields, setParameters⟩, hcomplete⟩, values⟩ := packet
  cases setParameters with
  | true => rfl
  | false =>
    obtain rfl : fields = [] := hcomplete.resolve_left Bool.false_ne_true
    rfl

/-- **A packet object is sent readably**, whatever its fields hold. -/
theorem packetBuffer_readable (hid : ∀ id, ((codec .uint32).put id).length = 4)
    (packet : PacketObject) : Readable codec (packetBuffer codec packet) where
  layout := congrArg ((codec .uint32).put packet.type.packetId.toPacketId ++ ·)
    (packetToBuffer_eq packet)
  idLength := hid _
  read := by
    refine ⟨packet.type.packetToBuffer codec packet.values, Wire.get_put _ _ _, ?_⟩
    rw [packetToBuffer_eq, ← List.append_nil ((codec.parameters packet.type.fields).put _)]
    exact Wire.get_put _ packet.values []

/-- **A select result is not**: no id stands in front of the lists, whichever
one a client may expect there. -/
theorem selectResultBuffer_layout (hid : ∀ id, ((codec .uint32).put id).length = 4)
    (noList : List Int32) (testStringList : List (List UInt8)) (id : PacketId) :
    (selectResultBuffer codec noList testStringList).payload ≠
      (codec .uint32).put id ++ (codec.parameters [.intList, .stringList]).put
        (noList, testStringList, ()) := by
  intro h
  have hlen := congrArg List.length h
  have hid := hid id
  simp only [selectResultBuffer, Codec.parameters, Wire.prod, Wire.unit, List.length_append,
    List.length_nil] at hlen
  omega

theorem forwarded_unreadable (hid : ∀ id, ((codec .uint32).put id).length = 4)
    (noList : List Int32) (testStringList : List (List UInt8)) :
    ¬Readable codec (selectResultBuffer codec noList testStringList).encode :=
  fun h => selectResultBuffer_layout hid noList testStringList _ h.layout

/-! ## Every run -/

/-- The buffer that a sender carries. -/
def SenderPc.buffer : SenderPc → Option SendBuffer
  | .broadcast _ buffer | .broadcastEnqueue _ _ buffer | .enqueue _ buffer => some buffer
  | .sendPacket _ _ | .sendPacketAndDisconnect _ _ | .broadcastToAllSession _
  | .assemblePacket _ | .finished => none

/-- All that is queued, and all that is on its way to a queue. -/
structure AllReadable (codec : Codec) (s : ClientSessions) (ts : List SenderPc) : Prop where
  queued : ∀ e ∈ s.queued, Readable codec e.2
  carried : ∀ pc ∈ ts, ∀ buffer ∈ pc.buffer, Readable codec buffer

/-- The acting sender carries something readable, and queues nothing else. -/
theorem AllReadable.place (h : AllReadable codec s (l ++ pc :: r))
    (hqueued : ∀ e ∈ s'.queued, e ∈ s.queued ∨ Readable codec e.2)
    (hpc : ∀ buffer ∈ pc'.buffer, Readable codec buffer) :
    AllReadable codec s' (l ++ pc' :: r) := by
  obtain ⟨hl, -, hr⟩ := forall_mem_place.mp h.carried
  refine ⟨fun e he => ?_, forall_mem_place.mpr ⟨hl, hpc, hr⟩⟩
  rcases hqueued e he with hold | hnew
  · exact h.queued e hold
  · exact hnew

theorem exec_allReadable (hid : ∀ id, ((codec .uint32).put id).length = 4)
    (hI : AllReadable codec s (l ++ pc :: r)) (hG : NotForwarded codec pc o s (l ++ pc :: r))
    (h : execSender codec pc o s = some (s', pc')) : AllReadable codec s' (l ++ pc' :: r) := by
  have hpc := (forall_mem_place.mp hI.carried).2.1
  have hnew : ∀ {buffer : SendBuffer}, Readable codec buffer → ∀ sessionId,
      ∀ e ∈ (sendBuffer sessionId buffer s).2.queued, e ∈ s.queued ∨ Readable codec e.2 := by
    intro buffer hbuffer sessionId e he
    rcases List.mem_append.mp he with he | he
    · exact .inl he
    · rw [List.mem_singleton.mp he]
      exact .inr hbuffer.encode
  have hbuilt : ∀ packet, ∀ buffer ∈ some (packetBuffer codec packet), Readable codec buffer := by
    intro packet buffer hbuffer
    cases hbuffer
    exact packetBuffer_readable hid packet
  have hnone : ∀ buffer ∈ (none : Option SendBuffer), Readable codec buffer := nofun
  cases pc with
  | sendPacket sessionId packet =>
    simp only [execSender] at h
    split at h <;> cases h
    · exact hI.place (fun e => .inl) (hbuilt packet)
    · exact hI.place (fun e => .inl) hnone
  | sendPacketAndDisconnect sessionId packet =>
    simp only [execSender] at h
    split at h <;> cases h
    · exact hI.place (fun e => .inl) (hbuilt packet)
    · exact hI.place (fun e => .inl) hnone
  | broadcastToAllSession packet =>
    simp only [execSender] at h
    split at h <;> cases h
    exact hI.place (fun e => .inl) (hbuilt packet)
  | broadcast sessionIdList buffer =>
    cases sessionIdList with
    | nil =>
      cases h
      exact hI.place (fun e => .inl) hnone
    | cons sessionId sessionIdList =>
      simp only [execSender] at h
      split at h <;> cases h
      · exact hI.place (fun e => .inl) hpc
      · exact hI.place (fun e => .inl) hpc
  | broadcastEnqueue sessionId sessionIdList buffer =>
    cases h
    refine hI.place (hnew (hpc buffer rfl) sessionId) fun buffer' hbuffer => ?_
    cases hbuffer
    exact (hpc buffer rfl).encode
  | assemblePacket recvPacket =>
    simp only [execSender, if_neg hG] at h
    cases h
    exact hI.place (fun e => .inl) hnone
  | enqueue sessionId buffer =>
    cases h
    exact hI.place (hnew (hpc buffer rfl) sessionId) hnone
  | finished => cases h

/-- A new sender carries nothing yet, and sessions that come and go queue
nothing. -/
theorem spawn_allReadable {ts : List SenderPc} {e : SenderEvent} (hI : AllReadable codec s ts)
    (h : spawnSender e s = some (s', pc)) : AllReadable codec s' (ts ++ [pc]) := by
  obtain ⟨hqueued, hpc⟩ : s'.queued = s.queued ∧ pc.buffer = none := by
    cases e <;> cases h <;> exact ⟨rfl, rfl⟩
  refine ⟨?_, forall_mem_spawned.mpr ⟨hI.carried, ?_⟩⟩
  · rw [hqueued]
    exact hI.queued
  · rw [hpc]
    exact nofun

/-- **Every frame is readable, as long as no select result is forwarded.** -/
theorem frames_readable {c : Config ClientSessions SenderPc}
    (hid : ∀ id, ((codec .uint32).put id).length = 4)
    (h : (senders codec).Run (NotForwarded codec) senders.init c) :
    ∀ e ∈ c.shared.queued, Readable codec e.2 := by
  have hI : AllReadable codec c.shared c.threads := by
    refine h.induct (I := AllReadable codec) ⟨nofun, nofun⟩ ?_ ?_
    · exact fun _ hI hG hexec => exec_allReadable hid hI hG hexec
    · exact fun _ hI hspawn => spawn_allReadable hI hspawn
  exact hI.queued

theorem plainCodec_idLength (id : PacketId) : ((plainCodec .uint32).put id).length = 4 := rfl

/-- A packet with two fields for session 7, and a `Ping` for everybody. -/
theorem frames_readable_fields : ∃ c, (senders plainCodec).Run (NotForwarded plainCodec)
    senders.init c ∧
    c.shared.queued.map (fun e => (e.1, e.2.payload)) =
      [(7, [3, 0, 0, 0, 3, 0, 0, 0, 1, 66, 0, 1, 67, 0, 0]), (8, [6, 0, 0, 0]),
        (7, [6, 0, 0, 0])] ∧
    ∀ e ∈ c.shared.queued, Readable plainCodec e.2 := by
  obtain ⟨c, hrun, hqueued⟩ := exists_run (senders plainCodec) (NotForwarded plainCodec)
    senders.init
    [.event (.entered 7), .event (.entered 8),
      .event (.sendPacket 7 ⟨testProcedurePacket, ((3 : Int32), ([66, 67] : List UInt16), ())⟩),
      .run 2 true, .run 2 true, .event (.broadcastToAllSession ⟨ping, ()⟩), .run 3 true,
      .run 3 true, .run 3 true, .run 3 true, .run 3 true]
    (P := fun c => c.shared.queued.map (fun e => (e.1, e.2.payload)) =
      [(7, [3, 0, 0, 0, 3, 0, 0, 0, 1, 66, 0, 1, 67, 0, 0]), (8, [6, 0, 0, 0]),
        (7, [6, 0, 0, 0])]) (by decide +kernel)
  exact ⟨c, hrun, hqueued, frames_readable plainCodec_idLength hrun⟩

/-- The result of a select that found nothing, for session 7: its payload is the
two empty lists and too short for any id. -/
theorem empty_select_unreadable : ∃ c, (senders plainCodec).Reachable senders.init c ∧
    c.shared.queued.map (fun e => e.2.payload) = [[0, 0]] ∧
    ¬∀ e ∈ c.shared.queued, Readable plainCodec e.2 := by
  obtain ⟨c, hrun, hqueued⟩ := exists_run (senders plainCodec) unguarded senders.init
    [.event (.entered 7), .event (.assemblePacket [7, 0, 0, 0, 0, 0, 0, 0, 0, 0]), .run 1 true,
      .run 1 true]
    (P := fun c => c.shared.queued.map (fun e => e.2.payload) = [[0, 0]]) (by decide +kernel)
  refine ⟨c, hrun, hqueued, fun h => ?_⟩
  obtain ⟨e, he⟩ : ∃ e, e ∈ c.shared.queued := by
    cases hc : c.shared.queued with
    | nil => simp [hc] at hqueued
    | cons e _ => exact ⟨e, .head _⟩
  have hpayload : e.2.payload = [0, 0] := by
    have hmem := List.mem_map_of_mem (f := fun e : UInt64 × SendBuffer => e.2.payload) he
    rw [hqueued] at hmem
    exact List.mem_singleton.mp hmem
  have hlayout := congrArg List.length (h e he).layout
  rw [hpayload, List.length_append, (h e he).idLength] at hlayout
  simp only [List.length_cons, List.length_nil] at hlayout
  omega

/-- What goes wrong outside the exception: a select result that finds its
session is queued, and is unreadable there. -/
theorem queued_unreadable_of_forwarded (hid : ∀ id, ((codec .uint32).put id).length = 4)
    {c₀ : Config ClientSessions SenderPc} {recvPacket : List UInt8}
    (hrun : (senders codec).Reachable c₀ ⟨s, l ++ .assemblePacket recvPacket :: r⟩)
    (hfound : ¬NotForwarded codec (.assemblePacket recvPacket) true s
      (l ++ .assemblePacket recvPacket :: r)) :
    ∃ c, (senders codec).Reachable c₀ c ∧ ∃ e ∈ c.shared.queued, ¬Readable codec e.2 := by
  have hfound : (readSessionId codec recvPacket).1 ∈ s.sessionMap := Decidable.not_not.mp hfound
  have hassembled := hrun.place (o := true) trivial (if_pos hfound)
  refine ⟨_, hassembled.place (o := true) trivial rfl, _,
    List.mem_append_right _ (List.mem_singleton_self _), forwarded_unreadable hid _ _⟩

end

end RioServer.Packets
