import RioServer.Packets.PacketManager

/-!
# Replies of the DB server (ProcedureReplyHandler.h, ProcedureReplyHandler.cpp)

`SPReplyHandle` looks the reply's id up twice: for its handler in the map that
`REGISTER_ALL_DB_REPLY_HANDLER` fills, and for an object in `PacketManager`'s
factories, which `REGISTER_PACKET_LIST` fills. It copies the message over the
object's fields and passes the object on to the handler, which calls
`AssemblePacket`.

The two lists have no id in common: `REGISTER_PACKET_LIST` names packets of
clients only, and `RegisterPacket` would not take another. So a reply with a
handler has no factory, and every message is dropped (`spReplyHandle_drops`).
What stands behind the lookups would do for a `DBJobReply`: the copy fills in
its fields (`overlay_dbJobReply`), and the handler's casts agree with it.
-/

namespace RioServer.Packets

/-! ## Copying over an object -/

/-- A field as it lies in memory; nothing for a class whose objects must not be
copied by their bytes. -/
def rawWire : (t : FieldType) → Option (Wire t.Value)
  | .uint32 => some dwordWire
  | .int32 => some intWire
  | .uint64 => some qwordWire
  | .int64 => some (qwordWire.map Int64.toUInt64 UInt64.toInt64 Int64.toInt64_toUInt64)
  | .bool => some boolWire
  | .string => none
  | .wstring => none
  | .charArray n => some (byteWire.vector n)
  | .intList => none
  | .stringList => none

/-- Copy bytes over a field: its new value and the bytes for the next field. -/
def overlayField (t : FieldType) (value : t.Value) (bytes : List UInt8) :
    Option (t.Value × List UInt8) :=
  match rawWire t with
  | some wire =>
    let memory := wire.put value
    some ((wire.get (bytes.take memory.length ++ memory.drop bytes.length)).1,
      bytes.drop memory.length)
  | none => if bytes.isEmpty then some (value, []) else none

/-- `memcpy` over the fields of an object, which lie side by side (Protocol.h:78);
`none` where it breaks a field or goes beyond the object. -/
def overlay : (ts : List FieldType) → Fields ts → List UInt8 → Option (Fields ts)
  | [], (), bytes => if bytes.isEmpty then some () else none
  | t :: ts, (value, values), bytes => do
    let (value, bytes) ← overlayField t value bytes
    let values ← overlay ts values bytes
    return (value, values)

/-- How `SPReplyHandle` fails: by an exception or a wrong cast, or by a `memcpy`
that leaves no object behind. -/
inductive ReplyFailure where
  | handler (failure : Failure)
  | brokenObject
  deriving DecidableEq, Repr

/-! ## The handlers -/

/-- A call of `AssemblePacket`: the packet, and the buffer behind it. -/
structure AssemblePacketCall where
  type : PacketClass
  values : Fields type.fields
  recvPacket : List UInt8

/-- `DBPacketReplyHandler` (ProcedureReplyHandler.h:11). -/
abbrev DbPacketReplyHandler := Any → List UInt8 → Except Failure AssemblePacketCall

/-- `ProcedureReplyHandler` (ProcedureReplyHandler.h:13). -/
structure ProcedureReplyHandler where
  packetHandlerMap : UnorderedMap PacketId DbPacketReplyHandler

/-- `static_cast` of a pointer to a pointer to a reply. -/
def staticCastReply (P : PacketClass) (object : PacketObject) :
    Except Failure (Fields P.fields) :=
  if h : object.type.toPacketClass = P then .ok (h ▸ object.values)
  else .error .wrongStaticCast

/-- The handler of a reply (ProcedureReplyHandler.h:34). -/
def replyHandler (P : PacketClass) : DbPacketReplyHandler := fun packet recvPacket => do
  let object ← anyCast .iPacket packet
  let realPacket ← staticCastReply P object
  return ⟨P, realPacket, recvPacket⟩

/-- `RegisterPacketHandler` (ProcedureReplyHandler.h:31). -/
def ProcedureReplyHandler.registerPacketHandler (m : ProcedureReplyHandler) (P : PacketClass) :
    ProcedureReplyHandler :=
  { m with packetHandlerMap :=
      m.packetHandlerMap.assign P.packetId.toPacketId (replyHandler P) }

/-- `REGISTER_ALL_DB_REPLY_HANDLER` (Protocol.h:277). -/
def registerAllDbReplyHandler : List PacketClass :=
  [callSelectTest2ProcedurePacketReply, dbJobReply]

/-- `ProcedureReplyHandler::Initialize` (ProcedureReplyHandler.cpp:9). -/
def ProcedureReplyHandler.initialize : ProcedureReplyHandler :=
  registerAllDbReplyHandler.foldl registerPacketHandler ⟨.empty⟩

/-- `ProcedureReplyHandler::GetPacketHandler` (ProcedureReplyHandler.cpp:34). -/
def ProcedureReplyHandler.getPacketHandler (m : ProcedureReplyHandler) (packetId : PacketId) :
    Option DbPacketReplyHandler :=
  m.packetHandlerMap.find packetId

/-- `SPReplyHandle` (ProcedureReplyHandler.cpp:14): the calls of
`AssemblePacket`, or how the call failed. -/
def spReplyHandle (codec : Codec) (packetId : PacketId) (recvPacket : List UInt8) :
    Except ReplyFailure (List AssemblePacketCall) :=
  match ProcedureReplyHandler.initialize.getPacketHandler packetId with
  | none => .ok []
  | some packetHandler =>
    match (PacketManager.init codec).makePacket packetId with
    | none => .ok []
    | some ⟨staticType, ⟨type, values⟩⟩ =>
      match overlay type.fields values recvPacket with
      | none => .error .brokenObject
      | some values => do
        let call ← (packetHandler (.ofPointer ⟨staticType, ⟨type, values⟩⟩) recvPacket).mapError
          .handler
        return [call]

/-- `DBClient::OnRecv` (DBClient.cpp:38). -/
def onRecv (codec : Codec) (buffer : List UInt8) :
    Except ReplyFailure (List AssemblePacketCall) :=
  let (recvPacketId, buffer) := (codec .uint32).get buffer
  spReplyHandle codec recvPacketId buffer

/-! ## Behind the lookups -/

/-- Copying a field's own bytes sets it to the value they stand for. -/
theorem overlayField_put {t : FieldType} {wire : Wire t.Value} (hraw : rawWire t = some wire)
    {old new : t.Value} (hlen : (wire.put new).length = (wire.put old).length)
    (rest : List UInt8) : overlayField t old (wire.put new ++ rest) = some (new, rest) := by
  have htake : (wire.put new ++ rest).take (wire.put old).length = wire.put new :=
    List.take_left' hlen
  have hdrop : (wire.put new ++ rest).drop (wire.put old).length = rest :=
    List.drop_left' hlen
  have hkept : (wire.put old).drop (wire.put new ++ rest).length = [] := by
    refine List.drop_eq_nil_of_le ?_
    rw [List.length_append]
    omega
  simp only [overlayField, hraw, htake, hdrop, hkept, wire.get_put]

theorem overlay_cons (t : FieldType) (ts : List FieldType) (value : t.Value)
    (values : Fields ts) (bytes : List UInt8) :
    overlay (t :: ts) (value, values) bytes =
      (overlayField t value bytes).bind fun r =>
        (overlay ts values r.2).bind fun vs => some (r.1, vs) :=
  rfl

/-- **The copy reads a `DBJobReply`**: its key and its result, as the message
holds them. -/
theorem overlay_dbJobReply (object : Fields dbJobReply.fields) (jobKey : UInt64)
    (isSuccessed : Bool) :
    overlay dbJobReply.fields object (qwordWire.put jobKey ++ boolWire.put isSuccessed) =
      some (jobKey, isSuccessed, ()) := by
  obtain ⟨oldKey, oldSuccessed, ⟨⟩⟩ := object
  have hkey : overlayField .uint64 oldKey (qwordWire.put jobKey ++ boolWire.put isSuccessed) =
      some (jobKey, boolWire.put isSuccessed) :=
    overlayField_put (t := .uint64) rfl
      ((Wire.length_putNat 8 _).trans (Wire.length_putNat 8 _).symm) _
  have hsuccessed : overlayField .bool oldSuccessed (boolWire.put isSuccessed ++ []) =
      some (isSuccessed, []) :=
    overlayField_put (t := .bool) rfl
      ((Wire.length_putNat 1 _).trans (Wire.length_putNat 1 _).symm) _
  rw [List.append_nil] at hsuccessed
  have hrest : overlay [.bool] (oldSuccessed, ()) (boolWire.put isSuccessed) =
      some (isSuccessed, ()) :=
    (overlay_cons .bool [] oldSuccessed () _).trans
      (congrArg (fun r => Option.bind r _) hsuccessed)
  refine (overlay_cons .uint64 [.bool] oldKey (oldSuccessed, ()) _).trans ?_
  exact (congrArg (fun r => Option.bind r _) hkey).trans
    (congrArg (fun r => Option.bind r fun vs => some (jobKey, vs)) hrest)

/-! ## The lookups -/

variable {codec : Codec} {id : PacketId}

/-- An id without a reply handler. -/
theorem getPacketHandler_unregistered
    (hid : ∀ P ∈ registerAllDbReplyHandler, P.packetId.toPacketId ≠ id) :
    ProcedureReplyHandler.initialize.getPacketHandler id = none := by
  have hselect := hid callSelectTest2ProcedurePacketReply (by simp [registerAllDbReplyHandler])
  have hjob := hid dbJobReply (by simp [registerAllDbReplyHandler])
  simp only [ProcedureReplyHandler.getPacketHandler, ProcedureReplyHandler.initialize,
    registerAllDbReplyHandler, List.foldl_cons, List.foldl_nil,
    ProcedureReplyHandler.registerPacketHandler]
  rw [UnorderedMap.find_assign, if_neg hjob, UnorderedMap.find_assign, if_neg hselect,
    UnorderedMap.find_empty]

/-- An id without a factory. -/
theorem makePacket_unregistered
    (hid : ∀ P ∈ registerPacketList, P.packetId.toPacketId ≠ id) :
    (PacketManager.init codec).makePacket id = none := by
  have hfind := find_foldl_register codec ⟨.empty, .empty⟩ registerPacketList_pairwise
  rw [PacketManager.makePacket, PacketManager.init, (hfind.2 id hid).1]
  rfl

/-- **No reply can be made**: the packets with a factory are not among those
with a reply handler. -/
theorem makePacket_reply {P : PacketClass} (hP : P ∈ registerAllDbReplyHandler) :
    (PacketManager.init codec).makePacket P.packetId.toPacketId = none := by
  refine makePacket_unregistered fun Q hQ he => ?_
  have hdisjoint : ∀ Q ∈ registerPacketList, ∀ P ∈ registerAllDbReplyHandler,
      Q.packetId ≠ P.packetId := by decide
  exact hdisjoint Q hQ P hP (PacketIdEnum.toPacketId_injective he)

/-- **`SPReplyHandle` drops every message**, whatever its id and its body. -/
theorem spReplyHandle_drops (codec : Codec) (packetId : PacketId) (recvPacket : List UInt8) :
    spReplyHandle codec packetId recvPacket = .ok [] := by
  by_cases hid : ∀ P ∈ registerAllDbReplyHandler, P.packetId.toPacketId ≠ packetId
  · simp only [spReplyHandle, getPacketHandler_unregistered hid]
  · push Not at hid
    obtain ⟨P, hP, rfl⟩ := hid
    rw [spReplyHandle, makePacket_reply hP]
    split <;> rfl

/-- What `SPReplyHandle` is to do with a message: a registered id reaches its
`AssemblePacket` once, a `DBJobReply` with the key and the result in the
message, and any other id reaches nothing. -/
structure RepliesCorrectly (codec : Codec) (packetId : PacketId) (recvPacket : List UInt8) :
    Prop where
  registered : ∀ P ∈ registerAllDbReplyHandler, P.packetId.toPacketId = packetId →
    ∃ values, spReplyHandle codec packetId recvPacket = .ok [⟨P, values, recvPacket⟩]
  dbJobReply : dbJobReply.packetId.toPacketId = packetId → ∀ jobKey isSuccessed,
    recvPacket = qwordWire.put jobKey ++ boolWire.put isSuccessed →
      spReplyHandle codec packetId recvPacket =
        .ok [⟨dbJobReply, (jobKey, isSuccessed, ()), recvPacket⟩]
  unregistered : (∀ P ∈ registerAllDbReplyHandler, P.packetId.toPacketId ≠ packetId) →
    spReplyHandle codec packetId recvPacket = .ok []

/-- **A message is handled correctly exactly if its id is not registered.** -/
theorem repliesCorrectly_iff (codec : Codec) (packetId : PacketId) (recvPacket : List UInt8) :
    RepliesCorrectly codec packetId recvPacket ↔
      ∀ P ∈ registerAllDbReplyHandler, P.packetId.toPacketId ≠ packetId := by
  constructor
  · intro h P hP hid
    obtain ⟨values, hcalls⟩ := h.registered P hP hid
    rw [spReplyHandle_drops] at hcalls
    cases hcalls
  · intro hid
    refine ⟨fun P hP he => absurd he (hid P hP), fun he => ?_, fun _ => ?_⟩
    · exact absurd he (hid _ (by simp [registerAllDbReplyHandler]))
    · exact spReplyHandle_drops codec packetId recvPacket

/-- The reply to batch 1 that it succeeded reaches nothing. -/
theorem dbJobReply_dropped :
    qwordWire.put 1 ++ boolWire.put true = [1, 0, 0, 0, 0, 0, 0, 0, 1] ∧
      spReplyHandle plainCodec 14 [1, 0, 0, 0, 0, 0, 0, 0, 1] = .ok [] ∧
      ¬RepliesCorrectly plainCodec 14 [1, 0, 0, 0, 0, 0, 0, 0, 1] := by
  refine ⟨rfl, spReplyHandle_drops _ _ _, fun h => ?_⟩
  have hcalls := h.dbJobReply rfl 1 true rfl
  rw [spReplyHandle_drops] at hcalls
  cases hcalls

/-- **No reply of the DB server has an effect.** -/
theorem onRecv_drops (codec : Codec) (buffer : List UInt8) : onRecv codec buffer = .ok [] :=
  spReplyHandle_drops codec _ _

end RioServer.Packets
