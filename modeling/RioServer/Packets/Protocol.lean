import RioServer.Lib.Wire

/-!
# Packet classes and their fields (Protocol.h, EnumType.h)

A packet class is its id, the types of its fields in declaration order, and
whether it has the `PacketToBuffer` and `BufferToPacket` of `SET_PARAMETERS`
or inherits the ones that do nothing. Every class that uses the macro names all
its fields, in declaration order, so the order of the fields is the order on
the wire.

The buffer classes are not part of the repository. What `<<` and `>>` do for
each field type is a `Codec`; all that is assumed of it is that the two are
inverse. `plainCodec` is one.
-/

namespace RioServer.Packets

/-- `PACKET_ID` (EnumType.h:32). -/
inductive PacketIdEnum where
  | invalidPacket
  | testStringPacket
  | echoStringPacekt
  | callTestProcedurePacket
  | callSelectTest2ProcedurePacket
  | callSelectTest2ProcedurePacketReply
  | ping
  | pong
  | requestFileStream
  | responseFileStream
  | game2DbTest
  | game2DbBatchedDbJob
  | game2DbSelectTest2
  | db2GameSelectTest2
  | db2GameBatchedDbJob
  deriving DecidableEq, Repr

/-- `PacketId` (Protocol.h:11). -/
abbrev PacketId := UInt32

/-- `static_cast<PacketId>`. -/
def PacketIdEnum.toPacketId (id : PacketIdEnum) : PacketId := .ofNat id.ctorIdx

theorem PacketIdEnum.toPacketId_injective : Function.Injective toPacketId := by
  intro a b h
  have hidx : a.ctorIdx = b.ctorIdx := by
    have hnat := congrArg UInt32.toNat h
    rwa [toPacketId, toPacketId, UInt32.toNat_ofNat_of_lt' (by cases a <;> decide),
      UInt32.toNat_ofNat_of_lt' (by cases b <;> decide)] at hnat
  cases a <;> cases b <;> first | rfl | cases hidx

/-! ## Fields -/

/-- The types of packet fields: `UINT`, `int`, `UINT64`, `long long`, `bool`,
`std::string`, `std::wstring`, `char[n]`, `std::list<int>` and
`std::list<std::string>`. -/
inductive FieldType where
  | uint32
  | int32
  | uint64
  | int64
  | bool
  | string
  | wstring
  | charArray (n : Nat)
  | intList
  | stringList
  deriving DecidableEq, Repr

/-- The values of a field; a character is a code unit. -/
def FieldType.Value : FieldType → Type
  | uint32 => UInt32
  | int32 => Int32
  | uint64 => UInt64
  | int64 => Int64
  | bool => Bool
  | string => List UInt8
  | wstring => List UInt16
  | charArray n => List.Vector UInt8 n
  | intList => List Int32
  | stringList => List (List UInt8)

/-- The value of a field in a value-initialised object. -/
def FieldType.zero : (t : FieldType) → t.Value
  | uint32 => (0 : UInt32)
  | int32 => (0 : Int32)
  | uint64 => (0 : UInt64)
  | int64 => (0 : Int64)
  | bool => false
  | string => ([] : List UInt8)
  | wstring => ([] : List UInt16)
  | charArray n => List.Vector.replicate n 0
  | intList => ([] : List Int32)
  | stringList => ([] : List (List UInt8))

/-- The values of a list of fields. -/
def Fields : List FieldType → Type
  | [] => Unit
  | t :: ts => t.Value × Fields ts

def Fields.zero : (ts : List FieldType) → Fields ts
  | [] => ()
  | t :: ts => (t.zero, Fields.zero ts)

/-- `operator<<` and `operator>>` of a buffer class, for every field type. -/
abbrev Codec := (t : FieldType) → Wire t.Value

/-- `SetParametersToBuffer` and `SetBufferToParameters` (Protocol.h:17): one
field after another, in the order of the parameters. -/
def Codec.parameters (codec : Codec) : (ts : List FieldType) → Wire (Fields ts)
  | [] => .unit
  | t :: ts => (codec t).prod (codec.parameters ts)

/-! ## One codec -/

def byteWire : Wire UInt8 :=
  (Wire.nat 1).map (fun x => ⟨x.toNat, x.toNat_lt⟩) (fun n => .ofNat n) fun x => x.ofNat_toNat

def wordWire : Wire UInt16 :=
  (Wire.nat 2).map (fun x => ⟨x.toNat, x.toNat_lt⟩) (fun n => .ofNat n) fun x => x.ofNat_toNat

def dwordWire : Wire UInt32 :=
  (Wire.nat 4).map (fun x => ⟨x.toNat, x.toNat_lt⟩) (fun n => .ofNat n) fun x => x.ofNat_toNat

def qwordWire : Wire UInt64 :=
  (Wire.nat 8).map (fun x => ⟨x.toNat, x.toNat_lt⟩) (fun n => .ofNat n) fun x => x.ofNat_toNat

def intWire : Wire Int32 := dwordWire.map Int32.toUInt32 UInt32.toInt32 Int32.toInt32_toUInt32

def boolWire : Wire Bool := byteWire.map Bool.toUInt8 (· != 0) (by decide)

/-- Numbers in their own width, low byte first; a string or a list with a byte
before each element that says whether one follows. -/
def plainCodec : Codec
  | .uint32 => dwordWire
  | .int32 => intWire
  | .uint64 => qwordWire
  | .int64 => qwordWire.map Int64.toUInt64 UInt64.toInt64 Int64.toInt64_toUInt64
  | .bool => boolWire
  | .string => byteWire.list
  | .wstring => wordWire.list
  | .charArray n => byteWire.vector n
  | .intList => intWire.list
  | .stringList => byteWire.list.list

/-! ## Packet classes -/

/-- A packet class: its `GetPacketId`, its fields, and whether it overrides
`PacketToBuffer` and `BufferToPacket` by one of the `SET_PARAMETERS` macros. -/
structure PacketClass where
  packetId : PacketIdEnum
  fields : List FieldType
  setParameters : Bool
  deriving DecidableEq, Repr

/-- `PacketToBuffer` (Protocol.h:46, 94, 176). -/
def PacketClass.packetToBuffer (P : PacketClass) (codec : Codec) (values : Fields P.fields) :
    List UInt8 :=
  if P.setParameters then (codec.parameters P.fields).put values else []

/-- `BufferToPacket` (Protocol.h:43, 93): the object's values and what is left
of the buffer. -/
def PacketClass.bufferToPacket (P : PacketClass) (codec : Codec) (values : Fields P.fields)
    (buffer : List UInt8) : Fields P.fields × List UInt8 :=
  if P.setParameters then (codec.parameters P.fields).get buffer else (values, buffer)

/-- `IGameAndClientPacket` (Protocol.h:90): a class of packets for clients.
Nothing of such a packet stays behind when it is written. -/
structure GameAndClientPacket extends PacketClass where
  complete : setParameters = true ∨ fields = []
  deriving DecidableEq

/-- `BufferToPacket` reads what `PacketToBuffer` wrote, into any object. -/
theorem GameAndClientPacket.bufferToPacket_packetToBuffer (P : GameAndClientPacket)
    (codec : Codec) (values object : Fields P.fields) (rest : List UInt8) :
    P.bufferToPacket codec object (P.packetToBuffer codec values ++ rest) = (values, rest) := by
  obtain ⟨⟨packetId, fields, setParameters⟩, hcomplete⟩ := P
  cases setParameters with
  | true =>
    simp only [PacketClass.bufferToPacket, PacketClass.packetToBuffer, if_true]
    exact Wire.get_put _ values rest
  | false =>
    -- a class without the macro has no fields
    obtain rfl : fields = [] := hcomplete.resolve_left Bool.false_ne_true
    rfl

/-! Packets between the game server and its clients. -/

def testStringPacket : GameAndClientPacket :=
  ⟨⟨.testStringPacket, [.string], true⟩, .inl rfl⟩

def echoStringPacket : GameAndClientPacket :=
  ⟨⟨.echoStringPacekt, [.charArray 30], true⟩, .inl rfl⟩

/-- `id3`, `testString`. -/
def testProcedurePacket : GameAndClientPacket :=
  ⟨⟨.callTestProcedurePacket, [.int32, .wstring], true⟩, .inl rfl⟩

def selectTest2ProcedurePacket : GameAndClientPacket :=
  ⟨⟨.callSelectTest2ProcedurePacket, [.int64], true⟩, .inl rfl⟩

def ping : GameAndClientPacket := ⟨⟨.ping, [], false⟩, .inr rfl⟩

def requestFileStream : GameAndClientPacket := ⟨⟨.requestFileStream, [], false⟩, .inr rfl⟩

/-! Packets between the game server and the DB server (`IGameAndDBPacket`,
Protocol.h:173); they are written, never read, by these classes. -/

/-- `sessionId`, `batchSize`: the class declares no `PacketToBuffer`. -/
def dbJobStart : PacketClass := ⟨.game2DbBatchedDbJob, [.uint64, .uint32], false⟩

/-- `id3`, `teststring`. -/
def test : PacketClass := ⟨.game2DbTest, [.int32, .wstring], true⟩

/-- `jobKey`, `isSuccessed`. -/
def dbJobReply : PacketClass := ⟨.db2GameBatchedDbJob, [.uint64, .bool], false⟩

/-- `ownerSessionId`, `no`, `testString`. -/
def callSelectTest2ProcedurePacketReply : PacketClass :=
  ⟨.db2GameSelectTest2, [.uint64, .intList, .stringList], true⟩

end RioServer.Packets
