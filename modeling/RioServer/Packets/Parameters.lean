import RioServer.Packets.Protocol

/-!
# The templates behind `SET_PARAMETERS` (Protocol.h:15–53)

`SetParametersToBuffer` and `SetBufferToParameters` are two overloads each: one
for a single parameter, one that handles the first of several and calls itself
with the others. Both are written out here over parameters of any types, each
with its `<<` and `>>`; that these two undo each other is the law of `Wire`.

The recursion takes the parameters off the same end in both templates, so
reading gives back what was written and stops where writing did
(`setBufferToParameters_setParametersToBuffer`). A packet of a class with
`SET_PARAMETERS` is one call of each, and packets behind one another in a buffer
are read one by one (`parameters_restored`).
-/

namespace RioServer.Packets

universe u v

/-- `NetBuffer`: the bytes that were written and not read yet. -/
abbrev NetBuffer := List UInt8

variable {ι : Type u} {Value : ι → Type v}

/-- The parameters of one call: at least one. -/
def Params (Value : ι → Type v) : ι → List ι → Type v
  | t, [] => Value t
  | t, t' :: ts => Value t × Params Value t' ts

section

variable (wire : ∀ t, Wire (Value t))

/-- `buffer << param`. -/
def shiftLeft {t : ι} (buffer : NetBuffer) (param : Value t) : NetBuffer :=
  buffer ++ (wire t).put param

/-- `buffer >> param`. -/
def shiftRight (t : ι) (buffer : NetBuffer) : Value t × NetBuffer := (wire t).get buffer

/-- `SetParametersToBuffer` (Protocol.h:31, 37). -/
def setParametersToBuffer :
    (t : ι) → (ts : List ι) → NetBuffer → Params Value t ts → NetBuffer
  | _, [], buffer, param => shiftLeft wire buffer param
  | _, t' :: ts, buffer, (param, argList) =>
    setParametersToBuffer t' ts (shiftLeft wire buffer param) argList

/-- `SetBufferToParameters` (Protocol.h:17, 24). -/
def setBufferToParameters :
    (t : ι) → (ts : List ι) → NetBuffer → Params Value t ts × NetBuffer
  | t, [], buffer => shiftRight wire t buffer
  | t, t' :: ts, buffer =>
    let (param, buffer) := shiftRight wire t buffer
    let (argList, buffer) := setBufferToParameters t' ts buffer
    ((param, argList), buffer)

/-- Writing appends: what the buffer held stays in front. -/
theorem setParametersToBuffer_append :
    ∀ (t : ι) (ts : List ι) (before buffer : NetBuffer) (params : Params Value t ts),
      setParametersToBuffer wire t ts (before ++ buffer) params =
        before ++ setParametersToBuffer wire t ts buffer params
  | _, [], before, buffer, param => List.append_assoc before buffer _
  | t, t' :: ts, before, buffer, (param, argList) => by
    have happend : shiftLeft wire (before ++ buffer) param =
        before ++ shiftLeft wire buffer param := List.append_assoc before buffer _
    rw [setParametersToBuffer, happend, setParametersToBuffer_append]
    rfl

/-- **Reading undoes writing**: the parameters come back, and the bytes behind
them are all that is left. -/
theorem setBufferToParameters_setParametersToBuffer :
    ∀ (t : ι) (ts : List ι) (params : Params Value t ts) (rest : NetBuffer),
      setBufferToParameters wire t ts (setParametersToBuffer wire t ts [] params ++ rest) =
        (params, rest)
  | t, [], param, rest => (wire t).get_put param rest
  | t, t' :: ts, (param, argList), rest => by
    -- the first parameter's bytes are in front of the others'
    have hwritten : setParametersToBuffer wire t (t' :: ts) [] (param, argList) =
        (wire t).put param ++ setParametersToBuffer wire t' ts [] argList := by
      rw [setParametersToBuffer, shiftLeft, List.nil_append]
      nth_rewrite 1 [← List.append_nil ((wire t).put param)]
      exact setParametersToBuffer_append wire t' ts _ [] argList
    have hread := setBufferToParameters_setParametersToBuffer t' ts argList rest
    simp only [setBufferToParameters, shiftRight, hwritten, List.append_assoc, (wire t).get_put,
      hread]

end

/-! ## The packet classes -/

/-- The fields of a packet as the parameters of the templates. -/
def Fields.toParams : (t : FieldType) → (ts : List FieldType) → Fields (t :: ts) →
    Params FieldType.Value t ts
  | _, [], (value, ()) => value
  | _, t' :: ts, (value, values) => (value, Fields.toParams t' ts values)

variable (codec : Codec)

/-- The templates write what `Codec.parameters` writes. -/
theorem setParametersToBuffer_toParams :
    ∀ (t : FieldType) (ts : List FieldType) (values : Fields (t :: ts)) (buffer : NetBuffer),
      setParametersToBuffer codec t ts buffer (values.toParams t ts) =
        buffer ++ (codec.parameters (t :: ts)).put values
  | t, [], (value, ()), buffer => by
    show buffer ++ (codec t).put value = buffer ++ ((codec t).put value ++ [])
    rw [List.append_nil]
  | t, t' :: ts, (value, values), buffer => by
    show setParametersToBuffer codec t' ts (buffer ++ (codec t).put value)
        (values.toParams t' ts) =
      buffer ++ ((codec t).put value ++ (codec.parameters (t' :: ts)).put values)
    rw [setParametersToBuffer_toParams t' ts values, List.append_assoc]

/-- The templates read what `Codec.parameters` reads, from any bytes. -/
theorem setBufferToParameters_eq :
    ∀ (t : FieldType) (ts : List FieldType) (buffer : NetBuffer),
      setBufferToParameters codec t ts buffer =
        ((codec.parameters (t :: ts)).get buffer).map (Fields.toParams t ts) id
  | t, [], buffer => rfl
  | t, t' :: ts, buffer => by
    have hread := setBufferToParameters_eq t' ts ((codec t).get buffer).2
    simp only [setBufferToParameters, shiftRight, hread]
    rfl

/-- A class declared with `SET_PARAMETERS`. The macro names at least one
field. -/
structure ParametersClass where
  packetId : PacketIdEnum
  field : FieldType
  fields : List FieldType
  deriving DecidableEq, Repr

namespace ParametersClass

variable (P : ParametersClass)

def toPacketClass : PacketClass := ⟨P.packetId, P.field :: P.fields, true⟩

/-- The values of the fields. -/
abbrev Values : Type := Params FieldType.Value P.field P.fields

/-- `PacketToBuffer` of `SET_PARAMETERS_TO_BUFFER`. -/
def packetToBuffer (buffer : NetBuffer) (values : P.Values) : NetBuffer :=
  setParametersToBuffer codec P.field P.fields buffer values

/-- `BufferToPacket` of `SET_BUFFER_TO_PARAMETERS`. -/
def bufferToPacket (buffer : NetBuffer) : P.Values × NetBuffer :=
  setBufferToParameters codec P.field P.fields buffer

/-- `PacketClass` has the same two functions of such a class. -/
theorem toPacketClass_packetToBuffer (buffer : NetBuffer) (values : Fields (P.field :: P.fields)) :
    P.packetToBuffer codec buffer (values.toParams P.field P.fields) =
      buffer ++ P.toPacketClass.packetToBuffer codec values :=
  setParametersToBuffer_toParams codec P.field P.fields values buffer

theorem toPacketClass_bufferToPacket (buffer : NetBuffer) (object : Fields (P.field :: P.fields)) :
    P.bufferToPacket codec buffer =
      (P.toPacketClass.bufferToPacket codec object buffer).map
        (Fields.toParams P.field P.fields) id :=
  setBufferToParameters_eq codec P.field P.fields buffer

/-- Every class that uses the macro, on some field, is one of these. -/
theorem exists_toPacketClass (Q : PacketClass) (hset : Q.setParameters = true)
    (hfields : Q.fields ≠ []) : ∃ P : ParametersClass, P.toPacketClass = Q := by
  obtain ⟨packetId, fields, setParameters⟩ := Q
  cases fields with
  | nil => exact absurd rfl hfields
  | cons field fields =>
    obtain rfl : setParameters = true := hset
    exact ⟨⟨packetId, field, fields⟩, rfl⟩

end ParametersClass

/-- A packet object of such a class. -/
structure ParametersPacket where
  packetClass : ParametersClass
  values : packetClass.Values

/-- `PacketToBuffer` of one packet after another. -/
def writePackets (packets : List ParametersPacket) (buffer : NetBuffer) : NetBuffer :=
  packets.foldl (fun buffer packet => packet.packetClass.packetToBuffer codec buffer packet.values)
    buffer

/-- `BufferToPacket` of one class after another. -/
def readPackets : List ParametersClass → NetBuffer → List ParametersPacket × NetBuffer
  | [], buffer => ([], buffer)
  | P :: classes, buffer =>
    let (values, buffer) := P.bufferToPacket codec buffer
    let (packets, buffer) := readPackets classes buffer
    (⟨P, values⟩ :: packets, buffer)

/-- Packets append, as parameters do. -/
theorem writePackets_append (packets : List ParametersPacket) (before buffer : NetBuffer) :
    writePackets codec packets (before ++ buffer) =
      before ++ writePackets codec packets buffer := by
  induction packets generalizing buffer with
  | nil => rfl
  | cons packet packets ih =>
    show writePackets codec packets
        (packet.packetClass.packetToBuffer codec (before ++ buffer) packet.values) =
      before ++ writePackets codec packets
        (packet.packetClass.packetToBuffer codec buffer packet.values)
    rw [← ih]
    exact congrArg _ (setParametersToBuffer_append codec _ _ before buffer packet.values)

/-- Packets behind one another are read in the order they were written. -/
theorem readPackets_writePackets (packets : List ParametersPacket) (rest : NetBuffer) :
    readPackets codec (packets.map (·.packetClass)) (writePackets codec packets [] ++ rest) =
      (packets, rest) := by
  induction packets with
  | nil => rfl
  | cons packet packets ih =>
    obtain ⟨P, values⟩ := packet
    have hwritten : writePackets codec (⟨P, values⟩ :: packets) [] =
        P.packetToBuffer codec [] values ++ writePackets codec packets [] := by
      rw [← writePackets_append, List.append_nil]
      rfl
    have hread : P.bufferToPacket codec
        (P.packetToBuffer codec [] values ++ (writePackets codec packets [] ++ rest)) =
        (values, writePackets codec packets [] ++ rest) :=
      setBufferToParameters_setParametersToBuffer codec _ _ values _
    rw [hwritten, List.append_assoc, List.map_cons]
    simp only [readPackets, hread, ih]

/-- **Fields survive the buffer**: for parameters of any types, for a packet of
any class with `SET_PARAMETERS`, and for any packets in a row, reading restores
the values and leaves the bytes that were behind them. -/
theorem parameters_restored (wire : ∀ t, Wire (Value t)) (codec : Codec) :
    (∀ (t : ι) (ts : List ι) (params : Params Value t ts) (rest : NetBuffer),
      setBufferToParameters wire t ts (setParametersToBuffer wire t ts [] params ++ rest) =
        (params, rest)) ∧
    (∀ (P : ParametersClass) (values : P.Values) (rest : NetBuffer),
      P.bufferToPacket codec (P.packetToBuffer codec [] values ++ rest) = (values, rest)) ∧
    ∀ (packets : List ParametersPacket) (rest : NetBuffer),
      readPackets codec (packets.map (·.packetClass)) (writePackets codec packets [] ++ rest) =
        (packets, rest) :=
  ⟨setBufferToParameters_setParametersToBuffer wire,
    fun P => setBufferToParameters_setParametersToBuffer codec P.field P.fields,
    readPackets_writePackets codec⟩

/-- The two fields of `TestProcedurePacket`, with a byte behind them. -/
example :
    setBufferToParameters plainCodec .int32 [.wstring]
      (setParametersToBuffer plainCodec .int32 [.wstring] [] ((7 : Int32), ([66] : List UInt16)) ++
        [9]) = (((7 : Int32), ([66] : List UInt16)), [9]) := by
  rfl

end RioServer.Packets
