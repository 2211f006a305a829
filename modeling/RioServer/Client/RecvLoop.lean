import RioServer.Lib.Loop
import RioServer.Server.Types

/-!
# The parse loop of the DB client's `Worker` (MultiLanClient.cpp:266–298)

`CMultiLanClient` cuts the stream of the DB server into frames: a length in
front, `HEADER_SIZE` bytes of header, and the payload. `recvTurn` is one turn of
the `while` loop and `recvLoop` the whole loop. It keeps its own
`RingBufferRestSize`, which every turn that goes round lowers by the payload and
a `WORD`, whatever `HEADER_SIZE` is.
-/

namespace RioServer.Client

/-- What the client uses of the serialization buffer and ring buffer headers,
and its option `RECONNECT`. The header starts with the payload length. -/
structure ClientSpec where
  /-- `HEADER_SIZE`. -/
  headerSize : Nat
  /-- `RINGBUFFER_MAX`, the bytes `RingBuffer` can hold. -/
  ringbufferMax : Nat
  /-- `m_bIsReconnect`. -/
  isReconnect : Bool
  two_le_headerSize : 2 ≤ headerSize
  ringbufferMax_pos : 0 < ringbufferMax

/-- A client that reconnects, its header nothing but the length. -/
def reconnectingSpec : ClientSpec where
  headerSize := 2
  ringbufferMax := 8192
  isReconnect := true
  two_le_headerSize := by decide
  ringbufferMax_pos := by decide

variable (spec : ClientSpec)

/-- `RecvSerializeBuf >> PayloadLength`, from the first byte of the header. -/
def payloadLength (header : List UInt8) : Nat :=
  (header.getD 0 0).toNat + 256 * (header.getD 1 0).toNat

/-- The variables of the loop: the ring, `RingBufferRestSize`, and the payloads
that were given to `OnRecv`. -/
structure RecvLoop where
  ring : Ringbuffer
  ringBufferRestSize : Int
  received : List (List UInt8)

/-- What the loop leaves behind. -/
structure RecvResult where
  ring : Ringbuffer
  received : List (List UInt8)
  deriving DecidableEq, Repr

/-- One turn of the loop. -/
def recvTurn (st : RecvLoop) : RecvLoop ⊕ RecvResult :=
  if spec.headerSize < st.ringBufferRestSize then
    let header := st.ring.peek spec.headerSize
    if header.length < spec.headerSize then .inr ⟨st.ring, st.received⟩
    else if st.ring.getUseSize < payloadLength header + spec.headerSize then
      .inr ⟨st.ring, st.received⟩
    else
      let (payload, ring) :=
        (st.ring.removeData header.length).dequeue (payloadLength header)
      .inl ⟨ring, st.ringBufferRestSize - (payload.length + 2), st.received ++ [payload]⟩
  else .inr ⟨st.ring, st.received⟩

/-- A turn that goes round lowers `RingBufferRestSize` by at least a `WORD`. -/
theorem recvTurn_decreases :
    Loop.Decreases (recvTurn spec) (fun st => st.ringBufferRestSize.toNat) := by
  intro st st' h
  have hheader := spec.two_le_headerSize
  simp only [recvTurn] at h
  split at h
  · next hrest =>
    split at h
    · cases h
    · split at h
      · cases h
      · cases h
        simp only
        omega
  · cases h

/-- The loop, entered with `RingBufferRestSize = GetUseSize()`. -/
def recvLoop (ring : Ringbuffer) : RecvResult :=
  Loop.eval (recvTurn spec) (fun st => st.ringBufferRestSize.toNat) (recvTurn_decreases spec)
    ⟨ring, ring.getUseSize, []⟩

end RioServer.Client
