import Mathlib.Data.List.GetD
import Mathlib.Tactic

/-!
# Constants, enumerations and the buffers the server rests on

`EnumType.h` and `DefineType.h`, and what the server uses of two classes whose
sources are not in the repository: `CNetServerSerializationBuf` (`NetBuffer`)
as a `NetBufferSpec`, and `CRingbuffer` as a byte FIFO that remembers how many
bytes have been taken out of it, which is enough to say where its read and
write index stand.
-/

namespace RioServer

/-- `MAX_SEND_BUFFER_SIZE` (DefineType.h:8). -/
def maxSendBufferSize : Nat := 16384

/-- `RIO_OPERATION_TYPE` (EnumType.h:9). -/
inductive RioOperationType where
  | opError
  | opRecv
  | opSend
  | opSendRequest
  deriving DecidableEq, Repr

/-- `IO_MODE` (EnumType.h:17). -/
inductive IoMode where
  | ioNoneSending
  | ioSending
  deriving DecidableEq, Repr

/-- `IO_POST_ERROR` (EnumType.h:23). -/
inductive IoPostError where
  | success
  | isDeletedSession
  | failedRecvPost
  | failedSendPost
  | invalidOperationType
  deriving DecidableEq, Repr

/-- What the server uses of the serialization buffer and ring buffer headers:
their sizes, the header code every frame starts with, and `Decode` / `Encode`
as functions of the bytes. The header holds at least the code (`BYTE`) and the
payload length (`WORD`) that `GetPayloadLength` extracts from it. -/
structure NetBufferSpec where
  /-- `df_HEADER_SIZE`. -/
  dfHeaderSize : Nat
  /-- `dfDEFAULTSIZE`. -/
  dfDefaultSize : Nat
  /-- `DEFAULT_RINGBUFFER_MAX`. -/
  defaultRingbufferMax : Nat
  /-- `NetBuffer::m_byHeaderCode`. -/
  headerCode : UInt8
  /-- `NetBuffer::Decode` on header and payload: the packet, or `false`. -/
  decode : List UInt8 → Option (List UInt8)
  /-- `NetBuffer::Encode` of a written payload: the whole frame. -/
  encode : List UInt8 → List UInt8
  three_le_dfHeaderSize : 3 ≤ dfHeaderSize
  defaultRingbufferMax_pos : 0 < defaultRingbufferMax

/-- Frames without encryption: the header code of `ServerOption.txt`, a header
of five bytes whose last one is a checksum that has to be zero. -/
def plainSpec : NetBufferSpec where
  dfHeaderSize := 5
  dfDefaultSize := 1024
  defaultRingbufferMax := 4096
  headerCode := 119
  decode frame := if frame.getD 4 0 = 0 then some (frame.drop 5) else none
  encode payload :=
    [119, UInt8.ofNat payload.length, UInt8.ofNat (payload.length / 256), 0, 0] ++ payload
  three_le_dfHeaderSize := by decide
  defaultRingbufferMax_pos := by decide

/-- `CRingbuffer`: the unread bytes, and how many bytes were read before. -/
structure Ringbuffer where
  data : List UInt8
  removed : Nat
  deriving DecidableEq, Repr

namespace Ringbuffer

/-- `InitPointer`. -/
def initPointer : Ringbuffer := ⟨[], 0⟩

/-- `MoveWritePos` after `bytes` were written at the write index. -/
def moveWritePos (ring : Ringbuffer) (bytes : List UInt8) : Ringbuffer :=
  { ring with data := ring.data ++ bytes }

def getUseSize (ring : Ringbuffer) : Nat := ring.data.length

/-- `Peek`: the oldest `n` bytes, left in the ring. -/
def peek (ring : Ringbuffer) (n : Nat) : List UInt8 := ring.data.take n

def removeData (ring : Ringbuffer) (n : Nat) : Ringbuffer :=
  ⟨ring.data.drop n, ring.removed + min n ring.data.length⟩

/-- `Dequeue`: the oldest `n` bytes (fewer if there are fewer), taken out. -/
def dequeue (ring : Ringbuffer) (n : Nat) : List UInt8 × Ringbuffer :=
  (ring.peek n, ring.removeData n)

/-- The index of the next byte to be read, in a ring of `size` bytes. -/
def readPos (size : Nat) (ring : Ringbuffer) : Nat := ring.removed % size

/-- The index of the next byte to be written. -/
def writePos (size : Nat) (ring : Ringbuffer) : Nat :=
  (ring.removed + ring.data.length) % size

/-- `GetNotBrokenGetSize`: unread bytes up to the end of the array. -/
def getNotBrokenGetSize (size : Nat) (ring : Ringbuffer) : Nat :=
  min ring.data.length (size - ring.readPos size)

/-- `GetNotBrokenPutSize`: free bytes up to the end of the array. -/
def getNotBrokenPutSize (size : Nat) (ring : Ringbuffer) : Nat :=
  min (size - ring.data.length) (size - ring.writePos size)

@[simp] theorem moveWritePos_data (ring : Ringbuffer) (bytes : List UInt8) :
    (ring.moveWritePos bytes).data = ring.data ++ bytes := rfl

@[simp] theorem removeData_data (ring : Ringbuffer) (n : Nat) :
    (ring.removeData n).data = ring.data.drop n := rfl

@[simp] theorem dequeue_snd_data (ring : Ringbuffer) (n : Nat) :
    (ring.dequeue n).2.data = ring.data.drop n := rfl

@[simp] theorem dequeue_fst (ring : Ringbuffer) (n : Nat) :
    (ring.dequeue n).1 = ring.data.take n := rfl

end Ringbuffer

end RioServer
