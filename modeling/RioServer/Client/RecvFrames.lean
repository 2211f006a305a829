import RioServer.Client.Session
import RioServer.Lib.Framing

/-!
# The stream of the DB server, cut anywhere (MultiLanClient.cpp:263–300)

`payloadDecoder` says what the parse loop of `CMultiLanClient::Worker` is for: a
`WORD` with the length, that many bytes, and so on while more than a header is
left and the next frame is complete. A turn of the loop at the head of a frame
takes off what the decoder takes off and keeps `RingBufferRestSize` in step with
the ring (`recvTurn_frame`); the latter needs `HEADER_SIZE = sizeof(WORD)`, for
the loop subtracts the one and removes the other.

`receiveAll` folds the loop over the completions of a connection, as the
`Worker` of `Session.lean` does one by one (`execWorker_recvCompleted`), and
`recv_frames` compares it with the decoder run once over the whole stream.
-/

namespace RioServer.Client

open Framing

/-- What the loop finds at the head of the unread bytes, with a header of
nothing but the length. -/
def payloadHead (bs : List UInt8) : Head UInt8 (List UInt8) :=
  if bs.length ≤ 2 then .stop
  else if bs.length < payloadLength bs + 2 then .stop
  else .frame ((bs.drop 2).take (payloadLength bs)) (bs.drop (payloadLength bs + 2))

/-- The length is read from the first two bytes. -/
theorem payloadLength_append {bs : List UInt8} (h : 2 ≤ bs.length) (ext : List UInt8) :
    payloadLength (bs ++ ext) = payloadLength bs := by
  rw [payloadLength, List.getD_append _ _ _ _ (by omega), List.getD_append _ _ _ _ (by omega)]
  rfl

theorem payloadLength_take (bs : List UInt8) : payloadLength (bs.take 2) = payloadLength bs := by
  simp [payloadLength, List.getD_eq_getElem?_getD]

/-- A frame is at the head when more than the header is there and all of the
payload; the payload may be empty. -/
theorem payloadHead_eq_frame {bs payload rest : List UInt8} :
    payloadHead bs = .frame payload rest ↔
      2 < bs.length ∧ payloadLength bs + 2 ≤ bs.length ∧
      payload = (bs.drop 2).take (payloadLength bs) ∧
      rest = bs.drop (payloadLength bs + 2) := by
  constructor
  · intro h
    unfold payloadHead at h
    split_ifs at h with hlen hcomplete
    cases h
    exact ⟨by omega, by omega, rfl, rfl⟩
  · rintro ⟨hlen, hcomplete, rfl, rfl⟩
    rw [payloadHead, if_neg (by omega), if_neg (by omega)]

/-- The stream is never given up. -/
theorem payloadHead_ne_fail (bs : List UInt8) : payloadHead bs ≠ .fail := by
  unfold payloadHead
  split_ifs <;> rintro ⟨⟩

/-- The frames of the DB server as an incremental decoder. -/
def payloadDecoder : Decoder UInt8 (List UInt8) where
  head := payloadHead
  rest_lt h := by
    obtain ⟨hlen, -, -, rfl⟩ := payloadHead_eq_frame.mp h
    rw [List.length_drop]
    omega
  nil_stop := by simp [payloadHead]
  frame_append {bs payload rest} ext h := by
    obtain ⟨hlen, hcomplete, rfl, rfl⟩ := payloadHead_eq_frame.mp h
    rw [payloadHead_eq_frame, payloadLength_append (by omega)]
    refine ⟨?_, ?_, ?_, ?_⟩
    · rw [List.length_append]
      omega
    · rw [List.length_append]
      omega
    · rw [List.drop_append_of_le_length (by omega),
        List.take_append_of_le_length (by rw [List.length_drop]; omega)]
    · rw [List.drop_append_of_le_length (by omega)]
  fail_append {bs} ext h := absurd h (payloadHead_ne_fail bs)

theorem drain_not_failed (bs : List UInt8) : (payloadDecoder.drain bs).failed = false := by
  induction bs using payloadDecoder.drain_induct with
  | frame h ih => rwa [Decoder.drain_frame h]
  | stop h => rw [Decoder.drain_stop h]
  | fail h => exact absurd h (payloadHead_ne_fail _)

/-! ## The loop is the decoder -/

section

variable {spec : ClientSpec} (hheader : spec.headerSize = 2)
include hheader

/-- A turn at the head of a complete frame delivers its payload and keeps
`RingBufferRestSize` in step with the ring. -/
theorem recvTurn_frame {ring : Ringbuffer} (received : List (List UInt8))
    {payload rest : List UInt8} (h : payloadHead ring.data = .frame payload rest) :
    ∃ ring' : Ringbuffer, ring'.data = rest ∧
      recvTurn spec ⟨ring, ring.data.length, received⟩ =
        .inl ⟨ring', ring'.data.length, received ++ [payload]⟩ := by
  obtain ⟨hlen, hcomplete, rfl, rfl⟩ := payloadHead_eq_frame.mp h
  have hpeek : (ring.peek 2).length = 2 := by
    rw [Ringbuffer.peek, List.length_take]
    omega
  have hlength : payloadLength (ring.peek 2) = payloadLength ring.data :=
    payloadLength_take ring.data
  refine ⟨((ring.removeData 2).dequeue (payloadLength ring.data)).2, ?_, ?_⟩
  · rw [Ringbuffer.dequeue_snd_data, Ringbuffer.removeData_data, List.drop_drop, Nat.add_comm]
  · simp only [recvTurn, hheader]
    rw [if_pos (by exact_mod_cast hlen), hpeek, hlength, if_neg (by omega),
      if_neg (by rw [Ringbuffer.getUseSize]; omega)]
    simp only [Ringbuffer.dequeue_fst, Ringbuffer.dequeue_snd_data, Ringbuffer.removeData_data,
      List.length_take, List.length_drop, Sum.inl.injEq, RecvLoop.mk.injEq, and_true, true_and]
    omega

/-- A turn that finds no complete frame leaves the ring alone. -/
theorem recvTurn_stop {ring : Ringbuffer} (received : List (List UInt8))
    (h : payloadHead ring.data = .stop) :
    recvTurn spec ⟨ring, ring.data.length, received⟩ = .inr ⟨ring, received⟩ := by
  have hlength : payloadLength (ring.peek 2) = payloadLength ring.data :=
    payloadLength_take ring.data
  simp only [recvTurn, hheader]
  by_cases hlen : 2 < ring.data.length
  · rw [if_pos (by exact_mod_cast hlen), hlength, Ringbuffer.getUseSize]
    by_cases hshort : ring.data.length < payloadLength ring.data + 2
    · rw [if_pos hshort, ite_self]
    · rw [payloadHead, if_neg (by omega), if_neg hshort] at h
      cases h
  · -- the loop's own test ends it
    rw [if_neg (by exact_mod_cast hlen)]

/-- The loop from any point on, with `RingBufferRestSize` in step with the
ring, ends as the decoder does. -/
theorem recvLoop_from (ring : Ringbuffer) (received : List (List UInt8)) :
    ∃ result, Loop.Returns (recvTurn spec) ⟨ring, ring.data.length, received⟩ result ∧
      result.received = received ++ (payloadDecoder.drain ring.data).frames ∧
      result.ring.data = (payloadDecoder.drain ring.data).rest := by
  induction hbs : ring.data using payloadDecoder.drain_induct generalizing ring received with
  | @frame bs payload rest h ih =>
    subst hbs
    obtain ⟨ring', rfl, hturn⟩ := recvTurn_frame hheader received h
    obtain ⟨result, hret, hreceived, hrest⟩ := ih ring' (received ++ [payload]) rfl
    refine ⟨result, (Loop.returns_inl hturn).mpr hret, ?_, ?_⟩
    · rw [hreceived, Decoder.drain_frame h, Drained.after_frames, List.append_assoc]
    · rw [hrest, Decoder.drain_frame h, Drained.after_rest]
  | @stop bs h =>
    subst hbs
    refine ⟨_, (Loop.returns_inr (recvTurn_stop hheader received h)).mpr rfl, ?_, ?_⟩
    · rw [Decoder.drain_stop h, List.append_nil]
    · rw [Decoder.drain_stop h]
  | fail h => exact absurd h (payloadHead_ne_fail _)

/-- **The parse loop is the decoder**: it gives `OnRecv` the decoder's payloads
and leaves the decoder's rest in the ring. -/
theorem recvLoop_eq_drain (ring : Ringbuffer) :
    (recvLoop spec ring).received = (payloadDecoder.drain ring.data).frames ∧
    (recvLoop spec ring).ring.data = (payloadDecoder.drain ring.data).rest := by
  obtain ⟨result, hret, hresult⟩ := recvLoop_from hheader ring []
  have heq : recvLoop spec ring = result :=
    (Loop.returns_eval (recvTurn_decreases spec) _).unique hret
  rw [heq]
  simpa using hresult

end

/-! ## Receive completions -/

variable (spec : ClientSpec)

/-- A receive completion up to its `RecvPost`. With no bytes it is the end of
the connection, and nothing is parsed. -/
def recvCompletion (st : RecvResult) (bytes : List UInt8) : RecvResult :=
  if bytes = [] then st
  else
    let result := recvLoop spec (st.ring.moveWritePos bytes)
    ⟨result.ring, st.received ++ result.received⟩

/-- All receive completions of a connection. -/
def receiveAll (completions : List (List UInt8)) : RecvResult :=
  completions.foldl (recvCompletion spec) ⟨Ringbuffer.initPointer, []⟩

theorem receiveAll_append_singleton (completions : List (List UInt8)) (bytes : List UInt8) :
    receiveAll spec (completions ++ [bytes]) =
      recvCompletion spec (receiveAll spec completions) bytes := by
  simp [receiveAll]

/-- Completion by completion, the connection has decoded the stream so far. -/
theorem receiveAll_eq_drain {spec : ClientSpec} (hheader : spec.headerSize = 2)
    (completions : List (List UInt8)) :
    (receiveAll spec completions).received =
      (payloadDecoder.drain completions.flatten).frames ∧
    (receiveAll spec completions).ring.data =
      (payloadDecoder.drain completions.flatten).rest := by
  induction completions using List.reverseRecOn with
  | nil =>
    rw [List.flatten_nil, Decoder.drain_stop payloadDecoder.nil_stop]
    exact ⟨rfl, rfl⟩
  | append_singleton completions bytes ih =>
    obtain ⟨hreceived, hring⟩ := ih
    rw [receiveAll_append_singleton, recvCompletion, List.flatten_append, List.flatten_singleton]
    by_cases hbytes : bytes = []
    · -- the end of the connection adds nothing to the stream
      rw [if_pos hbytes, hbytes, List.append_nil]
      exact ⟨hreceived, hring⟩
    · obtain ⟨hloop, hrest⟩ := recvLoop_eq_drain hheader
        ((receiveAll spec completions).ring.moveWritePos bytes)
      rw [Ringbuffer.moveWritePos_data, hring] at hloop hrest
      rw [if_neg hbytes, Decoder.drain_append bytes (drain_not_failed _)]
      refine ⟨?_, hrest⟩
      show (receiveAll spec completions).received ++ _ = _
      rw [hreceived, hloop, Drained.after_frames]

/-- **The stream of the DB server**: however it is cut into completions,
`OnRecv` gets the payloads of the whole stream in order, the bytes of an
unfinished frame stay in the ring, and the loop ends from every state. -/
theorem recv_frames {spec : ClientSpec} (hheader : spec.headerSize = 2)
    (completions : List (List UInt8)) :
    (receiveAll spec completions).received =
      (payloadDecoder.drain completions.flatten).frames ∧
    (receiveAll spec completions).ring.data =
      (payloadDecoder.drain completions.flatten).rest ∧
    ∀ st : RecvLoop, ∃ result, Loop.Returns (recvTurn spec) st result := by
  obtain ⟨hreceived, hring⟩ := receiveAll_eq_drain hheader completions
  exact ⟨hreceived, hring, fun st => ⟨_, Loop.returns_eval (recvTurn_decreases spec) st⟩⟩

/-- An empty payload and one of a byte, cut inside both headers. -/
theorem recv_frames_cut :
    (receiveAll reconnectingSpec [[0], [0, 1], [0, 7]]).received =
      (payloadDecoder.drain [[0], [0, 1], [0, 7]].flatten).frames :=
  (@recv_frames reconnectingSpec rfl [[0], [0, 1], [0, 7]]).1

example : (receiveAll reconnectingSpec [[0], [0, 1], [0, 7]]).received = [[], [7]] := by decide

/-- The `Worker` of `Session.lean` takes a completion in just as `receiveAll`
does. -/
theorem execWorker_recvCompleted (s : State) (bytes : List UInt8) :
    ((execWorker spec s (.recvCompleted bytes)).1.ringBuffer,
      (execWorker spec s (.recvCompleted bytes)).1.received) =
    ((recvCompletion spec ⟨s.ringBuffer, s.received⟩ bytes).ring,
      (recvCompletion spec ⟨s.ringBuffer, s.received⟩ bytes).received) := by
  rw [execWorker, recvCompletion]
  by_cases hbytes : bytes = []
  · rw [if_pos hbytes, hbytes]
    rfl
  · rw [if_neg hbytes, if_neg (by simpa using hbytes)]

end RioServer.Client
