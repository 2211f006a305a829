import RioServer.Lib.Framing
import RioServer.Lib.Loop
import RioServer.Server.Types

/-!
# The parse loop of `RecvCompleted` (RIOTestServer.cpp:377–416, 444–463)

`recvTurn` is one turn of the `while` loop, with the loop's own `restSize`
beside the ring; `recvLoop` is the whole loop, which ends because every turn
that goes round lowers `restSize`. `frameDecoder` is what the loop is for: a
decoder of length-prefixed frames in the sense of `Lib/Framing.lean`.
`recvLoop_eq_drain` connects the two, and chunk-invariance follows from the
library.

`receiveAll` folds the loop over the receive completions of a session.
-/

namespace RioServer

open Framing

variable (spec : NetBufferSpec)

/-- The header field `code`. -/
def codeField (bs : List UInt8) : UInt8 := bs.getD 0 0

/-- The header field `payloadLength`: the little-endian `WORD` behind `code`. -/
def payloadLengthField (bs : List UInt8) : Nat :=
  (bs.getD 1 0).toNat + 256 * (bs.getD 2 0).toNat

/-- `GetPayloadLength` (RIOTestServer.cpp:444). -/
def getPayloadLength (buffer : List UInt8) (restSize : Int) : Nat :=
  if codeField buffer ≠ spec.headerCode then 0
  else if restSize < payloadLengthField buffer + spec.dfHeaderSize then 0
  else payloadLengthField buffer

/-- The variables of the loop: the ring, `restSize`, and the packets that were
given to `OnRecvPacket`. -/
structure RecvLoop where
  ring : Ringbuffer
  restSize : Int
  delivered : List (List UInt8)

/-- What the loop leaves behind. -/
structure RecvResult where
  ring : Ringbuffer
  delivered : List (List UInt8)
  packetError : Bool
  deriving DecidableEq, Repr

/-- One turn of the loop (RIOTestServer.cpp:384–416). -/
def recvTurn (st : RecvLoop) : RecvLoop ⊕ RecvResult :=
  if spec.dfHeaderSize < st.restSize then
    let header := st.ring.peek spec.dfHeaderSize
    let payloadLength := getPayloadLength spec header st.restSize
    if payloadLength = 0 then .inr ⟨st.ring, st.delivered, false⟩
    else if spec.dfDefaultSize < payloadLength then .inr ⟨st.ring, st.delivered, true⟩
    else
      let (payload, ring) := (st.ring.removeData spec.dfHeaderSize).dequeue payloadLength
      match spec.decode (header ++ payload) with
      | none => .inr ⟨ring, st.delivered, true⟩
      | some packet =>
        .inl ⟨ring, st.restSize - (payload.length + spec.dfHeaderSize),
          st.delivered ++ [packet]⟩
  else .inr ⟨st.ring, st.delivered, false⟩

/-- A turn that goes round lowers `restSize` by at least the header. -/
theorem recvTurn_decreases : Loop.Decreases (recvTurn spec) (fun st => st.restSize.toNat) := by
  intro st st' h
  have hpos := spec.three_le_dfHeaderSize
  simp only [recvTurn] at h
  split at h
  · next hrest =>
    split at h
    · cases h
    · split at h
      · cases h
      · split at h
        · cases h
        · cases h
          simp only
          omega
  · cases h

/-- The loop, entered with `restSize = GetUseSize()`. -/
def recvLoop (ring : Ringbuffer) : RecvResult :=
  Loop.eval (recvTurn spec) (fun st => st.restSize.toNat) (recvTurn_decreases spec)
    ⟨ring, ring.getUseSize, []⟩

/-! ## The decoder the loop implements -/

/-- What the loop finds at the head of the unread bytes. -/
def frameHead (bs : List UInt8) : Head UInt8 (List UInt8) :=
  if bs.length ≤ spec.dfHeaderSize then .stop
  else if codeField bs ≠ spec.headerCode then .stop
  else if bs.length < payloadLengthField bs + spec.dfHeaderSize then .stop
  else if payloadLengthField bs = 0 then .stop
  else if spec.dfDefaultSize < payloadLengthField bs then .fail
  else
    match spec.decode (bs.take (spec.dfHeaderSize + payloadLengthField bs)) with
    | none => .fail
    | some packet => .frame packet (bs.drop (spec.dfHeaderSize + payloadLengthField bs))

variable {spec}

/-- Header fields are read from the first three bytes. -/
theorem codeField_append {bs : List UInt8} (h : 3 ≤ bs.length) (ext : List UInt8) :
    codeField (bs ++ ext) = codeField bs :=
  List.getD_append _ _ _ _ (by omega)

theorem payloadLengthField_append {bs : List UInt8} (h : 3 ≤ bs.length) (ext : List UInt8) :
    payloadLengthField (bs ++ ext) = payloadLengthField bs := by
  rw [payloadLengthField, List.getD_append _ _ _ _ (by omega),
    List.getD_append _ _ _ _ (by omega)]
  rfl

theorem codeField_take {bs : List UInt8} {n : Nat} (h : 3 ≤ n) :
    codeField (bs.take n) = codeField bs := by
  simp [codeField, List.getD_eq_getElem?_getD, show 0 < n by omega]

theorem payloadLengthField_take {bs : List UInt8} {n : Nat} (h : 3 ≤ n) :
    payloadLengthField (bs.take n) = payloadLengthField bs := by
  simp [payloadLengthField, List.getD_eq_getElem?_getD, show 1 < n by omega,
    show 2 < n by omega]

/-- The conditions under which a complete frame is at the head. -/
theorem frameHead_eq_frame {bs packet rest : List UInt8} :
    frameHead spec bs = .frame packet rest ↔
      spec.dfHeaderSize < bs.length ∧ codeField bs = spec.headerCode ∧
      payloadLengthField bs + spec.dfHeaderSize ≤ bs.length ∧ payloadLengthField bs ≠ 0 ∧
      payloadLengthField bs ≤ spec.dfDefaultSize ∧
      spec.decode (bs.take (spec.dfHeaderSize + payloadLengthField bs)) = some packet ∧
      rest = bs.drop (spec.dfHeaderSize + payloadLengthField bs) := by
  constructor
  · intro h
    unfold frameHead at h
    split_ifs at h with hlen hcode hcomplete hzero hsize
    split at h
    · cases h
    · next packet' hdec =>
      cases h
      exact ⟨by omega, not_not.mp hcode, by omega, hzero, by omega, hdec, rfl⟩
  · rintro ⟨hlen, hcode, hcomplete, hzero, hsize, hdec, rfl⟩
    rw [frameHead, if_neg (by omega), if_neg (not_not.mpr hcode), if_neg (by omega),
      if_neg hzero, if_neg (by omega), hdec]

/-- The conditions under which the loop gives up on the stream. -/
theorem frameHead_eq_fail {bs : List UInt8} :
    frameHead spec bs = .fail ↔
      spec.dfHeaderSize < bs.length ∧ codeField bs = spec.headerCode ∧
      payloadLengthField bs + spec.dfHeaderSize ≤ bs.length ∧ payloadLengthField bs ≠ 0 ∧
      (payloadLengthField bs ≤ spec.dfDefaultSize →
        spec.decode (bs.take (spec.dfHeaderSize + payloadLengthField bs)) = none) := by
  constructor
  · intro h
    unfold frameHead at h
    split_ifs at h with hlen hcode hcomplete hzero hsize
    · exact ⟨by omega, not_not.mp hcode, by omega, hzero, fun hle => absurd hsize (by omega)⟩
    · split at h
      · next hdec =>
        exact ⟨by omega, not_not.mp hcode, by omega, hzero, fun _ => hdec⟩
      · cases h
  · rintro ⟨hlen, hcode, hcomplete, hzero, hdec⟩
    rw [frameHead, if_neg (by omega), if_neg (not_not.mpr hcode), if_neg (by omega),
      if_neg hzero]
    split
    · rfl
    · next hsize => rw [hdec (by omega)]

/-- The frames of a client's stream as an incremental decoder: a verdict on a
complete frame reads only the bytes of that frame. -/
def frameDecoder (spec : NetBufferSpec) : Decoder UInt8 (List UInt8) where
  head := frameHead spec
  rest_lt h := by
    obtain ⟨hlen, -, -, hzero, -, -, rfl⟩ := frameHead_eq_frame.mp h
    rw [List.length_drop]
    omega
  nil_stop := by simp [frameHead]
  frame_append {bs packet rest} ext h := by
    have h3 := spec.three_le_dfHeaderSize
    obtain ⟨hlen, hcode, hcomplete, hzero, hsize, hdec, rfl⟩ := frameHead_eq_frame.mp h
    rw [frameHead_eq_frame, codeField_append (by omega), payloadLengthField_append (by omega)]
    refine ⟨?_, hcode, ?_, hzero, hsize, ?_, ?_⟩
    · rw [List.length_append]
      omega
    · rw [List.length_append]
      omega
    · rw [List.take_append_of_le_length (by omega)]
      exact hdec
    · rw [List.drop_append_of_le_length (by omega)]
  fail_append {bs} ext h := by
    have h3 := spec.three_le_dfHeaderSize
    obtain ⟨hlen, hcode, hcomplete, hzero, hdec⟩ := frameHead_eq_fail.mp h
    rw [frameHead_eq_fail, codeField_append (by omega), payloadLengthField_append (by omega)]
    refine ⟨?_, hcode, ?_, hzero, ?_⟩
    · rw [List.length_append]
      omega
    · rw [List.length_append]
      omega
    · rw [List.take_append_of_le_length (by omega)]
      exact hdec

/-! ## The loop is the decoder -/

/-- `GetPayloadLength` on the peeked header, with `restSize` in step with the
ring. -/
theorem getPayloadLength_peek (ring : Ringbuffer) :
    getPayloadLength spec (ring.peek spec.dfHeaderSize) ring.data.length =
      if codeField ring.data ≠ spec.headerCode then 0
      else if ring.data.length < payloadLengthField ring.data + spec.dfHeaderSize then 0
      else payloadLengthField ring.data := by
  have h3 := spec.three_le_dfHeaderSize
  rw [getPayloadLength, Ringbuffer.peek, codeField_take h3, payloadLengthField_take h3]
  norm_cast

theorem getPayloadLength_complete {ring : Ringbuffer}
    (hcode : codeField ring.data = spec.headerCode)
    (hcomplete : payloadLengthField ring.data + spec.dfHeaderSize ≤ ring.data.length) :
    getPayloadLength spec (ring.peek spec.dfHeaderSize) ring.data.length =
      payloadLengthField ring.data := by
  rw [getPayloadLength_peek, if_neg (not_not.mpr hcode), if_neg (by omega)]

/-- The peeked header and the dequeued payload are the frame's bytes. -/
theorem peek_append_dequeue (ring : Ringbuffer) (n m : Nat) :
    ring.peek n ++ ((ring.removeData n).dequeue m).1 = ring.data.take (n + m) := by
  rw [Ringbuffer.peek, Ringbuffer.dequeue_fst, Ringbuffer.removeData_data, List.take_add]

/-- A turn at the head of a complete frame delivers it and keeps `restSize` in
step with the ring. -/
theorem recvTurn_frame {ring : Ringbuffer} (delivered : List (List UInt8))
    {packet rest : List UInt8} (h : frameHead spec ring.data = .frame packet rest) :
    ∃ ring' : Ringbuffer, ring'.data = rest ∧
      recvTurn spec ⟨ring, ring.data.length, delivered⟩ =
        .inl ⟨ring', ring'.data.length, delivered ++ [packet]⟩ := by
  obtain ⟨hlen, hcode, hcomplete, hzero, hsize, hdec, rfl⟩ := frameHead_eq_frame.mp h
  refine ⟨((ring.removeData spec.dfHeaderSize).dequeue (payloadLengthField ring.data)).2, ?_, ?_⟩
  · simp [List.drop_drop]
  · simp only [recvTurn]
    rw [if_pos (by exact_mod_cast hlen), getPayloadLength_complete hcode hcomplete,
      if_neg hzero, if_neg (by omega), peek_append_dequeue, hdec]
    simp only [Ringbuffer.dequeue_fst, Ringbuffer.dequeue_snd_data, Ringbuffer.removeData_data,
      List.length_take, List.length_drop, Sum.inl.injEq, RecvLoop.mk.injEq, and_true, true_and]
    omega

/-- A turn that finds nothing to deliver leaves the ring alone. -/
theorem recvTurn_stop {ring : Ringbuffer} (delivered : List (List UInt8))
    (h : frameHead spec ring.data = .stop) :
    recvTurn spec ⟨ring, ring.data.length, delivered⟩ = .inr ⟨ring, delivered, false⟩ := by
  simp only [recvTurn]
  by_cases hlen : spec.dfHeaderSize < ring.data.length
  · rw [if_pos (by exact_mod_cast hlen), getPayloadLength_peek]
    rw [frameHead, if_neg (by omega)] at h
    by_cases hcode : codeField ring.data ≠ spec.headerCode
    · rw [if_pos hcode, if_pos rfl]
    · rw [if_neg hcode] at h ⊢
      by_cases hshort : ring.data.length < payloadLengthField ring.data + spec.dfHeaderSize
      · rw [if_pos hshort, if_pos rfl]
      · rw [if_neg hshort] at h ⊢
        by_cases hzero : payloadLengthField ring.data = 0
        · rw [if_pos hzero]
        · -- a complete frame is delivered or rejected
          rw [if_neg hzero] at h
          split at h
          · cases h
          · split at h <;> cases h
  · -- the loop's own test ends it
    rw [if_neg (by exact_mod_cast hlen)]

/-- A turn that rejects the stream sets `packetError`. -/
theorem recvTurn_fail {ring : Ringbuffer} (delivered : List (List UInt8))
    (h : frameHead spec ring.data = .fail) :
    ∃ ring', recvTurn spec ⟨ring, ring.data.length, delivered⟩ =
      .inr ⟨ring', delivered, true⟩ := by
  obtain ⟨hlen, hcode, hcomplete, hzero, hdec⟩ := frameHead_eq_fail.mp h
  simp only [recvTurn]
  rw [if_pos (by exact_mod_cast hlen), getPayloadLength_complete hcode hcomplete, if_neg hzero]
  split
  · -- too long for a `NetBuffer`: rejected before anything is dequeued
    exact ⟨ring, rfl⟩
  · -- the payload is out of the ring when `Decode` refuses it
    next hsize =>
    rw [peek_append_dequeue, hdec (by omega)]
    exact ⟨_, rfl⟩

/-- The loop from any point on, with `restSize` in step with the ring, ends as
the decoder does. -/
theorem recvLoop_from (ring : Ringbuffer) (delivered : List (List UInt8)) :
    ∃ result, Loop.Returns (recvTurn spec) ⟨ring, ring.data.length, delivered⟩ result ∧
      result.delivered = delivered ++ ((frameDecoder spec).drain ring.data).frames ∧
      result.packetError = ((frameDecoder spec).drain ring.data).failed ∧
      (result.packetError = false →
        result.ring.data = ((frameDecoder spec).drain ring.data).rest) := by
  induction hbs : ring.data using (frameDecoder spec).drain_induct generalizing ring delivered with
  | @frame bs packet rest h ih =>
    subst hbs
    -- `restSize` is the ring's size again, so the loop goes on from `ring'`
    obtain ⟨ring', rfl, hturn⟩ := recvTurn_frame delivered h
    obtain ⟨result, hret, hdel, herr, hrest⟩ := ih ring' (delivered ++ [packet]) rfl
    refine ⟨result, (Loop.returns_inl hturn).mpr hret, ?_, ?_, ?_⟩
    · rw [hdel, Decoder.drain_frame h, Drained.after_frames, List.append_assoc]
    · rw [herr, Decoder.drain_frame h, Drained.after_failed]
    · rw [Decoder.drain_frame h, Drained.after_rest]
      exact hrest
  | @stop bs h =>
    subst hbs
    refine ⟨_, (Loop.returns_inr (recvTurn_stop delivered h)).mpr rfl, ?_⟩
    rw [Decoder.drain_stop h, List.append_nil]
    exact ⟨rfl, rfl, fun _ => rfl⟩
  | @fail bs h =>
    subst hbs
    obtain ⟨ring', hturn⟩ := recvTurn_fail delivered h
    refine ⟨_, (Loop.returns_inr hturn).mpr rfl, ?_⟩
    rw [Decoder.drain_fail h, List.append_nil]
    exact ⟨rfl, rfl, fun herr => Bool.noConfusion herr⟩

/-- **The parse loop is the decoder**: it delivers the decoder's packets, sets
`packetError` when the decoder fails, and otherwise leaves the decoder's rest
in the ring. -/
theorem recvLoop_eq_drain (ring : Ringbuffer) :
    (recvLoop spec ring).delivered = ((frameDecoder spec).drain ring.data).frames ∧
    (recvLoop spec ring).packetError = ((frameDecoder spec).drain ring.data).failed ∧
    ((recvLoop spec ring).packetError = false →
      (recvLoop spec ring).ring.data = ((frameDecoder spec).drain ring.data).rest) := by
  obtain ⟨result, hret, hresult⟩ := @recvLoop_from spec ring []
  have heq : recvLoop spec ring = result :=
    (Loop.returns_eval (recvTurn_decreases spec) _).unique hret
  rw [heq]
  simpa using hresult

/-! ## Receive completions -/

variable (spec)

/-- `RecvCompleted` up to its `RecvPost`: the received bytes enter the ring and
the loop runs. A `packetError` releases the session, so nothing is parsed after
one. -/
def recvCompletion (st : RecvResult) (bytes : List UInt8) : RecvResult :=
  if st.packetError then st
  else
    let result := recvLoop spec (st.ring.moveWritePos bytes)
    { result with delivered := st.delivered ++ result.delivered }

/-- All receive completions of a session. -/
def receiveAll (completions : List (List UInt8)) : RecvResult :=
  completions.foldl (recvCompletion spec) ⟨Ringbuffer.initPointer, [], false⟩

theorem receiveAll_append_singleton (completions : List (List UInt8)) (bytes : List UInt8) :
    receiveAll spec (completions ++ [bytes]) =
      recvCompletion spec (receiveAll spec completions) bytes := by
  simp [receiveAll]

/-- Completion by completion, the session does what the decoder does chunk by
chunk. -/
theorem receiveAll_eq_feedAll (completions : List (List UInt8)) :
    (receiveAll spec completions).delivered =
      ((frameDecoder spec).feedAll completions).frames ∧
    (receiveAll spec completions).packetError =
      ((frameDecoder spec).feedAll completions).failed ∧
    ((receiveAll spec completions).packetError = false →
      (receiveAll spec completions).ring.data =
        ((frameDecoder spec).feedAll completions).rest) := by
  induction completions using List.reverseRecOn with
  | nil => exact ⟨rfl, rfl, fun _ => rfl⟩
  | append_singleton completions bytes ih =>
    obtain ⟨hdel, herr, hring⟩ := ih
    rw [receiveAll_append_singleton, Decoder.feedAll_append_singleton, recvCompletion,
      Decoder.feed]
    cases hfailed : ((frameDecoder spec).feedAll completions).failed with
    | true =>
      -- the session is released, and the decoder keeps its failure
      rw [hfailed] at herr
      rw [if_pos herr, if_pos rfl, herr, hfailed]
      exact ⟨hdel, rfl, fun h => Bool.noConfusion h⟩
    | false =>
      rw [hfailed] at herr
      rw [if_neg (by rw [herr]; exact Bool.false_ne_true), if_neg Bool.false_ne_true]
      have hloop := @recvLoop_eq_drain spec
        ((receiveAll spec completions).ring.moveWritePos bytes)
      rw [Ringbuffer.moveWritePos_data, hring herr] at hloop
      refine ⟨?_, hloop.2.1, hloop.2.2⟩
      show (receiveAll spec completions).delivered ++ _ = _
      rw [hdel, hloop.1, Drained.after_frames]

/-- Completion by completion, the session does what the decoder does on the
whole stream. -/
theorem receiveAll_eq_drain (completions : List (List UInt8)) :
    (receiveAll spec completions).delivered =
      ((frameDecoder spec).drain completions.flatten).frames ∧
    (receiveAll spec completions).packetError =
      ((frameDecoder spec).drain completions.flatten).failed ∧
    ((receiveAll spec completions).packetError = false →
      (receiveAll spec completions).ring.data =
        ((frameDecoder spec).drain completions.flatten).rest) := by
  obtain ⟨hdel, herr, hring⟩ := receiveAll_eq_feedAll spec completions
  obtain ⟨hframes, hfailed, hrest⟩ := (frameDecoder spec).feedAll_eq_drain completions
  refine ⟨hdel.trans hframes, herr.trans hfailed, fun h => ?_⟩
  rw [hring h, hrest (herr ▸ h)]

/-- **Chunking is unobservable** to a session: two ways of receiving one stream
deliver the same packets, run into `packetError` both or neither, and without
one leave the same bytes in the ring. The loop itself ends from every state. -/
theorem receiveAll_chunking {cs ds : List (List UInt8)} (h : cs.flatten = ds.flatten) :
    (receiveAll spec cs).delivered = (receiveAll spec ds).delivered ∧
    (receiveAll spec cs).packetError = (receiveAll spec ds).packetError ∧
    ((receiveAll spec cs).packetError = false →
      (receiveAll spec cs).ring.data = (receiveAll spec ds).ring.data) ∧
    ∀ st : RecvLoop, ∃ result, Loop.Returns (recvTurn spec) st result := by
  obtain ⟨hdel, herr, hring⟩ := receiveAll_eq_drain spec cs
  obtain ⟨hdel', herr', hring'⟩ := receiveAll_eq_drain spec ds
  rw [← h] at hdel' herr' hring'
  refine ⟨hdel.trans hdel'.symm, herr.trans herr'.symm, fun hno => ?_, fun st => ?_⟩
  · rw [hring hno, hring' (by rw [herr', ← herr]; exact hno)]
  · exact ⟨_, Loop.returns_eval (recvTurn_decreases spec) st⟩

/-- A frame of one byte, received whole and cut inside the header. -/
theorem receiveAll_chunking_cut :
    (receiveAll plainSpec [[119, 1], [0, 0, 0, 7]]).delivered =
      (receiveAll plainSpec [[119, 1, 0, 0, 0, 7]]).delivered :=
  (@receiveAll_chunking plainSpec [[119, 1], [0, 0, 0, 7]] [[119, 1, 0, 0, 0, 7]] rfl).1

end RioServer
