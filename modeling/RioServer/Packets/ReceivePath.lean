import RioServer.Lib.Keyed
import RioServer.Packets.PacketManager
import RioServer.Server.RecvCompleted

/-!
# From the wire to the process (RIOTestServer.cpp:306, 377; RIOTestSession.cpp:99)

`RecvCompleted` calls `OnRecvPacket` for each frame it decodes, and `OnRecvPacket`
throws for every packet that is registered. Nobody on the way up catches it, not
the parse loop, not `IOCompleted`, not `Worker`, and an exception that leaves the
function of a thread ends the process.

`dispatchTurn` is the turn of the loop with the call in it, and `process` takes the
receive completions of all sessions as the workers happen to handle them.
`process_survives` says which streams the process survives: those in which no
session has completed a frame of a registered packet, however the streams were cut
and interleaved. The packets that are left reach no handler.
-/

namespace RioServer.Packets

open Framing Keyed

variable (spec : NetBufferSpec) (codec : Codec)

/-! ## The loop with its calls -/

/-- The variables of the loop, and the calls of `HandlePacket` so far. -/
structure DispatchLoop extends RecvLoop where
  calls : List HandlePacketCall

/-- What the loop leaves behind, and the calls that were made in it. -/
structure Dispatched where
  result : RecvResult
  calls : List HandlePacketCall

/-- One turn of the loop (RIOTestServer.cpp:384–416). -/
def dispatchTurn (sessionId : UInt64) (st : DispatchLoop) :
    DispatchLoop ⊕ Except Failure Dispatched :=
  if spec.dfHeaderSize < st.restSize then
    let header := st.ring.peek spec.dfHeaderSize
    let payloadLength := getPayloadLength spec header st.restSize
    if payloadLength = 0 then .inr (.ok ⟨⟨st.ring, st.delivered, false⟩, st.calls⟩)
    else if spec.dfDefaultSize < payloadLength then
      .inr (.ok ⟨⟨st.ring, st.delivered, true⟩, st.calls⟩)
    else
      let (payload, ring) := (st.ring.removeData spec.dfHeaderSize).dequeue payloadLength
      match spec.decode (header ++ payload) with
      | none => .inr (.ok ⟨⟨ring, st.delivered, true⟩, st.calls⟩)
      | some packet =>
        match onRecvPacket codec sessionId packet with
        | .error failure => .inr (.error failure)
        | .ok calls =>
          .inl ⟨⟨ring, st.restSize - (payload.length + spec.dfHeaderSize),
            st.delivered ++ [packet]⟩, st.calls ++ calls⟩
  else .inr (.ok ⟨⟨st.ring, st.delivered, false⟩, st.calls⟩)

variable {spec codec}

/-- Where `recvTurn` leaves the loop, so does the turn with the call. -/
theorem dispatchTurn_inr {sessionId : UInt64} {st : RecvLoop} {result : RecvResult}
    (calls : List HandlePacketCall) (h : recvTurn spec st = .inr result) :
    dispatchTurn spec codec sessionId ⟨st, calls⟩ = .inr (.ok ⟨result, calls⟩) := by
  simp only [recvTurn] at h
  simp only [dispatchTurn]
  split at h
  · next hrest =>
    rw [if_pos hrest]
    split at h
    · next hzero =>
      cases h
      rw [if_pos hzero]
    · next hzero =>
      rw [if_neg hzero]
      split at h
      · next hsize =>
        cases h
        rw [if_pos hsize]
      · next hsize =>
        rw [if_neg hsize]
        revert h
        generalize spec.decode _ = decoded
        cases decoded with
        | none =>
          rintro ⟨⟩
          rfl
        | some packet => rintro ⟨⟩
  · next hrest =>
    cases h
    rw [if_neg hrest]

/-- Where `recvTurn` goes round with a packet, `OnRecvPacket` decides. -/
theorem dispatchTurn_inl (codec : Codec) (sessionId : UInt64) {st : RecvLoop}
    {ring : Ringbuffer} {restSize : Int} {packet : List UInt8} (calls : List HandlePacketCall)
    (h : recvTurn spec st = .inl ⟨ring, restSize, st.delivered ++ [packet]⟩) :
    dispatchTurn spec codec sessionId ⟨st, calls⟩ =
      match onRecvPacket codec sessionId packet with
      | .error failure => .inr (.error failure)
      | .ok calls' => .inl ⟨⟨ring, restSize, st.delivered ++ [packet]⟩, calls ++ calls'⟩ := by
  simp only [recvTurn] at h
  simp only [dispatchTurn]
  split at h
  · next hrest =>
    rw [if_pos hrest]
    split at h
    · cases h
    · next hzero =>
      rw [if_neg hzero]
      split at h
      · cases h
      · next hsize =>
        rw [if_neg hsize]
        revert h
        generalize spec.decode _ = decoded
        cases decoded with
        | none => rintro ⟨⟩
        | some packet' =>
          intro h
          simp only [Sum.inl.injEq, RecvLoop.mk.injEq, List.append_cancel_left_eq,
            List.cons.injEq, and_true] at h
          obtain ⟨hring, hrest', rfl⟩ := h
          simp only [hring, hrest']
  · cases h

variable (spec codec)

/-- A turn that goes round lowers `restSize` by at least the header. -/
theorem dispatchTurn_decreases (sessionId : UInt64) :
    Loop.Decreases (dispatchTurn spec codec sessionId) (fun st => st.restSize.toNat) := by
  intro st st' h
  have hpos := spec.three_le_dfHeaderSize
  simp only [dispatchTurn] at h
  split at h
  · next hrest =>
    split at h
    · cases h
    · split at h
      · cases h
      · split at h
        · cases h
        · split at h
          · cases h
          · cases h
            simp only
            omega
  · cases h

/-- The loop, entered with `restSize = GetUseSize()`. -/
def dispatchLoop (sessionId : UInt64) (ring : Ringbuffer) : Except Failure Dispatched :=
  Loop.eval (dispatchTurn spec codec sessionId) (fun st => st.restSize.toNat)
    (dispatchTurn_decreases spec codec sessionId) ⟨⟨ring, ring.getUseSize, []⟩, []⟩

/-- The id in front of a packet. -/
def readPacketId (packet : List UInt8) : PacketId := ((codec .uint32).get packet).1

/-- It is that of a registered class. -/
def Registered (packet : List UInt8) : Prop :=
  ∃ P ∈ registerPacketList, P.packetId.toPacketId = readPacketId codec packet

instance (packet : List UInt8) : Decidable (Registered codec packet) :=
  inferInstanceAs (Decidable (∃ P ∈ registerPacketList, _))

variable {spec codec}

theorem Registered.throws {packet : List UInt8} (h : Registered codec packet)
    (sessionId : UInt64) : onRecvPacket codec sessionId packet = .error .badAnyCast := by
  obtain ⟨P, hP, hid⟩ := h
  exact onRecvPacket_registered hP hid.symm

theorem onRecvPacket_of_not_registered {packet : List UInt8} (h : ¬Registered codec packet)
    (sessionId : UInt64) : onRecvPacket codec sessionId packet = .ok [] :=
  onRecvPacket_unregistered fun P hP hid => h ⟨P, hP, hid⟩

/-- What the loop does with the frames at hand: one registered packet among them
ends it, and without one it is the loop without its calls. -/
def DispatchesTo (spec : NetBufferSpec) (codec : Codec) (st : RecvLoop)
    (calls : List HandlePacketCall) (outcome : Except Failure Dispatched) : Prop :=
  ((∃ packet ∈ ((frameDecoder spec).drain st.ring.data).frames, Registered codec packet) →
    outcome = .error .badAnyCast) ∧
  ((∀ packet ∈ ((frameDecoder spec).drain st.ring.data).frames, ¬Registered codec packet) →
    ∃ result, Loop.Returns (recvTurn spec) st result ∧ outcome = .ok ⟨result, calls⟩)

theorem dispatchLoop_from (sessionId : UInt64) (ring : Ringbuffer)
    (delivered : List (List UInt8)) (calls : List HandlePacketCall) :
    ∃ outcome, Loop.Returns (dispatchTurn spec codec sessionId)
        ⟨⟨ring, ring.data.length, delivered⟩, calls⟩ outcome ∧
      DispatchesTo spec codec ⟨ring, ring.data.length, delivered⟩ calls outcome := by
  induction hbs : ring.data using (frameDecoder spec).drain_induct
    generalizing ring delivered calls with
  | @frame bs packet rest h ih =>
    subst hbs
    obtain ⟨ring', rfl, hturn⟩ := recvTurn_frame delivered h
    have hdispatch := dispatchTurn_inl codec sessionId calls hturn
    by_cases hregistered : Registered codec packet
    · rw [hregistered.throws sessionId] at hdispatch
      refine ⟨_, (Loop.returns_inr hdispatch).mpr rfl, fun _ => rfl, fun hno => ?_⟩
      refine absurd hregistered (hno packet ?_)
      rw [Decoder.drain_frame h]
      exact List.mem_cons_self
    · rw [onRecvPacket_of_not_registered hregistered sessionId] at hdispatch
      simp only [List.append_nil] at hdispatch
      obtain ⟨outcome, hreturns, hbad, hgood⟩ := ih ring' (delivered ++ [packet]) calls rfl
      refine ⟨outcome, (Loop.returns_inl hdispatch).mpr hreturns, ?_, ?_⟩
      · rintro ⟨packet', hmem, hregistered'⟩
        rw [Decoder.drain_frame h, Drained.after_frames] at hmem
        refine hbad ⟨packet', ?_, hregistered'⟩
        rcases List.mem_cons.mp hmem with rfl | hmem
        · exact absurd hregistered' hregistered
        · exact hmem
      · intro hno
        obtain ⟨result, hreturns', houtcome⟩ := hgood fun packet' hmem => by
          refine hno packet' ?_
          rw [Decoder.drain_frame h, Drained.after_frames]
          exact List.mem_cons_of_mem _ hmem
        exact ⟨result, (Loop.returns_inl hturn).mpr hreturns', houtcome⟩
  | @stop bs h =>
    subst hbs
    have hturn := recvTurn_stop delivered h
    refine ⟨_, (Loop.returns_inr (dispatchTurn_inr calls hturn)).mpr rfl, ?_, fun _ => ?_⟩
    · rintro ⟨packet, hmem, -⟩
      rw [Decoder.drain_stop h] at hmem
      cases hmem
    · exact ⟨_, (Loop.returns_inr hturn).mpr rfl, rfl⟩
  | @fail bs h =>
    subst hbs
    obtain ⟨ring', hturn⟩ := recvTurn_fail delivered h
    refine ⟨_, (Loop.returns_inr (dispatchTurn_inr calls hturn)).mpr rfl, ?_, fun _ => ?_⟩
    · rintro ⟨packet, hmem, -⟩
      rw [Decoder.drain_fail h] at hmem
      cases hmem
    · exact ⟨_, (Loop.returns_inr hturn).mpr rfl, rfl⟩

/-- **The loop with its calls**: without a registered packet it is `recvLoop` and
calls nobody, and with one it throws. -/
theorem dispatchLoop_eq (sessionId : UInt64) (ring : Ringbuffer) :
    dispatchLoop spec codec sessionId ring =
      if ∃ packet ∈ (recvLoop spec ring).delivered, Registered codec packet then
        .error .badAnyCast
      else .ok ⟨recvLoop spec ring, []⟩ := by
  obtain ⟨outcome, hreturns, hbad, hgood⟩ :=
    @dispatchLoop_from spec codec sessionId ring [] []
  have heq : dispatchLoop spec codec sessionId ring = outcome :=
    (Loop.returns_eval (dispatchTurn_decreases spec codec sessionId) _).unique hreturns
  rw [heq, (recvLoop_eq_drain ring).1]
  split
  · next hregistered => exact hbad hregistered
  · next hregistered =>
    obtain ⟨result, hreturns', rfl⟩ := hgood fun packet hmem hr => hregistered ⟨packet, hmem, hr⟩
    have hresult : recvLoop spec ring = result :=
      (Loop.returns_eval (recvTurn_decreases spec) _).unique hreturns'
    rw [hresult]

/-! ## All sessions -/

variable (spec codec)

/-- `RecvCompleted` for a session, with what its earlier completions have left:
after a `packetError` the session is released, and receives nothing more. -/
def recvDispatch (sessionId : UInt64) (st : Dispatched) (bytes : List UInt8) :
    Except Failure Dispatched :=
  if st.result.packetError then .ok st
  else do
    let ⟨result, calls⟩ ← dispatchLoop spec codec sessionId (st.result.ring.moveWritePos bytes)
    return ⟨{ result with delivered := st.result.delivered ++ result.delivered },
      st.calls ++ calls⟩

/-- A new session. -/
def Dispatched.initial : Dispatched := ⟨⟨Ringbuffer.initPointer, [], false⟩, []⟩

/-- The receive completions of all sessions, in the order in which the workers
handle them. -/
def process (completions : List (UInt64 × List UInt8)) :
    Except Failure (UInt64 → Dispatched) :=
  run (recvDispatch spec codec) (fun _ => .initial) completions

variable {spec codec}

/-- One completion: it is that of a session without handlers, unless a registered
packet has become complete. -/
theorem recvDispatch_eq (sessionId : UInt64) (st : RecvResult) (bytes : List UInt8) :
    (∀ packet ∈ st.delivered, ¬Registered codec packet) →
    recvDispatch spec codec sessionId ⟨st, []⟩ bytes =
      if ∃ packet ∈ (recvCompletion spec st bytes).delivered, Registered codec packet then
        .error .badAnyCast
      else .ok ⟨recvCompletion spec st bytes, []⟩ := by
  intro hdelivered
  have hno : ¬∃ packet ∈ st.delivered, Registered codec packet := by
    rintro ⟨packet, hmem, hregistered⟩
    exact hdelivered packet hmem hregistered
  rw [recvDispatch, recvCompletion]
  by_cases herror : st.packetError = true
  · rw [if_pos herror, if_pos herror, if_neg hno]
  · rw [if_neg herror, if_neg herror, dispatchLoop_eq]
    -- nothing that was delivered before is registered
    have hiff : (∃ packet ∈ st.delivered ++ (recvLoop spec (st.ring.moveWritePos bytes)).delivered,
        Registered codec packet) ↔
        ∃ packet ∈ (recvLoop spec (st.ring.moveWritePos bytes)).delivered,
          Registered codec packet := by
      constructor
      · rintro ⟨packet, hmem, hregistered⟩
        rcases List.mem_append.mp hmem with hold | hnew
        · exact absurd hregistered (hdelivered packet hold)
        · exact ⟨packet, hnew, hregistered⟩
      · rintro ⟨packet, hmem, hregistered⟩
        exact ⟨packet, List.mem_append_right _ hmem, hregistered⟩
    by_cases hregistered : ∃ packet ∈ (recvLoop spec (st.ring.moveWritePos bytes)).delivered,
        Registered codec packet
    · rw [if_pos hregistered, if_pos (hiff.mpr hregistered)]
      rfl
    · rw [if_neg hregistered, if_neg fun h => hregistered (hiff.mp h)]
      rfl

/-- A session by itself gets through its completions exactly if no registered
packet is among those it has decoded. -/
theorem foldlM_recvDispatch (sessionId : UInt64) (completions : List (List UInt8)) :
    completions.foldlM (recvDispatch spec codec sessionId) .initial =
      if ∃ packet ∈ (receiveAll spec completions).delivered, Registered codec packet then
        .error .badAnyCast
      else .ok ⟨receiveAll spec completions, []⟩ := by
  induction completions using List.reverseRecOn with
  | nil =>
    have hno : ¬∃ packet ∈ (receiveAll spec []).delivered, Registered codec packet := by
      rintro ⟨packet, hmem, -⟩
      cases hmem
    rw [if_neg hno]
    rfl
  | append_singleton completions bytes ih =>
    rw [List.foldlM_append, ih, receiveAll_append_singleton]
    by_cases hregistered : ∃ packet ∈ (receiveAll spec completions).delivered,
        Registered codec packet
    · -- what was delivered stays delivered
      have hstill : ∃ packet ∈ (recvCompletion spec (receiveAll spec completions) bytes).delivered,
          Registered codec packet := by
        obtain ⟨packet, hmem, hpacket⟩ := hregistered
        refine ⟨packet, ?_, hpacket⟩
        rw [recvCompletion]
        split
        · exact hmem
        · exact List.mem_append_left _ hmem
      rw [if_pos hregistered, if_pos hstill]
      rfl
    · rw [if_neg hregistered]
      show [bytes].foldlM (recvDispatch spec codec sessionId) ⟨receiveAll spec completions, []⟩ = _
      rw [List.foldlM_cons, recvDispatch_eq sessionId _ bytes fun packet hmem hr =>
        hregistered ⟨packet, hmem, hr⟩]
      split <;> rfl

/-- **What the process survives**: it gets through the completions of all sessions,
cut and interleaved in any way, exactly if no session's stream holds a complete
frame of a registered packet. It has then done for each session what the parse loop
does, and has called no handler. It ends in `bad_any_cast` and in nothing else. -/
theorem process_survives (spec : NetBufferSpec) (codec : Codec)
    (completions : List (UInt64 × List UInt8)) :
    ((∃ sessions, process spec codec completions = .ok sessions) ↔
      ∀ sessionId,
        ∀ packet ∈ ((frameDecoder spec).drain (select sessionId completions).flatten).frames,
          ¬Registered codec packet) ∧
    (∀ sessions, process spec codec completions = .ok sessions → ∀ sessionId,
      sessions sessionId = ⟨receiveAll spec (select sessionId completions), []⟩) ∧
    (∀ failure, process spec codec completions = .error failure → failure = .badAnyCast) := by
  have hiff : ∀ sessions, process spec codec completions = .ok sessions ↔
      ∀ sessionId, (∀ packet ∈ (receiveAll spec (select sessionId completions)).delivered,
        ¬Registered codec packet) ∧
        sessions sessionId = ⟨receiveAll spec (select sessionId completions), []⟩ := by
    intro sessions
    rw [process, run_eq_ok_iff]
    refine forall_congr' fun sessionId => ?_
    rw [foldlM_recvDispatch]
    constructor
    · intro h
      split at h
      · cases h
      · next hno =>
        exact ⟨fun packet hmem hr => hno ⟨packet, hmem, hr⟩, (Except.ok.inj h).symm⟩
    · rintro ⟨hno, hsession⟩
      rw [if_neg (by rintro ⟨packet, hmem, hr⟩; exact hno packet hmem hr), hsession]
  have hdelivered : ∀ sessionId, (receiveAll spec (select sessionId completions)).delivered =
      ((frameDecoder spec).drain (select sessionId completions).flatten).frames :=
    fun sessionId => (receiveAll_eq_drain spec _).1
  refine ⟨⟨?_, fun hno => ?_⟩, fun sessions h sessionId => ((hiff sessions).mp h sessionId).2,
    fun failure h => ?_⟩
  · rintro ⟨sessions, h⟩ sessionId
    rw [← hdelivered]
    exact ((hiff sessions).mp h sessionId).1
  · refine ⟨fun sessionId => ⟨receiveAll spec (select sessionId completions), []⟩,
      (hiff _).mpr fun sessionId => ⟨?_, rfl⟩⟩
    rw [hdelivered]
    exact hno sessionId
  · obtain ⟨sessionId, st, bytes, hfail⟩ := exists_of_run_eq_error h
    rw [recvDispatch] at hfail
    split at hfail
    · cases hfail
    · rw [dispatchLoop_eq] at hfail
      split at hfail
      · cases hfail
        rfl
      · cases hfail

end RioServer.Packets
