import RioServer.Db.DbJob

/-!
# Channels and sessions (MultiLanClient.cpp:27, 170, 490–532)

`SendPacket` indexes `sessionList` with a channel id. The list has
`SESSION_COUNT` entries; the ids are taken modulo `WORKER_THREAD` by one
overload and modulo `USE_IOCPWORKER` by the other. All three are bytes of the
option file, and `LanClientOptionParsing` takes any (`parsing_accepts`).

So a client stays inside its list, whatever is sent, just when neither modulus
is zero or more than the number of sessions (`channelsSafe_iff`). One direction
is a step lemma for a call and its induction (`runCalls_safe`); for the other,
calls with a null pointer move the counter to any value without an access to
the list (`runCalls_replicate`).
-/

namespace RioServer.Db

/-! ## Options -/

/-- What `CParser` finds in the section `LANCLIENT` of a file. -/
structure OptionFile where
  getValueString : String → Option String
  getValueShort : String → Option UInt16
  getValueByte : String → Option UInt8

/-- The options that channels depend on. -/
structure LanClientOptions where
  numOfWorkerThread : UInt8
  numOfUsingWorkerThread : UInt8
  numOfSession : UInt8
  deriving DecidableEq, Repr

/-- `LanClientOptionParsing` (MultiLanClient.cpp:139), from the opened file. -/
def lanClientOptionParsing (file : OptionFile) : Option LanClientOptions := do
  let _ ← file.getValueString "SERVER_IP"
  let _ ← file.getValueShort "SERVER_PORT"
  let numOfWorkerThread ← file.getValueByte "WORKER_THREAD"
  let numOfUsingWorkerThread ← file.getValueByte "USE_IOCPWORKER"
  let _ ← file.getValueByte "NAGLE_ON"
  let _ ← file.getValueByte "RECONNECT"
  let numOfSession ← file.getValueByte "SESSION_COUNT"
  return ⟨numOfWorkerThread, numOfUsingWorkerThread, numOfSession⟩

/-- A file of the shape of `DBClientOptionFile.txt`. -/
def LanClientOptions.toFile (options : LanClientOptions) : OptionFile where
  getValueString _ := some "127.0.0.1"
  getValueShort _ := some 10001
  getValueByte name :=
    if name = "WORKER_THREAD" then some options.numOfWorkerThread
    else if name = "USE_IOCPWORKER" then some options.numOfUsingWorkerThread
    else if name = "SESSION_COUNT" then some options.numOfSession
    else some 0

/-- No combination of the three is refused. -/
theorem parsing_accepts (options : LanClientOptions) :
    lanClientOptionParsing options.toFile = some options := by
  simp [lanClientOptionParsing, LanClientOptions.toFile]

/-- The client after `Start` (MultiLanClient.cpp:27), `channelSelector` calls
later; `buffers` are those of its callers. -/
def LanClientOptions.client (options : LanClientOptions) (channelSelector : UInt64)
    (buffers : List SerializationBuf) : DbClient where
  numOfWorkerThread := options.numOfWorkerThread
  numOfUsingWorkerThread := options.numOfUsingWorkerThread
  sessionListSize := options.numOfSession.toNat
  channelSelector := channelSelector
  buffers := buffers
  enqueued := []
  errors := []

/-! ## Sequences of calls -/

/-- A call of one of the overloads of `SendPacket`. -/
inductive SendCall where
  | sendPacket (serializeBuf : Option Nat)
  | sendPacketFixed (serializeBuf : Option Nat) (fixedId : UInt64)
  deriving DecidableEq, Repr

namespace SendCall

def serializeBuf : SendCall → Option Nat
  | sendPacket buf | sendPacketFixed buf _ => buf

def run : SendCall → DbM Bool
  | sendPacket buf => Db.sendPacket buf
  | sendPacketFixed buf fixedId => Db.sendPacketFixed buf fixedId

/-- The caller passes null or one of its buffers. -/
def Valid (w : DbClient) (call : SendCall) : Prop :=
  ∀ pointer ∈ call.serializeBuf, pointer < w.buffers.length

end SendCall

/-- One call after another; `none` as soon as one stops the process. -/
def runCalls : List SendCall → DbClient → Option DbClient
  | [], w => some w
  | call :: calls, w => (call.run w).bind fun r => runCalls calls r.2

/-- What is sent with these options never divides by zero, and every channel id
that was used is one of a session. -/
def ChannelsSafe (options : LanClientOptions) (channelSelector : UInt64) : Prop :=
  ∀ (buffers : List SerializationBuf) (calls : List SendCall),
    (∀ call ∈ calls, call.Valid (options.client channelSelector buffers)) →
    ∃ w, runCalls calls (options.client channelSelector buffers) = some w ∧
      ∀ e ∈ w.enqueued, e.1 < options.numOfSession.toNat

/-- Neither modulus is zero or goes beyond the sessions. -/
def LanClientOptions.InRange (options : LanClientOptions) : Prop :=
  (0 < options.numOfWorkerThread.toNat ∧
    options.numOfWorkerThread.toNat ≤ options.numOfSession.toNat) ∧
  0 < options.numOfUsingWorkerThread.toNat ∧
    options.numOfUsingWorkerThread.toNat ≤ options.numOfSession.toNat

instance (options : LanClientOptions) : Decidable options.InRange :=
  inferInstanceAs (Decidable (_ ∧ _))

/-! ## Options in range -/

/-- Between calls: the options are those of the start, the callers' buffers are
there, and everything went to a session. -/
structure ClientInv (options : LanClientOptions) (count : Nat) (w : DbClient) : Prop where
  worker : w.numOfWorkerThread = options.numOfWorkerThread
  usingWorker : w.numOfUsingWorkerThread = options.numOfUsingWorkerThread
  size : w.sessionListSize = options.numOfSession.toNat
  buffers : w.buffers.length = count
  sent : ∀ e ∈ w.enqueued, e.1 < options.numOfSession.toNat

variable {options : LanClientOptions} {w : DbClient} {count : Nat}

/-- `SendPacketImpl` with the id of a session. -/
theorem sendPacketImpl_safe (hI : ClientInv options count w) {serializeBuf : Option Nat}
    (hvalid : ∀ pointer ∈ serializeBuf, pointer < count) {channelId : Nat}
    (hchannel : channelId < options.numOfSession.toNat) :
    ∃ r, sendPacketImpl serializeBuf channelId w = some r ∧ ClientInv options count r.2 := by
  obtain ⟨hworker, husing, hsize, hbuffers, hsent⟩ := hI
  cases serializeBuf with
  | none => exact ⟨_, rfl, hworker, husing, hsize, hbuffers, hsent⟩
  | some pointer =>
    have hlt : pointer < w.buffers.length := by
      rw [hbuffers]
      exact hvalid pointer rfl
    rw [sendPacketImpl]
    simp only [List.getElem?_eq_getElem hlt]
    rw [if_pos (by rw [hsize]; exact hchannel)]
    refine ⟨_, rfl, hworker, husing, hsize, ?_, ?_⟩
    · rw [List.length_set]
      exact hbuffers
    · intro e he
      rcases List.mem_append.mp he with hold | hnew
      · exact hsent e hold
      · rw [List.mem_singleton.mp hnew]
        exact hchannel

/-- A modulus that is not zero gives an id. -/
theorem getChannelId_of_pos (h : 0 < w.numOfWorkerThread.toNat) :
    getChannelId w = some ((w.channelSelector + 1).toNat % w.numOfWorkerThread.toNat,
      { w with channelSelector := w.channelSelector + 1 }) := by
  refine if_neg fun hzero => ?_
  rw [hzero] at h
  exact absurd h (by decide)

theorem getFixedChannelId_of_pos (h : 0 < w.numOfUsingWorkerThread.toNat) (fixedId : UInt64) :
    getFixedChannelId fixedId w = some (fixedId.toNat % w.numOfUsingWorkerThread.toNat, w) := by
  refine if_neg fun hzero => ?_
  rw [hzero] at h
  exact absurd h (by decide)

/-- A call with the options in range. -/
theorem SendCall.run_safe (hrange : options.InRange) (hI : ClientInv options count w)
    {call : SendCall} (hvalid : ∀ pointer ∈ call.serializeBuf, pointer < count) :
    ∃ r, call.run w = some r ∧ ClientInv options count r.2 := by
  obtain ⟨⟨hworker, hle⟩, husing, hle'⟩ := hrange
  rw [← hI.worker] at hworker hle
  rw [← hI.usingWorker] at husing hle'
  cases call with
  | sendPacket buf =>
    have hI' : ClientInv options count { w with channelSelector := w.channelSelector + 1 } :=
      ⟨hI.worker, hI.usingWorker, hI.size, hI.buffers, hI.sent⟩
    obtain ⟨r, hrun, hr⟩ := sendPacketImpl_safe hI' hvalid
      (Nat.lt_of_lt_of_le (Nat.mod_lt (w.channelSelector + 1).toNat hworker) hle)
    refine ⟨r, ?_, hr⟩
    show (getChannelId w).bind (fun p => sendPacketImpl buf p.1 p.2) = some r
    rw [getChannelId_of_pos hworker]
    exact hrun
  | sendPacketFixed buf fixedId =>
    obtain ⟨r, hrun, hr⟩ := sendPacketImpl_safe hI hvalid
      (Nat.lt_of_lt_of_le (Nat.mod_lt fixedId.toNat husing) hle')
    refine ⟨r, ?_, hr⟩
    show (getFixedChannelId fixedId w).bind (fun p => sendPacketImpl buf p.1 p.2) = some r
    rw [getFixedChannelId_of_pos husing]
    exact hrun

/-- Any number of calls with the options in range. -/
theorem runCalls_safe (hrange : options.InRange) {calls : List SendCall}
    (hI : ClientInv options count w)
    (hvalid : ∀ call ∈ calls, ∀ pointer ∈ call.serializeBuf, pointer < count) :
    ∃ w', runCalls calls w = some w' ∧ ClientInv options count w' := by
  induction calls generalizing w with
  | nil => exact ⟨w, rfl, hI⟩
  | cons call calls ih =>
    obtain ⟨r, hrun, hr⟩ := SendCall.run_safe hrange hI (hvalid call List.mem_cons_self)
    obtain ⟨w', hcalls, hw'⟩ := ih hr fun c hc => hvalid c (List.mem_cons_of_mem call hc)
    refine ⟨w', ?_, hw'⟩
    rw [runCalls, hrun, Option.bind_some, hcalls]

/-! ## Options out of range -/

/-- Calls with a null pointer move the counter and nothing that a later call
depends on. -/
theorem runCalls_replicate (hworker : 0 < w.numOfWorkerThread.toNat) (n : Nat)
    (calls : List SendCall) :
    ∃ errors, runCalls (List.replicate n (.sendPacket none) ++ calls) w =
      runCalls calls { w with channelSelector := w.channelSelector + .ofNat n,
                              errors := errors } := by
  induction n generalizing w with
  | zero => exact ⟨w.errors, by simp⟩
  | succ n ih =>
    have hcall : (SendCall.sendPacket none).run w = some (false,
        { w with channelSelector := w.channelSelector + 1,
                 errors := w.errors ++ [.serializeBufNullErr] }) := by
      show (getChannelId w).bind (fun p => sendPacketImpl none p.1 p.2) = _
      rw [getChannelId_of_pos hworker]
      rfl
    obtain ⟨errors, hrest⟩ := ih (w := { w with
      channelSelector := w.channelSelector + 1,
      errors := w.errors ++ [.serializeBufNullErr] }) hworker
    refine ⟨errors, ?_⟩
    rw [List.replicate_succ, List.cons_append, runCalls, hcall, Option.bind_some, hrest,
      UInt64.add_assoc, UInt64.add_comm 1, UInt64.ofNat_add]
    rfl

/-- A buffer with an id that is not one of a session stops the process. -/
theorem sendPacketImpl_out_of_range {channelId : Nat} (h : w.sessionListSize ≤ channelId)
    (pointer : Nat) : sendPacketImpl (some pointer) channelId w = none := by
  rw [sendPacketImpl]
  simp only
  split
  · rfl
  · rw [if_neg (by omega)]

theorem sendPacket_out_of_range (hworker : 0 < w.numOfWorkerThread.toNat)
    (h : w.sessionListSize ≤ (w.channelSelector + 1).toNat % w.numOfWorkerThread.toNat)
    (pointer : Nat) : runCalls [.sendPacket (some pointer)] w = none := by
  show ((getChannelId w).bind fun p => sendPacketImpl (some pointer) p.1 p.2).bind _ = none
  have hnone := sendPacketImpl_out_of_range
    (w := { w with channelSelector := w.channelSelector + 1 }) h pointer
  rw [getChannelId_of_pos hworker, Option.bind_some, hnone]
  rfl

theorem sendPacketFixed_out_of_range (husing : 0 < w.numOfUsingWorkerThread.toNat)
    {fixedId : UInt64}
    (h : w.sessionListSize ≤ fixedId.toNat % w.numOfUsingWorkerThread.toNat) (pointer : Nat) :
    runCalls [.sendPacketFixed (some pointer) fixedId] w = none := by
  show ((getFixedChannelId fixedId w).bind fun p =>
    sendPacketImpl (some pointer) p.1 p.2).bind _ = none
  rw [getFixedChannelId_of_pos husing, Option.bind_some, sendPacketImpl_out_of_range h]
  rfl

/-- After some number of calls the next id is the largest there is. -/
theorem counter_reaches (channelSelector : UInt64) {worker : UInt8} (h : 0 < worker.toNat) :
    ∃ n, (channelSelector + .ofNat n + 1).toNat % worker.toNat = worker.toNat - 1 := by
  have hsel := channelSelector.toNat_lt
  have hworker := worker.toNat_lt
  refine ⟨2 ^ 64 - channelSelector.toNat + (worker.toNat - 1) + (2 ^ 64 - 1), ?_⟩
  have hlast : (channelSelector + .ofNat (2 ^ 64 - channelSelector.toNat + (worker.toNat - 1) +
      (2 ^ 64 - 1)) + 1).toNat = worker.toNat - 1 := by
    rw [UInt64.toNat_add, UInt64.toNat_add, UInt64.toNat_ofNat']
    show ((_ + _ % 2 ^ 64) % 2 ^ 64 + 1) % 2 ^ 64 = _
    omega
  rw [hlast, Nat.mod_eq_of_lt (by omega)]

variable {channelSelector : UInt64}

/-- What safe options promise about a single buffer of the callers. -/
theorem ChannelsSafe.ne_none (h : ChannelsSafe options channelSelector) (calls : List SendCall)
    (hvalid : ∀ call ∈ calls, ∀ pointer ∈ call.serializeBuf, pointer = 0) :
    runCalls calls (options.client channelSelector [⟨0, []⟩]) ≠ none := by
  obtain ⟨w, hrun, -⟩ := h [⟨0, []⟩] calls fun call hcall pointer hpointer => by
    rw [hvalid call hcall pointer hpointer]
    exact Nat.one_pos
  rw [hrun]
  exact Option.some_ne_none w

/-- A modulus of zero, or one with an id that no session has, stops the process
in some calls of the first overload. -/
theorem ChannelsSafe.worker (h : ChannelsSafe options channelSelector) :
    0 < options.numOfWorkerThread.toNat ∧
      options.numOfWorkerThread.toNat ≤ options.numOfSession.toNat := by
  have hpos : 0 < options.numOfWorkerThread.toNat := by
    by_contra hzero
    have hworker : options.numOfWorkerThread = 0 :=
      UInt8.toNat_inj.mp (Nat.eq_zero_of_not_pos hzero)
    refine h.ne_none [.sendPacket none] (by simp [SendCall.serializeBuf]) ?_
    have hchannel : getChannelId (options.client channelSelector [⟨0, []⟩]) = none :=
      if_pos hworker
    show ((getChannelId _).bind _).bind _ = none
    rw [hchannel]
    rfl
  refine ⟨hpos, ?_⟩
  by_contra hlt
  obtain ⟨n, hn⟩ := counter_reaches channelSelector hpos
  refine h.ne_none (List.replicate n (.sendPacket none) ++ [.sendPacket (some 0)]) ?_ ?_
  · intro call hcall pointer hpointer
    rcases List.mem_append.mp hcall with hnull | hlast
    · rw [List.eq_of_mem_replicate hnull] at hpointer
      cases hpointer
    · rw [List.mem_singleton.mp hlast] at hpointer
      cases hpointer
      rfl
  · obtain ⟨errors, hcalls⟩ :=
      runCalls_replicate (w := options.client channelSelector [⟨0, []⟩]) hpos n
        [.sendPacket (some 0)]
    rw [hcalls]
    refine sendPacket_out_of_range hpos ?_ 0
    show options.numOfSession.toNat ≤ (channelSelector + .ofNat n + 1).toNat % _
    rw [show (LanClientOptions.client options channelSelector [⟨0, []⟩]).numOfWorkerThread =
      options.numOfWorkerThread from rfl, hn]
    omega

/-- The same for the second overload, in a single call. -/
theorem ChannelsSafe.usingWorker (h : ChannelsSafe options channelSelector) :
    0 < options.numOfUsingWorkerThread.toNat ∧
      options.numOfUsingWorkerThread.toNat ≤ options.numOfSession.toNat := by
  have hpos : 0 < options.numOfUsingWorkerThread.toNat := by
    by_contra hzero
    have husing : options.numOfUsingWorkerThread = 0 :=
      UInt8.toNat_inj.mp (Nat.eq_zero_of_not_pos hzero)
    refine h.ne_none [.sendPacketFixed none 0] (by simp [SendCall.serializeBuf]) ?_
    have hchannel : getFixedChannelId 0 (options.client channelSelector [⟨0, []⟩]) = none :=
      if_pos husing
    show ((getFixedChannelId 0 _).bind _).bind _ = none
    rw [hchannel]
    rfl
  refine ⟨hpos, ?_⟩
  by_contra hlt
  have hfixed : (UInt64.ofNat (options.numOfUsingWorkerThread.toNat - 1)).toNat =
      options.numOfUsingWorkerThread.toNat - 1 := by
    have hlt' := options.numOfUsingWorkerThread.toNat_lt
    exact UInt64.toNat_ofNat_of_lt' (Nat.lt_of_lt_of_le (by omega) (Nat.le_of_ble_eq_true rfl :
      256 ≤ UInt64.size))
  refine h.ne_none [.sendPacketFixed (some 0)
    (.ofNat (options.numOfUsingWorkerThread.toNat - 1))] (by simp [SendCall.serializeBuf]) ?_
  refine sendPacketFixed_out_of_range hpos ?_ 0
  show options.numOfSession.toNat ≤ UInt64.toNat _ % options.numOfUsingWorkerThread.toNat
  rw [hfixed, Nat.mod_eq_of_lt (by omega)]
  omega

/-- **The options have to fit**: whatever calls are made, and wherever the
counter stands, the client stays inside its list exactly when both moduli are
between one and the number of sessions. Parsing refuses none of the rest. -/
theorem channelsSafe_iff (options : LanClientOptions) (channelSelector : UInt64) :
    (∃ file, lanClientOptionParsing file = some options) ∧
    (ChannelsSafe options channelSelector ↔ options.InRange) := by
  refine ⟨⟨_, parsing_accepts options⟩, fun h => ⟨h.worker, h.usingWorker⟩, ?_⟩
  intro hrange buffers calls hvalid
  have hstart : ClientInv options buffers.length (options.client channelSelector buffers) :=
    ⟨rfl, rfl, rfl, rfl, fun e he => absurd he List.not_mem_nil⟩
  obtain ⟨w, hrun, hw⟩ := runCalls_safe hrange hstart hvalid
  exact ⟨w, hrun, hw.sent⟩

/-- `DBClientOptionFile.txt`: four worker threads, all of them used, and two
sessions. -/
def dbClientOptionFile : LanClientOptions := ⟨4, 4, 2⟩

/-- With that file, which is accepted, the second packet that is sent stops the
process. -/
theorem dbClientOptionFile_stops :
    lanClientOptionParsing dbClientOptionFile.toFile = some dbClientOptionFile ∧
    ∃ calls, (∀ call ∈ calls, call.Valid (dbClientOptionFile.client 0 [⟨0, []⟩])) ∧
      runCalls calls (dbClientOptionFile.client 0 [⟨0, []⟩]) = none := by
  refine ⟨parsing_accepts _, [.sendPacket (some 0), .sendPacket (some 0)], ?_, by decide⟩
  simp [SendCall.Valid, SendCall.serializeBuf, LanClientOptions.client]

end RioServer.Db
