import RioServer.Lib.UnorderedMap
import RioServer.Packets.Protocol

/-!
# From a buffer to its handler (PacketManager.h, PacketManager.cpp, RIOTestSession.cpp:99)

`PacketManager` keeps two maps by packet id: one to a factory of empty packets,
one to the handler that reads the packet and calls `HandlePacket`.
`onRecvPacket` looks the id up in both and passes the packet on in a
`std::any`. The any remembers the static type of the pointer that was put in,
and `any_cast` asks for that very type.

`MakePacket` returns a pointer to `IPacket`; the handlers ask for a pointer to
`IGameAndClientPacket`. So a registered id ends in `bad_any_cast`
(`onRecvPacket_registered`), although everything behind the cast agrees: the
maps (`find_init`) and the fields on the wire (`packetHandler_reads`).
-/

namespace RioServer.Packets

/-! ## Pointers and any -/

/-- The static types of pointers to packets. -/
inductive PointerType where
  | iPacket
  | iGameAndClientPacket
  deriving DecidableEq, Repr

/-- A packet object: its dynamic type and the values of its fields. -/
structure PacketObject where
  type : GameAndClientPacket
  values : Fields type.fields

/-- A pointer to a packet. -/
structure PacketPointer where
  staticType : PointerType
  object : PacketObject

/-- A `std::any` that holds a pointer. -/
structure Any where
  type : PointerType
  object : PacketObject

/-- `std::any(pointer)` holds the pointer's static type. -/
def Any.ofPointer (p : PacketPointer) : Any := ⟨p.staticType, p.object⟩

/-- How a call ends that does not return: by an exception, or by the undefined
use of an object as one of another class. -/
inductive Failure where
  | badAnyCast
  | wrongStaticCast
  deriving DecidableEq, Repr

/-- `std::any_cast` of a pointer type. -/
def anyCast (type : PointerType) (any : Any) : Except Failure PacketObject :=
  if any.type = type then .ok any.object else .error .badAnyCast

/-- `static_cast` of a pointer to a pointer to `P`. -/
def staticCast (P : GameAndClientPacket) (object : PacketObject) :
    Except Failure (Fields P.fields) :=
  if h : object.type = P then .ok (h ▸ object.values) else .error .wrongStaticCast

/-! ## The manager -/

/-- A call of `HandlePacket`: the session and the packet it is given. -/
structure HandlePacketCall where
  sessionId : UInt64
  packet : PacketObject

/-- `PacketHandler` (PacketManager.h:11). -/
abbrev PacketHandler := UInt64 → List UInt8 → Any → Except Failure HandlePacketCall

/-- `PacketManager` (PacketManager.h:13). A factory is the packet it makes. -/
structure PacketManager where
  packetFactoryFunctionMap : UnorderedMap PacketId PacketObject
  packetHandlerMap : UnorderedMap PacketId PacketHandler

/-- `std::make_shared<PacketType>()`. -/
def makeShared (P : GameAndClientPacket) : PacketObject := ⟨P, Fields.zero P.fields⟩

/-- The handler of a packet class (PacketManager.h:49). -/
def packetHandler (codec : Codec) (P : GameAndClientPacket) : PacketHandler :=
  fun sessionId buffer packet => do
    let object ← anyCast .iGameAndClientPacket packet
    let realPacket ← staticCast P object
    return ⟨sessionId, ⟨P, (P.bufferToPacket codec realPacket buffer).1⟩⟩

/-- `RegisterPacket` (PacketManager.h:33). -/
def PacketManager.registerPacket (m : PacketManager) (P : GameAndClientPacket) :
    PacketManager :=
  { m with packetFactoryFunctionMap :=
      m.packetFactoryFunctionMap.assign P.packetId.toPacketId (makeShared P) }

/-- `RegisterPacketHandler` (PacketManager.h:46). -/
def PacketManager.registerPacketHandler (m : PacketManager) (codec : Codec)
    (P : GameAndClientPacket) : PacketManager :=
  { m with packetHandlerMap :=
      m.packetHandlerMap.assign P.packetId.toPacketId (packetHandler codec P) }

/-- `REGISTER_PACKET` (Protocol.h:245). -/
def PacketManager.register (codec : Codec) (m : PacketManager) (P : GameAndClientPacket) :
    PacketManager :=
  (m.registerPacket P).registerPacketHandler codec P

/-- `REGISTER_PACKET_LIST` (Protocol.h:261). -/
def registerPacketList : List GameAndClientPacket :=
  [testStringPacket, echoStringPacket, testProcedurePacket, selectTest2ProcedurePacket, ping,
    requestFileStream]

/-- `PacketManager::Init` (PacketManager.cpp:11). -/
def PacketManager.init (codec : Codec) : PacketManager :=
  registerPacketList.foldl (PacketManager.register codec) ⟨.empty, .empty⟩

/-- `PacketManager::MakePacket` (PacketManager.cpp:16): the factory's pointer to
`IGameAndClientPacket` is converted to the return type. -/
def PacketManager.makePacket (m : PacketManager) (packetId : PacketId) : Option PacketPointer :=
  (m.packetFactoryFunctionMap.find packetId).map fun object => ⟨.iPacket, object⟩

/-- `PacketManager::GetPacketHandler` (PacketManager.cpp:28). -/
def PacketManager.getPacketHandler (m : PacketManager) (packetId : PacketId) :
    Option PacketHandler :=
  m.packetHandlerMap.find packetId

/-- `RIOTestSession::OnRecvPacket` (RIOTestSession.cpp:99): the calls of
`HandlePacket`, or how the call failed. -/
def onRecvPacket (codec : Codec) (sessionId : UInt64) (recvPacket : List UInt8) :
    Except Failure (List HandlePacketCall) :=
  let (packetId, recvPacket) := (codec .uint32).get recvPacket
  let manager := PacketManager.init codec
  match manager.getPacketHandler packetId with
  | none => .ok []
  | some packetHandler =>
    match manager.makePacket packetId with
    | none => .ok []
    | some packet => do
      let call ← packetHandler sessionId recvPacket (.ofPointer packet)
      return [call]

/-- A packet as a client sends it: the id, and what `PacketToBuffer` writes. -/
def encodePacket (codec : Codec) (packet : PacketObject) : List UInt8 :=
  (codec .uint32).put packet.type.packetId.toPacketId ++
    packet.type.packetToBuffer codec packet.values

/-! ## The maps -/

variable {codec : Codec} {sessionId : UInt64} {P : GameAndClientPacket}

/-- Registering a list of classes with different ids: each id leads to its class
in both maps, and every other id leads where it led before. -/
theorem find_foldl_register {ps : List GameAndClientPacket} (codec : Codec) (m : PacketManager)
    (hps : ps.Pairwise fun P Q => P.packetId ≠ Q.packetId) :
    (∀ P ∈ ps,
      (ps.foldl (.register codec) m).packetFactoryFunctionMap.find P.packetId.toPacketId =
          some (makeShared P) ∧
        (ps.foldl (.register codec) m).packetHandlerMap.find P.packetId.toPacketId =
          some (packetHandler codec P)) ∧
      ∀ id : PacketId, (∀ P ∈ ps, P.packetId.toPacketId ≠ id) →
        (ps.foldl (.register codec) m).packetFactoryFunctionMap.find id =
            m.packetFactoryFunctionMap.find id ∧
          (ps.foldl (.register codec) m).packetHandlerMap.find id =
            m.packetHandlerMap.find id := by
  induction ps generalizing m with
  | nil => exact ⟨fun P hP => (List.not_mem_nil hP).elim, fun id _ => ⟨rfl, rfl⟩⟩
  | cons Q ps ih =>
    obtain ⟨hQ, hps⟩ := List.pairwise_cons.mp hps
    obtain ⟨hmem, hother⟩ := ih (.register codec m Q) hps
    rw [List.foldl_cons]
    refine ⟨fun P hP => ?_, fun id hid => ?_⟩
    · rcases List.mem_cons.mp hP with rfl | hP
      · obtain ⟨hfactory, hhandler⟩ := hother P.packetId.toPacketId fun R hR he =>
          hQ R hR (PacketIdEnum.toPacketId_injective he).symm
        rw [hfactory, hhandler]
        constructor
        · exact (UnorderedMap.find_assign _ _ _ _).trans (if_pos rfl)
        · exact (UnorderedMap.find_assign _ _ _ _).trans (if_pos rfl)
      · exact hmem P hP
    · have hne : Q.packetId.toPacketId ≠ id := hid Q List.mem_cons_self
      obtain ⟨hfactory, hhandler⟩ := hother id fun R hR => hid R (List.mem_cons_of_mem _ hR)
      rw [hfactory, hhandler]
      constructor
      · exact (UnorderedMap.find_assign _ _ _ _).trans (if_neg hne)
      · exact (UnorderedMap.find_assign _ _ _ _).trans (if_neg hne)

theorem registerPacketList_pairwise :
    registerPacketList.Pairwise fun P Q => P.packetId ≠ Q.packetId := by
  decide

/-- **The two maps agree**: under the id of a registered class stand the factory
and the handler of that class. -/
theorem find_init (codec : Codec) (hP : P ∈ registerPacketList) :
    (PacketManager.init codec).getPacketHandler P.packetId.toPacketId =
        some (packetHandler codec P) ∧
      (PacketManager.init codec).makePacket P.packetId.toPacketId =
        some ⟨.iPacket, makeShared P⟩ := by
  have hfind := find_foldl_register codec ⟨.empty, .empty⟩
    registerPacketList_pairwise
  obtain ⟨hfactory, hhandler⟩ := hfind.1 P hP
  refine ⟨hhandler, ?_⟩
  rw [PacketManager.makePacket, PacketManager.init, hfactory]
  rfl

theorem find_init_none {id : PacketId}
    (hid : ∀ P ∈ registerPacketList, P.packetId.toPacketId ≠ id) :
    (PacketManager.init codec).getPacketHandler id = none :=
  ((find_foldl_register codec ⟨.empty, .empty⟩ registerPacketList_pairwise).2 id hid).2

/-! ## Dispatch -/

/-- The factory's object is of the class that the handler casts it to. -/
theorem staticCast_makeShared : staticCast P (makeShared P) = .ok (Fields.zero P.fields) :=
  dif_pos rfl

/-- **A handler reads its packet**: given an any of the type it asks for, it calls
`HandlePacket` with the values that were written, whatever stands behind them. -/
theorem packetHandler_reads (values : Fields P.fields) (rest : List UInt8) :
    packetHandler codec P sessionId (P.packetToBuffer codec values ++ rest)
      (.ofPointer ⟨.iGameAndClientPacket, makeShared P⟩) = .ok ⟨sessionId, ⟨P, values⟩⟩ := by
  have hread := P.bufferToPacket_packetToBuffer codec values (Fields.zero P.fields) rest
  rw [packetHandler, Any.ofPointer, anyCast, if_pos rfl]
  show (staticCast P (makeShared P) >>= fun realPacket => _) = _
  rw [staticCast_makeShared]
  show Except.ok (HandlePacketCall.mk sessionId ⟨P, Prod.fst _⟩) = _
  rw [hread]

/-- **What `MakePacket` returns never passes the handler's cast.** -/
theorem packetHandler_throws (object : PacketObject) (buffer : List UInt8) :
    packetHandler codec P sessionId buffer (.ofPointer ⟨.iPacket, object⟩) =
      .error .badAnyCast :=
  rfl

/-- A buffer that starts with a registered id ends in an exception. -/
theorem onRecvPacket_registered (hP : P ∈ registerPacketList) {buffer : List UInt8}
    (hid : ((codec .uint32).get buffer).1 = P.packetId.toPacketId) :
    onRecvPacket codec sessionId buffer = .error .badAnyCast := by
  obtain ⟨hhandler, hpacket⟩ := find_init codec hP
  simp only [onRecvPacket, hid, hhandler, hpacket]
  rfl

/-- A buffer that starts with another id is dropped. -/
theorem onRecvPacket_unregistered {buffer : List UInt8}
    (hid : ∀ P ∈ registerPacketList, P.packetId.toPacketId ≠ ((codec .uint32).get buffer).1) :
    onRecvPacket codec sessionId buffer = .ok [] := by
  simp only [onRecvPacket, find_init_none hid]

/-- The id of an encoded packet. -/
theorem get_encodePacket (packet : PacketObject) :
    ((codec .uint32).get (encodePacket codec packet)).1 = packet.type.packetId.toPacketId := by
  exact congrArg Prod.fst ((codec .uint32).get_put _ _)

/-- What `OnRecvPacket` is to do with a buffer: a registered packet reaches
`HandlePacket` once, with the values it was written with; a buffer whose id is
not registered reaches nothing. -/
structure DispatchesCorrectly (codec : Codec) (sessionId : UInt64) (buffer : List UInt8) :
    Prop where
  registered : ∀ packet : PacketObject, packet.type ∈ registerPacketList →
    buffer = encodePacket codec packet →
      onRecvPacket codec sessionId buffer = .ok [⟨sessionId, packet⟩]
  unregistered :
    (∀ P ∈ registerPacketList, P.packetId.toPacketId ≠ ((codec .uint32).get buffer).1) →
      onRecvPacket codec sessionId buffer = .ok []

/-- **A buffer is dispatched correctly exactly if it holds no registered
packet.** -/
theorem dispatchesCorrectly_iff (codec : Codec) (sessionId : UInt64) (buffer : List UInt8) :
    DispatchesCorrectly codec sessionId buffer ↔
      ¬∃ packet : PacketObject, packet.type ∈ registerPacketList ∧
        buffer = encodePacket codec packet := by
  constructor
  · rintro h ⟨packet, hmem, rfl⟩
    have hthrows : onRecvPacket codec sessionId (encodePacket codec packet) =
        .error .badAnyCast := onRecvPacket_registered hmem (get_encodePacket packet)
    rw [h.registered packet hmem rfl] at hthrows
    cases hthrows
  · intro h
    constructor
    · intro packet hmem hbuffer
      exact absurd ⟨packet, hmem, hbuffer⟩ h
    · exact onRecvPacket_unregistered

/-- A `Ping` ends in an exception instead of its handler. -/
theorem ping_not_dispatched :
    encodePacket plainCodec ⟨ping, ()⟩ = [6, 0, 0, 0] ∧
      onRecvPacket plainCodec 1 [6, 0, 0, 0] = .error .badAnyCast ∧
      ¬DispatchesCorrectly plainCodec 1 [6, 0, 0, 0] := by
  refine ⟨rfl, onRecvPacket_registered (P := ping) (by decide) rfl, fun h => ?_⟩
  have hcalls := h.registered ⟨ping, ()⟩ (by decide) rfl
  rw [onRecvPacket_registered (P := ping) (by decide) rfl] at hcalls
  cases hcalls

end RioServer.Packets
