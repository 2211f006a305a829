import RioServer.Server.SendExclusive

/-!
# `SendPacketAndDisconnect` (RIOTestSession.cpp:72–92)

The call marks the whole session, before its packet is even encoded, and
`SendCompleted` shuts the connection down at the next send completion it sees.
That completion may belong to a send that was posted earlier, and the packet
may be in no send at all yet.

`DisconnectGuard` is the condition under which the shutdown waits for the
packet: the mark is set while no send is under way, and every send that is
packed afterwards holds the packet and whatever was queued before it.
`disconnect_after_transmission` proves that it does in the runs that keep to it.
-/

namespace RioServer

open Machine

variable {spec : NetBufferSpec} {o : Oracle} {s s' : State} {pc pc' : Pc} {l r : List Pc}

/-! ## What has to be transmitted -/

/-- The packets up to the one with number `n`. -/
def upTo (n : Nat) : List NetBuffer → Option (List NetBuffer)
  | [] => none
  | p :: ps => if p.serial = n then some [p] else (upTo n ps).map (p :: ·)

/-- Packet `n` is queued, and every packet up to it has been transmitted or is
among `sent`. -/
def Covered (s : State) (sent : List NetBuffer) (n : Nat) : Prop :=
  match upTo n s.enqueued with
  | none => False
  | some ps => ∀ p ∈ ps, p ∈ s.transmitted ∨ p ∈ sent

instance (s : State) (sent : List NetBuffer) (n : Nat) : Decidable (Covered s sent n) := by
  unfold Covered
  split <;> infer_instance

/-- The packets `MakeSendStream` packs before it meets one that does not fit
behind `total` bytes. -/
def fitting (total : Nat) : List NetBuffer → List NetBuffer
  | [] => []
  | p :: ps =>
    if total + p.getAllUseSize < maxSendBufferSize ∧
        CopyFits (total + p.getAllUseSize) p.getAllUseSize then
      p :: fitting (total + p.getAllUseSize) ps
    else []

/-- The same for the reserved packet and the queue. -/
def SendItem.fitting (s : SendItem) : List NetBuffer :=
  match s.reservedBuffer with
  | none => RioServer.fitting 0 s.sendQueue
  | some p => p :: RioServer.fitting p.getAllUseSize s.sendQueue

/-- The send a thread has packed, or whose completion it handles. -/
def Pc.underway : Pc → Option IoContext
  | .sendPost (.incrementIoCount context) _ | .sendPost (.rioSend context) _ => some context
  | .worker (.getIoCompletedContext context _) | .worker (.testTransferred context _) =>
    if context.isSend then some context else none
  | .worker (.sendIoCompleted context) | .worker (.sendCompleted context)
  | .worker (.disconnect context) => some context
  | _ => none

/-- **The exception**: the mark is set while no send is under way, and
when a send is packed on a marked session, every marked packet is queued, and
it and all packets before it are transmitted already or fit into this send. -/
def DisconnectGuard : Guard State Pc Oracle := fun pc _ s ts =>
  match pc with
  | .sendPacket .setSendDisconnect _ _ => (∀ q ∈ ts, q.underway = none) ∧ s.sends = 0
  | .sendPost .makeSendStream _ =>
    ∀ n ∈ s.disconnectSerials, Covered s s.toSendItem.fitting n
  | _ => True

instance (pc : Pc) (o : Oracle) (s : State) (ts : List Pc) :
    Decidable (DisconnectGuard pc o s ts) :=
  decidable_of_iff
    ((match pc with
      | .sendPacket .setSendDisconnect _ _ =>
        decide ((∀ q ∈ ts, q.underway = none) ∧ s.sends = 0)
      | .sendPost .makeSendStream _ =>
        decide (∀ n ∈ s.disconnectSerials, Covered s s.toSendItem.fitting n)
      | _ => true) = true)
    (by unfold DisconnectGuard; split <;> simp)

/-- Whenever `SendCompleted` is about to call `Disconnect`, every packet given
to `SendPacketAndDisconnect`, and all packets queued before it, have been
transmitted. -/
def DisconnectsLate (c : Config State Pc) : Prop :=
  ∀ context, .worker (.disconnect context) ∈ c.threads →
    ∀ n ∈ c.shared.disconnectSerials, Covered c.shared [] n

/-! ## Lemmas about coverage -/

theorem upTo_append {n : Nat} {xs ps : List NetBuffer} (h : upTo n xs = some ps)
    (ys : List NetBuffer) : upTo n (xs ++ ys) = some ps := by
  induction xs generalizing ps with
  | nil => cases h
  | cons p xs ih =>
    rw [List.cons_append, upTo]
    rw [upTo] at h
    split at h
    · next hp => rw [if_pos hp, h]
    · next hp =>
      obtain ⟨qs, hqs, rfl⟩ := Option.map_eq_some_iff.mp h
      rw [if_neg hp, ih hqs]
      rfl

theorem covered_iff {sent : List NetBuffer} {n : Nat} :
    Covered s sent n ↔
      ∃ ps, upTo n s.enqueued = some ps ∧ ∀ p ∈ ps, p ∈ s.transmitted ∨ p ∈ sent := by
  unfold Covered
  split
  · next h => simp [h]
  · next ps h => simp [h]

/-- Coverage survives further packets and further transmissions. -/
theorem Covered.mono {sent sent' : List NetBuffer} {n : Nat} (h : Covered s sent n)
    (henq : s.enqueued <+: s'.enqueued)
    (hsent : ∀ p, p ∈ s.transmitted ∨ p ∈ sent → p ∈ s'.transmitted ∨ p ∈ sent') :
    Covered s' sent' n := by
  obtain ⟨ps, hps, hall⟩ := covered_iff.mp h
  obtain ⟨more, hmore⟩ := henq
  refine covered_iff.mpr ⟨ps, ?_, fun p hp => hsent p (hall p hp)⟩
  rw [← hmore]
  exact upTo_append hps more

theorem fitting_split (queue : List NetBuffer) :
    ∀ total, StreamFits total (fitting total queue) ∧
      ∃ rest, queue = fitting total queue ++ rest := by
  induction queue with
  | nil => exact fun _ => ⟨trivial, [], rfl⟩
  | cons p queue ih =>
    intro total
    rw [fitting]
    split
    · next h =>
      obtain ⟨hfits, rest, hrest⟩ := ih (total + p.getAllUseSize)
      refine ⟨⟨h.1, h.2, hfits⟩, rest, ?_⟩
      rw [List.cons_append, ← hrest]
    · exact ⟨trivial, p :: queue, rfl⟩

/-- Whatever fits is copied. -/
theorem makeSendStream_copies_fitting {item : SendItem} {stream : SendStream}
    (h : makeSendStream item = some stream) : ∀ p ∈ item.fitting, p ∈ stream.copied := by
  rw [makeSendStream] at h
  rw [SendItem.fitting]
  cases hreserved : item.reservedBuffer with
  | none =>
    rw [hreserved] at h
    obtain ⟨hfits, rest, hrest⟩ := fitting_split item.sendQueue 0
    have hstream : streamQueue 0 item.rioSendBuffer item.sendQueue = some stream := h
    rw [hrest] at hstream
    exact streamQueue_copies_fitting hfits hstream
  | some q =>
    simp only [hreserved] at h
    split at h
    · obtain ⟨stream', hstream', rfl⟩ := Option.map_eq_some_iff.mp h
      obtain ⟨hfits, rest, hrest⟩ := fitting_split item.sendQueue q.getAllUseSize
      rw [hrest] at hstream'
      intro p hp
      rcases List.mem_cons.mp hp with rfl | hp
      · exact List.mem_cons_self
      · exact List.mem_cons_of_mem _ (streamQueue_copies_fitting hfits hstream' p hp)
    · cases h

/-! ## The invariant -/

/-- The send whose packets count as transmitted already: its completion carried
bytes. -/
def Pc.completed : Pc → Option IoContext
  | .worker (.getIoCompletedContext context bytes)
  | .worker (.testTransferred context bytes) =>
    if bytes.isEmpty then none else some context
  | .worker (.sendIoCompleted context) | .worker (.sendCompleted context)
  | .worker (.disconnect context) => some context
  | _ => none

/-- Every send under way holds what marked packets still need, and completed
sends are transmitted. -/
structure LateInv (s : State) (ts : List Pc) : Prop where
  threads : ∀ n ∈ s.disconnectSerials, ∀ q ∈ ts, ∀ context, q.underway = some context →
    Covered s context.packets n
  requests : ∀ n ∈ s.disconnectSerials, ∀ context ∈ s.outstanding, context.isSend = true →
    Covered s context.packets n
  completed : ∀ q ∈ ts, ∀ context, q.completed = some context →
    ∀ p ∈ context.packets, p ∈ s.transmitted

/-- The invariant gives the late shutdown, and more. -/
theorem LateInv.disconnectsLate {c : Config State Pc} (h : LateInv c.shared c.threads) :
    DisconnectsLate c := by
  intro context hmem n hn
  refine (h.threads n hn _ hmem context rfl).mono List.prefix_rfl fun p hp => ?_
  exact .inl (hp.elim id (h.completed _ hmem context rfl p))

/-- An action that packs nothing and marks nothing. -/
theorem LateInv.keep (hI : LateInv s (l ++ pc :: r))
    (henq : s.enqueued <+: s'.enqueued) (htransmitted : s'.transmitted = s.transmitted)
    (hmarked : s'.disconnectSerials = s.disconnectSerials)
    (hrequests : ∀ context ∈ s'.outstanding, context.isSend = true →
      context ∈ s.outstanding ∨ pc.underway = some context)
    (hunderway : pc'.underway = none ∨ pc'.underway = pc.underway)
    (hcompleted : pc'.completed = none ∨ pc'.completed = pc.completed) :
    LateInv s' (l ++ pc' :: r) := by
  have hcover : ∀ sent n, Covered s sent n → Covered s' sent n := fun sent n h =>
    h.mono henq fun p hp => by rwa [htransmitted]
  obtain ⟨hthreads, hreq, hcomp⟩ := hI
  simp only [forall_mem_place] at hthreads hcomp
  refine ⟨fun n hn => ?_, fun n hn context hmem hsend => ?_, ?_⟩
  · rw [hmarked] at hn
    obtain ⟨hl, hpc, hr⟩ := hthreads n hn
    refine forall_mem_place.mpr ⟨fun q hq c hc => hcover _ _ (hl q hq c hc), fun c hc => ?_,
      fun q hq c hc => hcover _ _ (hr q hq c hc)⟩
    rcases hunderway with hnone | hsame
    · rw [hnone] at hc
      cases hc
    · exact hcover _ _ (hpc c (hsame ▸ hc))
  · rw [hmarked] at hn
    rcases hrequests context hmem hsend with hold | hself
    · exact hcover _ _ (hreq n hn context hold hsend)
    · exact hcover _ _ ((hthreads n hn).2.1 context hself)
  · rw [htransmitted]
    refine forall_mem_place.mpr ⟨hcomp.1, fun c hc => ?_, hcomp.2.2⟩
    rcases hcompleted with hnone | hsame
    · rw [hnone] at hc
      cases hc
    · exact hcomp.2.1 c (hsame ▸ hc)

theorem underway_of_offSendPath (hpc : pc.onSendPath = false) :
    pc.underway = none ∧ pc.completed = none := by
  cases pc with
  | worker pc => cases pc <;> first | exact ⟨rfl, rfl⟩ | cases hpc
  | sendPacket pc isEncoded packet => cases hpc
  | sendPost pc caller => cases hpc
  | _ => exact ⟨rfl, rfl⟩

/-- Off the send path nothing is packed. -/
theorem LateInv.frame (hI : LateInv s (l ++ pc :: r)) (hs : SendFrame s s')
    (hpc' : pc'.onSendPath = false) : LateInv s' (l ++ pc' :: r) := by
  obtain ⟨hunderway, hcompleted⟩ := underway_of_offSendPath hpc'
  refine hI.keep ?_ (congrArg SendHistory.transmitted hs.sendHistory)
    (congrArg SendHistory.disconnectSerials hs.sendHistory) (fun context hmem hsend => .inl ?_)
    (.inl hunderway) (.inl hcompleted)
  · rw [show s'.enqueued = s.enqueued from congrArg SendHistory.enqueued hs.sendHistory]
  · have hfilter : context ∈ s'.outstanding.filter IoContext.isSend :=
      List.mem_filter.mpr ⟨hmem, hsend⟩
    rw [hs.outstanding] at hfilter
    exact (List.mem_filter.mp hfilter).1

/-! ## One action -/

/-- The mark is set while no send is under way. -/
theorem execSendPacket_lateInv {pc : SendPacketPc} {isEncoded : Bool} {packet : NetBuffer}
    (hG : DisconnectGuard (.sendPacket pc isEncoded packet) o s
      (l ++ .sendPacket pc isEncoded packet :: r))
    (hI : LateInv s (l ++ .sendPacket pc isEncoded packet :: r))
    (h : execSendPacket spec s isEncoded packet pc = some (s', pc')) :
    LateInv s' (l ++ pc' :: r) := by
  cases pc with
  | setSendDisconnect =>
    -- no send is under way, so there is nothing the new mark could ask for
    cases h
    obtain ⟨hnone, hsends⟩ := hG
    obtain ⟨hl, -, hr⟩ := forall_mem_place.mp hnone
    refine ⟨fun n _ => forall_mem_place.mpr ⟨?_, fun _ h => (by cases h), ?_⟩,
      fun n _ context hmem hsend => ?_, ?_⟩
    · intro q hq context hc
      rw [hl q hq] at hc
      cases hc
    · intro q hq context hc
      rw [hr q hq] at hc
      cases hc
    · exact absurd hsend (List.countP_eq_zero.mp hsends context hmem)
    · have hcomp := forall_mem_place.mp hI.completed
      exact forall_mem_place.mpr ⟨hcomp.1, fun _ h => (by cases h), hcomp.2.2⟩
  | enqueue =>
    cases h
    exact hI.keep (List.prefix_append _ _) rfl rfl (fun _ hmem _ => .inl hmem) (.inl rfl)
      (.inl rfl)
  | _ =>
    revert h
    simp only [execSendPacket]
    repeat' split
    all_goals rintro ⟨⟩
    all_goals
      exact hI.keep List.prefix_rfl rfl rfl (fun _ hmem _ => .inl hmem) (.inl rfl)
        (.inl rfl)

/-- A send that is packed on a marked session covers the marked packets. -/
theorem execSendPost_lateInv {pc : SendPostPc} {caller : SendPostCaller}
    (hG : DisconnectGuard (.sendPost pc caller) o s (l ++ .sendPost pc caller :: r))
    (hI : LateInv s (l ++ .sendPost pc caller :: r))
    (h : execSendPost o s caller pc = some (s', pc')) : LateInv s' (l ++ pc' :: r) := by
  have hnext : ∀ result, (caller.next result).underway = none ∧
      (caller.next result).completed = none :=
    fun result => underway_of_offSendPath (caller.next_onSendPath result)
  cases pc with
  | makeSendStream =>
    simp only [execSendPost] at h
    repeat' split at h
    · cases h
    · cases h
    · next stream hstream =>
      cases h
      obtain ⟨hthreads, hreq, hcomp⟩ := hI
      simp only [forall_mem_place] at hthreads hcomp
      refine ⟨fun n hn => forall_mem_place.mpr ⟨(hthreads n hn).1, ?_, (hthreads n hn).2.2⟩,
        hreq, forall_mem_place.mpr ⟨hcomp.1, fun _ h => (by cases h), hcomp.2.2⟩⟩
      rintro context ⟨⟩
      -- the guard says what fits, and what fits is copied
      refine (hG n hn).mono List.prefix_rfl fun p hp => ?_
      exact hp.imp id (makeSendStream_copies_fitting hstream p)
  | incrementIoCount context =>
    cases h
    exact hI.keep List.prefix_rfl rfl rfl (fun _ hmem _ => .inl hmem) (.inr rfl)
      (.inl rfl)
  | rioSend context =>
    simp only [execSendPost] at h
    split at h <;> cases h
    · refine hI.keep List.prefix_rfl rfl rfl (fun c hmem _ => ?_) (.inl rfl) (.inl rfl)
      rcases List.mem_append.mp hmem with hold | hnew
      · exact .inl hold
      · -- the new request holds the packets this thread has packed
        rw [List.mem_singleton.mp hnew]
        exact .inr rfl
    · exact hI.keep List.prefix_rfl rfl rfl (fun _ hmem _ => .inl hmem) (.inl rfl)
        (.inl rfl)
  | _ =>
    revert h
    simp only [execSendPost]
    repeat' split
    all_goals rintro ⟨⟩
    all_goals
      first
      | exact hI.keep List.prefix_rfl rfl rfl (fun _ hmem _ => .inl hmem) (.inl rfl)
          (.inl rfl)
      | exact hI.keep List.prefix_rfl rfl rfl (fun _ hmem _ => .inl hmem)
          (.inl (hnext _).1) (.inl (hnext _).2)

/-- The worker carries a send's completion to `SendCompleted`'s test. -/
theorem execWorker_lateInv {pc : WorkerPc} (hpath : (Pc.worker pc).onSendPath = true)
    (hI : LateInv s (l ++ .worker pc :: r))
    (h : execWorker spec s pc = some (s', pc')) : LateInv s' (l ++ pc' :: r) := by
  have keep : ∀ {t : State} {q : Pc}, t.toSendHistory = s.toSendHistory →
      t.outstanding = s.outstanding →
      (q.underway = none ∨ q.underway = (Pc.worker pc).underway) →
      (q.completed = none ∨ q.completed = (Pc.worker pc).completed) →
      LateInv t (l ++ q :: r) := by
    intro t q hhistory hout hunderway hcompleted
    refine hI.keep ?_ (congrArg SendHistory.transmitted hhistory)
      (congrArg SendHistory.disconnectSerials hhistory) (fun c hmem _ => .inl (hout ▸ hmem))
      hunderway hcompleted
    rw [show t.enqueued = s.enqueued from congrArg SendHistory.enqueued hhistory]
  cases pc with
  | testTransferred context bytes =>
    simp only [execWorker] at h
    split at h
    · cases h
      exact keep rfl rfl (.inl rfl) (.inl rfl)
    · next hbytes =>
      have hbytes : bytes.isEmpty = false := by
        cases hempty : bytes.isEmpty with
        | false => rfl
        | true => simp [hempty] at hbytes
      split at h <;> cases h
      · exact keep rfl rfl (.inl rfl) (.inl rfl)
      · -- only a send's completion goes on to `SendCompleted`
        next hsend =>
        refine keep rfl rfl (.inr ?_) (.inr ?_)
        · simp [Pc.underway, IoContext.isSend, hsend]
        · simp [Pc.completed, hbytes]
      · exact keep rfl rfl (.inl rfl) (.inl rfl)
  | getIoCompletedContext context bytes =>
    simp only [execWorker] at h
    repeat' split at h
    · cases h
    · cases h
      exact keep rfl rfl (.inr rfl) (.inr rfl)
    · cases h
      exact keep rfl rfl (.inl rfl) (.inl rfl)
  | sendIoCompleted context =>
    cases h
    exact hI.keep List.prefix_rfl rfl rfl (fun _ hmem _ => .inl hmem) (.inr rfl) (.inr rfl)
  | sendCompleted context =>
    simp only [execWorker] at h
    split at h <;> cases h
    · exact keep rfl rfl (.inr rfl) (.inr rfl)
    · exact keep rfl rfl (.inl rfl) (.inl rfl)
  | disconnect context =>
    simp only [execWorker] at h
    split at h <;> cases h
    exact keep rfl rfl (.inl rfl) (.inl rfl)
  | _ => cases hpath

/-- **One guarded action keeps every send covered.** -/
theorem exec_lateInv (hG : DisconnectGuard pc o s (l ++ pc :: r))
    (hI : LateInv s (l ++ pc :: r)) (h : exec spec pc o s = some (s', pc')) :
    LateInv s' (l ++ pc' :: r) := by
  cases hpath : pc.onSendPath with
  | false =>
    obtain ⟨hs, hpc'⟩ := exec_sendFrame hpath h
    exact hI.frame hs hpc'
  | true =>
    cases pc with
    | sendPacket pc isEncoded packet => exact execSendPacket_lateInv hG hI h
    | sendPost pc caller => exact execSendPost_lateInv hG hI h
    | worker pc => exact execWorker_lateInv hpath hI h
    | _ => cases hpath

/-- A completion with bytes transmits the packets of its send. -/
theorem spawn_lateInv {ts : List Pc} {e : Event} (hI : LateInv s ts)
    (h : spawn e s = some (s', pc)) : LateInv s' (ts ++ [pc]) := by
  obtain ⟨hthreads, hreq, hcomp⟩ := hI
  cases e with
  | completion i bytes =>
    obtain ⟨context, -, hi, -, rfl, rfl⟩ := spawn_completion h
    have hmem : context ∈ s.outstanding := List.mem_of_getElem? hi
    have hmore : ∀ p ∈ s.transmitted,
        p ∈ if bytes.isEmpty then s.transmitted else s.transmitted ++ context.packets := by
      intro p hp
      split
      · exact hp
      · exact List.mem_append_left _ hp
    have hcover : ∀ sent n, Covered s sent n → Covered { s with
        outstanding := s.outstanding.eraseIdx i
        workerBusy := true
        transmitted := if bytes.isEmpty then s.transmitted
          else s.transmitted ++ context.packets } sent n := fun sent n hc =>
      hc.mono List.prefix_rfl fun p hp => hp.imp (hmore p) id
    refine ⟨fun n hn => forall_mem_spawned.mpr ⟨fun q hq c hc => ?_, fun c hc => ?_⟩,
      fun n hn c hc hsend => ?_,
      forall_mem_spawned.mpr ⟨fun q hq c hc p hp => ?_, fun c hc p hp => ?_⟩⟩
    · exact hcover _ _ (hthreads n hn q hq c hc)
    · -- the worker takes over what the request has promised
      rw [Pc.underway] at hc
      split at hc <;> cases hc
      exact hcover _ _ (hreq n hn context hmem ‹_›)
    · exact hcover _ _ (hreq n hn c (List.mem_of_mem_eraseIdx hc) hsend)
    · exact hmore p (hcomp q hq c hc p hp)
    · rw [Pc.completed] at hc
      split at hc <;> cases hc
      next hbytes =>
      show p ∈ if bytes.isEmpty then s.transmitted else s.transmitted ++ context.packets
      rw [if_neg hbytes]
      exact List.mem_append_right _ hp
  | _ =>
    obtain ⟨-, rfl, rfl⟩ := Option.ite_none_right_eq_some.mp h
    exact ⟨fun n hn => forall_mem_spawned.mpr ⟨hthreads n hn, fun c hc => (by cases hc)⟩, hreq,
      forall_mem_spawned.mpr ⟨hcomp, fun c hc => (by cases hc)⟩⟩

/-! ## Every guarded run -/

/-- **The shutdown waits for the packet**, in every run that keeps to
`DisconnectGuard`. -/
theorem disconnect_after_transmission {c : Config State Pc}
    (h : (server spec).Run DisconnectGuard server.init c) : DisconnectsLate c := by
  have hI : LateInv c.shared c.threads := Run.induct h
    ⟨fun _ hn => absurd hn List.not_mem_nil, fun _ hn => absurd hn List.not_mem_nil,
      by simp [server.init, Pc.completed]⟩
    (fun _ hI hG hexec => exec_lateInv hG hI hexec) (fun _ hI hspawn => spawn_lateInv hI hspawn)
  exact hI.disconnectsLate

/-- On an idle session the packet is posted, transmitted, and then the worker
disconnects. -/
theorem disconnect_after_transmission_idle :
    ∃ c, (∃ pc ∈ c.threads, pc matches .worker (.disconnect _)) ∧
      c.shared.disconnectSerials = [0] ∧
      (server plainSpec).Run DisconnectGuard server.init c ∧ DisconnectsLate c := by
  obtain ⟨c, hrun, hc⟩ := exists_run (server plainSpec) DisconnectGuard server.init
    (server.accept ++
      .event (.sendPacketAndDisconnect true [119, 1, 0, 0, 0, 7]) ::
      List.replicate 9 (.run 1 ⟨true, 1⟩) ++ .event (.completion 1 [119, 1, 0, 0, 0, 7]) ::
      List.replicate 4 (.run 2 ⟨true, 2⟩))
    (P := fun c => (∃ pc ∈ c.threads, pc matches .worker (.disconnect _)) ∧
      c.shared.disconnectSerials = [0]) (by decide +kernel)
  obtain ⟨hpc, hserial⟩ := hc
  exact ⟨c, hpc, hserial, hrun, disconnect_after_transmission hrun⟩

/-- A packet is in flight when the session is marked; its completion shuts the
connection down before the marked packet has been posted. -/
theorem disconnected_too_early :
    ∃ c, (server plainSpec).Reachable server.init c ∧ ¬ DisconnectsLate c := by
  obtain ⟨c, hrun, hc⟩ := exists_run (server plainSpec) unguarded server.init
    (server.accept ++ .event (.sendPacket true [119, 1, 0, 0, 0, 7]) ::
      List.replicate 8 (.run 1 ⟨true, 1⟩) ++
      .event (.sendPacketAndDisconnect true [119, 1, 0, 0, 0, 8]) ::
      List.replicate 4 (.run 2 ⟨true, 2⟩) ++ .event (.completion 1 [119, 1, 0, 0, 0, 7]) ::
      List.replicate 4 (.run 3 ⟨true, 2⟩))
    (P := fun c => (∃ pc ∈ c.threads, pc matches .worker (.disconnect _)) ∧
      c.shared.disconnectSerials = [1] ∧ ¬ Covered c.shared [] 1) (by decide +kernel)
  obtain ⟨⟨pc, hmem, hpc⟩, hserial, hnot⟩ := hc
  refine ⟨c, hrun, fun hlate => ?_⟩
  cases pc with
  | worker pc =>
    cases pc with
    | disconnect context => exact hnot (hlate context hmem 1 (by rw [hserial]; simp))
    | _ => cases hpc
  | _ => cases hpc

end RioServer
