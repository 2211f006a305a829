import RioServer.Server.RecvCompleted

/-!
# What a receive completion leaves in the ring

A connection is healthy while the unread bytes are at most a header, or a
header of a frame that can still become complete and acceptable
(`AdmissibleLeftover`). `GetPayloadLength` answers `0` for a frame that is not
complete, but also for a wrong code and for an empty payload, and `RecvCompleted`
compares the length with `dfDEFAULTSIZE` only once the frame is complete. A
header of one of these kinds (`DeadHeader`) therefore stays in the ring of a
session that stays connected.

`leftover_admissible_iff` says exactly when that happens, in terms of the
received stream alone: when acceptable frames are followed by a dead header.
-/

namespace RioServer

open Framing

variable (spec : NetBufferSpec)

/-- At most a header, or a proper prefix of a frame the loop would accept. -/
def AdmissibleLeftover (bs : List UInt8) : Prop :=
  bs.length ≤ spec.dfHeaderSize ∨
    codeField bs = spec.headerCode ∧ 1 ≤ payloadLengthField bs ∧
      payloadLengthField bs ≤ spec.dfDefaultSize ∧
      bs.length < spec.dfHeaderSize + payloadLengthField bs

instance (bs : List UInt8) : Decidable (AdmissibleLeftover spec bs) :=
  inferInstanceAs (Decidable (_ ∨ _))

/-- One complete frame that `RecvCompleted` hands to `OnRecvPacket`. -/
structure IsFrame (bs : List UInt8) : Prop where
  length_eq : bs.length = spec.dfHeaderSize + payloadLengthField bs
  code_eq : codeField bs = spec.headerCode
  payload_pos : 1 ≤ payloadLengthField bs
  payload_le : payloadLengthField bs ≤ spec.dfDefaultSize
  decodes : (spec.decode bs).isSome

/-- A header the loop neither accepts nor rejects: a wrong code, an empty
payload, or an announced length above `dfDEFAULTSIZE` that has not arrived. -/
def DeadHeader (bs : List UInt8) : Prop :=
  spec.dfHeaderSize < bs.length ∧
    (codeField bs ≠ spec.headerCode ∨ payloadLengthField bs = 0 ∨
      spec.dfDefaultSize < payloadLengthField bs ∧
        bs.length < spec.dfHeaderSize + payloadLengthField bs)

instance (bs : List UInt8) : Decidable (DeadHeader spec bs) :=
  inferInstanceAs (Decidable (_ ∧ _))

variable {spec}

/-- The loop stops in front of what is either admissible or dead. -/
theorem frameHead_eq_stop_iff {bs : List UInt8} :
    frameHead spec bs = .stop ↔ AdmissibleLeftover spec bs ∨ DeadHeader spec bs := by
  unfold AdmissibleLeftover DeadHeader
  constructor
  · intro h
    unfold frameHead at h
    split_ifs at h with hlen hcode hshort hzero hsize
    · exact .inl (.inl hlen)
    · exact .inr ⟨by omega, .inl hcode⟩
    · by_cases hsize : payloadLengthField bs ≤ spec.dfDefaultSize
      · by_cases hzero : payloadLengthField bs = 0
        · exact .inr ⟨by omega, .inr (.inl hzero)⟩
        · exact .inl (.inr ⟨not_not.mp hcode, by omega, hsize, by omega⟩)
      · exact .inr ⟨by omega, .inr (.inr ⟨by omega, by omega⟩)⟩
    · exact .inr ⟨by omega, .inr (.inl hzero)⟩
    · split at h <;> cases h
  · rintro ((hlen | ⟨hcode, hpos, hsize, hshort⟩) | ⟨hlen, hcode | hzero | ⟨hsize, hshort⟩⟩)
    · rw [frameHead, if_pos hlen]
    · rw [frameHead]
      split_ifs <;> first | rfl | omega
    · rw [frameHead, if_neg (by omega), if_pos hcode]
    · rw [frameHead]
      split_ifs <;> rfl
    · rw [frameHead]
      split_ifs <;> first | rfl | omega

/-- A dead header is not an admissible leftover. -/
theorem DeadHeader.not_admissible {bs : List UInt8} (h : DeadHeader spec bs) :
    ¬ AdmissibleLeftover spec bs := by
  obtain ⟨hlen, hdead⟩ := h
  rintro (hle | ⟨hcode, hpos, hsize, -⟩)
  · omega
  · rcases hdead with hne | hzero | ⟨hlarge, -⟩
    · exact hne hcode
    · omega
    · omega

/-- Acceptable frames are taken off the stream one by one. -/
theorem IsFrame.frameHead_append {f : List UInt8} (h : IsFrame spec f) (bs : List UInt8) :
    ∃ packet, frameHead spec (f ++ bs) = .frame packet bs := by
  have h3 := spec.three_le_dfHeaderSize
  obtain ⟨packet, hpacket⟩ := Option.isSome_iff_exists.mp h.decodes
  have hlen := h.length_eq
  have hpos := h.payload_pos
  refine ⟨packet, frameHead_eq_frame.mpr ?_⟩
  rw [codeField_append (by omega), payloadLengthField_append (by omega), ← hlen,
    List.take_left, List.drop_left, List.length_append]
  exact ⟨by omega, h.code_eq, by omega, by omega, h.payload_le, hpacket, rfl⟩

theorem isFrame_of_frameHead {bs packet rest : List UInt8}
    (h : frameHead spec bs = .frame packet rest) :
    ∃ f, IsFrame spec f ∧ bs = f ++ rest := by
  have h3 := spec.three_le_dfHeaderSize
  obtain ⟨hlen, hcode, hcomplete, hzero, hsize, hdec, rfl⟩ := frameHead_eq_frame.mp h
  refine ⟨bs.take (spec.dfHeaderSize + payloadLengthField bs), ?_,
    (List.take_append_drop _ bs).symm⟩
  refine ⟨?_, ?_, ?_, ?_, ?_⟩
  · rw [payloadLengthField_take (by omega), List.length_take]
    omega
  · rw [codeField_take (by omega)]
    exact hcode
  · rw [payloadLengthField_take (by omega)]
    omega
  · rw [payloadLengthField_take (by omega)]
    exact hsize
  · rw [hdec]
    rfl

/-- What follows a run of acceptable frames decides how decoding ends. -/
theorem drain_frames_append {fs : List (List UInt8)} (hfs : ∀ f ∈ fs, IsFrame spec f)
    (tail : List UInt8) :
    ((frameDecoder spec).drain (fs.flatten ++ tail)).rest =
        ((frameDecoder spec).drain tail).rest ∧
      ((frameDecoder spec).drain (fs.flatten ++ tail)).failed =
        ((frameDecoder spec).drain tail).failed := by
  induction fs with
  | nil => exact ⟨rfl, rfl⟩
  | cons f fs ih =>
    obtain ⟨packet, hhead⟩ := (hfs f List.mem_cons_self).frameHead_append (fs.flatten ++ tail)
    rw [List.flatten_cons, List.append_assoc, Decoder.drain_frame hhead]
    exact ih fun g hg => hfs g (List.mem_cons_of_mem f hg)

/-- Decoding splits every stream into acceptable frames and a tail that begins
with none. -/
theorem drain_split (bs : List UInt8) :
    ∃ fs : List (List UInt8), (∀ f ∈ fs, IsFrame spec f) ∧
      bs = fs.flatten ++ ((frameDecoder spec).drain bs).rest := by
  induction bs using (frameDecoder spec).drain_induct with
  | @frame bs packet rest h ih =>
    obtain ⟨fs, hfs, hsplit⟩ := ih
    obtain ⟨f, hf, hbs⟩ := isFrame_of_frameHead h
    refine ⟨f :: fs, ?_, ?_⟩
    · intro g hg
      rcases List.mem_cons.mp hg with rfl | hg
      · exact hf
      · exact hfs g hg
    · rw [Decoder.drain_frame h, Drained.after_rest, List.flatten_cons, List.append_assoc,
        ← hsplit]
      exact hbs
  | @stop bs h =>
    refine ⟨[], by simp, ?_⟩
    rw [Decoder.drain_stop h]
    rfl
  | @fail bs h =>
    refine ⟨[], by simp, ?_⟩
    rw [Decoder.drain_fail h]
    rfl

/-- The stream consists of acceptable frames up to a dead header. -/
def ReachesDeadHeader (spec : NetBufferSpec) (stream : List UInt8) : Prop :=
  ∃ (fs : List (List UInt8)) (tail : List UInt8),
    stream = fs.flatten ++ tail ∧ (∀ f ∈ fs, IsFrame spec f) ∧ DeadHeader spec tail

/-- One stream: the decoder's rest is admissible unless the stream reaches a
dead header. -/
theorem drain_admissible_iff (stream : List UInt8) :
    (((frameDecoder spec).drain stream).failed = false →
        AdmissibleLeftover spec ((frameDecoder spec).drain stream).rest) ↔
      ¬ ReachesDeadHeader spec stream := by
  constructor
  · -- frames before a dead header do not change where decoding stops
    rintro hadm ⟨fs, tail, rfl, hfs, hdead⟩
    obtain ⟨hrest, hfailed⟩ := drain_frames_append hfs tail
    have hstop := Decoder.drain_stop (D := frameDecoder spec)
      (frameHead_eq_stop_iff.mpr (.inr hdead))
    rw [hrest, hfailed, hstop] at hadm
    exact hdead.not_admissible (hadm rfl)
  · -- whatever decoding stops at is the tail behind the frames it took
    intro hnot hfailed
    obtain ⟨fs, hfs, hsplit⟩ := @drain_split spec stream
    have hstop := Decoder.head_rest_of_drain hfailed
    rcases frameHead_eq_stop_iff.mp hstop with hadm | hdead
    · exact hadm
    · exact absurd ⟨fs, _, hsplit, hfs, hdead⟩ hnot

/-- **When the ring stays healthy**: after every completion without
`packetError` the leftover is admissible, if and only if at no completion the
stream received so far reaches a dead header. -/
theorem leftover_admissible_iff (spec : NetBufferSpec) (completions : List (List UInt8)) :
    (∀ n, (receiveAll spec (completions.take n)).packetError = false →
        AdmissibleLeftover spec (receiveAll spec (completions.take n)).ring.data) ↔
      ∀ n, ¬ ReachesDeadHeader spec (completions.take n).flatten := by
  refine forall_congr' fun n => ?_
  obtain ⟨-, herr, hring⟩ := receiveAll_eq_drain spec (completions.take n)
  rw [← drain_admissible_iff, herr]
  constructor
  · intro h hf
    rw [← hring (herr.trans hf)]
    exact h hf
  · intro h hf
    rw [hring (herr.trans hf)]
    exact h hf

/-- Six bytes with a wrong code stay in the ring, without a `packetError`. -/
theorem leftover_wrong_code :
    (receiveAll plainSpec [[0, 1, 0, 0, 0, 7]]).packetError = false ∧
      ¬ AdmissibleLeftover plainSpec (receiveAll plainSpec [[0, 1, 0, 0, 0, 7]]).ring.data := by
  decide

/-- Behind a wrong code or an empty payload nothing is ever delivered again:
whatever arrives, the head of the ring stays what it is. -/
theorem dead_stream_stops {tail : List UInt8} (hlen : spec.dfHeaderSize < tail.length)
    (hdead : codeField tail ≠ spec.headerCode ∨ payloadLengthField tail = 0)
    (ext : List UInt8) :
    (frameDecoder spec).drain (tail ++ ext) = ⟨[], tail ++ ext, false⟩ := by
  have h3 := spec.three_le_dfHeaderSize
  refine Decoder.drain_stop (frameHead_eq_stop_iff.mpr (.inr ⟨?_, ?_⟩))
  · rw [List.length_append]
    omega
  · rw [codeField_append (by omega), payloadLengthField_append (by omega)]
    exact hdead.elim .inl fun h => .inr (.inl h)

end RioServer
