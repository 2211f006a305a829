import Mathlib.Tactic

/-!
# Incremental decoders

A receiver keeps the bytes it could not use yet and tries again when more have
arrived. A `Decoder` says what it finds at the head of its buffer; the two laws
`frame_append` and `fail_append` say that a verdict once reached does not
change when bytes are appended. Then it does not matter how the stream was cut
into chunks (`feedAll_eq_drain`): the frames, the failure and, without a
failure, the bytes kept are those of one run over the whole stream.
-/

namespace RioServer.Framing

universe u v

variable {β : Type u} {φ : Type v}

/-- What a decoder finds at the head of a buffer. -/
inductive Head (β : Type u) (φ : Type v) where
  | frame (f : φ) (rest : List β)
  | stop
  | fail

/-- A decoder whose verdicts are stable under appending. -/
structure Decoder (β : Type u) (φ : Type v) where
  head : List β → Head β φ
  rest_lt : ∀ {bs f rest}, head bs = .frame f rest → rest.length < bs.length
  nil_stop : head [] = .stop
  frame_append : ∀ {bs f rest} (ext : List β),
    head bs = .frame f rest → head (bs ++ ext) = .frame f (rest ++ ext)
  fail_append : ∀ {bs} (ext : List β), head bs = .fail → head (bs ++ ext) = .fail

/-- The outcome of decoding as far as the buffer allows. -/
structure Drained (β : Type u) (φ : Type v) where
  frames : List φ
  rest : List β
  failed : Bool

/-- The same outcome with frames that were taken off earlier. -/
def Drained.after (fs : List φ) (d : Drained β φ) : Drained β φ :=
  { d with frames := fs ++ d.frames }

@[simp] theorem Drained.after_frames (fs : List φ) (d : Drained β φ) :
    (d.after fs).frames = fs ++ d.frames := rfl

@[simp] theorem Drained.after_rest (fs : List φ) (d : Drained β φ) :
    (d.after fs).rest = d.rest := rfl

@[simp] theorem Drained.after_failed (fs : List φ) (d : Drained β φ) :
    (d.after fs).failed = d.failed := rfl

theorem Drained.after_after (fs gs : List φ) (d : Drained β φ) :
    (d.after gs).after fs = d.after (fs ++ gs) := by
  simp [Drained.after]

namespace Decoder

variable (D : Decoder β φ)

/-- Take frames off the buffer until the decoder stops or fails. -/
def drain (bs : List β) : Drained β φ :=
  match _h : D.head bs with
  | .frame f rest => (drain rest).after [f]
  | .stop => ⟨[], bs, false⟩
  | .fail => ⟨[], bs, true⟩
termination_by bs.length
decreasing_by exact D.rest_lt _h

variable {D} {bs : List β}

theorem drain_frame {f : φ} {rest : List β} (h : D.head bs = .frame f rest) :
    D.drain bs = (D.drain rest).after [f] := by
  rw [drain]
  split
  · next f' rest' h' =>
    rw [h] at h'
    cases h'
    rfl
  · next h' => rw [h] at h'; cases h'
  · next h' => rw [h] at h'; cases h'

theorem drain_stop (h : D.head bs = .stop) : D.drain bs = ⟨[], bs, false⟩ := by
  rw [drain]
  split
  · next h' => rw [h] at h'; cases h'
  · rfl
  · next h' => rw [h] at h'; cases h'

theorem drain_fail (h : D.head bs = .fail) : D.drain bs = ⟨[], bs, true⟩ := by
  rw [drain]
  split
  · next h' => rw [h] at h'; cases h'
  · next h' => rw [h] at h'; cases h'
  · rfl

/-- Induction along the frames taken off a buffer. -/
theorem drain_induct {P : List β → Prop}
    (frame : ∀ {bs f rest}, D.head bs = .frame f rest → P rest → P bs)
    (stop : ∀ {bs}, D.head bs = .stop → P bs)
    (fail : ∀ {bs}, D.head bs = .fail → P bs) (bs : List β) : P bs := by
  induction hn : bs.length using Nat.strong_induction_on generalizing bs with
  | _ n ih =>
    subst hn
    cases h : D.head bs with
    | frame f rest => exact frame h (ih rest.length (D.rest_lt h) rest rfl)
    | stop => exact stop h
    | fail => exact fail h

/-- The bytes kept after decoding begin with no frame. -/
theorem head_rest_of_drain : (D.drain bs).failed = false → D.head (D.drain bs).rest = .stop := by
  induction bs using D.drain_induct with
  | frame h ih =>
    rw [drain_frame h]
    exact ih
  | stop h =>
    rw [drain_stop h]
    exact fun _ => h
  | fail h =>
    rw [drain_fail h]
    exact fun hf => Bool.noConfusion hf

/-- Decoding before the rest has arrived changes nothing. -/
theorem drain_append (ext : List β) : (D.drain bs).failed = false →
    D.drain (bs ++ ext) =
      (D.drain ((D.drain bs).rest ++ ext)).after (D.drain bs).frames := by
  induction bs using D.drain_induct with
  | frame h ih =>
    intro hf
    rw [drain_frame h] at hf ⊢
    rw [drain_frame (D.frame_append ext h), ih hf, Drained.after_after]
    rfl
  | stop h =>
    intro _
    rw [drain_stop h]
    rfl
  | fail h =>
    rw [drain_fail h]
    exact fun hf => Bool.noConfusion hf

/-- A failure found early is the failure of the whole stream. -/
theorem drain_append_of_failed (ext : List β) : (D.drain bs).failed = true →
    (D.drain (bs ++ ext)).frames = (D.drain bs).frames ∧
      (D.drain (bs ++ ext)).failed = true := by
  induction bs using D.drain_induct with
  | frame h ih =>
    intro hf
    rw [drain_frame h] at hf ⊢
    rw [drain_frame (D.frame_append ext h)]
    obtain ⟨hframes, hfailed⟩ := ih hf
    rw [Drained.after_frames, Drained.after_frames, hframes]
    exact ⟨rfl, hfailed⟩
  | stop h =>
    rw [drain_stop h]
    exact fun hf => Bool.noConfusion hf
  | fail h =>
    intro _
    rw [drain_fail h, drain_fail (D.fail_append ext h)]
    exact ⟨rfl, rfl⟩

/-! ## Receiving in chunks -/

variable (D)

/-- One chunk arrives. After a failure nothing is decoded any more. -/
def feed (st : Drained β φ) (chunk : List β) : Drained β φ :=
  if st.failed then st else (D.drain (st.rest ++ chunk)).after st.frames

/-- All chunks, from an empty buffer. -/
def feedAll (chunks : List (List β)) : Drained β φ :=
  chunks.foldl D.feed ⟨[], [], false⟩

theorem feedAll_append_singleton (chunks : List (List β)) (chunk : List β) :
    D.feedAll (chunks ++ [chunk]) = D.feed (D.feedAll chunks) chunk := by
  simp [feedAll]

/-- **Chunking is unobservable**: receiving in chunks delivers the frames of
the whole stream, fails exactly when the whole stream does, and otherwise keeps
the same bytes. -/
theorem feedAll_eq_drain (chunks : List (List β)) :
    (D.feedAll chunks).frames = (D.drain chunks.flatten).frames ∧
    (D.feedAll chunks).failed = (D.drain chunks.flatten).failed ∧
    ((D.feedAll chunks).failed = false →
      (D.feedAll chunks).rest = (D.drain chunks.flatten).rest) := by
  induction chunks using List.reverseRecOn with
  | nil =>
    rw [List.flatten_nil, drain_stop D.nil_stop]
    exact ⟨rfl, rfl, fun _ => rfl⟩
  | append_singleton chunks chunk ih =>
    obtain ⟨hframes, hfailed, hrest⟩ := ih
    rw [feedAll_append_singleton, List.flatten_append, List.flatten_singleton, feed]
    cases hf : (D.feedAll chunks).failed with
    | true =>
      rw [hf] at hfailed
      obtain ⟨hframes', hfailed'⟩ := D.drain_append_of_failed chunk hfailed.symm
      rw [if_pos rfl, hframes', hfailed', hframes, hf]
      exact ⟨rfl, rfl, fun h => Bool.noConfusion h⟩
    | false =>
      rw [hf] at hfailed
      rw [if_neg Bool.false_ne_true, D.drain_append chunk hfailed.symm, hrest hf, hframes]
      exact ⟨rfl, rfl, fun _ => rfl⟩

end Decoder

end RioServer.Framing
