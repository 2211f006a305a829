import Mathlib.Tactic

/-!
# The frames of a worker (RIOTestServer.cpp:313–359, 364–375)

With `USE_SLEEP_FOR_FRAME` every turn of the `Worker` loop ends in
`SleepRemainingFrameTime`, which is to fill the turn up to `ONE_FRAME`
milliseconds. It measures from `beforeTick`, and sets that to the time at which
it was called, not the time at which it returns: what it slept counts as work
of the next turn. So a call that has slept is followed by one that sleeps too
little, and a turn without any measured time is not filled up at all.

`frame_after` is one turn, seen from what the call before slept; the run lemma
`gaps_eq_iff` says along a whole sequence of work times when every turn comes
out as long as it should.
-/

namespace RioServer.FrameTime

/-- `ONE_FRAME` (DefineType.h:12), a `DWORD` where it is used. -/
def oneFrame : UInt32 := 33

/-- `TickSet` (RIOTestServer.h:18). -/
structure TickSet where
  nowTick : UInt64
  beforeTick : UInt64
  deriving DecidableEq, Repr

/-- The ticks of one worker, and the milliseconds since the system started. -/
structure State where
  clock : Nat
  tickSet : TickSet
  deriving DecidableEq, Repr

/-- `GetTickCount64`. -/
def getTickCount64 (clock : Nat) : UInt64 := .ofNat clock

/-- `SleepRemainingFrameTime`; `Sleep` takes as long as it is told. -/
def sleepRemainingFrameTime (s : State) : State :=
  let nowTick := getTickCount64 s.clock
  let deltaTick := nowTick - s.tickSet.beforeTick
  let clock :=
    if deltaTick < oneFrame.toUInt64 ∧ deltaTick > 0 then
      s.clock + (oneFrame - deltaTick.toUInt32).toNat
    else s.clock
  ⟨clock, ⟨nowTick, nowTick⟩⟩

/-- The ticks with which a worker enters its loop. -/
def start (clock : Nat) : State := ⟨clock, ⟨getTickCount64 clock, getTickCount64 clock⟩⟩

/-- One turn of the loop, its work taking `workTime`. -/
def frame (s : State) (workTime : Nat) : State :=
  sleepRemainingFrameTime { s with clock := s.clock + workTime }

/-- When the calls of `SleepRemainingFrameTime` return. -/
def returnTimes (s : State) : List Nat → List Nat
  | [] => []
  | w :: ws => (frame s w).clock :: returnTimes (frame s w) ws

/-- The times between successive entries. -/
def intervals : List Nat → List Nat
  | t :: t' :: ts => (t' - t) :: intervals (t' :: ts)
  | _ => []

/-! ## One turn -/

/-- What is left of a frame `delta` milliseconds after it began; after none,
nothing. Differences of ticks are modulo `2 ^ 64`. -/
def remainingTime (delta : Nat) : Nat :=
  if 0 < delta % 2 ^ 64 ∧ delta % 2 ^ 64 < 33 then 33 - delta % 2 ^ 64 else 0

/-- The worker after a call at `clock` that slept for `slept`. -/
def after (clock slept : Nat) : State :=
  ⟨clock + slept, ⟨getTickCount64 clock, getTickCount64 clock⟩⟩

/-- The test and the argument of `Sleep`, in numbers. -/
theorem clock_sleep {deltaTick : UInt64} {delta : Nat} (h : deltaTick.toNat = delta % 2 ^ 64)
    (clock : Nat) :
    (if deltaTick < oneFrame.toUInt64 ∧ deltaTick > 0 then
      clock + (oneFrame - deltaTick.toUInt32).toNat else clock) = clock + remainingTime delta := by
  have htest : (deltaTick < oneFrame.toUInt64 ∧ deltaTick > 0) ↔
      0 < delta % 2 ^ 64 ∧ delta % 2 ^ 64 < 33 := by
    rw [gt_iff_lt, UInt64.lt_iff_toNat_lt, UInt64.lt_iff_toNat_lt, h]
    exact and_comm
  rw [remainingTime]
  by_cases hsleep : 0 < delta % 2 ^ 64 ∧ delta % 2 ^ 64 < 33
  · rw [if_pos (htest.mpr hsleep), if_pos hsleep, UInt32.toNat_sub, UInt64.toNat_toUInt32, h]
    show clock + (2 ^ 32 - delta % 2 ^ 64 % 2 ^ 32 + 33) % 2 ^ 32 = _
    omega
  · rw [if_neg (fun h' => hsleep (htest.mp h')), if_neg hsleep, Nat.add_zero]

/-- **One turn**: the call measures the work together with what the call before
has slept. -/
theorem frame_after (clock slept workTime : Nat) :
    frame (after clock slept) workTime =
      after (clock + slept + workTime) (remainingTime (slept + workTime)) := by
  have hdelta : (getTickCount64 (clock + slept + workTime) - getTickCount64 clock).toNat =
      (slept + workTime) % 2 ^ 64 := by
    rw [UInt64.toNat_sub, getTickCount64, getTickCount64, UInt64.toNat_ofNat', UInt64.toNat_ofNat']
    show (2 ^ 64 - clock % 2 ^ 64 + (clock + slept + workTime) % 2 ^ 64) % 2 ^ 64 = _
    omega
  exact congrArg (State.mk · _) (clock_sleep hdelta (clock + slept + workTime))

/-! ## Whole sequences -/

/-- The time from one return to the next, when the call before has slept. -/
def gaps (slept : Nat) : List Nat → List Nat
  | [] => []
  | w :: ws => (w + remainingTime (slept + w)) :: gaps (remainingTime (slept + w)) ws

/-- The intervals of a run are the gaps of its work times. -/
theorem intervals_returnTimes (clock slept : Nat) (ws : List Nat) :
    intervals ((clock + slept) :: returnTimes (after clock slept) ws) = gaps slept ws := by
  induction ws generalizing clock slept with
  | nil => rfl
  | cons w ws ih =>
    have hrest := ih (clock + slept + w) (remainingTime (slept + w))
    have hgap : clock + slept + w + remainingTime (slept + w) - (clock + slept) =
        w + remainingTime (slept + w) := by omega
    show ((frame (after clock slept) w).clock - (clock + slept)) ::
        intervals ((frame (after clock slept) w).clock ::
          returnTimes (frame (after clock slept) w) ws) =
      (w + remainingTime (slept + w)) :: gaps (remainingTime (slept + w)) ws
    rw [frame_after]
    exact congrArg₂ List.cons hgap hrest

/-- When a turn comes out as long as it should, `rest` being what was left of
the frame before: its work fills a frame, and not the whole range of the tick
counter as well; or there was nothing left, and it does some work. -/
def Fits (rest w : Nat) : Prop :=
  if w < 33 then 0 < w ∧ rest = 0
  else (rest + w) % 2 ^ 64 = 0 ∨ 33 ≤ (rest + w) % 2 ^ 64

/-- All turns come out as long as they should. -/
def AllFit (rest : Nat) : List Nat → Prop
  | [] => True
  | w :: ws => Fits rest w ∧ AllFit (33 - w) ws

instance (rest w : Nat) : Decidable (Fits rest w) := by
  unfold Fits
  infer_instance

/-- The turn's length is the frame, or the work, exactly if it fits. -/
theorem gap_eq_iff {rest w : Nat} (hrest : rest < 33) :
    w + remainingTime (rest + w) = max 33 w ↔ Fits rest w := by
  rw [remainingTime, Fits]
  split <;> split <;> omega

/-- A turn that fits leaves less than a frame. -/
theorem Fits.rest_lt {rest w : Nat} (h : Fits rest w) : 33 - w < 33 := by
  rw [Fits] at h
  split at h <;> omega

/-- **The run**: every turn takes a frame, or its work time, exactly if all of
them fit. -/
theorem gaps_eq_iff {rest : Nat} (hrest : rest < 33) (ws : List Nat) :
    gaps rest ws = ws.map (max 33) ↔ AllFit rest ws := by
  induction ws generalizing rest with
  | nil => exact iff_of_true rfl trivial
  | cons w ws ih =>
    rw [gaps, List.map_cons, List.cons_eq_cons, gap_eq_iff hrest, AllFit]
    refine and_congr_right fun hfits => ?_
    -- the call sleeps for what is left of the frame
    have hsleep : remainingTime (rest + w) = 33 - w := by
      have hgap := (gap_eq_iff hrest).mpr hfits
      omega
    rw [hsleep]
    exact ih hfits.rest_lt

/-- **Frames keep their length**: behind the first call, every return is a frame
or a work time after the one before exactly if every turn fits, beginning with
what the first one leaves of its frame. -/
theorem frames_kept_iff (clock w₀ : Nat) (ws : List Nat) :
    intervals (returnTimes (start clock) (w₀ :: ws)) = ws.map (max oneFrame.toNat) ↔
      AllFit (remainingTime w₀) ws := by
  have hfirst : frame (start clock) w₀ = after (clock + w₀) (remainingTime w₀) := by
    have hframe := frame_after clock 0 w₀
    rwa [Nat.add_zero, Nat.zero_add] at hframe
  have hrest : remainingTime w₀ < 33 := by
    rw [remainingTime]
    split <;> omega
  have hintervals : intervals (returnTimes (start clock) (w₀ :: ws)) =
      gaps (remainingTime w₀) ws := by
    rw [returnTimes, hfirst]
    exact intervals_returnTimes (clock + w₀) (remainingTime w₀) ws
  rw [hintervals]
  exact gaps_eq_iff hrest ws

/-- While the tick differences stay below `2 ^ 64`, a turn fits if its work
fills a frame, or if it does some and nothing was left of the frame before. -/
theorem fits_iff_of_lt {rest w : Nat} (h : rest + w < 2 ^ 64) :
    Fits rest w ↔ 33 ≤ w ∨ (0 < w ∧ rest = 0) := by
  rw [Fits, Nat.mod_eq_of_lt h]
  split <;> omega

/-- Ten milliseconds of work in each turn: the second return is ten milliseconds
after the first. And without any work there is no time between them at all. -/
theorem frames_not_kept :
    intervals (returnTimes (start 0) [10, 10]) = [10] ∧
      intervals (returnTimes (start 0) [10, 10]) ≠ [10].map (max oneFrame.toNat) ∧
      intervals (returnTimes (start 0) [0, 0]) = [0] := by decide

/-- **Spinning**: a worker that has nothing to do never sleeps. -/
theorem idle_spins (clock n : Nat) :
    returnTimes (start clock) (List.replicate n 0) = List.replicate n clock := by
  induction n with
  | zero => rfl
  | succ n ih =>
    have hframe : frame (start clock) 0 = start clock := frame_after clock 0 0
    rw [List.replicate_succ, returnTimes, hframe, ih]
    rfl

end RioServer.FrameTime
