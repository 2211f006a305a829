import Mathlib.Tactic

/-!
# Which worker gets a session (RIOTestServer.cpp:466–485, 539–557, 582–606)

`GetMinimumSessionThreadId` looks for the smallest entry of
`numOfSessionInWorkerThread`. It begins with `maxClientCount` as the smallest so
far and with worker 0 as its owner, so entries that are not below that limit are
never seen, and nothing keeps the entries below it. `scan_spec` says what the
scan finds; the worker has the fewest sessions exactly if some entry is below
the limit, or worker 0's is one of the smallest (`least_iff`).

`run` is any sequence of accepts and releases. While the condition holds at the
accepts, a sequence of accepts alone keeps the entries within one of each other
(`balanced_run`).
-/

namespace RioServer.WorkerBalance

/-- The options that decide about workers (RIOTestServer.h:121). -/
structure ServerOptions where
  numOfWorkerThread : UInt8
  maxClientCount : UInt32
  deriving DecidableEq, Repr

/-- What `CParser` finds under the names of `ServerOption.txt`. -/
structure ServerOptionFile where
  getValueByte : String → Option UInt8
  getValueShort : String → Option Int16
  getValueInt : String → Option Int32

/-- `ServerOptionParsing` (RIOTestServer.cpp:787). The `int` of
`MAX_CLIENT_COUNT` is stored in a `UINT`. -/
def serverOptionParsing (file : ServerOptionFile) : Option ServerOptions := do
  let numOfWorkerThread ← file.getValueByte "THREAD_COUNT"
  let _ ← file.getValueByte "NAGLE_ON"
  let _ ← file.getValueShort "PORT"
  let maxClientCount ← file.getValueInt "MAX_CLIENT_COUNT"
  let _ ← file.getValueByte "PACKET_CODE"
  let _ ← file.getValueByte "PACKET_KEY"
  return ⟨numOfWorkerThread, maxClientCount.toUInt32⟩

/-- A file of the shape of `ServerOption.txt`. -/
def ServerOptions.toFile (options : ServerOptions) : ServerOptionFile where
  getValueByte name := if name = "THREAD_COUNT" then some options.numOfWorkerThread else some 0
  getValueShort _ := some 10001
  getValueInt _ := some options.maxClientCount.toInt32

/-- No pair of the two is refused. -/
theorem serverOptionParsing_accepts (options : ServerOptions) :
    serverOptionParsing options.toFile = some options := by
  simp [serverOptionParsing, ServerOptions.toFile]

/-! ## The scan -/

/-- The loop of `GetMinimumSessionThreadId` from one worker on: the entries that
are left, the worker they begin with, and the smallest entry so far with its
owner. -/
def scan : List Nat → (threadId : UInt8) → (minimumSessionCount : Nat) →
    (targetThreadId : UInt8) → UInt8
  | [], _, _, targetThreadId => targetThreadId
  | count :: counts, threadId, minimumSessionCount, targetThreadId =>
    if count = 0 then threadId
    else if count < minimumSessionCount then scan counts (threadId + 1) count threadId
    else scan counts (threadId + 1) minimumSessionCount targetThreadId

/-- `GetMinimumSessionThreadId` (RIOTestServer.cpp:466). -/
def getMinimumSessionThreadId (maxClientCount : UInt32) (counts : List Nat) : UInt8 :=
  scan counts 0 maxClientCount.toNat 0

/-- The entry of a worker is smaller than those before it and not larger than
those behind it. -/
def FirstLeast (counts : List Nat) (threadId : Nat) : Prop :=
  ∃ m, counts[threadId]? = some m ∧
    ∀ j c, counts[j]? = some c → m ≤ c ∧ (j < threadId → m < c)

/-- There is a worker that the scan can find. -/
def HasRoom (maxClientCount : UInt32) (counts : List Nat) : Prop :=
  ∃ c ∈ counts, c = 0 ∨ c < maxClientCount.toNat

instance (maxClientCount : UInt32) (counts : List Nat) :
    Decidable (HasRoom maxClientCount counts) := by
  unfold HasRoom
  infer_instance

/-- The scan so far: no entry was zero, and the smallest is the limit or the
first of the smallest entries below it. -/
structure Scanned (limit : Nat) (seen : List Nat) (minimum target : Nat) : Prop where
  ne_zero : ∀ c ∈ seen, c ≠ 0
  le : ∀ c ∈ seen, minimum ≤ c
  target_eq : minimum = limit ∧ target = 0 ∨
    minimum < limit ∧ seen[target]? = some minimum ∧ FirstLeast seen target

variable {limit minimum target : Nat} {seen counts : List Nat}

/-- What the scan ends with. -/
def Found (limit : Nat) (counts : List Nat) (threadId : Nat) : Prop :=
  FirstLeast counts threadId ∧ (∃ c ∈ counts, c = 0 ∨ c < limit) ∨
    threadId = 0 ∧ ∀ c ∈ counts, c ≠ 0 ∧ limit ≤ c

/-- An entry below all earlier ones is the first of the smallest so far. -/
theorem FirstLeast.append_singleton {count : Nat} (h : ∀ c ∈ seen, count < c) :
    FirstLeast (seen ++ [count]) seen.length := by
  refine ⟨count, List.getElem?_concat_length, fun j c hj => ?_⟩
  rcases Nat.lt_or_ge j seen.length with hlt | hge
  · rw [List.getElem?_append_left hlt] at hj
    have hc := h c (List.mem_of_getElem? hj)
    exact ⟨hc.le, fun _ => hc⟩
  · rw [List.getElem?_append_right hge] at hj
    obtain rfl : c = count := List.mem_singleton.mp (List.mem_of_getElem? hj)
    exact ⟨le_rfl, fun hlt => absurd hlt (by omega)⟩

/-- An entry that is not smaller leaves the first of the smallest as it is. -/
theorem FirstLeast.append {rest : List Nat} (h : FirstLeast seen target)
    (hrest : ∀ m, seen[target]? = some m → ∀ c ∈ rest, m ≤ c) :
    FirstLeast (seen ++ rest) target := by
  obtain ⟨m, hm, hleast⟩ := h
  have htarget : target < seen.length := (List.getElem?_eq_some_iff.mp hm).1
  refine ⟨m, by rw [List.getElem?_append_left htarget, hm], fun j c hj => ?_⟩
  rcases Nat.lt_or_ge j seen.length with hlt | hge
  · rw [List.getElem?_append_left hlt] at hj
    exact hleast j c hj
  · rw [List.getElem?_append_right hge] at hj
    exact ⟨hrest m hm c (List.mem_of_getElem? hj), fun hlt => absurd hlt (by omega)⟩

/-- One entry that is neither zero nor smaller. -/
theorem Scanned.keep {count : Nat} (h : Scanned limit seen minimum target) (hzero : count ≠ 0)
    (hge : minimum ≤ count) : Scanned limit (seen ++ [count]) minimum target where
  ne_zero c hc := by
    rcases List.mem_append.mp hc with hold | hnew
    · exact h.ne_zero c hold
    · rwa [List.mem_singleton.mp hnew]
  le c hc := by
    rcases List.mem_append.mp hc with hold | hnew
    · exact h.le c hold
    · rwa [List.mem_singleton.mp hnew]
  target_eq := by
    rcases h.target_eq with hlimit | ⟨hlt, hm, hfirst⟩
    · exact .inl hlimit
    · refine .inr ⟨hlt, ?_, hfirst.append fun m hm' c hc => ?_⟩
      · rw [List.getElem?_append_left (List.getElem?_eq_some_iff.mp hm).1, hm]
      · rw [hm] at hm'
        cases hm'
        rwa [List.mem_singleton.mp hc]

/-- One entry that is smaller than the smallest so far. -/
theorem Scanned.take {count : Nat} (h : Scanned limit seen minimum target) (hzero : count ≠ 0)
    (hlt : count < minimum) : Scanned limit (seen ++ [count]) count seen.length where
  ne_zero c hc := by
    rcases List.mem_append.mp hc with hold | hnew
    · exact h.ne_zero c hold
    · rwa [List.mem_singleton.mp hnew]
  le c hc := by
    rcases List.mem_append.mp hc with hold | hnew
    · exact hlt.le.trans (h.le c hold)
    · exact (List.mem_singleton.mp hnew).ge
  target_eq := by
    have hlimit : count < limit := by
      rcases h.target_eq with ⟨rfl, -⟩ | ⟨hlt', -, -⟩
      · exact hlt
      · exact hlt.trans hlt'
    exact .inr ⟨hlimit, List.getElem?_concat_length,
      .append_singleton fun c hc => Nat.lt_of_lt_of_le hlt (h.le c hc)⟩

/-- The scan stops at an entry of zero. -/
theorem found_zero (h : Scanned limit seen minimum target) :
    Found limit (seen ++ 0 :: counts) seen.length := by
  have hfirst : FirstLeast (seen ++ [0]) seen.length :=
    .append_singleton fun c hc => Nat.pos_of_ne_zero (h.ne_zero c hc)
  refine .inl ⟨?_, 0, by simp, .inl rfl⟩
  rw [List.append_cons]
  refine hfirst.append fun m hm c _ => ?_
  rw [List.getElem?_concat_length] at hm
  cases hm
  exact Nat.zero_le c

/-- The scan comes to the end of the entries. -/
theorem Scanned.found (h : Scanned limit seen minimum target) : Found limit seen target := by
  rcases h.target_eq with ⟨rfl, rfl⟩ | ⟨hlt, hm, hfirst⟩
  · exact .inr ⟨rfl, fun c hc => ⟨h.ne_zero c hc, h.le c hc⟩⟩
  · exact .inl ⟨hfirst, minimum, List.mem_of_getElem? hm, .inr hlt⟩

/-- **The loop**, from any point on. -/
theorem scan_found {threadId targetThreadId : UInt8} (hid : threadId.toNat = seen.length)
    (hlen : seen.length + counts.length ≤ 255)
    (h : Scanned limit seen minimum targetThreadId.toNat) :
    Found limit (seen ++ counts) (scan counts threadId minimum targetThreadId).toNat := by
  induction counts generalizing seen threadId minimum targetThreadId with
  | nil =>
    rw [List.append_nil]
    exact h.found
  | cons count counts ih =>
    rw [List.length_cons] at hlen
    have hnext : (threadId + 1).toNat = (seen ++ [count]).length := by
      rw [UInt8.toNat_add, hid, List.length_append]
      show (seen.length + 1) % 256 = seen.length + 1
      omega
    have hlen' : (seen ++ [count]).length + counts.length ≤ 255 := by
      rw [List.length_append, List.length_singleton]
      omega
    rw [scan]
    by_cases hzero : count = 0
    · rw [if_pos hzero, hid, hzero]
      exact found_zero h
    · rw [if_neg hzero, List.append_cons]
      by_cases hlt : count < minimum
      · rw [if_pos hlt]
        refine ih hnext hlen' ?_
        rw [hid]
        exact h.take hzero hlt
      · rw [if_neg hlt]
        exact ih hnext hlen' (h.keep hzero (by omega))

/-- **The scan**, over any entries of at most 255 workers. -/
theorem scan_spec (maxClientCount : UInt32) {counts : List Nat} (hlen : counts.length ≤ 255) :
    Found maxClientCount.toNat counts
      (getMinimumSessionThreadId maxClientCount counts).toNat := by
  have hstart : Scanned maxClientCount.toNat [] maxClientCount.toNat (0 : UInt8).toNat :=
    ⟨by simp, by simp, .inl ⟨rfl, rfl⟩⟩
  exact scan_found rfl (by simpa using hlen) hstart

/-- A worker, and none has fewer sessions. -/
def Least (counts : List Nat) (threadId : Nat) : Prop :=
  ∃ m, counts[threadId]? = some m ∧ ∀ c ∈ counts, m ≤ c

theorem FirstLeast.least {threadId : Nat} (h : FirstLeast counts threadId) :
    Least counts threadId := by
  obtain ⟨m, hm, hleast⟩ := h
  refine ⟨m, hm, fun c hc => ?_⟩
  obtain ⟨j, hj⟩ := List.mem_iff_getElem?.mp hc
  exact (hleast j c hj).1

/-- **The worker with the fewest sessions**: the scan returns one exactly if
some entry is below the limit, or worker 0 has the fewest. -/
theorem least_iff (maxClientCount : UInt32) (hpos : counts ≠ []) (hlen : counts.length ≤ 255) :
    (getMinimumSessionThreadId maxClientCount counts).toNat < counts.length ∧
    (Least counts (getMinimumSessionThreadId maxClientCount counts).toNat ↔
      HasRoom maxClientCount counts ∨ Least counts 0) := by
  rcases scan_spec maxClientCount hlen with ⟨hfirst, hroom⟩ | ⟨hzero, hfull⟩
  · have hleast := hfirst.least
    obtain ⟨m, hm, -⟩ := hfirst
    exact ⟨(List.getElem?_eq_some_iff.mp hm).1, iff_of_true hleast (.inl hroom)⟩
  · rw [hzero]
    refine ⟨List.length_pos_iff.mpr hpos, fun h => .inr h, ?_⟩
    rintro (⟨c, hc, h⟩ | h)
    · -- there was no entry below the limit
      obtain ⟨hne, hle⟩ := hfull c hc
      omega
    · exact h

/-! ## Runs -/

/-- A connection is accepted, or a session of a worker is released. -/
inductive Event where
  | accept
  | release (threadId : Nat)
  deriving DecidableEq, Repr

/-- The `InterlockedIncrement` of `MakeNewSession` and the
`InterlockedDecrement` of `ReleaseSession`, on a `UINT`. -/
def step (maxClientCount : UInt32) (counts : List Nat) : Event → List Nat
  | .accept =>
    counts.modify (getMinimumSessionThreadId maxClientCount counts).toNat fun c => (c + 1) % 2 ^ 32
  | .release threadId => counts.modify threadId fun c => (c + (2 ^ 32 - 1)) % 2 ^ 32

/-- `InitializeRIO` (RIOTestServer.cpp:620). -/
def initializeRio (numOfWorkerThread : UInt8) : List Nat :=
  List.replicate numOfWorkerThread.toNat 0

/-- The entries after some accepts and releases. -/
def run (numOfWorkerThread : UInt8) (maxClientCount : UInt32) (events : List Event) : List Nat :=
  events.foldl (step maxClientCount) (initializeRio numOfWorkerThread)

/-- No worker has two sessions more than another. -/
def Balanced (counts : List Nat) : Prop := ∀ c ∈ counts, ∀ c' ∈ counts, c ≤ c' + 1

instance (counts : List Nat) : Decidable (Balanced counts) := by
  unfold Balanced
  infer_instance

/-- **The exact exception**, at an accept: an entry is below the limit, or worker
0 has the fewest sessions and its entry can be counted up. -/
def AcceptFits (maxClientCount : UInt32) (counts : List Nat) : Prop :=
  HasRoom maxClientCount counts ∨
    ∃ m, counts[0]? = some m ∧ (∀ c ∈ counts, m ≤ c) ∧ m + 1 < 2 ^ 32

/-- What an accept that fits counts up: a smallest entry, without overflow. -/
theorem AcceptFits.least {maxClientCount : UInt32} (h : AcceptFits maxClientCount counts)
    (hlen : counts.length ≤ 255) :
    ∃ m, counts[(getMinimumSessionThreadId maxClientCount counts).toNat]? = some m ∧
      (∀ c ∈ counts, m ≤ c) ∧ m + 1 < 2 ^ 32 := by
  have hmax := maxClientCount.toNat_lt
  rcases scan_spec maxClientCount hlen with ⟨hfirst, c, hc, hroom⟩ | ⟨hzero, hfull⟩
  · obtain ⟨m, hm, hle⟩ := hfirst.least
    have hmc := hle c hc
    exact ⟨m, hm, hle, by omega⟩
  · rcases h with ⟨c, hc, hroom⟩ | hfirst
    · obtain ⟨hne, hle⟩ := hfull c hc
      omega
    · rw [hzero]
      exact hfirst

/-- Counting up a smallest entry keeps the balance. -/
theorem Balanced.modify {threadId m : Nat} (h : Balanced counts)
    (hm : counts[threadId]? = some m) (hle : ∀ c ∈ counts, m ≤ c) (hlt : m + 1 < 2 ^ 32) :
    Balanced (counts.modify threadId fun c => (c + 1) % 2 ^ 32) := by
  have hmem : ∀ c ∈ counts.modify threadId fun c => (c + 1) % 2 ^ 32, c ∈ counts ∨ c = m + 1 := by
    intro c hc
    obtain ⟨j, hj⟩ := List.mem_iff_getElem?.mp hc
    rw [List.getElem?_modify] at hj
    split at hj
    · next heq =>
      rw [← heq, hm] at hj
      cases hj
      exact .inr (Nat.mod_eq_of_lt hlt)
    · rw [Option.map_eq_map, Option.map_id'] at hj
      exact .inl (List.mem_of_getElem? hj)
  have hmem_m := List.mem_of_getElem? hm
  intro c hc c' hc'
  rcases hmem c hc with hold | rfl <;> rcases hmem c' hc' with hold' | rfl
  · exact h c hold c' hold'
  · exact (h c hold m hmem_m).trans (by omega)
  · exact Nat.succ_le_succ (hle c' hold')
  · omega

@[simp] theorem length_step (maxClientCount : UInt32) (counts : List Nat) (e : Event) :
    (step maxClientCount counts e).length = counts.length := by
  cases e <;> simp [step]

variable {numOfWorkerThread : UInt8} {maxClientCount : UInt32} {events : List Event}

theorem run_append_singleton (e : Event) :
    run numOfWorkerThread maxClientCount (events ++ [e]) =
      step maxClientCount (run numOfWorkerThread maxClientCount events) e := by
  simp [run]

theorem length_run : (run numOfWorkerThread maxClientCount events).length =
    numOfWorkerThread.toNat := by
  induction events using List.reverseRecOn with
  | nil => exact List.length_replicate
  | append_singleton events e ih => rw [run_append_singleton, length_step, ih]

theorem length_run_le : (run numOfWorkerThread maxClientCount events).length ≤ 255 := by
  rw [length_run]
  exact Nat.le_of_lt_succ numOfWorkerThread.toNat_lt

/-- Every accept of a run fits. -/
def AcceptsFit (numOfWorkerThread : UInt8) (maxClientCount : UInt32) (events : List Event) : Prop :=
  ∀ before behind, events = before ++ .accept :: behind →
    AcceptFits maxClientCount (run numOfWorkerThread maxClientCount before)

/-- The last event of a run, and the run before it. -/
theorem acceptsFit_append_singleton {e : Event} :
    AcceptsFit numOfWorkerThread maxClientCount (events ++ [e]) ↔
      AcceptsFit numOfWorkerThread maxClientCount events ∧
        (e = .accept →
          AcceptFits maxClientCount (run numOfWorkerThread maxClientCount events)) := by
  constructor
  · intro h
    refine ⟨?_, ?_⟩
    · rintro before behind rfl
      exact h before (behind ++ [e]) (by simp)
    · rintro rfl
      exact h events [] rfl
  · rintro ⟨h, hlast⟩ before behind hsplit
    rcases List.eq_nil_or_concat' behind with rfl | ⟨behind, e', rfl⟩
    · obtain ⟨rfl, he⟩ := List.append_inj' hsplit rfl
      exact hlast (List.singleton_inj.mp he)
    · rw [← List.cons_append, ← List.append_assoc] at hsplit
      exact h before behind (List.append_inj_left' hsplit rfl)

/-- **The run**: accepts that fit, and nothing else, keep the balance. -/
theorem balanced_run (h : AcceptsFit numOfWorkerThread maxClientCount events)
    (haccepts : ∀ e ∈ events, e = .accept) :
    Balanced (run numOfWorkerThread maxClientCount events) := by
  induction events using List.reverseRecOn with
  | nil =>
    intro c hc c' _
    rw [List.eq_of_mem_replicate hc]
    exact Nat.zero_le _
  | append_singleton events e ih =>
    obtain ⟨hbefore, hlast⟩ := acceptsFit_append_singleton.mp h
    have hbalanced := ih hbefore fun e he => haccepts e (List.mem_append_left _ he)
    obtain ⟨m, hm, hle, hlt⟩ := (hlast (haccepts e (by simp))).least length_run_le
    obtain rfl : e = .accept := haccepts e (by simp)
    rw [run_append_singleton]
    exact hbalanced.modify hm hle hlt

/-- **New sessions go where the fewest are**: of any entries the scan returns a
worker, and one with the fewest exactly if an entry is below the limit or worker
0 has the fewest. So it does at every accept of a run whose accepts fit, and
accepts alone then keep the balance. -/
theorem least_loaded (hpos : 0 < numOfWorkerThread.toNat) (maxClientCount : UInt32) :
    (∀ counts, counts.length = numOfWorkerThread.toNat →
      (getMinimumSessionThreadId maxClientCount counts).toNat < numOfWorkerThread.toNat ∧
      (Least counts (getMinimumSessionThreadId maxClientCount counts).toNat ↔
        HasRoom maxClientCount counts ∨ Least counts 0)) ∧
    ∀ events, AcceptsFit numOfWorkerThread maxClientCount events →
      (∀ before behind, events = before ++ .accept :: behind →
        let counts := run numOfWorkerThread maxClientCount before
        Least counts (getMinimumSessionThreadId maxClientCount counts).toNat) ∧
      ((∀ e ∈ events, e = .accept) →
        Balanced (run numOfWorkerThread maxClientCount events)) := by
  refine ⟨fun counts hcounts => ?_, fun events h => ⟨fun before behind hsplit => ?_,
    fun haccepts => balanced_run h haccepts⟩⟩
  · have hlen : counts.length ≤ 255 := by
      rw [hcounts]
      exact Nat.le_of_lt_succ numOfWorkerThread.toNat_lt
    rw [← hcounts]
    exact least_iff maxClientCount (List.length_pos_iff.mp (hcounts ▸ hpos)) hlen
  · obtain ⟨m, hm, hle, -⟩ := (h before behind hsplit).least length_run_le
    exact ⟨m, hm, hle⟩

/-- Two workers, with room for one client each: of the entries 1 and 0 the scan
takes the second, and of three accepts the last one, which fits although no
entry is below the limit, goes to worker 0. -/
theorem least_loaded_two :
    Least [1, 0] (getMinimumSessionThreadId 1 [1, 0]).toNat ∧
      (∀ before behind, List.replicate 3 Event.accept = before ++ .accept :: behind →
        Least (run 2 1 before) (getMinimumSessionThreadId 1 (run 2 1 before)).toNat) ∧
      run 2 1 (List.replicate 3 .accept) = [2, 1] ∧
      Balanced (run 2 1 (List.replicate 3 .accept)) := by
  obtain ⟨hscan, hruns⟩ := @least_loaded 2 (by decide) 1
  have hfits : AcceptsFit 2 1 (List.replicate 3 .accept) := by
    show AcceptsFit 2 1 ([] ++ [.accept] ++ [.accept] ++ [.accept])
    have hnone : AcceptsFit 2 1 [] := by simp [AcceptsFit]
    have hfull : run 2 1 ([] ++ [.accept] ++ [.accept]) = [1, 1] := by decide
    simp only [acceptsFit_append_singleton, hfull]
    refine ⟨⟨⟨hnone, fun _ => .inl ?_⟩, fun _ => .inl ?_⟩, fun _ => .inr ⟨1, rfl, ?_, ?_⟩⟩
    all_goals decide
  obtain ⟨hleast, hbalanced⟩ := hruns _ hfits
  exact ⟨(hscan [1, 0] rfl).2.mpr (.inl (by decide)), hleast, by decide, hbalanced (by simp)⟩

/-- With a `MAX_CLIENT_COUNT` of one, two workers have one session each after two
accepts; the third and the fourth accept then both go to worker 0, the fourth
although it has two sessions already. -/
theorem first_overloaded :
    run 2 1 (List.replicate 3 .accept) = [2, 1] ∧
      ¬Least [2, 1] (getMinimumSessionThreadId 1 [2, 1]).toNat ∧
      ¬Balanced (run 2 1 (List.replicate 4 .accept)) := by
  refine ⟨by decide, ?_, by decide⟩
  have hfirst : (getMinimumSessionThreadId 1 [2, 1]).toNat = 0 := by decide
  rw [hfirst]
  rintro ⟨m, hm, hle⟩
  cases hm
  exact absurd (hle 1 (by simp)) (by decide)

end RioServer.WorkerBalance
