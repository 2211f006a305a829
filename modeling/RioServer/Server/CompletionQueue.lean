import RioServer.Server.WorkerBalance

/-!
# The size of a completion queue (RIOTestServer.cpp:306–311, RIOTestSession.cpp:43)

`Worker` makes its completion queue for `maxClientCount / numOfWorkerThread`
sessions, a quotient that is rounded down and then multiplied in 32 bits. The
sessions of a worker come from `GetMinimumSessionThreadId`: with accepts alone it
goes round the workers in order (`run_accepts`), so the first of them have the
quotient rounded up. `queueFits_iff` says when 64 requests for each of them fit.
-/

namespace RioServer.WorkerBalance

/-! ## Round robin -/

/-- The sessions of a worker when `accepts` are dealt out in turn. -/
def share (numOfWorkerThread accepts threadId : Nat) : Nat :=
  (accepts + (numOfWorkerThread - 1 - threadId)) / numOfWorkerThread

/-- The sessions of all workers. -/
def shares (numOfWorkerThread accepts : Nat) : List Nat :=
  (List.range numOfWorkerThread).map (share numOfWorkerThread accepts)

variable {n accepts threadId : Nat}

theorem getElem?_shares (h : threadId < n) :
    (shares n accepts)[threadId]? = some (share n accepts threadId) := by
  simp [shares, h]

/-- Those whose turn it was already in this round have one session more. -/
theorem share_eq (h : threadId < n) :
    share n accepts threadId =
      accepts / n + if threadId < accepts % n then 1 else 0 := by
  have hdiv : n * (accepts / n) + accepts % n = accepts := Nat.div_add_mod accepts n
  have hmod : accepts % n < n := Nat.mod_lt accepts (by omega)
  rw [share]
  split
  · have hsum : accepts + (n - 1 - threadId) =
        (accepts % n - 1 - threadId) + n * (accepts / n + 1) := by
      rw [Nat.mul_add]
      omega
    rw [hsum, Nat.add_mul_div_left _ _ (by omega), Nat.div_eq_of_lt (by omega), Nat.zero_add]
  · have hsum : accepts + (n - 1 - threadId) =
        (accepts % n + (n - 1 - threadId)) + n * (accepts / n) := by omega
    rw [hsum, Nat.add_mul_div_left _ _ (by omega), Nat.div_eq_of_lt (by omega), Nat.zero_add,
      Nat.add_zero]

/-- The next accept adds to the worker whose turn it is. -/
theorem share_succ (h : threadId < n) :
    share n (accepts + 1) threadId =
      share n accepts threadId + if threadId = accepts % n then 1 else 0 := by
  have hturn : n ∣ accepts + (n - 1 - threadId) + 1 ↔ threadId = accepts % n := by
    have hdiv : n * (accepts / n) + accepts % n = accepts := Nat.div_add_mod accepts n
    have hmod : accepts % n < n := Nat.mod_lt accepts (by omega)
    have hsum : accepts + (n - 1 - threadId) + 1 =
        n * (accepts / n) + (accepts % n + (n - threadId)) := by omega
    rw [hsum, Nat.dvd_add_right (Nat.dvd_mul_right n _)]
    constructor
    · rintro ⟨k, hk⟩
      -- the sum is positive and less than two rounds
      have hlt : k < 2 := Nat.lt_of_mul_lt_mul_left (a := n) (by omega)
      have hpos : k ≠ 0 := by
        rintro rfl
        omega
      obtain rfl : k = 1 := by omega
      omega
    · rintro rfl
      exact ⟨1, by omega⟩
  have hsucc : accepts + 1 + (n - 1 - threadId) = accepts + (n - 1 - threadId) + 1 := by omega
  rw [share, share, hsucc, Nat.succ_div]
  simp only [hturn]

/-- The first of the workers with the fewest sessions is the one whose turn it
is. -/
theorem firstLeast_shares (hpos : 0 < n) : FirstLeast (shares n accepts) (accepts % n) := by
  have hturn : accepts % n < n := Nat.mod_lt accepts hpos
  refine ⟨_, getElem?_shares hturn, fun j c hj => ?_⟩
  have hjn : j < n := by
    have hlt := (List.getElem?_eq_some_iff.mp hj).1
    simpa [shares] using hlt
  rw [getElem?_shares hjn] at hj
  cases hj
  rw [share_eq hturn, share_eq hjn, if_neg (lt_irrefl _)]
  split <;> omega

/-- There is only one first. -/
theorem FirstLeast.unique {counts : List Nat} {i j : Nat} (hi : FirstLeast counts i)
    (hj : FirstLeast counts j) : i = j := by
  obtain ⟨m, hm, hleast⟩ := hi
  obtain ⟨m', hm', hleast'⟩ := hj
  have hmm' := hleast j m' hm'
  have hm'm := hleast' i m hm
  omega

/-- While fewer sessions than the limit were accepted, the scan returns the
worker whose turn it is. -/
theorem getMinimumSessionThreadId_shares {numOfWorkerThread : UInt8} {maxClientCount : UInt32}
    (hpos : 0 < numOfWorkerThread.toNat) (hlt : accepts < maxClientCount.toNat) :
    (getMinimumSessionThreadId maxClientCount (shares numOfWorkerThread.toNat accepts)).toNat =
      accepts % numOfWorkerThread.toNat := by
  have hfirst : FirstLeast (shares numOfWorkerThread.toNat accepts)
      (accepts % numOfWorkerThread.toNat) := firstLeast_shares hpos
  have hlen : (shares numOfWorkerThread.toNat accepts).length ≤ 255 := by
    rw [shares, List.length_map, List.length_range]
    exact Nat.le_of_lt_succ numOfWorkerThread.toNat_lt
  rcases scan_spec maxClientCount hlen with ⟨hfound, -⟩ | ⟨-, hfull⟩
  · exact hfound.unique hfirst
  · -- the worker whose turn it is has fewer sessions than were accepted
    have hturn : accepts % numOfWorkerThread.toNat < numOfWorkerThread.toNat :=
      Nat.mod_lt accepts hpos
    have hle := (hfull _ (List.mem_of_getElem? (getElem?_shares hturn))).2
    rw [share_eq hturn, if_neg (lt_irrefl _)] at hle
    have hdiv := Nat.div_le_self accepts numOfWorkerThread.toNat
    omega

theorem shares_zero : shares n 0 = List.replicate n 0 := by
  refine List.eq_replicate_iff.mpr ⟨by simp [shares], fun c hc => ?_⟩
  obtain ⟨j, hj, rfl⟩ := List.mem_map.mp hc
  have hjn := List.mem_range.mp hj
  exact Nat.div_eq_of_lt (by omega)

theorem share_le (h : threadId < n) : share n accepts threadId ≤ accepts := by
  rw [share]
  calc (accepts + (n - 1 - threadId)) / n ≤ (accepts * n + (n - 1 - threadId)) / n :=
        Nat.div_le_div_right (Nat.add_le_add_right (Nat.le_mul_of_pos_right accepts (by omega)) _)
    _ = accepts := by
        rw [Nat.add_comm, Nat.add_mul_div_right _ _ (by omega), Nat.div_eq_of_lt (by omega),
          Nat.zero_add]

/-- Counting up the worker whose turn it is deals out one session more. -/
theorem shares_succ (h : accepts + 1 < 2 ^ 32) :
    (shares n accepts).modify (accepts % n) (fun c => (c + 1) % 2 ^ 32) =
      shares n (accepts + 1) := by
  refine List.ext_getElem? fun j => ?_
  rw [List.getElem?_modify]
  by_cases hj : j < n
  · have hle : share n accepts j ≤ accepts := share_le hj
    rw [getElem?_shares hj, getElem?_shares hj, share_succ hj, Option.map_eq_map, Option.map_some]
    by_cases hturn : accepts % n = j
    · rw [if_pos hturn, if_pos hturn.symm, Nat.mod_eq_of_lt (by omega)]
    · rw [if_neg hturn, if_neg (Ne.symm hturn), Nat.add_zero]
  · rw [shares, shares, List.getElem?_eq_none (by simpa using hj),
      List.getElem?_eq_none (by simpa using hj)]
    rfl

/-- **Accepts alone go round**: up to the limit the sessions are dealt out in
turn. -/
theorem run_accepts {numOfWorkerThread : UInt8} {maxClientCount : UInt32}
    (hpos : 0 < numOfWorkerThread.toNat) (hle : accepts ≤ maxClientCount.toNat) :
    run numOfWorkerThread maxClientCount (List.replicate accepts .accept) =
      shares numOfWorkerThread.toNat accepts := by
  have hmax := maxClientCount.toNat_lt
  induction accepts with
  | zero => exact shares_zero.symm
  | succ accepts ih =>
    rw [List.replicate_succ', run_append_singleton, ih (by omega), step,
      getMinimumSessionThreadId_shares hpos (by omega)]
    exact shares_succ (by omega)

/-! ## The queue -/

/-- The requests of a session: `RIOCreateRequestQueue(socket, 32, 1, 32, 1, ..)`. -/
def requestQueueSize : Nat := 32 + 32

/-- What `Worker` passes to `RIOCreateCompletionQueue`; the factor is
`MAX_SEND_BUFFER_SIZE`. -/
def completionQueueSize (numOfWorkerThread : UInt8) (maxClientCount : UInt32) : UInt32 :=
  maxClientCount / numOfWorkerThread.toUInt32 * 16384

theorem completionQueueSize_toNat (numOfWorkerThread : UInt8) (maxClientCount : UInt32) :
    (completionQueueSize numOfWorkerThread maxClientCount).toNat =
      requestQueueSize *
        (256 * (maxClientCount.toNat / numOfWorkerThread.toNat % 2 ^ 18)) := by
  rw [completionQueueSize, UInt32.toNat_mul, UInt32.toNat_div, UInt8.toNat_toUInt32]
  show maxClientCount.toNat / numOfWorkerThread.toNat * 16384 % 2 ^ 32 = _
  generalize maxClientCount.toNat / numOfWorkerThread.toNat = quotient
  simp only [requestQueueSize]
  omega

/-- **When the queue is large enough** for all requests of a worker's sessions,
in every run of at most `maxClientCount` accepts: exactly if the share of the
worker, rounded as the turns come, is at most 256 times the rounded-down
quotient, as far as the 32-bit product keeps it. -/
theorem queueFits_iff {numOfWorkerThread : UInt8} (hpos : 0 < numOfWorkerThread.toNat)
    (maxClientCount : UInt32) {threadId : Nat} (hthread : threadId < numOfWorkerThread.toNat) :
    (∀ accepts ≤ maxClientCount.toNat, ∀ count,
      (run numOfWorkerThread maxClientCount (List.replicate accepts .accept))[threadId]? =
        some count →
      requestQueueSize * count ≤
        (completionQueueSize numOfWorkerThread maxClientCount).toNat) ↔
    share numOfWorkerThread.toNat maxClientCount.toNat threadId ≤
      256 * (maxClientCount.toNat / numOfWorkerThread.toNat % 2 ^ 18) := by
  rw [completionQueueSize_toNat]
  constructor
  · intro h
    have hall := h maxClientCount.toNat le_rfl _ (by
      rw [run_accepts hpos le_rfl]
      exact getElem?_shares hthread)
    exact Nat.le_of_mul_le_mul_left hall (by decide)
  · intro h accepts haccepts count hcount
    rw [run_accepts hpos haccepts, getElem?_shares hthread] at hcount
    cases hcount
    refine Nat.mul_le_mul_left _ (le_trans ?_ h)
    exact Nat.div_le_div_right (Nat.add_le_add_right haccepts _)

/-- At least one client for each worker, and fewer than `2 ^ 18`. -/
theorem queueFits_of_range {n max : Nat} (hthread : threadId < n) (hle : n ≤ max)
    (hlt : max / n < 2 ^ 18) : share n max threadId ≤ 256 * (max / n % 2 ^ 18) := by
  have hone : 1 ≤ max / n := Nat.div_pos hle (by omega)
  rw [share_eq hthread, Nat.mod_eq_of_lt hlt]
  split <;> omega

/-- The options of `ServerOption.txt`: four workers for 1000 clients. All of them
connect, and worker 0 has 250. -/
theorem queueFits_serverOption :
    (run 4 1000 (List.replicate 1000 .accept))[0]? = some 250 ∧
      requestQueueSize * 250 ≤ (completionQueueSize 4 1000).toNat := by
  have hrun : (run 4 1000 (List.replicate 1000 .accept))[0]? = some 250 := by
    rw [run_accepts (by decide) (by decide)]
    exact getElem?_shares (by decide)
  have hshare : share 4 1000 0 ≤ 256 * (1000 / 4 % 2 ^ 18) :=
    queueFits_of_range (by decide) (by decide) (by decide)
  exact ⟨hrun, (@queueFits_iff 4 (by decide) 1000 0 (by decide)).mpr hshare 1000 (by decide) 250
    hrun⟩

/-- Two workers for one client: worker 0 gets the client, and its queue has no
room. One worker for `2 ^ 18` clients: the product is zero again. -/
theorem queue_empty :
    (run 2 1 [.accept])[0]? = some 1 ∧
      ¬requestQueueSize * 1 ≤ (completionQueueSize 2 1).toNat ∧
      (completionQueueSize 1 262144).toNat = 0 := by decide

end RioServer.WorkerBalance
