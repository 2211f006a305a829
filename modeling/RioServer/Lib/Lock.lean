import RioServer.Lib.Interleaving

/-!
# A flag with one owner

Threads that share something often guard it by a flag: an atomic exchange sets the
flag for one of them, which owns what the flag guards until it clears the flag or
passes it on to a request of the system, whose completion comes back to a thread.
Nothing ties the flag to its owner but the code: a path that leaves without clearing
it drops the ownership, and the flag stays set for good.

`Lock.Step` says what an action may do to the flag and its owner, `Lock.Drops` what
it does where it goes wrong. Along a run of such actions the flag is owned or
abandoned (`Run.owned_or_abandoned`), it is owned where none of them drops it
(`Run.owned`), and once abandoned it stays so, with everything that only an owner
changes (`Run.abandoned`).
-/

namespace RioServer

universe u v w x y

namespace Machine

/-- A flag in the shared state, what a thread owns of it, and what the outstanding
requests do. -/
structure Lock (σ : Type u) (π : Type v) where
  taken : σ → Bool
  owner : π → Nat
  lent : σ → Nat

namespace Lock

variable {σ : Type u} {π : Type v}
variable (L : Lock σ π) {s s' : σ} {p p' : π} {l r ts : List π}

/-- The flag is set exactly if it has an owner, and it has one owner at most. -/
def Owned (s : σ) (ts : List π) : Prop :=
  load L.owner ts + L.lent s = (L.taken s).toNat

/-- The flag is set, and nobody owns it. -/
structure Abandoned (s : σ) (ts : List π) : Prop where
  taken : L.taken s = true
  owner : load L.owner ts = 0
  lent : L.lent s = 0

/-- What an action does to the flag and its owner. -/
inductive Step (s : σ) (p : π) (s' : σ) (p' : π) : Prop where
  /-- The owner stays, or passes it on. -/
  | keeps (taken : L.taken s' = L.taken s)
      (owner : L.owner p' + L.lent s' = L.owner p + L.lent s)
  | takes (free : L.taken s = false) (taken : L.taken s' = true)
      (owner : L.owner p' + L.lent s' = L.owner p + L.lent s + 1)
  | gives (own : L.owner p ≠ 0) (free : L.taken s' = false)
      (owner : L.owner p' + L.lent s' + 1 = L.owner p + L.lent s)

/-- The owner leaves, and the flag stays as it is. -/
structure Drops (s : σ) (p : π) (s' : σ) (p' : π) : Prop where
  own : L.owner p ≠ 0
  taken : L.taken s' = L.taken s
  owner : L.owner p' + L.lent s' + 1 = L.owner p + L.lent s

/-- What a new thread is to the flag: nothing, or it comes back with a request. -/
structure Starts (s s' : σ) (p : π) : Prop where
  taken : L.taken s' = L.taken s
  owner : L.owner p + L.lent s' = L.lent s

variable {L}

/-- An owner says that the flag is set. -/
theorem Owned.taken (hO : L.Owned s ts) (h : load L.owner ts + L.lent s ≠ 0) :
    L.taken s = true := by
  cases hset : L.taken s with
  | true => rfl
  | false =>
    rw [Owned, hset, Bool.toNat_false] at hO
    exact absurd hO h

/-- An owned flag has its owner afterwards. -/
theorem Step.owned (h : L.Step s p s' p') (hO : L.Owned s (l ++ p :: r)) :
    L.Owned s' (l ++ p' :: r) := by
  have hle := Bool.toNat_le (L.taken s)
  simp only [Owned, load_append, load_cons] at hO ⊢
  cases h with
  | keeps taken owner =>
    rw [taken]
    omega
  | takes free taken owner =>
    rw [free, Bool.toNat_false] at hO
    rw [taken, Bool.toNat_true]
    omega
  | gives own free owner =>
    rw [free, Bool.toNat_false]
    omega

/-- When its owner leaves, it is abandoned. -/
theorem Drops.abandoned (h : L.Drops s p s' p') (hO : L.Owned s (l ++ p :: r)) :
    L.Abandoned s' (l ++ p' :: r) := by
  obtain ⟨hown, htaken, howner⟩ := h
  have hle := Bool.toNat_le (L.taken s)
  have hset : L.taken s = true := by
    refine hO.taken ?_
    simp only [load_append, load_cons]
    omega
  simp only [Owned, load_append, load_cons] at hO
  refine ⟨htaken.trans hset, ?_, by omega⟩
  simp only [load_append, load_cons]
  omega

/-- Nobody comes to own an abandoned flag. -/
theorem Abandoned.exec (hA : L.Abandoned s (l ++ p :: r))
    (h : L.Step s p s' p' ∨ L.Drops s p s' p') :
    L.owner p = 0 ∧ L.Abandoned s' (l ++ p' :: r) := by
  obtain ⟨htaken, howner, hlent⟩ := hA
  simp only [load_append, load_cons] at howner
  have hp : L.owner p = 0 := by omega
  refine ⟨hp, ?_⟩
  rcases h with h | h
  · cases h with
    | keeps taken owner =>
      refine ⟨taken.trans htaken, ?_, by omega⟩
      simp only [load_append, load_cons]
      omega
    | takes free =>
      rw [free] at htaken
      cases htaken
    | gives own => exact absurd hp own
  · exact absurd hp h.own

theorem Owned.started (hO : L.Owned s ts) (h : L.Starts s s' p) : L.Owned s' (ts ++ [p]) := by
  have howner := h.owner
  simp only [Owned, load_append, load_cons, load_nil, h.taken] at hO ⊢
  omega

theorem Abandoned.started (hA : L.Abandoned s ts) (h : L.Starts s s' p) :
    L.Abandoned s' (ts ++ [p]) := by
  have howner := h.owner
  have hlent := hA.lent
  refine ⟨h.taken.trans hA.taken, ?_, by omega⟩
  simp only [load_append, load_cons, load_nil, hA.owner]
  omega

end Lock

/-! ## Whole runs -/

variable {σ : Type u} {π : Type v} {ω : Type w} {ε : Type x} {α : Type y}
variable {M : Machine σ π ω ε} {L : Lock σ π} {G : Guard σ π ω} {c₀ c : Config σ π}

/-- Where no action drops it, the flag is owned. -/
theorem Run.owned (hrun : M.Run G c₀ c) (hinit : L.Owned c₀.shared c₀.threads)
    (hexec : ∀ {s l p r o s' p'}, M.Run G c₀ ⟨s, l ++ p :: r⟩ → G p o s (l ++ p :: r) →
      M.exec p o s = some (s', p') → L.Step s p s' p')
    (hspawn : ∀ {e s s' p}, M.spawn e s = some (s', p) → L.Starts s s' p) :
    L.Owned c.shared c.threads := by
  refine Run.induct (I := L.Owned) hrun hinit ?_ ?_
  · intro s l p r o s' p' hc hO hG hx
    exact (hexec hc hG hx).owned hO
  · intro s ts e s' p _ hO hx
    exact hO.started (hspawn hx)

/-- **The flag is owned or abandoned** in every state of every run. -/
theorem Run.owned_or_abandoned (hrun : M.Run G c₀ c) (hinit : L.Owned c₀.shared c₀.threads)
    (hexec : ∀ {p o s s' p'}, M.exec p o s = some (s', p') →
      L.Step s p s' p' ∨ L.Drops s p s' p')
    (hspawn : ∀ {e s s' p}, M.spawn e s = some (s', p) → L.Starts s s' p) :
    L.Owned c.shared c.threads ∨ L.Abandoned c.shared c.threads := by
  refine Run.induct (I := fun s ts => L.Owned s ts ∨ L.Abandoned s ts) hrun (.inl hinit) ?_ ?_
  · rintro s l p r o s' p' - (hO | hA) - hx
    · rcases hexec hx with hstep | hdrops
      · exact .inl (hstep.owned hO)
      · exact .inr (hdrops.abandoned hO)
    · exact .inr (hA.exec (hexec hx)).2
  · rintro s ts e s' p - (hO | hA) hx
    · exact .inl (hO.started (hspawn hx))
    · exact .inr (hA.started (hspawn hx))

/-- **An abandoned flag stays so**, and so does what only its owner changes. -/
theorem Run.abandoned {f : σ → α} (hrun : M.Run G c₀ c)
    (hinit : L.Abandoned c₀.shared c₀.threads)
    (hexec : ∀ {p o s s' p'}, M.exec p o s = some (s', p') →
      (L.Step s p s' p' ∨ L.Drops s p s' p') ∧ (L.owner p = 0 → f s' = f s))
    (hspawn : ∀ {e s s' p}, M.spawn e s = some (s', p) → L.Starts s s' p ∧ f s' = f s) :
    L.Abandoned c.shared c.threads ∧ f c.shared = f c₀.shared := by
  refine Run.induct (I := fun s ts => L.Abandoned s ts ∧ f s = f c₀.shared) hrun
    ⟨hinit, rfl⟩ ?_ ?_
  · rintro s l p r o s' p' - ⟨hA, hf⟩ - hx
    obtain ⟨hstep, hkeeps⟩ := hexec hx
    obtain ⟨hp, hA'⟩ := hA.exec hstep
    exact ⟨hA', (hkeeps hp).trans hf⟩
  · rintro s ts e s' p - ⟨hA, hf⟩ hx
    obtain ⟨hstart, hkeeps⟩ := hspawn hx
    exact ⟨hA.started hstart, hkeeps.trans hf⟩

end Machine

end RioServer
