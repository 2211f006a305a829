import RioServer.Lib.Interleaving

/-!
# A machine whose threads another one runs

A pool of workers runs the threads of a machine on threads of its own: what there
is to do waits in a queue until a worker takes it, and when it is done the worker
takes something else. So the pool has neither the machine's threads nor their
order. But what it holds, in its queue and on its workers, are threads of a run of
the machine.

`Among` says this: a run comes to the shared state with these threads among its
own. `Among.exec` and `Among.spawn` go on with one of them or with a new one, and
`Among.mono` forgets those that are done.
-/

namespace RioServer

universe u v w x

namespace Machine

variable {σ : Type u} {π : Type v} {ω : Type w} {ε : Type x}

/-- Some run from `c₀` has come to the shared state, with these threads and
perhaps others. -/
def Among (M : Machine σ π ω ε) (c₀ : Config σ π) (s : σ) (held : Multiset π) : Prop :=
  ∃ ts, M.Reachable c₀ ⟨s, ts⟩ ∧ held ≤ (ts : Multiset π)

namespace Among

variable {M : Machine σ π ω ε} {c₀ : Config σ π} {s s' : σ} {held held' : Multiset π} {p p' : π}

theorem init : M.Among c₀ c₀.shared c₀.threads :=
  ⟨c₀.threads, .refl, le_refl _⟩

theorem mono (h : M.Among c₀ s held) (hle : held' ≤ held) : M.Among c₀ s held' := by
  obtain ⟨ts, hrun, hheld⟩ := h
  exact ⟨ts, hrun, hle.trans hheld⟩

/-- What holds of every thread in every run holds of those that are held. -/
theorem forall_mem {P : σ → π → Prop} (h : M.Among c₀ s held)
    (hP : ∀ {c}, M.Reachable c₀ c → ∀ q ∈ c.threads, P c.shared q) (hp : p ∈ held) : P s p := by
  obtain ⟨ts, hrun, hheld⟩ := h
  exact hP hrun p (Multiset.mem_of_le hheld hp)

/-- One of the threads goes on. -/
theorem exec {o : ω} (h : M.Among c₀ s (p ::ₘ held)) (hexec : M.exec p o s = some (s', p')) :
    M.Among c₀ s' (p' ::ₘ held) := by
  obtain ⟨ts, hrun, hheld⟩ := h
  have hmem : p ∈ (ts : Multiset π) := Multiset.mem_of_le hheld (Multiset.mem_cons_self p held)
  obtain ⟨l, r, rfl⟩ := List.append_of_mem (Multiset.mem_coe.mp hmem)
  have hplace : ∀ q : π, ((l ++ q :: r : List π) : Multiset π) = q ::ₘ (l ++ r : List π) :=
    fun q => Multiset.coe_eq_coe.mpr List.perm_middle
  refine ⟨l ++ p' :: r, hrun.place trivial hexec, ?_⟩
  rw [hplace, Multiset.cons_le_cons_iff] at hheld ⊢
  exact hheld

/-- Another one starts. -/
theorem spawn {e : ε} (h : M.Among c₀ s held) (hspawn : M.spawn e s = some (s', p)) :
    M.Among c₀ s' (p ::ₘ held) := by
  obtain ⟨ts, hrun, hheld⟩ := h
  have hlast : ((ts ++ [p] : List π) : Multiset π) = p ::ₘ ts :=
    Multiset.coe_eq_coe.mpr (List.perm_append_singleton p ts)
  refine ⟨ts ++ [p], hrun.started hspawn, ?_⟩
  rw [hlast, Multiset.cons_le_cons_iff]
  exact hheld

end Among

end Machine

end RioServer
