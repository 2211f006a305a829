import RioServer.Lib.Interleaving

/-!
# What threads can always be brought to do

An invariant says what a system never does. `Alone` is for the other side: what
one thread does when nobody else acts for a while. `Alone.run` puts it at the
thread's place in any run.

- `Alone.ends`: a thread that can always take a step that brings it nearer to
  its end can be run to its end.
- `ends_all`: if each thread can be, whatever the others have left behind, then
  all of them can be, one after the other.
-/

namespace RioServer

universe u v w x

namespace Machine

variable {σ : Type u} {π : Type v} {ω : Type w} {ε : Type x}

/-- One thread goes from one counter and shared state to others while no other
thread acts. -/
inductive Alone (M : Machine σ π ω ε) : σ → π → σ → π → Prop where
  | refl (s : σ) (p : π) : Alone M s p s p
  | head {s s' s'' : σ} {p p' p'' : π} {o : ω} (h : M.exec p o s = some (s', p'))
      (h' : Alone M s' p' s'' p'') : Alone M s p s'' p''

variable {M : Machine σ π ω ε} {c₀ : Config σ π} {s s' s'' : σ} {p p' p'' : π}
variable {l r ts : List π}

namespace Alone

/-- One action. -/
theorem one {o : ω} (h : M.exec p o s = some (s', p')) : M.Alone s p s' p' :=
  .head h (.refl s' p')

theorem trans (h : M.Alone s p s' p') (h' : M.Alone s' p' s'' p'') :
    M.Alone s p s'' p'' := by
  induction h with
  | refl => exact h'
  | head hexec _ ih => exact .head hexec (ih h')

/-- What a thread does alone, it can do in any run. -/
theorem run (h : M.Alone s p s' p') (hrun : M.Reachable c₀ ⟨s, l ++ p :: r⟩) :
    M.Reachable c₀ ⟨s', l ++ p' :: r⟩ := by
  induction h with
  | refl => exact hrun
  | head hexec _ ih => exact ih (hrun.place trivial hexec)

/-- What the shared state keeps in every action, it keeps. -/
theorem keeps {J : σ → π → Prop} (h : M.Alone s p s' p')
    (hexec : ∀ {s p o s' p'}, J s p → M.exec p o s = some (s', p') → J s' p') (hJ : J s p) :
    J s' p' := by
  induction h with
  | refl => exact hJ
  | head hx _ ih => exact ih (hexec hJ hx)

/-- A thread that can always go a step nearer can be run to its end. -/
theorem ends {J : σ → π → Prop} {done : π → Prop} (μ : σ → π → Nat)
    (hstep : ∀ {s p}, J s p → ¬done p →
      ∃ o s' p', M.exec p o s = some (s', p') ∧ J s' p' ∧ μ s' p' < μ s p) (hJ : J s p) :
    ∃ s' p', M.Alone s p s' p' ∧ J s' p' ∧ done p' := by
  induction hn : μ s p using Nat.strong_induction_on generalizing s p with
  | _ n ih =>
    by_cases hdone : done p
    · exact ⟨s, p, .refl s p, hJ, hdone⟩
    · obtain ⟨o, s', p', hexec, hJ', hlt⟩ := hstep hJ hdone
      obtain ⟨s'', p'', halone, hend⟩ := ih (μ s' p') (by omega) hJ' rfl
      exact ⟨s'', p'', .head hexec halone, hend⟩

end Alone

/-- A thread that owes something, where it stands. -/
theorem exists_of_load_ne_zero {f : π → Nat} (h : load f ts ≠ 0) :
    ∃ l p r, ts = l ++ p :: r ∧ f p ≠ 0 := by
  obtain ⟨p, hp, hne⟩ : ∃ p ∈ ts, f p ≠ 0 := by
    by_contra hnone
    refine h (load_eq_zero_iff.mpr fun p hp => ?_)
    by_contra hne
    exact hnone ⟨p, hp, hne⟩
  obtain ⟨l, r, hsplit⟩ := List.append_of_mem hp
  exact ⟨l, p, r, hsplit, hne⟩

/-- **All threads can be brought to their end**, one after the other, if each of
them can from wherever the others have left the shared state. -/
theorem ends_all {K : σ → Prop} {Q done : π → Prop}
    (hends : ∀ {s l p r}, M.Reachable c₀ ⟨s, l ++ p :: r⟩ → K s → Q p →
      ∃ s' p', M.Alone s p s' p' ∧ K s' ∧ done p')
    (hrun : M.Reachable c₀ ⟨s, ts⟩) (hK : K s) (hQ : ∀ p ∈ ts, Q p) :
    ∃ s' ts', M.Reachable ⟨s, ts⟩ ⟨s', ts'⟩ ∧ K s' ∧ ∀ p ∈ ts', done p := by
  -- the threads in front are at their end already
  have hrest : ∀ (r l : List π) (s : σ), M.Reachable c₀ ⟨s, l ++ r⟩ → K s →
      (∀ p ∈ l, done p) → (∀ p ∈ r, Q p) →
      ∃ s' ts', M.Reachable ⟨s, l ++ r⟩ ⟨s', ts'⟩ ∧ K s' ∧ ∀ p ∈ ts', done p := by
    intro r
    induction r with
    | nil =>
      intro l s _ hK hl _
      rw [List.append_nil]
      exact ⟨s, l, .refl, hK, hl⟩
    | cons p r ih =>
      intro l s hrun hK hl hr
      obtain ⟨s', p', halone, hK', hp'⟩ := hends hrun hK (hr p List.mem_cons_self)
      have hfrom : M.Reachable ⟨s, l ++ p :: r⟩ ⟨s', l ++ p' :: r⟩ := halone.run .refl
      have hnext := hrun.trans hfrom
      rw [List.append_cons l p' r] at hfrom hnext
      have hl' : ∀ q ∈ l ++ [p'], done q := forall_mem_spawned.mpr ⟨hl, hp'⟩
      obtain ⟨s'', ts', hreach, hend⟩ :=
        ih (l ++ [p']) s' hnext hK' hl' fun q hq => hr q (List.mem_cons_of_mem _ hq)
      exact ⟨s'', ts', hfrom.trans hreach, hend⟩
  exact hrest ts [] s hrun hK (by simp) hQ

end Machine

end RioServer
