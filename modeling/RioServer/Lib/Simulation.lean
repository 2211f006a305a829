import RioServer.Lib.Progress

/-!
# A machine that shows another

A finer machine may contain the steps of a coarser one among its own. A `View`
says what it shows of it: `state` is the coarser shared state, and `thread` which
counters of the coarser machine a thread may stand for.

- `Run.shown`: where every action of the finer machine is one of the coarser or
  shows nothing, each of its runs shows a run of the coarser machine. What the
  coarser machine never does, the finer one never shows.
- `Run.lifted`: where the threads of the finer machine can each do what the coarser
  action asks for, a run of the coarser machine can be followed. What the coarser
  machine can be brought to, the finer one can be brought to show. If the finer
  machine cannot follow where something has gone wrong, the run has to be one at
  whose end nothing has.

Neither machine starts threads while it runs.
-/

namespace RioServer

universe u v w u' v' w' x x'

/-- The partner of an element in the middle of a list. -/
theorem forall₂_split {α : Type u} {β : Type v} {R : α → β → Prop} {l r : List α} {a : α}
    {bs : List β} (h : List.Forall₂ R (l ++ a :: r) bs) :
    ∃ l' b r', bs = l' ++ b :: r' ∧ List.Forall₂ R l l' ∧ R a b ∧ List.Forall₂ R r r' := by
  induction l generalizing bs with
  | nil =>
    obtain ⟨b, r', hab, hr, rfl⟩ := List.forall₂_cons_left_iff.mp h
    exact ⟨[], b, r', rfl, .nil, hab, hr⟩
  | cons x l ih =>
    obtain ⟨y, bs', hxy, htail, rfl⟩ := List.forall₂_cons_left_iff.mp h
    obtain ⟨l', b, r', rfl, hl, hab, hr⟩ := ih htail
    exact ⟨y :: l', b, r', rfl, .cons hxy hl, hab, hr⟩

namespace Machine

variable {σ : Type u} {π : Type v} {ω : Type w} {ε : Type x}
variable {σ' : Type u'} {π' : Type v'} {ω' : Type w'} {ε' : Type x'}

/-- What a machine over `σ'` and `π'` shows of one over `σ` and `π`. -/
structure View (σ' : Type u') (π' : Type v') (σ : Type u) (π : Type v) where
  state : σ' → σ
  thread : π' → π → Prop

/-- A configuration shows another. -/
structure View.Shows (V : View σ' π' σ π) (c : Config σ' π') (d : Config σ π) : Prop where
  state : V.state c.shared = d.shared
  threads : List.Forall₂ V.thread c.threads d.threads

variable {V : View σ' π' σ π} {S : Machine σ' π' ω' ε'} {M : Machine σ π ω ε}

/-- One thread moves on, with the thread it stands for. -/
theorem View.Shows.move {s : σ'} {a : σ} {l r : List π'} {l' r' : List π} {p : π'} {q : π}
    (hl : List.Forall₂ V.thread l l') (hr : List.Forall₂ V.thread r r') (hstate : V.state s = a)
    (hthread : V.thread p q) : V.Shows ⟨s, l ++ p :: r⟩ ⟨a, l' ++ q :: r'⟩ :=
  ⟨hstate, List.rel_append hl (.cons hthread hr)⟩

/-- **A run shows a run.** -/
theorem Run.shown [IsEmpty ε'] {c₀ c : Config σ' π'} {d₀ : Config σ π} (hrun : S.Reachable c₀ c)
    (hinit : V.Shows c₀ d₀)
    (hexec : ∀ {s p o s' p' q}, S.exec p o s = some (s', p') → V.thread p q →
      V.state s' = V.state s ∧ V.thread p' q ∨
        ∃ o q', M.exec q o (V.state s) = some (V.state s', q') ∧ V.thread p' q') :
    ∃ d, M.Reachable d₀ d ∧ V.Shows c d := by
  refine Run.induct (I := fun s ts => ∃ d, M.Reachable d₀ d ∧ V.Shows ⟨s, ts⟩ d) hrun
    ⟨d₀, .refl, hinit⟩ ?_ ?_
  · intro s l p r o s' p' _ ⟨⟨a, ts⟩, hd, hstate, hthreads⟩ _ hx
    obtain rfl : V.state s = a := hstate
    obtain ⟨l', q, r', rfl, hl, hthread, hr⟩ := forall₂_split hthreads
    rcases hexec hx hthread with ⟨hsame, hthread'⟩ | ⟨o, q', hx', hthread'⟩
    · exact ⟨_, hd, .move hl hr hsame hthread'⟩
    · exact ⟨_, hd.place trivial hx', .move hl hr rfl hthread'⟩
  · intro s ts e
    exact isEmptyElim e

/-- **A run can be followed** from what shows its beginning to an end of which `G`
holds, as long as `K` holds of the shared state and `L` of the threads. `G` is such
that it held before if it holds later. -/
theorem Run.lifted [IsEmpty ε] {c : Config σ' π'} {d d' : Config σ π} {K : σ' → Prop}
    {L : π' → Prop} {G : σ → Prop} (hrun : M.Reachable d d') (hG : G d'.shared)
    (hshows : V.Shows c d) (hK : K c.shared) (hL : ∀ p ∈ c.threads, L p)
    (hback : ∀ {q o a a' q'}, M.exec q o a = some (a', q') → G a' → G a)
    (hexec : ∀ {s p q o a q'}, K s → L p → V.thread p q → M.exec q o (V.state s) = some (a, q') →
      G a → ∃ s' p', S.Alone s p s' p' ∧ V.state s' = a ∧ V.thread p' q' ∧ K s' ∧ L p') :
    ∃ c', S.Reachable c c' ∧ V.Shows c' d' ∧ K c'.shared ∧ ∀ p ∈ c'.threads, L p := by
  refine Run.induct (I := fun a ts => G a → ∃ c', S.Reachable c c' ∧ V.Shows c' ⟨a, ts⟩ ∧
    K c'.shared ∧ ∀ p ∈ c'.threads, L p) hrun (fun _ => ⟨c, .refl, hshows, hK, hL⟩) ?_ ?_ hG
  · intro a l q r o a' q' _ ih _ hx hG'
    obtain ⟨⟨s, ts⟩, hc', ⟨hstate, hthreads⟩, hK', hL'⟩ := ih (hback hx hG')
    obtain rfl : V.state s = a := hstate
    obtain ⟨l', p, r', rfl, hl, hthread, hr⟩ := forall₂_split hthreads.flip
    obtain ⟨hLl, hLp, hLr⟩ := forall_mem_place.mp hL'
    obtain ⟨s', p', halone, hstate', hthread', hK'', hLp'⟩ := hexec hK' hLp hthread hx hG'
    exact ⟨_, hc'.trans (halone.run .refl), .move hl.flip hr.flip hstate' hthread', hK'',
      forall_mem_place.mpr ⟨hLl, hLp', hLr⟩⟩
  · intro s ts e
    exact isEmptyElim e

end Machine

end RioServer
