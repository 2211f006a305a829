import RioServer.Lib.Interleaving

/-!
# One part of a system of threads

A system of threads may contain a part that is a machine of its own. A `Part`
says how it shows: `view` is the part's shared state, as soon as the part is
there, and `proj` where a thread of the system stands in the part, if it has to
do with it at all.

`Part.Step` says what a step of the system may be for the part: nothing, the
beginning of the part, or an action or an event of the part's own machine.
`Run.part` is the rule for a whole run: where every step is one of these, the
part has done a run of its machine, and what is known of such runs holds of the
part inside the system. `Run.part_on` is the rule for what comes later: a part that
is there goes on from where it is.
-/

namespace RioServer

universe u v w x u' v' w' x'

namespace Machine

variable {σ : Type u} {π : Type v} {ω : Type w} {ε : Type x}
variable {σ' : Type u'} {π' : Type v'} {ω' : Type w'} {ε' : Type x'}

/-- How a machine over `σ` and `π` shows in a system over `σ'` and `π'`. -/
structure Part (σ' : Type u') (π' : Type v') (σ : Type u) (π : Type v) where
  view : σ' → Option σ
  proj : π' → Option π

namespace Part

/-- The part of a configuration. -/
def slice (P : Part σ' π' σ π) (c : Config σ' π') : Option (Config σ π) :=
  (P.view c.shared).map fun s => ⟨s, c.threads.filterMap P.proj⟩

/-- What a step of the system is for the part. -/
inductive Step (P : Part σ' π' σ π) (M : Machine σ π ω ε) (H : Guard σ π ω)
    (c₀ : Config σ π) (c c' : Config σ' π') : Prop where
  | absent (h : P.view c.shared = none) (h' : P.view c'.shared = none)
  | begins (h : P.view c.shared = none) (h' : P.slice c' = some c₀)
  | moves {d d' : Config σ π} (h : P.slice c = some d) (h' : P.slice c' = some d')
      (hrun : M.Run H d d')

variable {P : Part σ' π' σ π} {M : Machine σ π ω ε} {H : Guard σ π ω} {c₀ : Config σ π}
variable {s s' : σ'} {l r ts : List π'} {p p' : π'} {a a' : σ} {q q' : π}

/-- The part, seen at the place of the acting thread. -/
theorem slice_place (ha : P.view s = some a) (hq : P.proj p = some q) :
    P.slice ⟨s, l ++ p :: r⟩ =
      some ⟨a, l.filterMap P.proj ++ q :: r.filterMap P.proj⟩ := by
  simp [slice, ha, hq, List.filterMap_append]

/-- A step that leaves the part alone. -/
theorem Step.stutter (hview : P.view s' = P.view s) (hproj : P.proj p' = P.proj p) :
    P.Step M H c₀ ⟨s, l ++ p :: r⟩ ⟨s', l ++ p' :: r⟩ := by
  cases ha : P.view s with
  | none => exact .absent ha (hview.trans ha)
  | some a =>
    have hthreads : (l ++ p' :: r).filterMap P.proj = (l ++ p :: r).filterMap P.proj := by
      simp [List.filterMap_append, List.filterMap_cons, hproj]
    refine .moves (d := ⟨a, (l ++ p :: r).filterMap P.proj⟩) ?_ ?_ .refl
    · simp [slice, ha]
    · simp [slice, hview, ha, hthreads]

/-- A step that is an action of the part. -/
theorem Step.act {o : ω} (ha : P.view s = some a) (hq : P.proj p = some q)
    (hG : H q o a ((l ++ p :: r).filterMap P.proj)) (hexec : M.exec q o a = some (a', q'))
    (ha' : P.view s' = some a') (hq' : P.proj p' = some q') :
    P.Step M H c₀ ⟨s, l ++ p :: r⟩ ⟨s', l ++ p' :: r⟩ := by
  refine .moves (slice_place ha hq) (slice_place ha' hq') (.place .refl ?_ hexec)
  simpa [List.filterMap_append, hq] using hG

/-- An event with a thread that has nothing to do with the part. -/
theorem Step.elsewhere (hview : P.view s' = P.view s) (hproj : P.proj p = none) :
    P.Step M H c₀ ⟨s, ts⟩ ⟨s', ts ++ [p]⟩ := by
  cases ha : P.view s with
  | none => exact .absent ha (hview.trans ha)
  | some a =>
    refine .moves (d := ⟨a, ts.filterMap P.proj⟩) ?_ ?_ .refl
    · simp [slice, ha]
    · simp [slice, hview, ha, hproj, List.filterMap_append]

/-- An event of the part. -/
theorem Step.event {e : ε} (ha : P.view s = some a) (hspawn : M.spawn e a = some (a', q'))
    (ha' : P.view s' = some a') (hq' : P.proj p = some q') :
    P.Step M H c₀ ⟨s, ts⟩ ⟨s', ts ++ [p]⟩ := by
  refine .moves (d := ⟨a, ts.filterMap P.proj⟩) ?_ ?_ (.started .refl hspawn)
  · simp [slice, ha]
  · simp [slice, ha', hq', List.filterMap_append]

end Part

section

variable {S : Machine σ' π' ω' ε'} {G : Guard σ' π' ω'} {c₀' c c' : Config σ' π'}
variable {M : Machine σ π ω ε} {H : Guard σ π ω} {c₀ : Config σ π} (P : Part σ' π' σ π)
variable (hexec : ∀ {s l p r o s' p'}, S.Run G c₀' ⟨s, l ++ p :: r⟩ → G p o s (l ++ p :: r) →
    S.exec p o s = some (s', p') → P.Step M H c₀ ⟨s, l ++ p :: r⟩ ⟨s', l ++ p' :: r⟩)
variable (hevent : ∀ {s ts e s' p}, S.Run G c₀' ⟨s, ts⟩ → S.spawn e s = some (s', p) →
    P.Step M H c₀ ⟨s, ts⟩ ⟨s', ts ++ [p]⟩)
include hexec hevent

/-- **A part of a run is a run**: of its own machine, guarded as the steps of the
system say. -/
theorem Run.part (hrun : S.Run G c₀' c') (hinit : P.view c₀'.shared = none)
    {d : Config σ π} (hd : P.slice c' = some d) : M.Run H c₀ d := by
  have hstep : ∀ {c c' : Config σ' π'}, (∀ d, P.slice c = some d → M.Run H c₀ d) →
      P.Step M H c₀ c c' → ∀ d, P.slice c' = some d → M.Run H c₀ d := by
    intro c c' ih h d hd
    cases h with
    | absent _ h' => rw [Part.slice, h'] at hd; cases hd
    | begins _ h' =>
      rw [h'] at hd
      cases hd
      exact .refl
    | moves h h' hmoves =>
      rw [h'] at hd
      cases hd
      exact (ih _ h).trans hmoves
  refine Run.induct (I := fun s ts => ∀ d, P.slice ⟨s, ts⟩ = some d → M.Run H c₀ d) hrun
    ?_ ?_ ?_ d hd
  · intro d hd
    rw [Part.slice, hinit] at hd
    cases hd
  · intro s l p r o s' p' hc ih hG hx
    exact hstep ih (hexec hc hG hx)
  · intro s ts e s' p hc ih hx
    exact hstep ih (hevent hc hx)

/-- A part that is there goes on with its run. -/
theorem Run.part_on (hrun : S.Run G c₀' c) (hon : S.Run G c c') {d : Config σ π}
    (hd : P.slice c = some d) : ∃ d', P.slice c' = some d' ∧ M.Run H d d' := by
  have hstep : ∀ {c c' : Config σ' π'}, (∃ d', P.slice c = some d' ∧ M.Run H d d') →
      P.Step M H c₀ c c' → ∃ d', P.slice c' = some d' ∧ M.Run H d d' := by
    rintro c c' ⟨d₁, hd₁, hrun₁⟩ h
    cases h with
    | absent h =>
      rw [Part.slice, h] at hd₁
      cases hd₁
    | begins h =>
      rw [Part.slice, h] at hd₁
      cases hd₁
    | moves h h' hmoves =>
      rw [h] at hd₁
      cases hd₁
      exact ⟨_, h', hrun₁.trans hmoves⟩
  refine Run.induct (I := fun s ts => ∃ d', P.slice ⟨s, ts⟩ = some d' ∧ M.Run H d d') hon
    ⟨d, hd, .refl⟩ ?_ ?_
  · intro s l p r o s' p' hc ih hG hx
    exact hstep ih (hexec (hrun.trans hc) hG hx)
  · intro s ts e s' p hc ih hx
    exact hstep ih (hevent (hrun.trans hc) hx)

end

end Machine

end RioServer
