import Mathlib.Tactic

/-!
# `while` loops with an explicit state

A loop body takes the loop variables and either goes round again with new ones
(`Sum.inl`) or leaves the loop with a result (`Sum.inr`: the guard failed or a
`break`). `run` goes round at most `n` times; `Returns` is termination. A loop
whose body always lowers a measure terminates, and `eval` is then its result as
a total function, still executable.
-/

namespace RioServer.Loop

universe u v

variable {σ : Type u} {ρ : Type v} {body : σ → σ ⊕ ρ}

/-- At most `n` rounds of the loop; `none` when it is not over by then. -/
def run (body : σ → σ ⊕ ρ) : Nat → σ → Option ρ
  | 0, _ => none
  | n + 1, s =>
    match body s with
    | .inl s' => run body n s'
    | .inr r => some r

/-- The loop entered at `s` ends, with result `r`. -/
def Returns (body : σ → σ ⊕ ρ) (s : σ) (r : ρ) : Prop :=
  ∃ n, run body n s = some r

theorem returns_inl {s s' : σ} {r : ρ} (hs : body s = .inl s') :
    Returns body s r ↔ Returns body s' r := by
  constructor
  · rintro ⟨n, hn⟩
    cases n with
    | zero => cases hn
    | succ n =>
      rw [run, hs] at hn
      exact ⟨n, hn⟩
  · rintro ⟨n, hn⟩
    refine ⟨n + 1, ?_⟩
    rw [run, hs]
    exact hn

theorem returns_inr {s : σ} {r r' : ρ} (hs : body s = .inr r') :
    Returns body s r ↔ r = r' := by
  constructor
  · rintro ⟨n, hn⟩
    cases n with
    | zero => cases hn
    | succ n =>
      rw [run, hs] at hn
      cases hn
      rfl
  · rintro rfl
    refine ⟨1, ?_⟩
    rw [run, hs]

/-- A loop has at most one result. -/
theorem Returns.unique {s : σ} {r r' : ρ} (h : Returns body s r) (h' : Returns body s r') :
    r = r' := by
  obtain ⟨n, hn⟩ := h
  induction n generalizing s with
  | zero => cases hn
  | succ n ih =>
    rw [run] at hn
    cases hs : body s with
    | inl s' =>
      rw [hs] at hn
      exact ih ((returns_inl hs).mp h') hn
    | inr r₀ =>
      rw [hs] at hn
      cases hn
      exact ((returns_inr hs).mp h').symm

/-- **The loop rule**: what every round preserves, and the last round turns
into a property of the result, holds of the result. -/
theorem Returns.induct {I : σ → Prop} {J : ρ → Prop} {s : σ} {r : ρ} (h : Returns body s r)
    (hI : I s) (hinl : ∀ s s', I s → body s = .inl s' → I s')
    (hinr : ∀ s r, I s → body s = .inr r → J r) : J r := by
  obtain ⟨n, hn⟩ := h
  induction n generalizing s with
  | zero => cases hn
  | succ n ih =>
    rw [run] at hn
    cases hs : body s with
    | inl s' =>
      rw [hs] at hn
      exact ih (hinl s s' hI hs) hn
    | inr r₀ =>
      rw [hs] at hn
      cases hn
      exact hinr s r hI hs

/-- Every round that goes on lowers `μ`. -/
def Decreases (body : σ → σ ⊕ ρ) (μ : σ → Nat) : Prop :=
  ∀ s s', body s = .inl s' → μ s' < μ s

/-- `μ s + 1` rounds are enough for a loop whose body lowers `μ`. -/
theorem isSome_run {μ : σ → Nat} (h : Decreases body μ) :
    ∀ {n : Nat} {s : σ}, μ s < n → (run body n s).isSome
  | 0, _, hn => absurd hn (Nat.not_lt_zero _)
  | n + 1, s, hn => by
    rw [run]
    cases hs : body s with
    | inl s' =>
      exact isSome_run h (Nat.lt_of_lt_of_le (h s s' hs) (Nat.le_of_lt_succ hn))
    | inr r => rfl

/-- The result of a terminating loop. -/
def eval (body : σ → σ ⊕ ρ) (μ : σ → Nat) (h : Decreases body μ) (s : σ) : ρ :=
  (run body (μ s + 1) s).get (isSome_run h (Nat.lt_succ_self _))

variable {μ : σ → Nat} (h : Decreases body μ)

/-- A loop whose body lowers a measure ends, and `eval` is what it returns. -/
theorem returns_eval (s : σ) : Returns body s (eval body μ h s) :=
  ⟨μ s + 1, (Option.some_get _).symm⟩

theorem eval_inl {s s' : σ} (hs : body s = .inl s') :
    eval body μ h s = eval body μ h s' :=
  ((returns_inl hs).mp (returns_eval h s)).unique (returns_eval h s')

theorem eval_inr {s : σ} {r : ρ} (hs : body s = .inr r) : eval body μ h s = r :=
  (returns_inr hs).mp (returns_eval h s)

end RioServer.Loop
