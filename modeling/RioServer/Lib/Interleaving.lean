import Mathlib.Tactic

/-!
# Interleaved threads over a shared state

A `Machine` is a program text for any number of threads: a thread is a program
counter `π` (with the locals it carries), and `exec` is what one atomic action
at that counter does to the shared state `σ`. Everything the program cannot
choose (whether a system call succeeds, which object an allocator hands out)
is an oracle `ω` of the action. New threads appear through `spawn`, on events
`ε` of the environment.

- `Machine.step`: one action of one thread, or one environment event.
- `Machine.Run G c₀ c`: a finite interleaving from `c₀` to `c` all of whose
  thread actions satisfy the guard `G`. `Run.anywhere` forgets the guard.
- `Run.induct`: the invariant rule. A property of the shared state and the
  list of counters holds along every run if each action preserves it at the
  place of the acting thread, whatever stands left and right of it.
- `load`: the sum of a weight over all counters, for invariants that account
  for what every thread still owes.
-/

namespace RioServer

universe u v w x

/-- A program for interleaved threads. -/
structure Machine (σ : Type u) (π : Type v) (ω : Type w) (ε : Type x) where
  /-- One atomic action; `none` when the thread is blocked or finished. -/
  exec : π → ω → σ → Option (σ × π)
  /-- An environment event that starts a thread. -/
  spawn : ε → σ → Option (σ × π)

namespace Machine

/-- The shared state and the program counters of all threads. -/
structure Config (σ : Type u) (π : Type v) where
  shared : σ
  threads : List π

/-- What happens next: thread `i` acts under the oracle `o`, or an event. -/
inductive Act (ω : Type w) (ε : Type x) where
  | run (i : Nat) (o : ω)
  | event (e : ε)

variable {σ : Type u} {π : Type v} {ω : Type w} {ε : Type x}
variable (M : Machine σ π ω ε)

/-- One atomic step of the whole system. -/
def step (c : Config σ π) : Act ω ε → Option (Config σ π)
  | .run i o =>
    match c.threads[i]? with
    | some p => (M.exec p o c.shared).map fun r => ⟨r.1, c.threads.set i r.2⟩
    | none => none
  | .event e => (M.spawn e c.shared).map fun r => ⟨r.1, c.threads ++ [r.2]⟩

/-- Splitting a list at the place `i` shows what `set` does there. -/
theorem split_of_getElem? {l : List π} {i : Nat} {p : π} (h : l[i]? = some p) :
    ∃ a b, l = a ++ p :: b ∧ a.length = i ∧ ∀ q, l.set i q = a ++ q :: b := by
  obtain ⟨hi, rfl⟩ := List.getElem?_eq_some_iff.mp h
  refine ⟨l.take i, l.drop (i + 1), ?_, ?_, fun q => ?_⟩
  · rw [List.getElem_cons_drop, List.take_append_drop]
  · rw [List.length_take]
    omega
  · exact List.set_eq_take_cons_drop q hi

/-- A step is one thread's action in place, or one new thread at the end. -/
theorem step_cases {c c' : Config σ π} {a : Act ω ε} (h : M.step c a = some c') :
    (∃ l p r o s' p', a = .run l.length o ∧ c.threads = l ++ p :: r ∧
      M.exec p o c.shared = some (s', p') ∧ c' = ⟨s', l ++ p' :: r⟩) ∨
    (∃ e s' p, a = .event e ∧ M.spawn e c.shared = some (s', p) ∧
      c' = ⟨s', c.threads ++ [p]⟩) := by
  cases a with
  | run i o =>
    left
    simp only [step] at h
    cases hp : c.threads[i]? with
    | none => rw [hp] at h; cases h
    | some p =>
      rw [hp] at h
      obtain ⟨⟨s', p'⟩, hexec, rfl⟩ := Option.map_eq_some_iff.mp h
      obtain ⟨l, r, hsplit, rfl, hset⟩ := split_of_getElem? hp
      exact ⟨l, p, r, o, s', p', rfl, hsplit, hexec, by rw [hset]⟩
  | event e =>
    right
    obtain ⟨⟨s', p⟩, hspawn, rfl⟩ := Option.map_eq_some_iff.mp h
    exact ⟨e, s', p, rfl, hspawn, rfl⟩

/-- A condition on one thread action: the acting counter, its oracle, the
shared state before the action and the counters of all threads. -/
abbrev Guard (σ : Type u) (π : Type v) (ω : Type w) := π → ω → σ → List π → Prop

/-- The guard of a whole step; environment events are never restricted. -/
def Allowed (G : Guard σ π ω) (c : Config σ π) : Act ω ε → Prop
  | .run i o => ∀ p, c.threads[i]? = some p → G p o c.shared c.threads
  | .event _ => True

instance (G : Guard σ π ω) [∀ p o s ts, Decidable (G p o s ts)] (c : Config σ π)
    (a : Act ω ε) : Decidable (Allowed G c a) :=
  match a with
  | .run i o =>
    match h : c.threads[i]? with
    | none => .isTrue fun p hp => by rw [h] at hp; cases hp
    | some p => decidable_of_iff (G p o c.shared c.threads)
        ⟨fun hG q hq => by rw [h] at hq; cases hq; exact hG, fun hG => hG p h⟩
  | .event _ => .isTrue trivial

/-- A finite interleaving from `c₀` to `c` whose steps all satisfy `G`. -/
inductive Run (G : Guard σ π ω) (c₀ : Config σ π) : Config σ π → Prop where
  | refl : Run G c₀ c₀
  | tail {c c' : Config σ π} {a : Act ω ε} :
      Run G c₀ c → Allowed G c a → M.step c a = some c' → Run G c₀ c'

/-- The guard that restricts nothing. -/
def unguarded : Guard σ π ω := fun _ _ _ _ => True

instance (p : π) (o : ω) (s : σ) (ts : List π) :
    Decidable ((unguarded : Guard σ π ω) p o s ts) :=
  .isTrue trivial

/-- Every interleaving. -/
abbrev Reachable (c₀ c : Config σ π) : Prop := M.Run unguarded c₀ c

variable {M}

/-- A weaker guard admits more runs. -/
theorem Run.mono {G H : Guard σ π ω} {c₀ c : Config σ π}
    (hGH : ∀ p o s ts, G p o s ts → H p o s ts) (h : M.Run G c₀ c) : M.Run H c₀ c := by
  induction h with
  | refl => exact .refl
  | @tail c c' a _ hG hstep ih =>
    refine .tail ih ?_ hstep
    cases a with
    | run i o => exact fun p hp => hGH _ _ _ _ (hG p hp)
    | event e => trivial

/-- Every guarded run is a run. -/
theorem Run.anywhere {G : Guard σ π ω} {c₀ c : Config σ π} (h : M.Run G c₀ c) :
    M.Reachable c₀ c :=
  h.mono fun _ _ _ _ _ => trivial

/-- One run after another. -/
theorem Run.trans {G : Guard σ π ω} {c₀ c d : Config σ π} (h : M.Run G c₀ c)
    (h' : M.Run G c d) : M.Run G c₀ d := by
  induction h' with
  | refl => exact h
  | tail _ hG hstep ih => exact .tail ih hG hstep

/-- One more action of the thread at a place. -/
theorem Run.place {G : Guard σ π ω} {c₀ : Config σ π} {s s' : σ} {l r : List π} {p p' : π}
    {o : ω} (h : M.Run G c₀ ⟨s, l ++ p :: r⟩) (hG : G p o s (l ++ p :: r))
    (hexec : M.exec p o s = some (s', p')) : M.Run G c₀ ⟨s', l ++ p' :: r⟩ := by
  have hp : (l ++ p :: r)[l.length]? = some p := by simp
  refine .tail (a := .run l.length o) h (fun q hq => ?_) ?_
  · rw [hp] at hq
    cases hq
    exact hG
  · simp [step, hexec]

/-- One more event. -/
theorem Run.started {G : Guard σ π ω} {c₀ : Config σ π} {s s' : σ} {ts : List π} {p : π} {e : ε}
    (h : M.Run G c₀ ⟨s, ts⟩) (hspawn : M.spawn e s = some (s', p)) :
    M.Run G c₀ ⟨s', ts ++ [p]⟩ := by
  refine .tail (a := .event e) h trivial ?_
  simp [step, hspawn]

/-- The thread that was started last goes on alone. -/
theorem Run.last {c₀ : Config σ π} {s s' : σ} {ts : List π} {p p' : π} {o : ω}
    (h : M.Reachable c₀ ⟨s, ts ++ [p]⟩) (hexec : M.exec p o s = some (s', p')) :
    M.Reachable c₀ ⟨s', ts ++ [p']⟩ :=
  h.place trivial hexec

/-- **The invariant rule**: an invariant of the shared state and the counters
is preserved along every run if it is preserved by each guarded action, seen at
the place of the acting thread, and by each event. The state before the action
may be assumed to have been reached by a guarded run. -/
theorem Run.induct {G : Guard σ π ω} {c₀ c : Config σ π} {I : σ → List π → Prop}
    (hrun : M.Run G c₀ c) (hinit : I c₀.shared c₀.threads)
    (hexec : ∀ {s l p r o s' p'}, M.Run G c₀ ⟨s, l ++ p :: r⟩ → I s (l ++ p :: r) →
      G p o s (l ++ p :: r) → M.exec p o s = some (s', p') → I s' (l ++ p' :: r))
    (hevent : ∀ {s ts e s' p}, M.Run G c₀ ⟨s, ts⟩ → I s ts →
      M.spawn e s = some (s', p) → I s' (ts ++ [p])) :
    I c.shared c.threads := by
  induction hrun with
  | refl => exact hinit
  | @tail c c' a hc hG hstep ih =>
    obtain ⟨s, ts⟩ := c
    rcases step_cases M hstep with
      ⟨l, p, r, o, s', p', rfl, hts, hx, rfl⟩ | ⟨e, s', p, rfl, hx, rfl⟩
    · simp only at hts
      subst hts
      have hp : (l ++ p :: r)[l.length]? = some p := by simp
      exact hexec hc ih (hG p hp) hx
    · exact hevent hc ih hx

/-! ## Executable runs -/

variable (M)

/-- Perform a list of steps, checking the guard of each. -/
def runActs (G : Guard σ π ω) [∀ p o s ts, Decidable (G p o s ts)] (c : Config σ π) :
    List (Act ω ε) → Option (Config σ π)
  | [] => some c
  | a :: as =>
    if Allowed G c a then
      match M.step c a with
      | some c' => runActs G c' as
      | none => none
    else none

variable {M}

/-- A list of steps that can be performed is a run. -/
theorem run_of_runActs {G : Guard σ π ω} [∀ p o s ts, Decidable (G p o s ts)]
    {c₀ c c' : Config σ π} (hc : M.Run G c₀ c) :
    ∀ {as : List (Act ω ε)}, M.runActs G c as = some c' → M.Run G c₀ c'
  | [], h => by
    cases h
    exact hc
  | a :: as, h => by
    simp only [runActs] at h
    split at h
    · next hG =>
      cases hstep : M.step c a with
      | none => rw [hstep] at h; cases h
      | some d =>
        rw [hstep] at h
        exact run_of_runActs (.tail hc hG hstep) h
    · cases h

/-- A performed list of steps shows a run to a configuration with a property
that can be tested. -/
theorem exists_run (M : Machine σ π ω ε) (G : Guard σ π ω)
    [∀ p o s ts, Decidable (G p o s ts)] (c₀ : Config σ π) (as : List (Act ω ε))
    {P : Config σ π → Prop} [DecidablePred P]
    (h : (M.runActs G c₀ as).any (fun c => decide (P c)) = true) :
    ∃ c, M.Run G c₀ c ∧ P c := by
  obtain ⟨c, hc, hP⟩ := (Option.any_eq_true _ _).mp h
  exact ⟨c, run_of_runActs .refl hc, of_decide_eq_true hP⟩

/-! ## All threads, seen at one place -/

/-- What holds of every thread, at the place of the acting one. -/
theorem forall_mem_place {P : π → Prop} {l r : List π} {p : π} :
    (∀ q ∈ l ++ p :: r, P q) ↔ (∀ q ∈ l, P q) ∧ P p ∧ ∀ q ∈ r, P q := by
  simp only [List.mem_append, List.mem_cons, or_imp, forall_and, forall_eq]

/-- The same for a thread that has just been started. -/
theorem forall_mem_spawned {P : π → Prop} {ts : List π} {p : π} :
    (∀ q ∈ ts ++ [p], P q) ↔ (∀ q ∈ ts, P q) ∧ P p := by
  simp only [List.mem_append, List.mem_singleton, or_imp, forall_and, forall_eq]

/-! ## Loads: what all threads owe together -/

/-- The sum of a weight over all counters. -/
def load (f : π → Nat) (ts : List π) : Nat := (ts.map f).sum

@[simp] theorem load_nil (f : π → Nat) : load f [] = 0 := rfl

@[simp] theorem load_cons (f : π → Nat) (p : π) (ts : List π) :
    load f (p :: ts) = f p + load f ts := rfl

@[simp] theorem load_append (f : π → Nat) (l r : List π) :
    load f (l ++ r) = load f l + load f r := by
  simp [load]

/-- A load that the acting thread does not change. -/
theorem load_place {f : π → Nat} {p p' : π} (h : f p' = f p) (l r : List π) :
    load f (l ++ p' :: r) = load f (l ++ p :: r) := by
  rw [load_append, load_append, load_cons, load_cons, h]

theorem load_add (f g : π → Nat) (ts : List π) :
    load (fun p => f p + g p) ts = load f ts + load g ts := by
  induction ts with
  | nil => rfl
  | cons p ts ih =>
    rw [load_cons, load_cons, load_cons, ih]
    omega

theorem le_load_of_mem {f : π → Nat} {p : π} {ts : List π} (h : p ∈ ts) :
    f p ≤ load f ts :=
  List.single_le_sum (by simp) _ (List.mem_map_of_mem h)

theorem load_eq_zero_iff {f : π → Nat} {ts : List π} :
    load f ts = 0 ↔ ∀ p ∈ ts, f p = 0 := by
  induction ts with
  | nil => simp
  | cons p ts ih => simp [ih]

theorem load_mono {f g : π → Nat} (h : ∀ p, f p ≤ g p) (ts : List π) :
    load f ts ≤ load g ts := by
  induction ts with
  | nil => exact Nat.le_refl 0
  | cons p ts ih => exact Nat.add_le_add (h p) ih

end Machine

end RioServer
