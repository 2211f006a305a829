import Mathlib.Tactic

/-!
# Many of a kind, side by side

A system of independent parts, one for each key, takes its events one after the
other in whatever order they come. An event concerns the part of its key only, but
it may fail, and a failure is the end of the whole system.

Then the order in which the events of different keys come does not matter, except
for which failure is the first: the system gets through exactly if each part gets
through the events of its own key, and leaves each part as that alone would
(`run_eq_ok_iff`).
-/

namespace RioServer.Keyed

universe u v w x

variable {κ : Type u} {α : Type v} {τ : Type w} {ε : Type x} [DecidableEq κ]

/-- The events of one key, in their order. -/
def select (k : κ) (events : List (κ × α)) : List α :=
  events.filterMap fun event => if event.1 = k then some event.2 else none

@[simp] theorem select_nil (k : κ) : select k ([] : List (κ × α)) = [] := rfl

theorem select_cons_self (k : κ) (a : α) (events : List (κ × α)) :
    select k ((k, a) :: events) = a :: select k events := by
  simp [select]

theorem select_cons_ne {k k' : κ} (h : k' ≠ k) (a : α) (events : List (κ × α)) :
    select k ((k', a) :: events) = select k events := by
  simp [select, h]

/-- One event, for the part of its key. -/
def step (f : κ → τ → α → Except ε τ) (parts : κ → τ) (event : κ × α) : Except ε (κ → τ) :=
  (f event.1 (parts event.1) event.2).map (Function.update parts event.1)

/-- All events, up to the first failure. -/
def run (f : κ → τ → α → Except ε τ) (parts : κ → τ) (events : List (κ × α)) :
    Except ε (κ → τ) :=
  events.foldlM (step f) parts

variable {f : κ → τ → α → Except ε τ} {parts parts' : κ → τ}

/-- **Each part for itself**: the system gets through exactly if every part does. -/
theorem run_eq_ok_iff (events : List (κ × α)) :
    run f parts events = .ok parts' ↔
      ∀ k, (select k events).foldlM (f k) (parts k) = .ok (parts' k) := by
  induction events generalizing parts with
  | nil =>
    constructor
    · intro h k
      cases h
      rfl
    · intro h
      have hparts : parts = parts' := funext fun k => Except.ok.inj (h k)
      rw [hparts]
      rfl
  | cons event events ih =>
    obtain ⟨k, a⟩ := event
    rw [run, List.foldlM_cons, step]
    cases hstep : f k (parts k) a with
    | error e =>
      constructor
      · intro h
        cases h
      · intro h
        have hk := h k
        rw [select_cons_self, List.foldlM_cons, hstep] at hk
        cases hk
    | ok t =>
      show run f (Function.update parts k t) events = _ ↔ _
      rw [ih]
      refine forall_congr' fun k' => ?_
      by_cases hk : k = k'
      · subst hk
        rw [Function.update_self, select_cons_self, List.foldlM_cons, hstep]
        rfl
      · rw [Function.update_of_ne (Ne.symm hk), select_cons_ne hk]

/-- A failure of the system is one of a part. -/
theorem exists_of_run_eq_error {events : List (κ × α)} {e : ε}
    (h : run f parts events = .error e) : ∃ k t a, f k t a = .error e := by
  induction events generalizing parts with
  | nil => cases h
  | cons event events ih =>
    rw [run, List.foldlM_cons, step] at h
    cases hstep : f event.1 (parts event.1) event.2 with
    | error e' =>
      rw [hstep] at h
      cases h
      exact ⟨_, _, _, hstep⟩
    | ok t =>
      rw [hstep] at h
      exact ih h

end RioServer.Keyed
