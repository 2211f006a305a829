import Mathlib.Data.List.Nodup

/-!
# Finite maps with at most one entry for a key

`UnorderedMap κ ν` is the observable content of a hash map: a list of entries
without a repeated key. The order of the list means nothing; every fact about
the operations is stated through `find`, and `find_eq_some` is the one place
that looks at the list.

`insert` leaves an entry that is there alone, as C++'s `insert` does, and
`assign` replaces it, as an assignment through `operator[]` does.
-/

namespace RioServer

universe u v

/-- Entries with pairwise different keys. -/
structure UnorderedMap (κ : Type u) (ν : Type v) where
  entries : List (κ × ν)
  nodup : (entries.map Prod.fst).Nodup
  deriving Repr

namespace UnorderedMap

variable {κ : Type u} {ν : Type v}

/-- The map without entries. -/
def empty : UnorderedMap κ ν := ⟨[], List.nodup_nil⟩

/-- The values of all entries. -/
def values (m : UnorderedMap κ ν) : List ν := m.entries.map Prod.snd

@[simp] theorem length_values (m : UnorderedMap κ ν) : m.values.length = m.entries.length :=
  List.length_map ..

/-- Two entries under one key are the same entry. -/
theorem eq_of_mem {m : UnorderedMap κ ν} {k : κ} {v w : ν} (hv : (k, v) ∈ m.entries)
    (hw : (k, w) ∈ m.entries) : v = w := by
  have h := List.inj_on_of_nodup_map m.nodup hv hw rfl
  exact congrArg Prod.snd h

variable [DecidableEq κ]

/-- The value under a key. -/
def find (m : UnorderedMap κ ν) (k : κ) : Option ν :=
  (m.entries.find? fun e => e.1 = k).map Prod.snd

/-- `find` reads the entries. -/
theorem find_eq_some {m : UnorderedMap κ ν} {k : κ} {v : ν} :
    m.find k = some v ↔ (k, v) ∈ m.entries := by
  constructor
  · intro h
    obtain ⟨⟨k', v'⟩, hfind, rfl⟩ := Option.map_eq_some_iff.mp h
    have hk : k' = k := by simpa using List.find?_some hfind
    subst hk
    exact List.mem_of_find?_eq_some hfind
  · intro h
    cases hfind : m.entries.find? fun e => e.1 = k with
    | none =>
      have hno := List.find?_eq_none.mp hfind (k, v) h
      simp at hno
    | some e =>
      obtain ⟨k', v'⟩ := e
      have hk : k' = k := by simpa using List.find?_some hfind
      subst hk
      rw [find, hfind, Option.map_some]
      exact congrArg some (eq_of_mem (List.mem_of_find?_eq_some hfind) h)

theorem find_eq_none {m : UnorderedMap κ ν} {k : κ} :
    m.find k = none ↔ ∀ v, (k, v) ∉ m.entries := by
  rw [Option.eq_none_iff_forall_ne_some]
  exact forall_congr' fun v => not_congr find_eq_some

/-- Equal answers make equal maps, as far as `find` can tell. -/
theorem find_congr {m n : UnorderedMap κ ν} {k k' : κ}
    (h : ∀ v, (k, v) ∈ m.entries ↔ (k', v) ∈ n.entries) : m.find k = n.find k' := by
  refine Option.ext fun v => ?_
  rw [find_eq_some, find_eq_some]
  exact h v

theorem mem_values {m : UnorderedMap κ ν} {v : ν} :
    v ∈ m.values ↔ ∃ k, m.find k = some v := by
  simp [values, find_eq_some]

/-- Values that tell their key are pairwise different. -/
theorem nodup_values {m : UnorderedMap κ ν} {f : ν → κ}
    (h : ∀ k v, m.find k = some v → f v = k) : m.values.Nodup := by
  have hkeys : m.values.map f = m.entries.map Prod.fst := by
    rw [values, List.map_map]
    exact List.map_congr_left fun e he => h e.1 e.2 (find_eq_some.mpr he)
  exact List.Nodup.of_map f (hkeys ▸ m.nodup)

@[simp] theorem find_empty (k : κ) : (empty : UnorderedMap κ ν).find k = none := rfl

/-! ## Insertion and erasure -/

/-- Add an entry unless its key has one. -/
def insert (m : UnorderedMap κ ν) (k : κ) (v : ν) : UnorderedMap κ ν :=
  if h : m.find k = none then
    { entries := (k, v) :: m.entries
      nodup := by
        refine List.nodup_cons.mpr ⟨?_, m.nodup⟩
        intro hk
        obtain ⟨⟨k', v'⟩, he, rfl⟩ := List.mem_map.mp hk
        exact find_eq_none.mp h v' he }
  else m

/-- Remove the entry of a key. -/
def erase (m : UnorderedMap κ ν) (k : κ) : UnorderedMap κ ν where
  entries := m.entries.filter fun e => e.1 ≠ k
  nodup := m.nodup.sublist (List.filter_sublist.map _)

/-- Set the entry of a key. -/
def assign (m : UnorderedMap κ ν) (k : κ) (v : ν) : UnorderedMap κ ν :=
  (m.erase k).insert k v

theorem insert_of_some {m : UnorderedMap κ ν} {k : κ} {v w : ν} (h : m.find k = some w) :
    m.insert k v = m := by
  rw [insert, dif_neg (by rw [h]; exact Option.some_ne_none w)]

/-- A new entry is found under its key, and no other key is touched. -/
theorem find_insert_of_none {m : UnorderedMap κ ν} {k : κ} (h : m.find k = none) (v : ν)
    (k' : κ) : (m.insert k v).find k' = if k = k' then some v else m.find k' := by
  rw [insert, dif_pos h]
  by_cases hk : k = k'
  · rw [if_pos hk]
    exact find_eq_some.mpr (hk ▸ List.mem_cons_self)
  · rw [if_neg hk]
    refine find_congr fun w => ?_
    rw [List.mem_cons, Prod.mk.injEq]
    exact ⟨fun hw => hw.resolve_left fun he => hk he.1.symm, .inr⟩

/-- What is found stays found. -/
theorem find_insert_of_found {m : UnorderedMap κ ν} {k' : κ} {w : ν}
    (h : m.find k' = some w) (k : κ) (v : ν) : (m.insert k v).find k' = some w := by
  cases hk : m.find k with
  | some x =>
    rw [insert_of_some hk]
    exact h
  | none =>
    rw [find_insert_of_none hk]
    by_cases hkk : k = k'
    · rw [hkk, h] at hk
      cases hk
    · rw [if_neg hkk]
      exact h

theorem find_erase (m : UnorderedMap κ ν) (k k' : κ) :
    (m.erase k).find k' = if k = k' then none else m.find k' := by
  by_cases hk : k = k'
  · rw [if_pos hk]
    refine find_eq_none.mpr fun v hv => ?_
    have hne := (List.mem_filter.mp hv).2
    simp [hk] at hne
  · rw [if_neg hk]
    refine find_congr fun v => ?_
    rw [erase, List.mem_filter]
    exact ⟨fun h => h.1, fun h => ⟨h, by simpa using fun he : k' = k => hk he.symm⟩⟩

theorem find_assign (m : UnorderedMap κ ν) (k k' : κ) (v : ν) :
    (m.assign k v).find k' = if k = k' then some v else m.find k' := by
  have hnone : (m.erase k).find k = none := by rw [find_erase, if_pos rfl]
  rw [assign, find_insert_of_none hnone]
  by_cases hk : k = k'
  · rw [if_pos hk, if_pos hk]
  · rw [if_neg hk, if_neg hk, find_erase, if_neg hk]

end UnorderedMap

end RioServer
