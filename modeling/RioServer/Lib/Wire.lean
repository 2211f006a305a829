import Mathlib.Data.Vector.Basic

/-!
# Writers and readers that are inverse to each other

A `Wire α` writes values of `α` as bytes and reads them back. Its law says that
reading what was written gives the value and leaves the bytes behind it, so
that writing one value after another is read in the same order (`prod`). What a
reader does with other bytes is not restricted.

`nat` writes a number in a fixed number of bytes, low byte first; `map` carries
a wire over to another type; `vector` and `list` repeat one.
-/

namespace RioServer

universe u v

/-- A writer and a reader that undoes it. -/
structure Wire (α : Type u) where
  put : α → List UInt8
  get : List UInt8 → α × List UInt8
  get_put : ∀ a rest, get (put a ++ rest) = (a, rest)

namespace Wire

variable {α : Type u} {β : Type v}

/-! ## Sequences -/

/-- Nothing. -/
def unit : Wire Unit where
  put _ := []
  get bytes := ((), bytes)
  get_put _ _ := rfl

/-- One value and then another. -/
def prod (w : Wire α) (x : Wire β) : Wire (α × β) where
  put p := w.put p.1 ++ x.put p.2
  get bytes :=
    let (a, bytes) := w.get bytes
    let (b, bytes) := x.get bytes
    ((a, b), bytes)
  get_put := by
    rintro ⟨a, b⟩ rest
    simp only [List.append_assoc, w.get_put, x.get_put]

/-- A wire for `α` writes every type that embeds into `α`. -/
def map (w : Wire α) (f : β → α) (g : α → β) (h : ∀ b, g (f b) = b) : Wire β where
  put b := w.put (f b)
  get bytes := (w.get bytes).map g id
  get_put := by
    intro b rest
    rw [w.get_put, Prod.map_apply, h, id_eq]

/-- `n` values. -/
def vector (w : Wire α) : (n : Nat) → Wire (List.Vector α n)
  | 0 => unit.map (fun _ => ()) (fun _ => .nil) fun v => (List.Vector.eq_nil v).symm
  | n + 1 =>
    (w.prod (w.vector n)).map (fun v => (v.head, v.tail)) (fun p => p.1 ::ᵥ p.2)
      List.Vector.cons_head_tail

/-! ## Numbers -/

/-- The `width` low bytes of a number, the lowest first. -/
def putNat : (width n : Nat) → List UInt8
  | 0, _ => []
  | width + 1, n => .ofNat n :: putNat width (n / 256)

/-- Read `width` bytes; where they run out, the rest counts as 0. -/
def getNat : (width : Nat) → List UInt8 → Nat × List UInt8
  | 0, bytes => (0, bytes)
  | _ + 1, [] => (0, [])
  | width + 1, b :: bytes =>
    let (n, rest) := getNat width bytes
    (b.toNat + 256 * n, rest)

@[simp] theorem length_putNat (width n : Nat) : (putNat width n).length = width := by
  induction width generalizing n with
  | zero => rfl
  | succ width ih => rw [putNat, List.length_cons, ih]

/-- The bytes hold the number up to the width. -/
theorem getNat_putNat (width n : Nat) (rest : List UInt8) :
    getNat width (putNat width n ++ rest) = (n % 256 ^ width, rest) := by
  induction width generalizing n with
  | zero => rw [Nat.pow_zero, Nat.mod_one]; rfl
  | succ width ih =>
    rw [putNat, List.cons_append, getNat, ih]
    have hmod : n % 256 ^ (width + 1) = n % 256 + 256 * (n / 256 % 256 ^ width) := by
      rw [Nat.pow_succ', Nat.mod_mul]
    rw [hmod]
    exact congrArg (fun low => (low + _, rest)) UInt8.toNat_ofNat'

/-- Numbers below `256 ^ width`. -/
def nat (width : Nat) : Wire (Fin (256 ^ width)) where
  put n := putNat width n
  get bytes :=
    let (n, rest) := getNat width bytes
    (Fin.ofNat _ n, rest)
  get_put := by
    intro n rest
    rw [getNat_putNat]
    refine Prod.ext (Fin.ext ?_) rfl
    show n.val % 256 ^ width % 256 ^ width = n.val
    rw [Nat.mod_mod, Nat.mod_eq_of_lt n.isLt]

/-! ## Lists -/

/-- Write 1 before every element and 0 behind the last one. -/
def putList (w : Wire α) : List α → List UInt8
  | [] => [0]
  | a :: as => 1 :: w.put a ++ putList w as

/-- Read elements while a 1 announces one, at most `fuel` of them. -/
def getList (w : Wire α) : (fuel : Nat) → List UInt8 → List α × List UInt8
  | 0, bytes => ([], bytes)
  | _ + 1, [] => ([], [])
  | fuel + 1, b :: bytes =>
    if b = 0 then ([], bytes)
    else
      let (a, bytes) := w.get bytes
      let (as, bytes) := getList w fuel bytes
      (a :: as, bytes)

theorem length_lt_putList (w : Wire α) (as : List α) : as.length < (putList w as).length := by
  induction as with
  | nil => exact Nat.one_pos
  | cons a as ih =>
    rw [putList, List.cons_append, List.length_cons, List.length_cons, List.length_append]
    omega

/-- Enough fuel reads the whole list. -/
theorem getList_putList (w : Wire α) {fuel : Nat} {as : List α} (h : as.length < fuel)
    (rest : List UInt8) : getList w fuel (putList w as ++ rest) = (as, rest) := by
  induction as generalizing fuel with
  | nil =>
    cases fuel with
    | zero => cases h
    | succ fuel => rfl
  | cons a as ih =>
    cases fuel with
    | zero => cases h
    | succ fuel =>
      rw [putList, List.append_assoc, List.cons_append, getList, if_neg (by decide), w.get_put]
      show (let (as', bytes) := getList w fuel (putList w as ++ rest); (a :: as', bytes)) = _
      rw [ih (Nat.lt_of_succ_lt_succ h)]

/-- Lists of any length. -/
def list (w : Wire α) : Wire (List α) where
  put := putList w
  get bytes := getList w bytes.length bytes
  get_put := by
    intro as rest
    refine getList_putList w ?_ rest
    rw [List.length_append]
    exact Nat.lt_of_lt_of_le (length_lt_putList w as) (Nat.le_add_right _ _)

end Wire

end RioServer
