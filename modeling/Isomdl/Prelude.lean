/-
**The Rust plumbing the x5chain module is written in.**

* `bind_eq_ok` — the `?` operator: a `do` block over `Except` succeeds exactly when its first
  step succeeds and the rest succeeds on that step's value. Every inversion of a modelled
  function goes through it.
* `errorOf` — the error of a failed result, as the list a `match` with `Err(e) => errors.push(e)`
  adds to an accumulator.
* `windowsTwo` — `slice.windows(2)`, each window as the pair `(chain_link[0], chain_link[1])`,
  and `windowsTwo_eq_map_finRange`: the windows are the pairs of neighbours at `i` and `i + 1`;
  `windowsTwo_append`: joining two slices adds exactly the one window across the seam.
* `foldl_append_eq` — a loop that appends to an accumulator (`Vec::push`, `Vec::append`) leaves
  the accumulator followed by everything appended, in order.
-/

import Mathlib.Data.List.FinRange

namespace Isomdl

/-- `Result` values compare by variant and payload, so that runs of the model can be checked by
`decide`. -/
instance decidableEqExcept {ε α : Type} [DecidableEq ε] [DecidableEq α] :
    DecidableEq (Except ε α)
  | .ok a, .ok a' => decidable_of_iff (a = a') ⟨congrArg _, Except.ok.inj⟩
  | .error e, .error e' => decidable_of_iff (e = e') ⟨congrArg _, Except.error.inj⟩
  | .ok _, .error _ => isFalse Except.noConfusion
  | .error _, .ok _ => isFalse Except.noConfusion

/-- **The `?` operator.** -/
theorem bind_eq_ok {ε α β : Type} {x : Except ε α} {f : α → Except ε β} {b : β} :
    x >>= f = .ok b ↔ ∃ a, x = .ok a ∧ f a = .ok b := by
  cases x <;> simp [bind, Except.bind]

@[simp] theorem ok_bind {ε α β : Type} (a : α) (f : α → Except ε β) :
    (Except.ok a : Except ε α) >>= f = f a :=
  rfl

@[simp] theorem pure_eq_ok {ε α : Type} {a b : α} : (pure a : Except ε α) = .ok b ↔ a = b :=
  ⟨Except.ok.inj, congrArg _⟩

@[simp] theorem mapError_ok {ε ε' α : Type} (a : α) (f : ε → ε') :
    (Except.ok a : Except ε α).mapError f = .ok a :=
  rfl

theorem mapError_eq_ok {ε ε' α : Type} {x : Except ε α} {f : ε → ε'} {a : α} :
    x.mapError f = .ok a ↔ x = .ok a := by
  cases x <;> simp [Except.mapError]

theorem bind_eq_error {ε α β : Type} {x : Except ε α} {f : α → Except ε β} {e : ε}
    (failed : x = .error e) : x >>= f = .error e := by
  rw [failed]
  rfl

/-- The error of a failed result, as a list: empty for a success. -/
def errorOf {ε α : Type} : Except ε α → List ε
  | .ok _ => []
  | .error e => [e]

@[simp] theorem errorOf_ok {ε α : Type} (a : α) : errorOf (.ok a : Except ε α) = [] := rfl

@[simp] theorem errorOf_error {ε α : Type} (e : ε) : errorOf (.error e : Except ε α) = [e] := rfl

theorem errorOf_eq_nil {ε α : Type} {x : Except ε α} : errorOf x = [] ↔ ∃ a, x = .ok a := by
  cases x <;> simp

/-- `slice.windows(2)`: every two neighbours, in order. -/
def windowsTwo {α : Type} : List α → List (α × α)
  | first :: second :: rest => (first, second) :: windowsTwo (second :: rest)
  | _ => []

theorem windowsTwo_eq_zip {α : Type} (xs : List α) : windowsTwo xs = xs.zip xs.tail := by
  induction xs using windowsTwo.induct with
  | case1 first second rest ih => simp [windowsTwo, ih]
  | case2 xs short =>
    rcases xs with _ | ⟨_, _ | ⟨_, _⟩⟩ <;> first | rfl | exact absurd rfl (short _ _ _)

/-- **The windows are the neighbours `(x i, x (i + 1))` for `i` from `0` to `n - 2`.** -/
theorem windowsTwo_eq_map_finRange {α : Type} (xs : List α) :
    windowsTwo xs = (List.finRange (xs.length - 1)).map fun i : Fin (xs.length - 1) =>
      (xs.get ⟨i.val, by omega⟩, xs.get ⟨i.val + 1, by omega⟩) := by
  rw [windowsTwo_eq_zip]
  apply List.ext_getElem
  · simp
  · intro i inZip inMap
    simp [List.getElem_zip]

/-- The windows of two joined slices: those of the first, the one window across the seam, then
those of the second. -/
theorem windowsTwo_append {α : Type} {xs ys : List α} (left : xs ≠ []) (right : ys ≠ []) :
    windowsTwo (xs ++ ys) = windowsTwo xs ++ (xs.getLast left, ys.head right) :: windowsTwo ys := by
  induction xs with
  | nil => exact absurd rfl left
  | cons x rest ih =>
    cases rest with
    | nil =>
      obtain ⟨y, ys, rfl⟩ := List.exists_cons_of_ne_nil right
      rfl
    | cons next rest =>
      have joined := ih (List.cons_ne_nil next rest)
      rw [List.cons_append] at joined
      rw [List.cons_append, List.cons_append, windowsTwo, joined, windowsTwo,
        List.getLast_cons (List.cons_ne_nil next rest)]
      rfl

/-- **A loop that appends to an accumulator.** -/
theorem foldl_append_eq {α β : Type} (f : α → List β) (init : List β) (xs : List α) :
    xs.foldl (fun acc x => acc ++ f x) init = init ++ xs.flatMap f := by
  induction xs generalizing init with
  | nil => simp
  | cons x xs ih => simp [ih]

end Isomdl
