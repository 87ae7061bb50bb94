/-
**`has_unique_elements`: a `HashSet` filled by `all`.**

`iter.into_iter().all(move |x| uniq.insert(x))` walks the iterator with a set of the values seen so
far; `HashSet::insert` answers `false` exactly when the value is already there, and `all` stops at
the first `false`.

* `go_eq_true_iff` — the loop invariant: from a set `uniq`, the loop over `xs` answers `true` iff
  `xs` has no duplicate and meets `uniq` nowhere. Each step moves the head from the list into the
  set.
* `hasUniqueElements_eq_true_iff` — so on X509 values, whose `Hash` and `Eq` are those of their
  bytes, the answer is `true` iff no two positions of the list hold the same bytes.
-/

import Isomdl.Definitions.X509.Backend
import Mathlib.Data.List.Nodup

namespace Isomdl.Definitions.X5chain

/-- `has_unique_elements`. -/
def hasUniqueElements {α : Type} [BEq α] [Hashable α] (iter : List α) : Bool :=
  go ∅ iter
where
  /-- The `all` loop over the rest of the iterator, with the set `uniq` of the values seen so
  far; `HashSet::insert` returns whether the value was absent. -/
  go (uniq : Std.HashSet α) : List α → Bool
    | [] => true
    | x :: rest =>
      let (present, uniq) := uniq.containsThenInsert x
      if !present then go uniq rest else false

section Lawful

variable {α : Type} [DecidableEq α] [Hashable α]

/-- **The loop invariant.** -/
theorem hasUniqueElements.go_eq_true_iff (uniq : Std.HashSet α) (xs : List α) :
    hasUniqueElements.go uniq xs = true ↔ xs.Nodup ∧ ∀ x ∈ xs, x ∉ uniq := by
  induction xs generalizing uniq with
  | nil => simp [hasUniqueElements.go]
  | cons x rest ih =>
    simp only [hasUniqueElements.go, Std.HashSet.containsThenInsert_fst,
      Std.HashSet.containsThenInsert_snd]
    by_cases seen : x ∈ uniq
    · have present : uniq.contains x = true := Std.HashSet.mem_iff_contains.mp seen
      simp [present, seen]
    · have absent : uniq.contains x = false := by
        simpa [Std.HashSet.mem_iff_contains] using seen
      simp only [absent, Bool.not_false, if_true, ih, Std.HashSet.mem_insert, beq_iff_eq, not_or,
        List.nodup_cons, List.mem_cons, forall_eq_or_imp]
      constructor
      · rintro ⟨nodup, fresh⟩
        exact ⟨⟨fun mem => (fresh x mem).1 rfl, nodup⟩, seen, fun y mem => (fresh y mem).2⟩
      · rintro ⟨⟨notMem, nodup⟩, -, fresh⟩
        exact ⟨nodup, fun y mem => ⟨fun same => notMem (same ▸ mem), fresh y mem⟩⟩

theorem hasUniqueElements_eq_true_iff_nodup (xs : List α) :
    hasUniqueElements xs = true ↔ xs.Nodup := by
  simp [hasUniqueElements, hasUniqueElements.go_eq_true_iff]

end Lawful

/-- **`has_unique_elements` on certificates: no two positions hold the same bytes.** -/
theorem hasUniqueElements_eq_true_iff (xs : List X509) :
    hasUniqueElements xs = true ↔
      ∀ i j : Fin xs.length, i ≠ j → (xs.get i).bytes ≠ (xs.get j).bytes := by
  rw [hasUniqueElements_eq_true_iff_nodup, List.nodup_iff_injective_get]
  constructor
  · intro injective i j distinct sameBytes
    exact distinct (injective (X509.ext sameBytes))
  · intro distinctBytes i j same
    by_contra distinct
    exact distinctBytes i j distinct (congrArg X509.bytes same)

end Isomdl.Definitions.X5chain
