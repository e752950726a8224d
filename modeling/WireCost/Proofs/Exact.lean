import Mathlib.Algebra.BigOperators.Group.Finset.Basic
import Mathlib.Algebra.BigOperators.Group.List.Basic
import Mathlib.Algebra.Field.Rat
import Mathlib.Algebra.Order.BigOperators.Group.List
import Mathlib.Algebra.Order.Ring.Rat
import WireCost.Proofs.Scalar

/-! # Sums of costs

* **`IsSum`** — a number is the sum of some terms, added in any grouping.
* **`ExactCost`** — costs that are computed with exactly, as in an ordered field.
* **`IsSum.eq_sum`** — computed exactly, the grouping makes no difference.
* **`sum_map_filter`**, **`sum_map_after`** — sums of which some terms are left out or change. -/

namespace WireCost

/-! ## Any grouping -/

section

variable {α : Type} [CostScalar α]

/-- **A number is the sum of some terms,** added from left to right in groups of any kind. No law of
addition is used, so that this also says what is computed with doubles. -/
inductive IsSum : List α → α → Prop where
  | nil : IsSum [] zero
  | single (a : α) : IsSum [a] a
  | append {xs ys : List α} {a b : α} (hxs : IsSum xs a) (hys : IsSum ys b) :
      IsSum (xs ++ ys) (a + b)

/-- Adding term by term. -/
theorem IsSum.foldl {xs : List α} {a : α} (h : IsSum xs a) (ys : List α) :
    IsSum (xs ++ ys) (ys.foldl (· + ·) a) := by
  induction ys generalizing xs a with
  | nil => simpa using h
  | cons y ys ih =>
    have hstep := ih (h.append (.single y))
    rwa [List.append_assoc, List.singleton_append] at hstep

end

/-! ## Exact arithmetic -/

/-- **Exact costs:** computing with costs is computing in an ordered field. Only powers may be
anything, since a root need not be in the field. -/
class ExactCost (α : Type) extends CostScalar α, Field α, LinearOrder α, IsStrictOrderedRing α where
  ofInt_eq : ∀ n : Int, (CostScalar.ofInt n : α) = n
  ofDecimal_eq : ∀ digits places : Nat,
    (CostScalar.ofDecimal digits places : α) = digits / 10 ^ places
  magnitude_eq : ∀ a : α, CostScalar.magnitude a = |a|
  neutral_eq : (CostScalar.neutral : α) = 0

/-- Fractions are exact costs. -/
instance instExactCostRat : ExactCost Rat where
  __ := instCostScalarRat
  __ := (inferInstance : Field Rat)
  __ := (inferInstance : LinearOrder Rat)
  __ := (inferInstance : IsStrictOrderedRing Rat)
  ofInt_eq _ := rfl
  ofDecimal_eq _ _ := rfl
  magnitude_eq _ := rfl
  neutral_eq := rfl

section

variable {α : Type} [ExactCost α]

theorem zero_eq : (zero : α) = 0 := by rw [zero, ExactCost.ofInt_eq, Int.cast_zero]

/-- The sum of a list is the sum of its terms. -/
theorem sum_eq (xs : List α) : WireCost.sum xs = xs.sum := by
  rw [WireCost.sum, ExactCost.neutral_eq, List.sum_eq_foldl]

/-- **Computed exactly, the grouping makes no difference.** -/
theorem IsSum.eq_sum {xs : List α} {a : α} (h : IsSum xs a) : a = xs.sum := by
  induction h with
  | nil => rw [zero_eq, List.sum_nil]
  | single a => rw [List.sum_singleton]
  | append _ _ ihxs ihys => rw [List.sum_append, ← ihxs, ← ihys]

theorem foldl_add_eq (xs : List α) : xs.foldl (· + ·) zero = xs.sum :=
  (IsSum.nil.foldl xs).eq_sum

end

/-- Terms that are left out make no difference if they are zero. -/
theorem sum_map_filter {M ι : Type} [AddMonoid M] {items : List ι} {p : ι → Bool} {f : ι → M}
    (h : ∀ x ∈ items, p x = false → f x = 0) :
    ((items.filter p).map f).sum = (items.map f).sum := by
  induction items with
  | nil => rfl
  | cons x items ih =>
    have hrest := ih fun y hy => h y (List.mem_cons_of_mem x hy)
    rw [List.filter_cons]
    split
    · rw [List.map_cons, List.map_cons, List.sum_cons, List.sum_cons, hrest]
    · rename_i hout
      rw [List.map_cons, List.sum_cons, h x List.mem_cons_self (by simpa using hout), zero_add,
        hrest]

/-- **A sum of which some terms change** changes by the sum of their changes. -/
theorem sum_map_after {M ι : Type} [AddCommGroup M] {items changed : List ι} {before after : ι → M}
    (hitems : items.Nodup) (hchanged : changed.Nodup) (hsub : changed ⊆ items)
    (hkept : ∀ x ∈ items, x ∉ changed → after x = before x) :
    (items.map after).sum =
      (items.map before).sum + (changed.map fun x => after x - before x).sum := by
  classical
  rw [← List.sum_toFinset _ hitems, ← List.sum_toFinset _ hitems, ← List.sum_toFinset _ hchanged]
  -- the items that do not change add nothing to the difference
  have hdiff : ∑ x ∈ changed.toFinset, (after x - before x) =
      ∑ x ∈ items.toFinset, (after x - before x) := by
    refine Finset.sum_subset (fun x hx => ?_) fun x hx hnot => ?_
    · exact List.mem_toFinset.2 (hsub (List.mem_toFinset.1 hx))
    · rw [hkept x (List.mem_toFinset.1 hx) (mt List.mem_toFinset.2 hnot), sub_self]
  rw [hdiff, Finset.sum_sub_distrib, add_sub_cancel]

end WireCost
