import Mathlib.Algebra.Order.Ring.Unbundled.Rat
import WireCost.Scalar

/-! # Numbers and equality

* **`instCostScalarRat`**, **`instDelayScalarRat`** — costs and delays as fractions. Only whole
  exponents are looked at, so that every power is a fraction.
* **`SameNumber`** — when two costs count as one number.
* **`PlainSums`** — sums of at most one term count as that term, or as zero. -/

namespace WireCost

/-! ## Fractions -/

/-- Costs as fractions. -/
instance instCostScalarRat : CostScalar Rat where
  ofInt n := n
  ofDecimal digits places := digits / 10 ^ places
  power base exponent := base ^ exponent.num
  magnitude q := max q (-q)
  neutral := 0
  decLe := inferInstance

/-- Delays as fractions. -/
instance instDelayScalarRat : DelayScalar Rat Rat where
  ofInt n := n
  toCost q := q

/-! ## Numerical equality -/

/-- **A notion of equality that costs are computed with.** It may be coarser than being the same
value, as with doubles, where zero has two signs. -/
structure SameNumber {α : Type} [CostScalar α] (R : α → α → Prop) : Prop where
  equivalence : Equivalence R
  add : ∀ {a a' b b' : α}, R a a' → R b b' → R (a + b) (a' + b')
  sub : ∀ {a a' b b' : α}, R a a' → R b b' → R (a - b) (a' - b')
  mul : ∀ {a a' b b' : α}, R a a' → R b b' → R (a * b) (a' * b')
  magnitude : ∀ {a a' : α}, R a a' → R (CostScalar.magnitude a) (CostScalar.magnitude a')
  le : ∀ {a a' b b' : α}, R a a' → R b b' → (a ≤ b ↔ a' ≤ b')
  beq : ∀ {a a' b b' : α}, R a a' → R b b' → (a == b) = (a' == b')

namespace SameNumber

variable {α : Type} [CostScalar α] {R : α → α → Prop}

theorem refl (h : SameNumber R) (a : α) : R a a := h.equivalence.refl a

/-- Being the same value is one. -/
protected theorem eq : SameNumber (α := α) Eq where
  equivalence := ⟨fun _ => rfl, Eq.symm, Eq.trans⟩
  add := by
    rintro a _ b _ rfl rfl
    rfl
  sub := by
    rintro a _ b _ rfl rfl
    rfl
  mul := by
    rintro a _ b _ rfl rfl
    rfl
  magnitude := congrArg _
  le := by
    rintro a _ b _ rfl rfl
    rfl
  beq := by
    rintro a _ b _ rfl rfl
    rfl

/-- Adding the same numbers to the same number gives the same number. -/
theorem foldl (h : SameNumber R) {xs ys : List α} (hxy : List.Forall₂ R xs ys) {a b : α}
    (hab : R a b) : R (xs.foldl (· + ·) a) (ys.foldl (· + ·) b) := by
  induction hxy generalizing a b with
  | nil => exact hab
  | cons hx _ ih => exact ih (h.add hab hx)

/-- Sums of the same numbers are the same number. -/
theorem sum (h : SameNumber R) {xs ys : List α} (hxy : List.Forall₂ R xs ys) :
    R (WireCost.sum xs) (WireCost.sum ys) := h.foldl hxy (h.refl _)

/-- Terms that are zero may be left out, where adding zero makes no difference. -/
theorem foldl_filter (h : SameNumber R) (hzero : ∀ a : α, R (a + zero) a) {ι : Type} {f g : ι → α}
    {p : ι → Bool} {items : List ι} (hkept : ∀ x ∈ items, p x = true → f x = g x)
    (hout : ∀ x ∈ items, p x = false → f x = zero) {a b : α} (hab : R a b) :
    R ((items.map f).foldl (· + ·) a) (((items.filter p).map g).foldl (· + ·) b) := by
  induction items generalizing a b with
  | nil => exact hab
  | cons x items ih =>
    have hrest {a b : α} := ih (fun y hy => hkept y (List.mem_cons_of_mem x hy))
      (fun y hy => hout y (List.mem_cons_of_mem x hy)) (a := a) (b := b)
    rw [List.map_cons, List.foldl_cons, List.filter_cons]
    cases hx : p x with
    | true =>
      rw [if_pos rfl, List.map_cons, List.foldl_cons, hkept x List.mem_cons_self hx]
      exact hrest (h.add hab (h.refl _))
    | false =>
      rw [if_neg Bool.false_ne_true, hout x List.mem_cons_self hx]
      exact hrest (h.equivalence.trans (hzero a) hab)

end SameNumber

/-- **Short sums come to what they should:** a sum of one term is that term, and one of none is
zero. -/
structure PlainSums {α : Type} [CostScalar α] (R : α → α → Prop) : Prop where
  single : ∀ a : α, R a (sum [a])
  empty : R zero (sum [])

end WireCost
