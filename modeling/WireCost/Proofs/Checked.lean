import Mathlib.Data.List.Forall2
import WireCost.Fault

/-! # Computing with checks

What a checked computation has done when it succeeds, step by step.

* **`Checked.bind_eq_ok`** — a sequence succeeds when both parts do.
* **`require_eq_ok`**, **`entry_eq_ok`**, **`change_eq_ok`** — the checked operations on tables.
* **`Checked.foldlM_induct`**, **`Checked.foldlM_progress`** — a loop keeps an invariant that says
  which items are done, and it succeeds if every step does.
* **`Checked.foldlM_range_progress`** — the same for a loop that counts up.
* **`Checked.forM_eq_ok`** — a list of checks passes when every one of them does.
* **`Checked.Agree`** — two computations that stop with the same fault, or have related results.
* **`Sample.result`**, **`Sample.faultOf`** — how a closed computation ends. -/

namespace WireCost

variable {α β γ : Type}

namespace Checked

/-! ## Sequences -/

@[simp] theorem ok_bind (a : α) (f : α → Checked β) : ((.ok a : Checked α) >>= f) = f a := rfl

@[simp] theorem error_bind (e : Fault) (f : α → Checked β) :
    ((.error e : Checked α) >>= f) = .error e := rfl

/-- **A sequence succeeds** when its first part does and the rest succeeds on its result. -/
theorem bind_eq_ok {x : Checked α} {f : α → Checked β} {b : β} :
    (x >>= f) = .ok b ↔ ∃ a, x = .ok a ∧ f a = .ok b := by
  cases x with
  | error e => simp
  | ok a => simp

/-- What follows a choice can be done in both branches. -/
theorem ite_bind {p : Prop} [Decidable p] {x y : Checked α} {f : α → Checked β} :
    (if p then x else y) >>= f = if p then x >>= f else y >>= f := by
  split <;> rfl

theorem map_eq_ok {x : Checked α} {f : α → β} {b : β} :
    Except.map f x = .ok b ↔ ∃ a, x = .ok a ∧ f a = b := by
  cases x with
  | error e => simp [Except.map]
  | ok a => simp [Except.map]

/-! ## Loops -/

/-- **A loop keeps an invariant** that speaks of the items done so far, if every step that succeeds
keeps it. -/
theorem foldlM_induct {f : β → α → Checked β} {l : List α} {b c : β} (I : List α → β → Prop)
    (start : I [] b)
    (step : ∀ done x rest s s', l = done ++ x :: rest → I done s → f s x = .ok s' →
      I (done ++ [x]) s')
    (h : l.foldlM f b = .ok c) : I l c := by
  -- the induction is on the items that are left
  suffices H : ∀ rest done s, l = done ++ rest → I done s → rest.foldlM f s = .ok c → I l c from
    H l [] b rfl start h
  intro rest
  induction rest with
  | nil =>
    intro done s hl hs h
    obtain rfl : s = c := by simpa [pure, Except.pure] using h
    rwa [hl, List.append_nil]
  | cons x rest ih =>
    intro done s hl hs h
    rw [List.foldlM_cons, bind_eq_ok] at h
    obtain ⟨s', hx, h⟩ := h
    exact ih (done ++ [x]) s' (by simp [hl]) (step done x rest s s' hl hs hx) h

/-- **A loop succeeds** and keeps an invariant, if every step succeeds where the invariant holds and
keeps it. -/
theorem foldlM_progress {f : β → α → Checked β} {l : List α} {b : β} (I : List α → β → Prop)
    (start : I [] b)
    (step : ∀ done x rest s, l = done ++ x :: rest → I done s →
      ∃ s', f s x = .ok s' ∧ I (done ++ [x]) s') :
    ∃ b', l.foldlM f b = .ok b' ∧ I l b' := by
  suffices H : ∀ rest done s, l = done ++ rest → I done s →
      ∃ b', rest.foldlM f s = .ok b' ∧ I l b' from H l [] b rfl start
  intro rest
  induction rest with
  | nil =>
    intro done s hl hs
    exact ⟨s, rfl, by rwa [hl, List.append_nil]⟩
  | cons x rest ih =>
    intro done s hl hs
    obtain ⟨s', hx, hs'⟩ := step done x rest s hl hs
    obtain ⟨b', h, hb'⟩ := ih (done ++ [x]) s' (by simp [hl]) hs'
    exact ⟨b', by rw [List.foldlM_cons, hx, ok_bind, h], hb'⟩

/-- **A loop over the numbers below a bound** succeeds and keeps an invariant that speaks of the
next number. -/
theorem foldlM_range_progress {f : β → Nat → Checked β} {n : Nat} {b : β} (I : Nat → β → Prop)
    (start : I 0 b) (step : ∀ i s, i < n → I i s → ∃ s', f s i = .ok s' ∧ I (i + 1) s') :
    ∃ b', (List.range n).foldlM f b = .ok b' ∧ I n b' := by
  induction n with
  | zero => exact ⟨b, rfl, start⟩
  | succ n ih =>
    obtain ⟨s, hloop, hs⟩ := ih fun i s hi => step i s (Nat.lt_succ_of_lt hi)
    obtain ⟨s', hstep, hs'⟩ := step n s (Nat.lt_succ_self n) hs
    refine ⟨s', ?_, hs'⟩
    rw [List.range_succ, List.foldlM_append, hloop, ok_bind, List.foldlM_cons, hstep, ok_bind]
    rfl

/-- What a list of computations yields, one by one. -/
theorem mapM_eq_ok {f : α → Checked β} {l : List α} {ys : List β} :
    l.mapM f = .ok ys ↔ l.map f = ys.map .ok := by
  induction l generalizing ys with
  | nil => cases ys <;> simp [pure, Except.pure]
  | cons x l ih =>
    simp only [List.mapM_cons, bind_eq_ok, ih, List.map_cons]
    constructor
    · rintro ⟨y, hy, ys', hys, h⟩
      cases h
      simp [hy, hys]
    · intro h
      cases ys with
      | nil => simp at h
      | cons y ys => exact ⟨y, (List.cons.inj h).1, ys, (List.cons.inj h).2, rfl⟩

/-- A list of computations that all succeed. -/
theorem exists_mapM {f : α → Checked β} {l : List α} (h : ∀ x ∈ l, ∃ y, f x = .ok y) :
    ∃ ys, l.mapM f = .ok ys := by
  induction l with
  | nil => exact ⟨[], rfl⟩
  | cons x l ih =>
    obtain ⟨y, hy⟩ := h x List.mem_cons_self
    obtain ⟨ys, hys⟩ := ih fun z hz => h z (List.mem_cons_of_mem x hz)
    exact ⟨y :: ys, by rw [List.mapM_cons, hy, ok_bind, hys]; rfl⟩

/-! ## Lists of checks -/

/-- **A list of checks passes** when every one of them does, whatever the checks report. -/
theorem forM_eq_ok {ε : Type} {f : α → Except ε Unit} {l : List α} :
    l.forM f = .ok () ↔ ∀ x ∈ l, f x = .ok () := by
  induction l with
  | nil => simp [List.forM, pure, Except.pure]
  | cons x l ih =>
    rw [List.forall_mem_cons, ← ih]
    cases hx : f x with
    | error e => simp [List.forM, hx, bind, Except.bind]
    | ok u => simp [List.forM, hx, bind, Except.bind]

/-! ## Two computations -/

/-- **Two computations agree** when they stop with the same fault, or have related results. -/
inductive Agree (R : α → β → Prop) : Checked α → Checked β → Prop where
  | ok {a : α} {b : β} (h : R a b) : Agree R (.ok a) (.ok b)
  | error (fault : Fault) : Agree R (.error fault) (.error fault)

namespace Agree

variable {R : α → β → Prop}

/-- **Sequences agree** part by part. -/
theorem bind {γ' : Type} {S : γ → γ' → Prop} {x : Checked α} {y : Checked β} {f : α → Checked γ}
    {g : β → Checked γ'} (h : Agree R x y) (hrest : ∀ a b, R a b → Agree S (f a) (g b)) :
    Agree S (x >>= f) (y >>= g) := by
  cases h with
  | ok hab => exact hrest _ _ hab
  | error fault => exact .error fault

/-- After the same first part, the rest has to agree. -/
theorem bind_same {γ' : Type} {S : γ → γ' → Prop} {x : Checked α} {f : α → Checked γ}
    {g : α → Checked γ'} (hrest : ∀ a, x = .ok a → Agree S (f a) (g a)) :
    Agree S (x >>= f) (x >>= g) := by
  cases x with
  | ok a => exact hrest a rfl
  | error fault => exact .error fault

theorem map {γ' : Type} {S : γ → γ' → Prop} {x : Checked α} {y : Checked β} {f : α → γ}
    {g : β → γ'} (h : Agree R x y) (hrest : ∀ a b, R a b → S (f a) (g b)) :
    Agree S (Except.map f x) (Except.map g y) := by
  cases h with
  | ok hab => exact .ok (hrest _ _ hab)
  | error fault => exact .error fault

/-- **Loops agree** step by step. -/
theorem foldlM {γ : Type} {f : α → γ → Checked α} {g : β → γ → Checked β} {l : List γ} {a : α}
    {b : β} (h : R a b) (hstep : ∀ a b x, x ∈ l → R a b → Agree R (f a x) (g b x)) :
    Agree R (l.foldlM f a) (l.foldlM g b) := by
  induction l generalizing a b with
  | nil => exact .ok h
  | cons x l ih =>
    refine bind (hstep a b x List.mem_cons_self h) fun a' b' hab => ih hab fun a b x hx => ?_
    exact hstep a b x (List.mem_cons_of_mem _ hx)

/-- **Lists of computations agree** one by one. -/
theorem mapM {γ : Type} {f : γ → Checked α} {g : γ → Checked β} {l : List γ}
    (h : ∀ x ∈ l, Agree R (f x) (g x)) : Agree (List.Forall₂ R) (l.mapM f) (l.mapM g) := by
  induction l with
  | nil => exact .ok .nil
  | cons x l ih =>
    rw [List.mapM_cons, List.mapM_cons]
    refine (h x List.mem_cons_self).bind fun a b hab => ?_
    refine (ih fun y hy => h y (List.mem_cons_of_mem x hy)).bind fun as bs hrest => ?_
    exact .ok (.cons hab hrest)

theorem mono {S : α → β → Prop} {x : Checked α} {y : Checked β} (h : Agree R x y)
    (hRS : ∀ a b, x = .ok a → y = .ok b → R a b → S a b) : Agree S x y := by
  cases h with
  | ok hab => exact .ok (hRS _ _ rfl rfl hab)
  | error fault => exact .error fault

/-- Where one of them succeeds, so does the other. -/
theorem exists_ok {x : Checked α} {y : Checked β} (h : Agree R x y) {a : α} (hx : x = .ok a) :
    ∃ b, y = .ok b ∧ R a b := by
  subst hx
  cases h with
  | ok hab => exact ⟨_, rfl, hab⟩

end Agree

end Checked

/-! ## Checks and tables -/

theorem require_eq_ok {p : Prop} [Decidable p] {fault : Fault} {u : Unit} :
    require p fault = .ok u ↔ p := by
  unfold require
  split <;> simp_all

theorem require_of {p : Prop} [Decidable p] {fault : Fault} (h : p) :
    require p fault = .ok () := if_pos h

section Entry

variable {table : Type} {valid : table → Nat → Prop} [GetElem? table Nat α valid]

/-- An entry that is there. -/
theorem entry_eq_ok {xs : table} {i : Nat} {x : α} : entry xs i = .ok x ↔ xs[i]? = some x := by
  unfold entry
  split <;> simp_all

theorem entry_of_some {xs : table} {i : Nat} {x : α} (h : xs[i]? = some x) :
    entry xs i = .ok x := entry_eq_ok.2 h

end Entry

/-- The items of an array of which one was changed. -/
theorem getElem?_modify_eq_some {xs : Array α} {i j : Nat} {f : α → α} {y : α} :
    (xs.modify i f)[j]? = some y ↔ ∃ x, xs[j]? = some x ∧ (if i = j then f x else x) = y := by
  rw [Array.getElem?_modify]
  split
  · exact Option.map_eq_some_iff
  · simp

/-- Changing an item succeeds when it is there and can be changed. -/
theorem change_eq_ok {xs ys : List α} {i : Nat} {f : α → Checked α} :
    change xs i f = .ok ys ↔ ∃ x y, xs[i]? = some x ∧ f x = .ok y ∧ xs.set i y = ys := by
  simp only [change, Checked.bind_eq_ok, entry_eq_ok, Except.ok.injEq]
  constructor
  · rintro ⟨x, hx, y, hy, h⟩
    exact ⟨x, y, hx, hy, h⟩
  · rintro ⟨x, y, hx, hy, h⟩
    exact ⟨x, hx, y, hy, h⟩

end WireCost

/-! ## Closed computations -/

namespace WireCost.Sample

/-- What a computation yields, once it is known to succeed. -/
def result {β : Type} : (x : Checked β) → x.isOk = true → β
  | .ok b, _ => b

theorem eq_ok_result {β : Type} {x : Checked β} (h : x.isOk = true) : x = .ok (result x h) := by
  cases x with
  | error fault => cases h
  | ok b => rfl

/-- What a computation stops with. -/
def faultOf {β : Type} : Checked β → Option Fault
  | .ok _ => none
  | .error fault => some fault

theorem eq_error_of_faultOf {β : Type} {x : Checked β} {fault : Fault}
    (h : faultOf x = some fault) : x = .error fault := by
  cases x with
  | error fault' => exact congrArg _ (Option.some.inj h)
  | ok b => cases h

end WireCost.Sample
