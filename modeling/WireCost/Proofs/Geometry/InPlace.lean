import WireCost.Geometry.Basic
import WireCost.Proofs.Checked

/-! # Moving one pin in place

The boxes of a net change in place when a pin moves, and a flag tells whether all of them could
follow. The laws of a moved pin speak of the geometry that comes out when they could; here both are
shown to be the same run.

* **`Geometry.shiftDriver?_cons`** — a driver moves in one box after the other.
* **`Geometry.shift?_eq_map`** — what can be told of a moved pin is what was done in place, if that
  could follow. -/

namespace WireCost.Geometry

variable {form : BoxForm} {g g' : Geometry} {p : PinShift}

/-! ## Drivers -/

theorem shiftDriver?_nil (p : PinShift) : shiftDriver? p [] = .ok (some []) := rfl

/-- **A driver moves in one box after the other,** as long as each can follow. -/
theorem shiftDriver?_cons (p : PinShift) (box : EdgeBox) (n : Int) (rest : List (EdgeBox × Int)) :
    shiftDriver? p ((box, n) :: rest) =
      ((if n = 0 then .ok (some (EdgeBox.point p.new.x p.new.y))
        else box.shift? (p.old.x, p.old.y) (p.new.x, p.new.y)) >>= fun moved =>
        match moved with
        | none => .ok none
        | some box => do
          match ← shiftDriver? p rest with
          | none => .ok none
          | some boxes => .ok (some (box :: boxes))) := by
  rw [shiftDriver?, shiftDriver, ← Checked.ite_bind]
  generalize (if n = 0 then Except.ok (some (EdgeBox.point p.new.x p.new.y))
    else box.shift? (p.old.x, p.old.y) (p.new.x, p.new.y) : Checked (Option EdgeBox)) = head
  rcases head with fault | (_ | box')
  · rfl
  · rfl
  · rw [shiftDriver?]
    rcases shiftDriver p rest with fault | ⟨boxes, _ | _⟩ <;> rfl

/-! ## Geometries -/

/-- **What can be told of a moved pin** is what was done in place, if that could follow. -/
theorem shift?_eq_map (form : BoxForm) (g : Geometry) (p : PinShift) :
    g.shift? form p = (g.shift form p).map fun r => if r.2 then some r.1 else none := by
  unfold shift
  by_cases hdriver : form = .perLayer ∧ p.drives = true
  · rw [if_pos hdriver, hdriver.1, shift?, shiftPerLayer?, if_pos hdriver.2, shiftDriver?]
    rcases shiftDriver p (g.boxes.zip g.sinks) with fault | ⟨boxes, _ | _⟩ <;> rfl
  · rw [if_neg hdriver]
    rcases g.shift? form p with fault | (_ | g') <;> rfl

/-- A pin has been followed in place. -/
theorem shift_eq_true : g.shift form p = .ok (g', true) ↔ g.shift? form p = .ok (some g') := by
  rw [shift?_eq_map]
  rcases g.shift form p with fault | ⟨r, _ | _⟩ <;> simp [Except.map]

/-- A pin could not be followed, whatever that leaves behind. -/
theorem exists_shift_eq_false :
    (∃ g', g.shift form p = .ok (g', false)) ↔ g.shift? form p = .ok none := by
  rw [shift?_eq_map]
  rcases g.shift form p with fault | ⟨r, _ | _⟩ <;> simp [Except.map]

end WireCost.Geometry
