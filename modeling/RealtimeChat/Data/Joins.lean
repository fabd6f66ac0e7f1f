import Mathlib.Order.Lattice
import Mathlib.Order.MinMax

/-! Joining a list of values onto a first one.

What results depends on which values are in the list, not on their order and not
on how often each is there. -/
namespace Data
variable {α : Type} [SemilatticeSup α]

def joinAll (a : α) (l : List α) : α := l.foldl (· ⊔ ·) a

@[simp] theorem joinAll_nil (a : α) : joinAll a [] = a := rfl

@[simp] theorem joinAll_cons (a x : α) (l : List α) : joinAll a (x :: l) = joinAll (a ⊔ x) l := rfl

theorem joinAll_le_iff {a b : α} {l : List α} : joinAll a l ≤ b ↔ a ≤ b ∧ ∀ x ∈ l, x ≤ b := by
  induction l generalizing a with
  | nil => simp
  | cons x rest ih => rw [joinAll_cons, ih, sup_le_iff, List.forall_mem_cons, and_assoc]

theorem joinAll_sup (a b : α) (l : List α) : joinAll (a ⊔ b) l = a ⊔ joinAll b l := by
  apply eq_of_forall_ge_iff
  intro c
  rw [joinAll_le_iff, sup_le_iff, sup_le_iff, joinAll_le_iff, and_assoc]

theorem joinAll_congr {a : α} {l l' : List α} (h : ∀ x, x ∈ l ↔ x ∈ l') :
    joinAll a l = joinAll a l' := by
  apply eq_of_forall_ge_iff
  intro b
  rw [joinAll_le_iff, joinAll_le_iff]
  simp only [h]

end Data
