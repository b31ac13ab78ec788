import Mathlib.Data.List.Basic

/-!
# A versioned object

A server keeps one object that is created, changed and removed. Every change
gets a version of its own, larger than all before it, and the versions that
once existed are remembered. A version therefore determines the object, which is
what a conditional write relies on: whoever has seen a version knows what is
there while it is the current one.
-/

namespace Versioned

variable {α : Type}

/-- The object with its version, and everything it has been. -/
structure Store (α : Type) where
  current : Option (ℕ × α)
  history : List (ℕ × α)
  revision : ℕ
  current_mem : ∀ entry, current = some entry → entry ∈ history
  bounded : ∀ entry ∈ history, entry.1 ≤ revision
  unique : ∀ entry ∈ history, ∀ entry' ∈ history, entry.1 = entry'.1 → entry = entry'

namespace Store

/-- Nothing was ever written. -/
def empty : Store α where
  current := none
  history := []
  revision := 0
  current_mem := by simp
  bounded := by simp
  unique := by simp

/-- Write the object, whether it is there or not. -/
def put (s : Store α) (a : α) : Store α where
  current := some (s.revision + 1, a)
  history := (s.revision + 1, a) :: s.history
  revision := s.revision + 1
  current_mem := by
    intro entry h
    rw [← Option.some.inj h]
    exact List.mem_cons_self
  bounded := by
    intro entry h
    rcases List.mem_cons.mp h with rfl | h
    · exact Nat.le_refl _
    · exact Nat.le_succ_of_le (s.bounded entry h)
  unique := by
    intro entry h entry' h' he
    rcases List.mem_cons.mp h with rfl | h <;> rcases List.mem_cons.mp h' with rfl | h'
    · rfl
    · have hle := s.bounded entry' h'
      dsimp only at he
      omega
    · have hle := s.bounded entry h
      dsimp only at he
      omega
    · exact s.unique entry h entry' h' he

/-- Remove the object. -/
def remove (s : Store α) : Store α where
  current := none
  history := s.history
  revision := s.revision
  current_mem := by simp
  bounded := s.bounded
  unique := s.unique

/-- A version that once existed is not forgotten. -/
theorem history_subset_put (s : Store α) (a : α) : s.history ⊆ (s.put a).history :=
  List.subset_cons_self _ _

theorem mem_history_put {s : Store α} {a : α} {entry : ℕ × α} :
    entry ∈ (s.put a).history ↔ entry = (s.revision + 1, a) ∨ entry ∈ s.history :=
  List.mem_cons

/-- While a version is the current one, the object is what it was when the
version was seen. -/
theorem eq_of_version {s : Store α} {version : ℕ} {a b : α}
    (hcurrent : s.current = some (version, a)) (hseen : (version, b) ∈ s.history) : a = b :=
  congrArg Prod.snd (s.unique _ (s.current_mem _ hcurrent) _ hseen rfl)

end Store

end Versioned
