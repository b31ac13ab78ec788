import Mathlib.Data.List.Basic
import Mathlib.Order.Lattice

/-!
# Recursions with a bound on their depth

A recursion that may not end is a function with a bound, which is `none` where the
bound is too small. A larger bound never changes a result. The recursion ends on an
argument if there is a bound that is large enough for it.
-/

namespace Fuel

variable {α β : Type}

/-- A larger bound keeps every result. -/
def Mono (f : ℕ → α → Option β) : Prop := ∀ n a b, f n a = some b → f (n + 1) a = some b

/-- The recursion ends with a result. -/
def Returns (f : ℕ → α → Option β) (a : α) (b : β) : Prop := ∃ n, f n a = some b

/-- The recursion ends. -/
def Terminates (f : ℕ → α → Option β) (a : α) : Prop := ∃ b, Returns f a b

variable {f : ℕ → α → Option β} {a : α} {as : List α} {b : β} {n m : ℕ}

theorem Mono.le (h : Mono f) (hle : n ≤ m) (hb : f n a = some b) : f m a = some b := by
  induction m, hle using Nat.le_induction with
  | base => exact hb
  | succ m _ ih => exact h m a b ih

theorem terminates_iff : Terminates f a ↔ ∃ n, (f n a).isSome := by
  simp only [Terminates, Returns, Option.isSome_iff_exists]
  exact exists_comm

/-- Results of two recursions are there with one bound. -/
theorem Returns.common {α' β' : Type} {f' : ℕ → α' → Option β'} (h : Mono f) (h' : Mono f')
    {a' : α'} {b' : β'} (hb : Returns f a b) (hb' : Returns f' a' b') :
    ∃ n, f n a = some b ∧ f' n a' = some b' := by
  obtain ⟨n, hn⟩ := hb
  obtain ⟨m, hm⟩ := hb'
  exact ⟨max n m, h.le (le_max_left n m) hn, h'.le (le_max_right n m) hm⟩

/-! ## Lists -/

theorem mono_mapM (h : Mono f) : Mono fun n (as : List α) => as.mapM (f n) := by
  intro n as
  induction as with
  | nil => exact fun bs hbs => hbs
  | cons a as ih =>
      intro bs hbs
      simp only [List.mapM_cons, Option.bind_eq_bind, Option.bind_eq_some_iff] at hbs ⊢
      obtain ⟨b, hb, bs', hbs', heq⟩ := hbs
      exact ⟨b, h n a b hb, bs', ih bs' hbs', heq⟩

/-- A recursion on every element of a list ends if it ends on each of them. -/
theorem terminates_mapM_iff (h : Mono f) (as : List α) :
    Terminates (fun n (as : List α) => as.mapM (f n)) as ↔ ∀ a ∈ as, Terminates f a := by
  induction as with
  | nil => exact iff_of_true ⟨[], 0, rfl⟩ fun _ ha => absurd ha List.not_mem_nil
  | cons a as ih =>
      rw [List.forall_mem_cons, ← ih]
      constructor
      · rintro ⟨bs, n, hbs⟩
        simp only [List.mapM_cons, Option.bind_eq_bind, Option.bind_eq_some_iff] at hbs
        obtain ⟨b, hb, bs', hbs', -⟩ := hbs
        exact ⟨⟨b, n, hb⟩, bs', n, hbs'⟩
      · rintro ⟨⟨b, hb⟩, bs, hbs⟩
        obtain ⟨n, hb, hbs⟩ := hb.common h (mono_mapM h) hbs
        refine ⟨b :: bs, n, ?_⟩
        simp only [List.mapM_cons, hb, hbs]
        rfl

/-! ## Searching below an element -/

section Search

variable (direct asks : α → Bool) (children : α → List α)

/-- Whether an element has a property, or one of its children, and so on, where it asks its
children. The first child that has it ends the search. -/
def search : ℕ → α → Option Bool
  | 0, _ => none
  | n + 1, a =>
      if direct a then some true
      else if asks a then (children a).anyM (search n)
      else some false

/-- The property is found at an element or below it. -/
inductive Found : α → Prop
  | here {a : α} (h : direct a = true) : Found a
  | child {a c : α} (hasks : asks a = true) (hc : c ∈ children a) (h : Found c) : Found a

/-- One element asks another one. -/
def Asked (c a : α) : Prop := direct a = false ∧ asks a = true ∧ c ∈ children a

variable {direct asks children} {result : Bool}

theorem anyM_cons_eq_some_iff {g : α → Option Bool} :
    (a :: as).anyM g = some result ↔
      g a = some true ∧ result = true ∨ g a = some false ∧ as.anyM g = some result := by
  rw [List.anyM_cons, Option.bind_eq_bind]
  cases h : g a with
  | none => simp
  | some found => cases found <;> simp [eq_comm]

theorem anyM_mono {g g' : α → Option Bool} (h : ∀ a found, g a = some found → g' a = some found)
    (hany : as.anyM g = some result) : as.anyM g' = some result := by
  induction as with
  | nil => exact hany
  | cons a as ih =>
      rw [anyM_cons_eq_some_iff] at hany ⊢
      rcases hany with ⟨ha, hresult⟩ | ⟨ha, hrest⟩
      · exact .inl ⟨h a true ha, hresult⟩
      · exact .inr ⟨h a false ha, ih hrest⟩

theorem mono_search : Mono (search direct asks children) := by
  intro n
  induction n with
  | zero => exact fun a found h => by cases h
  | succ n ih =>
      intro a found h
      rw [search] at h ⊢
      by_cases hdirect : direct a = true
      · rwa [if_pos hdirect] at h ⊢
      · rw [if_neg hdirect] at h ⊢
        by_cases hasks : asks a = true
        · rw [if_pos hasks] at h ⊢
          exact anyM_mono ih h
        · rwa [if_neg hasks] at h ⊢

/-- The result of the search says whether the property is found. -/
theorem found_iff_of_search (h : search direct asks children n a = some result) :
    Found direct asks children a ↔ result = true := by
  induction n generalizing a result with
  | zero => cases h
  | succ n ih =>
      have hany : ∀ (cs : List α) (result : Bool),
          cs.anyM (search direct asks children n) = some result →
            ((∃ c ∈ cs, Found direct asks children c) ↔ result = true) := by
        intro cs
        induction cs with
        | nil =>
            intro result h
            obtain rfl := Option.some.inj h
            simp
        | cons c cs ihcs =>
            intro result h
            rw [List.exists_mem_cons_iff]
            rcases anyM_cons_eq_some_iff.mp h with ⟨hc, rfl⟩ | ⟨hc, hcs⟩
            · exact iff_of_true (.inl ((ih hc).mpr rfl)) rfl
            · rw [or_iff_right fun hfound => Bool.false_ne_true ((ih hc).mp hfound)]
              exact ihcs result hcs
      rw [search] at h
      by_cases hdirect : direct a = true
      · rw [if_pos hdirect] at h
        exact iff_of_true (.here hdirect) (Option.some.inj h).symm
      · rw [if_neg hdirect] at h
        by_cases hasks : asks a = true
        · rw [if_pos hasks] at h
          rw [← hany _ _ h]
          constructor
          · rintro (hhere | ⟨-, hc, hfound⟩)
            · exact absurd hhere hdirect
            · exact ⟨_, hc, hfound⟩
          · rintro ⟨c, hc, hfound⟩
            exact .child hasks hc hfound
        · rw [if_neg hasks] at h
          obtain rfl := Option.some.inj h
          refine iff_of_false ?_ Bool.false_ne_true
          rintro (hhere | ⟨hasks', -, -⟩)
          · exact hdirect hhere
          · exact hasks hasks'

/-- Asking some elements ends if asking each of them ends. -/
theorem exists_anyM (h : ∀ a ∈ as, Terminates (search direct asks children) a) :
    ∃ n result, as.anyM (search direct asks children n) = some result := by
  induction as with
  | nil => exact ⟨0, false, rfl⟩
  | cons a as ih =>
      obtain ⟨⟨found, n, hn⟩, has⟩ := List.forall_mem_cons.mp h
      obtain ⟨m, result, hm⟩ := ih has
      have ha := mono_search.le (le_max_left n m) hn
      have hrest := anyM_mono (fun a found => mono_search.le (le_max_right n m)) hm
      cases found with
      | true => exact ⟨max n m, true, anyM_cons_eq_some_iff.mpr (.inl ⟨ha, rfl⟩)⟩
      | false => exact ⟨max n m, result, anyM_cons_eq_some_iff.mpr (.inr ⟨ha, hrest⟩)⟩

theorem terminates_search_of_direct (h : direct a = true) :
    Terminates (search direct asks children) a :=
  ⟨true, 1, by rw [search, if_pos h]⟩

theorem terminates_search_of_not_asks (h : asks a = false) :
    Terminates (search direct asks children) a := by
  by_cases hdirect : direct a = true
  · exact terminates_search_of_direct hdirect
  · exact ⟨false, 1, by rw [search, if_neg hdirect, h]; rfl⟩

theorem terminates_search_of_anyM
    (h : ∃ n result, (children a).anyM (search direct asks children n) = some result) :
    Terminates (search direct asks children) a := by
  cases hasks : asks a with
  | false => exact terminates_search_of_not_asks hasks
  | true =>
      by_cases hdirect : direct a = true
      · exact terminates_search_of_direct hdirect
      · obtain ⟨n, result, hn⟩ := h
        exact ⟨result, n + 1, by rw [search, if_neg hdirect, if_pos hasks, hn]⟩

/-- The search ends where no chain of questions goes on for ever. -/
theorem terminates_search_of_acc (h : Acc (Asked direct asks children) a) :
    Terminates (search direct asks children) a := by
  induction h with
  | intro a _ ih =>
      cases hasks : asks a with
      | false => exact terminates_search_of_not_asks hasks
      | true =>
          by_cases hdirect : direct a = true
          · exact terminates_search_of_direct hdirect
          · exact terminates_search_of_anyM (exists_anyM fun c hc =>
              ih c ⟨Bool.eq_false_iff.mpr hdirect, hasks, hc⟩)

/-- An element that has no result hides the elements behind it. -/
theorem anyM_eq_none {g : α → Option Bool} {before after : List α}
    (hbefore : ∀ c ∈ before, g c ≠ some true) (ha : g a = none) :
    (before ++ a :: after).anyM g = none := by
  induction before with
  | nil =>
      rw [List.nil_append, List.anyM_cons, ha]
      rfl
  | cons c before ih =>
      obtain ⟨hc, hbefore⟩ := List.forall_mem_cons.mp hbefore
      rw [List.cons_append, List.anyM_cons]
      cases hgc : g c with
      | none => rfl
      | some found =>
          cases found with
          | true => exact absurd hgc hc
          | false => exact ih hbefore

theorem search_ne_some_true (h : ¬Found direct asks children a) (n : ℕ) :
    search direct asks children n a ≠ some true :=
  fun hn => h ((found_iff_of_search hn).mpr rfl)

/-- A child that the search never leaves, behind children without the property. -/
theorem not_terminates_search_of_child {c : α} {before after : List α} (hdirect : direct a = false)
    (hasks : asks a = true) (hchildren : children a = before ++ c :: after)
    (hbefore : ∀ b ∈ before, ¬Found direct asks children b)
    (hc : ¬Terminates (search direct asks children) c) :
    ¬Terminates (search direct asks children) a := by
  rintro ⟨result, n, hn⟩
  cases n with
  | zero => cases hn
  | succ n =>
      have hnone : search direct asks children n c = none := by
        by_contra hsome
        obtain ⟨found, hfound⟩ := Option.ne_none_iff_exists'.mp hsome
        exact hc ⟨found, n, hfound⟩
      rw [search, hdirect, if_neg Bool.false_ne_true, if_pos hasks, hchildren,
        anyM_eq_none (fun b hb => search_ne_some_true (hbefore b hb) n) hnone] at hn
      cases hn

/-- An element that is its own child, behind children without the property. -/
theorem not_terminates_search_of_own {before after : List α} (hdirect : direct a = false)
    (hasks : asks a = true) (hchildren : children a = before ++ a :: after)
    (hbefore : ∀ b ∈ before, ¬Found direct asks children b) :
    ¬Terminates (search direct asks children) a := by
  have hnone : ∀ n, search direct asks children n a = none := by
    intro n
    induction n with
    | zero => rfl
    | succ n ih =>
        rw [search, hdirect, if_neg Bool.false_ne_true, if_pos hasks, hchildren,
          anyM_eq_none (fun b hb => search_ne_some_true (hbefore b hb) n) ih]
  rintro ⟨result, n, hn⟩
  rw [hnone n] at hn
  cases hn

/-- The children from the first one with the property on are not asked. -/
theorem exists_anyM_of_found {before after : List α}
    (h : ∀ a ∈ before, Terminates (search direct asks children) a)
    (hfound : ∃ a ∈ before, Found direct asks children a) :
    ∃ n result, (before ++ after).anyM (search direct asks children n) = some result := by
  induction before with
  | nil =>
      obtain ⟨a, ha, -⟩ := hfound
      exact absurd ha List.not_mem_nil
  | cons a before ih =>
      obtain ⟨⟨found, n, hn⟩, hbefore⟩ := List.forall_mem_cons.mp h
      cases found with
      | true => exact ⟨n, true, anyM_cons_eq_some_iff.mpr (.inl ⟨hn, rfl⟩)⟩
      | false =>
          have ha : ¬Found direct asks children a := fun hfound =>
            Bool.false_ne_true ((found_iff_of_search hn).mp hfound)
          rw [List.exists_mem_cons_iff, or_iff_right ha] at hfound
          obtain ⟨m, result, hm⟩ := ih hbefore hfound
          exact ⟨max n m, result, anyM_cons_eq_some_iff.mpr (.inr
            ⟨mono_search.le (le_max_left n m) hn,
              anyM_mono (fun a found => mono_search.le (le_max_right n m)) hm⟩)⟩

end Search

end Fuel
