import Mathlib.Data.Set.Finite.Range
import Mathlib.Data.Set.Finite.List

/-!
# Chains of a partial function

Every element has at most one successor. A chain starts at an element and goes
on until there is no successor, or for ever. A search along a chain that
remembers the keys of what it has seen always ends where the keys are finitely
many.
-/

namespace Chain

variable {α β : Type} (next : α → Option α)

/-- The element of the chain after so many steps. -/
def node : ℕ → α → Option α
  | 0, a => some a
  | k + 1, a => (next a).bind (node k)

/-- The chain from an element meets one with a property. -/
def Meets (p : α → Prop) (a : α) : Prop := ∃ k x, node next k a = some x ∧ p x

/-- The chain from an element meets a key twice. -/
def Repeats (key : α → β) (a : α) : Prop :=
  ∃ i j x y, i < j ∧ node next i a = some x ∧ node next j a = some y ∧ key x = key y

/-- The chain from an element ends. -/
def EndsAt (a x : α) : Prop := Meets next (fun y => y = x ∧ next y = none) a

variable {next} {a b x : α} {p : α → Prop} {key : α → β}

theorem node_succ_of_none (h : next a = none) (k : ℕ) : node next (k + 1) a = none := by
  rw [node, h]
  rfl

theorem node_succ_of_some (h : next a = some b) (k : ℕ) :
    node next (k + 1) a = node next k b := by
  rw [node, h]
  rfl

theorem node_add (next : α → Option α) (j k : ℕ) (a : α) :
    node next (j + k) a = (node next j a).bind (node next k) := by
  induction j generalizing a with
  | zero => rw [Nat.zero_add]; rfl
  | succ j ih =>
      rw [Nat.succ_add]
      cases h : next a with
      | none => rw [node_succ_of_none h, node_succ_of_none h]; rfl
      | some b => rw [node_succ_of_some h, node_succ_of_some h, ih]

/-! ## One step -/

theorem meets_of_none (h : next a = none) : Meets next p a ↔ p a := by
  constructor
  · rintro ⟨k, x, hx, hp⟩
    cases k with
    | zero => exact Option.some.inj hx ▸ hp
    | succ k => rw [node_succ_of_none h] at hx; cases hx
  · exact fun hp => ⟨0, a, rfl, hp⟩

theorem meets_of_some (h : next a = some b) : Meets next p a ↔ p a ∨ Meets next p b := by
  constructor
  · rintro ⟨k, x, hx, hp⟩
    cases k with
    | zero => exact .inl (Option.some.inj hx ▸ hp)
    | succ k => exact .inr ⟨k, x, node_succ_of_some h k ▸ hx, hp⟩
  · rintro (hp | ⟨k, x, hx, hp⟩)
    · exact ⟨0, a, rfl, hp⟩
    · exact ⟨k + 1, x, (node_succ_of_some h k).trans hx, hp⟩

theorem not_repeats_of_none (h : next a = none) : ¬Repeats next key a := by
  rintro ⟨i, j, x, y, hlt, -, hy, -⟩
  cases j with
  | zero => exact Nat.not_lt_zero i hlt
  | succ j => rw [node_succ_of_none h] at hy; cases hy

theorem repeats_of_some (h : next a = some b) :
    Repeats next key a ↔ Meets next (fun y => key y = key a) b ∨ Repeats next key b := by
  constructor
  · rintro ⟨i, j, x, y, hlt, hx, hy, hkey⟩
    obtain ⟨j, rfl⟩ := Nat.exists_eq_succ_of_ne_zero (Nat.ne_zero_of_lt hlt)
    rw [node_succ_of_some h] at hy
    cases i with
    | zero =>
        obtain rfl := Option.some.inj hx
        exact .inl ⟨j, y, hy, hkey.symm⟩
    | succ i =>
        rw [node_succ_of_some h] at hx
        exact .inr ⟨i, j, x, y, Nat.lt_of_succ_lt_succ hlt, hx, hy, hkey⟩
  · rintro (⟨j, y, hy, hkey⟩ | ⟨i, j, x, y, hlt, hx, hy, hkey⟩)
    · exact ⟨0, j + 1, a, y, j.succ_pos, rfl, (node_succ_of_some h j).trans hy, hkey.symm⟩
    · exact ⟨i + 1, j + 1, x, y, Nat.succ_lt_succ hlt, (node_succ_of_some h i).trans hx,
        (node_succ_of_some h j).trans hy, hkey⟩

theorem endsAt_of_none (h : next a = none) : EndsAt next a x ↔ a = x := by
  rw [EndsAt, meets_of_none h, and_iff_left h]

theorem endsAt_of_some (h : next a = some b) : EndsAt next a x ↔ EndsAt next b x := by
  rw [EndsAt, meets_of_some h, h]
  simp [EndsAt]

/-! ## The whole chain -/

/-- What each step preserves holds of everything that the chain meets. -/
theorem forall_node {q : α → Prop} (hq : ∀ a b, q a → next a = some b → q b) (ha : q a) {k : ℕ}
    (hx : node next k a = some x) : q x := by
  induction k generalizing a with
  | zero => exact Option.some.inj hx ▸ ha
  | succ k ih =>
      cases h : next a with
      | none => rw [node_succ_of_none h] at hx; cases hx
      | some b =>
          rw [node_succ_of_some h] at hx
          exact ih (hq a b ha h) hx

/-- A chain has one end. -/
theorem EndsAt.unique {y : α} (hx : EndsAt next a x) (hy : EndsAt next a y) : x = y := by
  obtain ⟨k, _, hk, rfl, hnone⟩ := hx
  induction k generalizing a with
  | zero =>
      obtain rfl := Option.some.inj hk
      exact (endsAt_of_none hnone).mp hy
  | succ k ih =>
      cases h : next a with
      | none => rw [node_succ_of_none h] at hk; cases hk
      | some b =>
          rw [node_succ_of_some h] at hk
          exact ih ((endsAt_of_some h).mp hy) hk

/-- A chain that stops earlier than another one meets no more than it. -/
theorem node_of_le {next' : α → Option α} {q : α → Prop}
    (hle : ∀ a b, q a → next' a = some b → next a = some b ∧ q b) (ha : q a) {k : ℕ}
    (hx : node next' k a = some x) : node next k a = some x := by
  induction k generalizing a with
  | zero => exact hx
  | succ k ih =>
      cases h : next' a with
      | none => rw [node_succ_of_none h] at hx; cases hx
      | some b =>
          rw [node_succ_of_some h] at hx
          rw [node_succ_of_some (hle a b ha h).1]
          exact ih (hle a b ha h).2 hx

/-- A chain that stops where another one stops too is the same. -/
theorem node_eq_of_endsAt {next' : α → Option α} {q : α → Prop}
    (hle : ∀ a b, q a → next' a = some b → next a = some b ∧ q b) (ha : q a)
    (hends : EndsAt next' a x) (hnone : next x = none) (j : ℕ) :
    node next j a = node next' j a := by
  obtain ⟨k, _, hk, rfl, hnone'⟩ := hends
  induction k generalizing a j with
  | zero =>
      obtain rfl := Option.some.inj hk
      cases j with
      | zero => rfl
      | succ j => rw [node_succ_of_none hnone, node_succ_of_none hnone']
  | succ k ih =>
      cases h : next' a with
      | none => rw [node_succ_of_none h] at hk; cases hk
      | some b =>
          rw [node_succ_of_some h] at hk
          cases j with
          | zero => rfl
          | succ j =>
              rw [node_succ_of_some h, node_succ_of_some (hle a b ha h).1]
              exact ih (hle a b ha h).2 j hk

/-- Only a chain that repeats itself goes on for ever, where there are finitely many keys. -/
theorem exists_endsAt {keys : Set β} (hkeys : keys.Finite) {q : α → Prop} (ha : q a)
    (hnext : ∀ b c, q b → next b = some c → key c ∈ keys ∧ q c) (h : ¬Repeats next key a) :
    ∃ x, EndsAt next a x := by
  by_contra hends
  have hall : ∀ k, ∃ x, node next k a = some x := by
    intro k
    induction k generalizing a with
    | zero => exact ⟨a, rfl⟩
    | succ k ih =>
        cases hb : next a with
        | none => exact absurd ⟨a, (endsAt_of_none hb).mpr rfl⟩ hends
        | some b =>
            rw [node_succ_of_some hb]
            refine ih (hnext a b ha hb).2 (fun hrep => ?_) fun ⟨x, hx⟩ => ?_
            · exact h ((repeats_of_some hb).mpr (.inr hrep))
            · exact hends ⟨x, (endsAt_of_some hb).mpr hx⟩
  choose f hf using hall
  have hinj : Function.Injective fun k => key (f k) := by
    intro i j hij
    rcases lt_trichotomy i j with hlt | heq | hlt
    · exact absurd ⟨i, j, f i, f j, hlt, hf i, hf j, hij⟩ h
    · exact heq
    · exact absurd ⟨j, i, f j, f i, hlt, hf j, hf i, hij.symm⟩ h
  have hmem : ∀ k, key (f (k + 1)) ∈ keys := by
    intro k
    cases hb : next a with
    | none => exact absurd ⟨a, (endsAt_of_none hb).mpr rfl⟩ hends
    | some b =>
        have hk := hf (k + 1)
        rw [node_succ_of_some hb] at hk
        exact (forall_node (q := fun c => key c ∈ keys ∧ q c) (fun c d hc hd => hnext c d hc.2 hd)
          (hnext a b ha hb) hk).1
  have hinj' : Function.Injective fun k => key (f (k + 1)) := fun i j hij =>
    Nat.succ_injective (hinj hij)
  exact Set.infinite_range_of_injective hinj' (hkeys.subset (Set.range_subset_iff.mpr hmem))

/-- A chain that meets no key twice is not longer than the number of the keys. -/
theorem succ_le_card_of_not_repeats {keys : Finset β} (h : ¬Repeats next key a)
    (hkeys : ∀ i x, node next i a = some x → key x ∈ keys) {k : ℕ}
    (hk : (node next k a).isSome) : k + 1 ≤ keys.card := by
  have hall : ∀ i ≤ k, ∃ x, node next i a = some x := by
    intro i hi
    obtain ⟨j, rfl⟩ := Nat.exists_eq_add_of_le hi
    rw [node_add] at hk
    cases hx : node next i a with
    | none => rw [hx] at hk; cases hk
    | some x => exact ⟨x, rfl⟩
  choose f hf using hall
  have hcard := Fintype.card_le_of_injective
    (fun i : Fin (k + 1) => (⟨key (f i (Nat.le_of_lt_succ i.2)),
      hkeys i _ (hf i (Nat.le_of_lt_succ i.2))⟩ : keys)) ?_
  · simpa using hcard
  · intro i j hij
    have hkey : key (f i _) = key (f j _) := congrArg Subtype.val hij
    rcases lt_trichotomy i j with hlt | heq | hlt
    · exact absurd ⟨i, j, _, _, hlt, hf i _, hf j _, hkey⟩ h
    · exact heq
    · exact absurd ⟨j, i, _, _, hlt, hf j _, hf i _, hkey.symm⟩ h

/-- A chain that ends meets nothing twice. -/
theorem EndsAt.not_repeats (h : EndsAt next a x) : ¬Repeats next id a := by
  obtain ⟨k, _, hk, rfl, hnone⟩ := h
  induction k generalizing a with
  | zero =>
      obtain rfl := Option.some.inj hk
      exact not_repeats_of_none hnone
  | succ k ih =>
      cases hb : next a with
      | none => exact not_repeats_of_none hb
      | some b =>
          rw [node_succ_of_some hb] at hk
          rw [repeats_of_some hb]
          rintro (⟨j, y, hy, rfl⟩ | hrep)
          · refine ih hk ⟨0, j + 1, b, b, j.succ_pos, rfl, ?_, rfl⟩
            rw [node_add, hy]
            exact (node_succ_of_some hb 0).trans rfl
          · exact ih hk hrep

/-! ## The search -/

variable [DecidableEq β]

/-- Follow the chain, for at most so many elements. The search gives up where it is blocked and
where it meets a key that it has seen, and otherwise finds the end of the chain. -/
def search (next : α → Option α) (key : α → β) (blocked : α → Bool) :
    ℕ → List β → α → Option (Option α)
  | 0, _, _ => none
  | n + 1, seen, a =>
      if blocked a then some none
      else
        match next a with
        | none => some (some a)
        | some b =>
            if key b ∈ key a :: seen then some none
            else search next key blocked n (key a :: seen) b

/-- The search from an element has to give up, with some keys already seen. -/
def GivesUp (next : α → Option α) (key : α → β) (blocked : α → Bool) (seen : List β) (a : α) :
    Prop :=
  Meets next (fun x => blocked x = true) a ∨ Repeats next key a ∨
    Meets next (fun x => key x ∈ seen) a

omit [DecidableEq β] in
theorem givesUp_of_some {blocked : α → Bool} {seen : List β} (hblocked : blocked a = false)
    (hseen : key a ∉ seen) (h : next a = some b) :
    GivesUp next key blocked seen a ↔ GivesUp next key blocked (key a :: seen) b := by
  have hmeets : Meets next (fun x => key x ∈ key a :: seen) b ↔
      Meets next (fun y => key y = key a) b ∨ Meets next (fun x => key x ∈ seen) b := by
    simp only [Meets, List.mem_cons, and_or_left, exists_or]
  rw [GivesUp, GivesUp, meets_of_some h, repeats_of_some h, meets_of_some h, hmeets]
  simp only [hblocked, hseen, Bool.false_eq_true, false_or]
  tauto

theorem search_spec {blocked : α → Bool} {n : ℕ} {seen : List β} {result : Option α}
    (hseen : key a ∉ seen) (h : search next key blocked n seen a = some result) :
    (result = none ↔ GivesUp next key blocked seen a) ∧ ∀ x ∈ result, EndsAt next a x := by
  induction n generalizing seen a with
  | zero => cases h
  | succ n ih =>
      rw [search] at h
      cases hblocked : blocked a with
      | true =>
          obtain rfl : none = result := by simpa [hblocked] using h
          exact ⟨iff_of_true rfl (.inl ⟨0, a, rfl, hblocked⟩), nofun⟩
      | false =>
          simp only [hblocked, Bool.false_eq_true, if_false] at h
          cases hb : next a with
          | none =>
              obtain rfl : some a = result := by simpa [hb] using h
              refine ⟨iff_of_false nofun ?_,
                fun x hx => (endsAt_of_none hb).mpr (by simpa using hx)⟩
              rw [GivesUp, meets_of_none hb, meets_of_none hb]
              simp [hblocked, hseen, not_repeats_of_none hb]
          | some b =>
              simp only [hb] at h
              rw [givesUp_of_some hblocked hseen hb, forall₂_congr fun x _ => endsAt_of_some hb]
              by_cases hmem : key b ∈ key a :: seen
              · obtain rfl : none = result := by simpa [hmem] using h
                exact ⟨iff_of_true rfl (.inr (.inr ⟨0, b, rfl, hmem⟩)), nofun⟩
              · rw [if_neg hmem] at h
                exact ih hmem h

/-- A search that has seen nothing finds the end of the chain, unless the chain is blocked or
repeats itself. -/
theorem search_nil_spec {blocked : α → Bool} {n : ℕ} {result : Option α}
    (h : search next key blocked n [] a = some result) :
    (result = none ↔ Meets next (fun x => blocked x = true) a ∨ Repeats next key a) ∧
      ∀ x ∈ result, EndsAt next a x := by
  obtain ⟨hnone, hends⟩ := search_spec List.not_mem_nil h
  refine ⟨hnone.trans (or_congr_right (or_iff_left ?_)), hends⟩
  rintro ⟨_, _, _, hmem⟩
  exact List.not_mem_nil hmem

end Chain
