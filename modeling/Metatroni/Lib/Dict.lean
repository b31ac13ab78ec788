import Mathlib.Data.List.AList

/-!
# Dictionaries that keep the order of insertion

An association list with distinct keys. Assigning to a key that is there
replaces its value in place, assigning to a new one appends, and the iteration
order is the order of the list.
-/

/-- A dictionary from `κ` to `ν`. -/
abbrev Dict (κ ν : Type) := AList fun _ : κ => ν

namespace Dict

variable {κ ν : Type} [DecidableEq κ]

/-- Replace the value of a key in its place, or append the pair. -/
def assign (k : κ) (v : ν) : List (Sigma fun _ : κ => ν) → List (Sigma fun _ : κ => ν)
  | [] => [⟨k, v⟩]
  | e :: es => if e.1 = k then ⟨k, v⟩ :: es else e :: assign k v es

theorem keys_assign (k : κ) (v : ν) (es : List (Sigma fun _ : κ => ν)) :
    (assign k v es).keys = if k ∈ es.keys then es.keys else es.keys ++ [k] := by
  induction es with
  | nil => rfl
  | cons e es ih =>
      by_cases h : e.1 = k
      · simp [assign, h]
      · have h' : ¬k = e.1 := fun he => h he.symm
        simp only [assign, if_neg h, List.keys_cons, ih, List.mem_cons, h', false_or]
        split <;> simp

theorem dlookup_assign (k k' : κ) (v : ν) (es : List (Sigma fun _ : κ => ν)) :
    (assign k v es).dlookup k' = if k' = k then some v else es.dlookup k' := by
  induction es with
  | nil =>
      by_cases h : k' = k
      · subst h
        simp [assign]
      · rw [assign, List.dlookup_cons_ne _ _ h, if_neg h]
  | cons e es ih =>
      obtain ⟨k₀, v₀⟩ := e
      by_cases h₀ : k₀ = k
      · subst h₀
        rw [assign, if_pos rfl]
        by_cases h : k' = k₀
        · subst h
          simp
        · rw [List.dlookup_cons_ne _ _ h, List.dlookup_cons_ne _ _ h, if_neg h]
      · rw [assign, if_neg h₀]
        by_cases h : k' = k₀
        · subst h
          rw [List.dlookup_cons_eq, List.dlookup_cons_eq, if_neg h₀]
        · rw [List.dlookup_cons_ne _ _ h, List.dlookup_cons_ne _ _ h, ih]

/-- `d[k] = v`. -/
def set (d : Dict κ ν) (k : κ) (v : ν) : Dict κ ν where
  entries := assign k v d.entries
  nodupKeys := by
    change (assign k v d.entries).keys.Nodup
    rw [keys_assign]
    split
    · exact d.nodupKeys
    · next h =>
        refine List.nodup_append.mpr ⟨d.nodupKeys, List.nodup_singleton k, ?_⟩
        intro a ha b hb hab
        rw [List.mem_singleton] at hb
        exact h (hb ▸ hab ▸ ha)

theorem lookup_set (d : Dict κ ν) (k k' : κ) (v : ν) :
    (d.set k v).lookup k' = if k' = k then some v else d.lookup k' :=
  dlookup_assign k k' v d.entries

@[simp] theorem lookup_set_self (d : Dict κ ν) (k : κ) (v : ν) :
    (d.set k v).lookup k = some v := by
  rw [lookup_set, if_pos rfl]

theorem lookup_set_ne (d : Dict κ ν) {k k' : κ} (h : k' ≠ k) (v : ν) :
    (d.set k v).lookup k' = d.lookup k' := by
  rw [lookup_set, if_neg h]

@[simp] theorem mem_set (d : Dict κ ν) (k k' : κ) (v : ν) :
    k' ∈ d.set k v ↔ k' = k ∨ k' ∈ d := by
  rw [← AList.lookup_isSome, ← AList.lookup_isSome, lookup_set]
  split <;> simp_all

/-- A key that is only added where it is new. -/
theorem mem_ite_set {p : Prop} [Decidable p] (d : Dict κ ν) (k k' : κ) (v : ν) :
    k' ∈ (if k ∉ d ∧ p then d.set k v else d) ↔ k' ∈ d ∨ k = k' ∧ p := by
  split
  · next h =>
      rw [mem_set]
      constructor
      · rintro (rfl | hmem)
        · exact .inr ⟨rfl, h.2⟩
        · exact .inl hmem
      · rintro (hmem | ⟨rfl, -⟩)
        · exact .inr hmem
        · exact .inl rfl
  · next h =>
      refine ⟨.inl, ?_⟩
      rintro (hmem | ⟨rfl, hp⟩)
      · exact hmem
      · exact not_not.mp fun hnew => h ⟨hnew, hp⟩

theorem mem_foldl_set {α : Type} (f : α → κ) (g : α → ν) (as : List α) (d : Dict κ ν) (k : κ) :
    k ∈ as.foldl (fun (d : Dict κ ν) a => d.set (f a) (g a)) d ↔ k ∈ as.map f ∨ k ∈ d := by
  induction as generalizing d with
  | nil => simp
  | cons a as ih =>
      rw [List.foldl_cons, ih, mem_set, List.map_cons, List.mem_cons]
      tauto

theorem set_ne_empty (d : Dict κ ν) (k : κ) (v : ν) : d.set k v ≠ ∅ := by
  intro h
  have hmem : k ∈ d.set k v := (mem_set d k k v).mpr (.inl rfl)
  rw [h] at hmem
  exact AList.notMem_empty k hmem

theorem assign_of_notMem {k : κ} {es : List (Sigma fun _ : κ => ν)} (h : k ∉ es.keys) (v : ν) :
    assign k v es = es ++ [⟨k, v⟩] := by
  induction es with
  | nil => rfl
  | cons e es ih =>
      rw [List.keys_cons, List.mem_cons, not_or] at h
      rw [assign, if_neg (Ne.symm h.1), ih h.2]
      rfl

/-- Distinct new keys are appended. -/
theorem entries_foldl_set {α : Type} (f : α → κ) (g : α → ν) (as : List α) (d : Dict κ ν)
    (h : (d.keys ++ as.map f).Nodup) :
    (as.foldl (fun (d : Dict κ ν) a => d.set (f a) (g a)) d).entries =
      d.entries ++ as.map fun a => ⟨f a, g a⟩ := by
  induction as generalizing d with
  | nil => exact (List.append_nil _).symm
  | cons a as ih =>
      have hnew : f a ∉ d.entries.keys := fun hmem =>
        List.disjoint_of_nodup_append h hmem List.mem_cons_self
      have hset : (d.set (f a) (g a)).entries = d.entries ++ [⟨f a, g a⟩] :=
        assign_of_notMem hnew (g a)
      have hkeys : (d.set (f a) (g a)).keys = d.keys ++ [f a] := by
        rw [AList.keys, hset, List.keys, List.map_append]
        rfl
      rw [List.foldl_cons, ih _ (by simpa [hkeys] using h), hset]
      simp

/-- A dictionary that is built from some keys, each with a value that depends on it alone. -/
theorem lookup_foldl_filterMap (f : κ → Option ν) (ks : List κ) (d : Dict κ ν) (k : κ) :
    ((ks.filterMap fun k => (f k).map fun v => (k, v)).foldl
        (fun (d : Dict κ ν) p => d.set p.1 p.2) d).lookup k =
      if k ∈ ks then (f k).or (d.lookup k) else d.lookup k := by
  induction ks generalizing d with
  | nil => rfl
  | cons a ks ih =>
      cases ha : f a with
      | none =>
          rw [List.filterMap_cons_none (by rw [ha]; rfl), ih]
          by_cases hk : k = a
          · subst hk
            simp [ha]
          · simp [hk]
      | some v =>
          rw [List.filterMap_cons_some (by rw [ha]; rfl), List.foldl_cons, ih, lookup_set]
          by_cases hk : k = a
          · subst hk
            simp [ha]
          · simp [hk]

/-- `d.update(d')` -/
def update (d d' : Dict κ ν) : Dict κ ν := d'.entries.foldl (fun d e => d.set e.1 e.2) d

theorem lookup_update (d d' : Dict κ ν) (k : κ) :
    (d.update d').lookup k = (d'.lookup k).or (d.lookup k) := by
  have hfold : ∀ (es : List (Sigma fun _ : κ => ν)) (d : Dict κ ν), es.NodupKeys →
      (es.foldl (fun (d : Dict κ ν) e => d.set e.1 e.2) d).lookup k =
        (es.dlookup k).or (d.lookup k) := by
    intro es
    induction es with
    | nil => exact fun d _ => rfl
    | cons e es ih =>
        intro d hes
        obtain ⟨hnew, hes⟩ := List.nodupKeys_cons.mp hes
        rw [List.foldl_cons, ih _ hes, lookup_set]
        by_cases hk : k = e.1
        · subst hk
          rw [if_pos rfl, List.dlookup_cons_eq, List.dlookup_eq_none.mpr hnew]
          rfl
        · rw [if_neg hk, List.dlookup_cons_ne _ _ hk]
  exact hfold d'.entries d d'.nodupKeys

theorem lookup_erase_eq (d : Dict κ ν) (k k' : κ) :
    (d.erase k).lookup k' = if k' = k then none else d.lookup k' := by
  by_cases h : k' = k
  · subst h
    rw [AList.lookup_erase, if_pos rfl]
  · rw [AList.lookup_erase_ne h, if_neg h]

/-- `{k: f(k, v) for k, v in d.items()}` -/
def mapValues {μ : Type} (f : κ → ν → μ) (d : Dict κ ν) : Dict κ μ where
  entries := d.entries.map fun e => ⟨e.1, f e.1 e.2⟩
  nodupKeys := by
    have hkeys : (d.entries.map fun e => (⟨e.1, f e.1 e.2⟩ : Sigma fun _ : κ => μ)).keys =
        d.entries.keys := by simp [List.keys]
    rw [List.NodupKeys, hkeys]
    exact d.nodupKeys

theorem lookup_mapValues {μ : Type} (f : κ → ν → μ) (d : Dict κ ν) (k : κ) :
    (d.mapValues f).lookup k = (d.lookup k).map (f k) := by
  ext v
  rw [← Option.mem_def, AList.mem_lookup_iff, Option.map_eq_some_iff]
  constructor
  · intro h
    obtain ⟨e, he, heq⟩ := List.mem_map.mp h
    obtain ⟨rfl, hv⟩ := Sigma.mk.inj heq
    exact ⟨e.2, AList.mem_lookup_iff.mpr he, eq_of_heq hv⟩
  · rintro ⟨w, hw, rfl⟩
    exact List.mem_map.mpr ⟨⟨k, w⟩, AList.mem_lookup_iff.mp hw, rfl⟩

/-- `{k: v for k, v in d.items() if p(k, v)}` -/
def filter (p : κ → ν → Bool) (d : Dict κ ν) : Dict κ ν where
  entries := d.entries.filter fun e => p e.1 e.2
  nodupKeys := d.nodupKeys.sublist List.filter_sublist

theorem lookup_filter (p : κ → ν → Bool) (d : Dict κ ν) (k : κ) :
    (d.filter p).lookup k = (d.lookup k).filter (p k) := by
  ext v
  rw [← Option.mem_def, AList.mem_lookup_iff, Option.filter_eq_some_iff, ← Option.mem_def,
    AList.mem_lookup_iff]
  exact List.mem_filter

/-- A filter that depends on the keys alone. -/
theorem mem_filter_iff (p : κ → Bool) (d : Dict κ ν) (k : κ) :
    k ∈ d.filter (fun k _ => p k) ↔ k ∈ d ∧ p k = true := by
  rw [← AList.lookup_isSome, ← AList.lookup_isSome, lookup_filter]
  cases d.lookup k with
  | none => simp
  | some v => cases p k <;> simp

/-- A dictionary without keys is the empty one. -/
theorem eq_empty_iff (d : Dict κ ν) : d = ∅ ↔ ∀ k, d.lookup k = none := by
  constructor
  · rintro rfl k
    exact AList.lookup_empty k
  · intro h
    refine AList.ext ?_
    cases he : d.entries with
    | nil => rfl
    | cons e es =>
        have hk : e.1 ∈ d := by
          rw [AList.mem_keys, AList.keys, he]
          exact List.mem_cons_self
        exact absurd hk (AList.lookup_eq_none.mp (h e.1))

/-- The truth value of a dictionary is that it has a pair. -/
def isEmpty (d : Dict κ ν) : Bool := d.entries.isEmpty

omit [DecidableEq κ] in
@[simp] theorem isEmpty_iff (d : Dict κ ν) : d.isEmpty = true ↔ d = ∅ := by
  rw [isEmpty, List.isEmpty_iff]
  exact ⟨fun h => AList.ext h, fun h => h ▸ rfl⟩

end Dict
