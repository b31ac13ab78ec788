import Metatroni.Lib.Text
import Mathlib.Data.List.Infix
import Mathlib.Data.List.Nodup

/-!
# Python values

The values that Python code reads from JSON or YAML: `None`, numbers, texts,
lists and dictionaries with texts as keys, nested in any way. A dictionary is the
list of its entries in the order of insertion.

## Implementation notes

Floating-point numbers and the characters that count as printable are left to a
class. A text is a list of Unicode scalar values, so it has no lone surrogates.
-/

/-! ## Association lists -/

namespace Assoc

variable {κ ν : Type} [DecidableEq κ]

/-- `d.get(k)` -/
def get (k : κ) : List (κ × ν) → Option ν
  | [] => none
  | (k', v) :: d => if k' = k then some v else get k d

/-- `d[k] = v`: in place, or as the last entry. -/
def set (k : κ) (v : ν) : List (κ × ν) → List (κ × ν)
  | [] => [(k, v)]
  | (k', v') :: d => if k' = k then (k', v) :: d else (k', v') :: set k v d

/-- The entries that remain after `d.pop(k, None)`. -/
def pop (k : κ) (d : List (κ × ν)) : List (κ × ν) := d.filter fun e => e.1 ≠ k

/-- The dictionary that is built from some pairs; a later pair replaces an earlier one. -/
def ofPairs (pairs : List (κ × ν)) : List (κ × ν) := pairs.foldl (fun d e => set e.1 e.2 d) []

def keys (d : List (κ × ν)) : List κ := d.map Prod.fst

@[simp] theorem get_nil (k : κ) : get k ([] : List (κ × ν)) = none := rfl

theorem get_cons (k : κ) (e : κ × ν) (d : List (κ × ν)) :
    get k (e :: d) = if e.1 = k then some e.2 else get k d := rfl

theorem get_set (k k' : κ) (v : ν) (d : List (κ × ν)) :
    get k' (set k v d) = if k' = k then some v else get k' d := by
  induction d with
  | nil => simp [set, get, eq_comm]
  | cons e d ih =>
      obtain ⟨key, value⟩ := e
      by_cases hkey : key = k
      · subst hkey
        rw [set, if_pos rfl, get_cons, get_cons]
        by_cases hk' : key = k'
        · simp [hk']
        · simp [hk', Ne.symm hk']
      · rw [set, if_neg hkey, get_cons, get_cons, ih]
        by_cases hk' : key = k'
        · subst hk'
          simp [hkey]
        · simp [hk']

@[simp] theorem get_set_self (k : κ) (v : ν) (d : List (κ × ν)) : get k (set k v d) = some v := by
  rw [get_set, if_pos rfl]

theorem get_set_ne {k k' : κ} (h : k' ≠ k) (v : ν) (d : List (κ × ν)) :
    get k' (set k v d) = get k' d := by
  rw [get_set, if_neg h]

theorem get_pop (k k' : κ) (d : List (κ × ν)) :
    get k' (pop k d) = if k' = k then none else get k' d := by
  induction d with
  | nil => simp [pop]
  | cons e d ih =>
      by_cases hkey : e.1 = k
      · have hpop : pop k (e :: d) = pop k d := List.filter_cons_of_neg (by simpa using hkey)
        rw [hpop, ih, get_cons, hkey]
        by_cases hk' : k' = k
        · rw [if_pos hk', if_pos hk']
        · rw [if_neg hk', if_neg hk', if_neg (Ne.symm hk')]
      · have hpop : pop k (e :: d) = e :: pop k d := List.filter_cons_of_pos (by simpa using hkey)
        rw [hpop, get_cons, get_cons, ih]
        by_cases hk' : e.1 = k'
        · rw [if_pos hk', if_pos hk', if_neg (hk' ▸ hkey)]
        · rw [if_neg hk', if_neg hk']

theorem get_eq_none_iff {k : κ} {d : List (κ × ν)} : get k d = none ↔ k ∉ keys d := by
  induction d with
  | nil => simp [keys]
  | cons e d ih =>
      rw [get_cons, keys, List.map_cons, List.mem_cons, not_or]
      by_cases hkey : e.1 = k
      · simp [hkey]
      · rw [if_neg hkey, ih, and_iff_right (Ne.symm hkey), keys]

theorem isSome_get_iff {k : κ} {d : List (κ × ν)} : (get k d).isSome = true ↔ k ∈ keys d := by
  rw [← not_iff_not, ← get_eq_none_iff, Bool.not_eq_true, Option.isSome_eq_false_iff,
    Option.isNone_iff_eq_none]

theorem mem_of_get {k : κ} {v : ν} {d : List (κ × ν)} (h : get k d = some v) : (k, v) ∈ d := by
  induction d with
  | nil => cases h
  | cons e d ih =>
      rw [get_cons] at h
      split at h
      · next hkey => exact List.mem_cons.mpr (.inl (Prod.ext hkey.symm (Option.some.inj h).symm))
      · exact List.mem_cons_of_mem _ (ih h)

/-- With distinct keys an entry is found under its key. -/
theorem get_of_mem {k : κ} {v : ν} {d : List (κ × ν)} (hnodup : (keys d).Nodup) (h : (k, v) ∈ d) :
    get k d = some v := by
  induction d with
  | nil => cases h
  | cons e d ih =>
      obtain ⟨hfresh, hnodup⟩ := List.nodup_cons.mp hnodup
      rw [get_cons]
      rcases List.mem_cons.mp h with rfl | hmem
      · exact if_pos rfl
      · rw [if_neg, ih hnodup hmem]
        rintro rfl
        exact hfresh (List.mem_map.mpr ⟨_, hmem, rfl⟩)

/-- An entry of a dictionary in which a key has been set is the new one, or it was there. -/
theorem eq_or_mem_of_mem_set {k : κ} {v : ν} {e : κ × ν} {d : List (κ × ν)} (h : e ∈ set k v d) :
    e.2 = v ∨ e ∈ d := by
  induction d with
  | nil => exact .inl (congrArg Prod.snd (List.mem_singleton.mp h))
  | cons e' d ih =>
      rw [set] at h
      split at h
      · rcases List.mem_cons.mp h with rfl | hmem
        · exact .inl rfl
        · exact .inr (List.mem_cons_of_mem _ hmem)
      · rcases List.mem_cons.mp h with rfl | hmem
        · exact .inr List.mem_cons_self
        · exact (ih hmem).imp_right (List.mem_cons_of_mem _)

theorem set_of_get_eq_none {k : κ} {v : ν} {d : List (κ × ν)} (h : get k d = none) :
    set k v d = d ++ [(k, v)] := by
  induction d with
  | nil => rfl
  | cons e d ih =>
      rw [get_cons] at h
      split at h
      · cases h
      · next hkey => rw [set, if_neg hkey, ih h, List.cons_append]

/-- Setting a key keeps the keys distinct. -/
theorem nodup_keys_set {d : List (κ × ν)} (h : (keys d).Nodup) (k : κ) (v : ν) :
    (keys (set k v d)).Nodup := by
  induction d with
  | nil => exact List.nodup_singleton k
  | cons e d ih =>
      obtain ⟨hfresh, hnodup⟩ := List.nodup_cons.mp h
      by_cases hkey : e.1 = k
      · rw [set, if_pos hkey]
        exact h
      · rw [set, if_neg hkey]
        refine List.nodup_cons.mpr ⟨?_, ih hnodup⟩
        change e.1 ∉ keys (set k v d)
        rw [← get_eq_none_iff, get_set_ne hkey, get_eq_none_iff]
        exact hfresh

theorem ofPairs_of_nodup {pairs : List (κ × ν)} (h : (keys pairs).Nodup) :
    ofPairs pairs = pairs := by
  have hfold : ∀ (pairs d : List (κ × ν)), (keys (d ++ pairs)).Nodup →
      pairs.foldl (fun d e => set e.1 e.2 d) d = d ++ pairs := by
    intro pairs
    induction pairs with
    | nil => simp
    | cons e pairs ih =>
        intro d hnodup
        have hfresh : get e.1 d = none := by
          rw [get_eq_none_iff]
          intro hmem
          rw [keys, List.map_append, List.map_cons] at hnodup
          exact (List.disjoint_of_nodup_append hnodup) hmem List.mem_cons_self
        rw [List.foldl_cons, set_of_get_eq_none hfresh, ih _ (by simpa using hnodup)]
        simp
  exact hfold pairs [] h

/-! ### Changes to several keys -/

/-- Set a key, or remove it. -/
def write (k : κ) : Option ν → List (κ × ν) → List (κ × ν)
  | some v, d => set k v d
  | none, d => pop k d

/-- Change the keys of some entries one after another, each by the entry's value. -/
def applyAll (f : Option ν → ν → Option ν) : List (κ × ν) → List (κ × ν) → List (κ × ν)
  | d, [] => d
  | d, (k, v) :: changes => applyAll f (write k (f (get k d) v) d) changes

theorem get_write (k k' : κ) (o : Option ν) (d : List (κ × ν)) :
    get k' (write k o d) = if k' = k then o else get k' d := by
  cases o with
  | none => exact get_pop k k' d
  | some v => exact get_set k k' v d

theorem write_get_self (k : κ) (d : List (κ × ν)) : write k (get k d) d = d := by
  induction d with
  | nil => rfl
  | cons e d ih =>
      rw [get_cons]
      by_cases hkey : e.1 = k
      · rw [if_pos hkey]
        exact if_pos hkey
      · rw [if_neg hkey]
        cases hget : get k d with
        | none =>
            rw [hget] at ih
            exact (List.filter_cons_of_pos (by simpa using hkey)).trans (congrArg (e :: ·) ih)
        | some v =>
            rw [hget] at ih
            exact (if_neg hkey).trans (congrArg (e :: ·) ih)

/-- Setting a key changes nothing only if it has the value already. -/
theorem set_eq_self_iff {k : κ} {v : ν} {d : List (κ × ν)} : set k v d = d ↔ get k d = some v := by
  constructor
  · intro h
    rw [← h, get_set_self]
  · intro h
    have hwrite := write_get_self k d
    rwa [h] at hwrite

variable {f g : Option ν → ν → Option ν} {d changes : List (κ × ν)}

/-- With distinct keys each key is changed on its own. -/
theorem get_applyAll (hnodup : (keys changes).Nodup) (k : κ) :
    get k (applyAll f d changes) = (get k changes).elim (get k d) (f (get k d)) := by
  induction changes generalizing d with
  | nil => rfl
  | cons e changes ih =>
      obtain ⟨hfresh, hnodup⟩ := List.nodup_cons.mp hnodup
      rw [applyAll, ih hnodup, get_write, get_cons]
      by_cases hkey : e.1 = k
      · subst hkey
        rw [if_pos rfl, if_pos rfl, get_eq_none_iff.mpr hfresh]
        rfl
      · rw [if_neg hkey, if_neg (Ne.symm hkey)]

theorem applyAll_congr (hnodup : (keys changes).Nodup)
    (h : ∀ e ∈ changes, f (get e.1 d) e.2 = g (get e.1 d) e.2) :
    applyAll f d changes = applyAll g d changes := by
  induction changes generalizing d with
  | nil => rfl
  | cons e changes ih =>
      obtain ⟨hfresh, hnodup⟩ := List.nodup_cons.mp hnodup
      obtain ⟨he, hchanges⟩ := List.forall_mem_cons.mp h
      rw [applyAll, applyAll, he]
      refine ih hnodup fun e' he' => ?_
      have hne : e'.1 ≠ e.1 := fun heq => hfresh (heq ▸ List.mem_map_of_mem he')
      rw [get_write, if_neg hne]
      exact hchanges e' he'

/-- Two ways to change some keys give the same exactly if they agree on every key. -/
theorem applyAll_eq_iff (hnodup : (keys changes).Nodup) :
    applyAll f d changes = applyAll g d changes ↔
      ∀ e ∈ changes, f (get e.1 d) e.2 = g (get e.1 d) e.2 := by
  refine ⟨fun h e he => ?_, applyAll_congr hnodup⟩
  have hget := congrArg (get e.1) h
  rwa [get_applyAll hnodup, get_applyAll hnodup, get_of_mem hnodup he] at hget

theorem applyAll_eq_self_iff (hnodup : (keys changes).Nodup) :
    applyAll f d changes = d ↔ ∀ e ∈ changes, f (get e.1 d) e.2 = get e.1 d := by
  have hself : applyAll (fun o _ => o) d changes = d := by
    clear hnodup
    induction changes with
    | nil => rfl
    | cons e changes ih => rw [applyAll, write_get_self, ih]
  conv_lhs => rhs; rw [← hself]
  exact applyAll_eq_iff hnodup

theorem applyAll_nil_eq_iff (hnodup : (keys changes).Nodup) :
    applyAll f [] changes = changes ↔ ∀ e ∈ changes, f none e.2 = some e.2 := by
  have hpairs : ∀ d : List (κ × ν), applyAll (fun _ v => some v) d changes =
      changes.foldl (fun d e => set e.1 e.2 d) d := by
    clear hnodup
    induction changes with
    | nil => exact fun _ => rfl
    | cons e changes ih => exact fun d => ih _
  have hself : applyAll (fun _ v => some v) [] changes = changes :=
    (hpairs []).trans (ofPairs_of_nodup hnodup)
  conv_lhs => rhs; rw [← hself]
  exact applyAll_eq_iff hnodup

end Assoc

/-! ## Values -/

/-- What `int()` raises. -/
inductive IntError
  | typeError
  | valueError
  | overflowError
  deriving DecidableEq

/-- What Python takes from its platform: floating-point numbers, and the characters
outside ASCII that are printable. -/
class PyRuntime (φ : Type) where
  /-- `float(text)` of a number literal, `NaN` or an infinity. -/
  float : List Char → φ
  reprFloat : φ → List Char
  isZero : φ → Bool
  /-- `int(x)` -/
  trunc : φ → Except IntError ℤ
  isPrintable : Char → Bool

/-- A runtime for values without floating-point numbers and without printable characters
outside ASCII. -/
@[reducible] def PyRuntime.ascii : PyRuntime Unit where
  float _ := ()
  reprFloat _ := "nan".toList
  isZero _ := false
  trunc _ := .error .valueError
  isPrintable _ := false

inductive PyValue (φ : Type)
  | none
  | bool (b : Bool)
  | int (n : ℤ)
  | float (x : φ)
  | str (s : List Char)
  | list (items : List (PyValue φ))
  | dict (entries : List (List Char × PyValue φ))

/-- The entries of a dictionary. -/
abbrev PyDict (φ : Type) := List (List Char × PyValue φ)

namespace PyValue

variable {φ : Type} [PyRuntime φ]

/-- `bool(value)` -/
def truthy : PyValue φ → Bool
  | .none => false
  | .bool b => b
  | .int n => n ≠ 0
  | .float x => !PyRuntime.isZero x
  | .str s => s ≠ []
  | .list items => !items.isEmpty
  | .dict entries => !entries.isEmpty

/-- `int(value)` -/
def toInt : PyValue φ → Except IntError ℤ
  | .bool b => .ok b.toNat
  | .int n => .ok n
  | .float x => PyRuntime.trunc x
  | .str s =>
      match Text.int? 10 s with
      | some n => .ok n
      | Option.none => .error .valueError
  | .none | .list _ | .dict _ => .error .typeError

/-! ## Containers

`none` where Python raises an exception. -/

/-- `value or {}` -/
def orEmpty (v : PyValue φ) : PyValue φ := if v.truthy then v else .dict []

/-- `value.items()`, and every other method that only dictionaries have. -/
def items? : PyValue φ → Option (PyDict φ)
  | .dict entries => some entries
  | _ => Option.none

/-- `key in value` -/
def contains? (key : List Char) : PyValue φ → Option Bool
  | .dict entries => some (Assoc.get key entries).isSome
  | .str s => some (key <:+: s)
  | .list items =>
      some (items.any fun
        | .str s => s = key
        | _ => false)
  | _ => Option.none

/-- `isinstance(value, dict)` -/
def isDict : PyValue φ → Bool
  | .dict _ => true
  | _ => false

/-! ## Texts of values -/

/-- `str(n)` -/
def intText : ℤ → List Char
  | .ofNat n => Nat.toDigits 10 n
  | .negSucc n => '-' :: Nat.toDigits 10 (n + 1)

/-- The lowest `width` hexadecimal digits of a number. -/
def hexText : ℕ → ℕ → List Char
  | 0, _ => []
  | width + 1, n => hexText width (n / 16) ++ [Nat.digitChar (n % 16)]

variable (φ) in
/-- A character between the quotes of `repr(text)`. -/
def reprChar (quote c : Char) : List Char :=
  if c = quote ∨ c = '\\' then ['\\', c]
  else if c = '\t' then ['\\', 't']
  else if c = '\n' then ['\\', 'n']
  else if c = '\r' then ['\\', 'r']
  else if c.toNat < 0x20 ∨ c.toNat = 0x7f then '\\' :: 'x' :: hexText 2 c.toNat
  else if c.toNat < 0x7f ∨ PyRuntime.isPrintable φ c then [c]
  else if c.toNat < 0x100 then '\\' :: 'x' :: hexText 2 c.toNat
  else if c.toNat < 0x10000 then '\\' :: 'u' :: hexText 4 c.toNat
  else '\\' :: 'U' :: hexText 8 c.toNat

variable (φ) in
/-- `repr(text)` -/
def reprText (s : List Char) : List Char :=
  let quote := if '\'' ∈ s ∧ '"' ∉ s then '"' else '\''
  quote :: s.flatMap (reprChar φ quote) ++ [quote]

mutual

/-- `repr(value)` -/
def repr : PyValue φ → List Char
  | .none => "None".toList
  | .bool true => "True".toList
  | .bool false => "False".toList
  | .int n => intText n
  | .float x => PyRuntime.reprFloat x
  | .str s => reprText φ s
  | .list items => '[' :: reprItems items ++ [']']
  | .dict entries => '{' :: reprEntries entries ++ ['}']

def reprItems : List (PyValue φ) → List Char
  | [] => []
  | [v] => repr v
  | v :: w :: vs => repr v ++ ", ".toList ++ reprItems (w :: vs)

def reprEntries : PyDict φ → List Char
  | [] => []
  | [(k, v)] => reprText φ k ++ ": ".toList ++ repr v
  | (k, v) :: e :: es =>
      reprText φ k ++ ": ".toList ++ repr v ++ ", ".toList ++ reprEntries (e :: es)

end

/-- `str(value)` -/
def toStr : PyValue φ → List Char
  | .str s => s
  | v => repr v

/-! ## Nested dictionaries -/

section Nested

omit [PyRuntime φ]

/-- What is found behind some keys, one after another. -/
def at? : List (List Char) → PyValue φ → Option (PyValue φ)
  | [], v => some v
  | k :: path, .dict entries => (Assoc.get k entries).bind (at? path)
  | _ :: _, _ => Option.none

theorem at?_cons_dict (k : List Char) (path : List (List Char)) (entries : PyDict φ) :
    at? (k :: path) (.dict entries) = (Assoc.get k entries).bind (at? path) := rfl

theorem at?_cons_of_not_dict {v : PyValue φ} (h : v.isDict = false) (k : List Char)
    (path : List (List Char)) : at? (k :: path) v = Option.none := by
  cases v with
  | dict entries => cases h
  | _ => rfl

/-- Values are dictionaries or not, and the values in dictionaries come first. -/
theorem induction_dict {p : PyValue φ → Prop} (leaf : ∀ v, v.isDict = false → p v)
    (dict : ∀ entries, (∀ e ∈ entries, p e.2) → p (.dict entries)) (v : PyValue φ) : p v := by
  refine @PyValue.rec φ p (fun _ => True) (fun entries => ∀ e ∈ entries, p e.2) (fun e => p e.2)
    (leaf _ rfl) (fun _ => leaf _ rfl) (fun _ => leaf _ rfl) (fun _ => leaf _ rfl)
    (fun _ => leaf _ rfl) (fun _ _ => leaf _ rfl) dict trivial (fun _ _ _ _ => trivial)
    (List.forall_mem_nil _) ?_ (fun _ _ hvalue => hvalue) v
  intro e entries hvalue hentries
  exact List.forall_mem_cons.mpr ⟨hvalue, hentries⟩

mutual

/-- The keys of every dictionary are distinct. -/
def DistinctKeys : PyValue φ → Prop
  | .dict entries => (Assoc.keys entries).Nodup ∧ DistinctEntries entries
  | _ => True

def DistinctEntries : PyDict φ → Prop
  | [] => True
  | (_, v) :: entries => DistinctKeys v ∧ DistinctEntries entries

end

theorem distinctEntries_iff (entries : PyDict φ) :
    DistinctEntries entries ↔ ∀ e ∈ entries, DistinctKeys e.2 := by
  induction entries with
  | nil => exact iff_of_true trivial (List.forall_mem_nil _)
  | cons e entries ih => rw [DistinctEntries, List.forall_mem_cons, ih]

theorem distinctKeys_dict_iff (entries : PyDict φ) :
    DistinctKeys (.dict entries) ↔
      (Assoc.keys entries).Nodup ∧ ∀ e ∈ entries, DistinctKeys e.2 := by
  rw [DistinctKeys, distinctEntries_iff]

theorem distinctKeys_set {config : PyDict φ} {value : PyValue φ}
    (hconfig : DistinctKeys (.dict config)) (hvalue : DistinctKeys value) (key : List Char) :
    DistinctKeys (.dict (Assoc.set key value config)) := by
  obtain ⟨hnodup, hentries⟩ := (distinctKeys_dict_iff config).mp hconfig
  refine (distinctKeys_dict_iff _).mpr ⟨Assoc.nodup_keys_set hnodup key value, fun e he => ?_⟩
  rcases Assoc.eq_or_mem_of_mem_set he with rfl | hmem
  · exact hvalue
  · exact hentries e hmem

theorem distinctKeys_of_get {config : PyDict φ} {key : List Char} {value : PyValue φ}
    (hconfig : DistinctKeys (.dict config)) (h : Assoc.get key config = some value) :
    DistinctKeys value :=
  ((distinctKeys_dict_iff config).mp hconfig).2 _ (Assoc.mem_of_get h)

theorem distinctKeys_orEmpty [PyRuntime φ] {value : PyValue φ} (h : DistinctKeys value) :
    DistinctKeys value.orEmpty := by
  rw [orEmpty]
  split
  · exact h
  · exact ⟨List.nodup_nil, trivial⟩

end Nested

end PyValue

/-- A dictionary of Python, in which all keys are distinct at every depth. -/
structure NestedDict (φ : Type) where
  entries : PyDict φ
  distinct : PyValue.DistinctKeys (.dict entries)
