import Metatroni.Lib.PyValue
import Mathlib.Tactic.Tauto

/-!
# Comparison of configurations

`deep_compare` of `utils.py` walks through two nested dictionaries. It compares
dictionaries with dictionaries and other values by their texts, but it looks at
the type of the left value only: a value that is no dictionary agrees with a
dictionary of the same text, and not the other way around.
-/

namespace Metatroni.Config

open PyValue (at?)

variable {φ : Type} [PyRuntime φ]

/-- Two dictionaries have the same set of keys. -/
def sameKeys (a b : PyDict φ) : Bool :=
  (Assoc.keys a).all (· ∈ Assoc.keys b) && (Assoc.keys b).all (· ∈ Assoc.keys a)

mutual

/-- The loop of `deep_compare` over `obj1`. -/
def compareEntries (b : PyDict φ) : PyDict φ → Bool
  | [] => true
  | (key, value) :: a =>
      match Assoc.get key b with
      | some other => compareValue value other && compareEntries b a
      -- the keys are the same
      | none => false

/-- The comparison of two values under one key. -/
def compareValue : PyValue φ → PyValue φ → Bool
  | .dict a, .dict b => sameKeys a b && compareEntries b a
  | .dict _, _ => false
  | value, other => value.toStr = other.toStr

end

/-- `deep_compare` -/
def deepCompare (a b : PyDict φ) : Bool := sameKeys a b && compareEntries b a

/-! ## Comparison along paths -/

omit [PyRuntime φ] in
theorem sameKeys_iff (a b : PyDict φ) :
    sameKeys a b = true ↔ ∀ key, key ∈ Assoc.keys a ↔ key ∈ Assoc.keys b := by
  rw [sameKeys, Bool.and_eq_true, List.all_eq_true, List.all_eq_true]
  simp only [decide_eq_true_eq]
  exact ⟨fun h key => ⟨h.1 key, h.2 key⟩, fun h => ⟨fun key => (h key).mp, fun key => (h key).mpr⟩⟩

theorem compareEntries_iff (a b : PyDict φ) :
    compareEntries b a = true ↔
      ∀ e ∈ a, ∃ other, Assoc.get e.1 b = some other ∧ compareValue e.2 other = true := by
  induction a with
  | nil => exact iff_of_true rfl (List.forall_mem_nil _)
  | cons e a ih =>
      rw [compareEntries, List.forall_mem_cons, ← ih]
      cases Assoc.get e.1 b with
      | none => simp
      | some other => simp

/-- The comparison goes key by key. -/
theorem deepCompare_iff_rel {a : PyDict φ} (ha : (Assoc.keys a).Nodup) (b : PyDict φ) :
    deepCompare a b = true ↔ ∀ key,
      Option.Rel (fun x y => compareValue x y = true) (Assoc.get key a) (Assoc.get key b) := by
  rw [deepCompare, Bool.and_eq_true, sameKeys_iff, compareEntries_iff]
  constructor
  · rintro ⟨hkeys, hall⟩ key
    cases hvalue : Assoc.get key a with
    | none =>
        rw [Assoc.get_eq_none_iff, hkeys] at hvalue
        rw [Assoc.get_eq_none_iff.mpr hvalue]
        exact .none
    | some value =>
        obtain ⟨other, hother, hcompare⟩ := hall _ (Assoc.mem_of_get hvalue)
        rw [hother]
        exact .some hcompare
  · intro h
    constructor
    · intro key
      have hrel := h key
      rw [← Assoc.isSome_get_iff, ← Assoc.isSome_get_iff]
      generalize Assoc.get key a = x at hrel ⊢
      generalize Assoc.get key b = y at hrel ⊢
      cases hrel with
      | none => rfl
      | some => rfl
    · intro e he
      have hrel := h e.1
      rw [Assoc.get_of_mem ha he] at hrel
      cases hother : Assoc.get e.1 b with
      | none =>
          rw [hother] at hrel
          cases hrel
      | some other =>
          rw [hother] at hrel
          cases hrel with
          | some hcompare => exact ⟨other, rfl, hcompare⟩

/-- Two values at the same place that `deep_compare` does not reject. -/
def Fits : PyValue φ → PyValue φ → Prop
  | .dict a, .dict b => sameKeys a b = true
  | .dict _, _ => False
  | value, other => value.toStr = other.toStr

/-- The values that two values have behind the same keys. -/
def Meet (a b : PyValue φ) (path : List (List Char)) (x y : PyValue φ) : Prop :=
  at? path a = some x ∧ at? path b = some y

theorem compareValue_of_not_dict {a : PyValue φ} (ha : a.isDict = false) (b : PyValue φ) :
    compareValue a b = true ↔ a.toStr = b.toStr := by
  cases a with
  | dict entries => cases ha
  | _ => rw [compareValue, decide_eq_true_eq] <;> simp

theorem fits_of_not_dict {a : PyValue φ} (ha : a.isDict = false) (b : PyValue φ) :
    Fits a b ↔ a.toStr = b.toStr := by
  cases a with
  | dict entries => cases ha
  | _ => rw [Fits] <;> simp

theorem fits_dict_of_not_dict (a : PyDict φ) {b : PyValue φ} (hb : b.isDict = false) :
    ¬Fits (.dict a) b := by
  cases b with
  | dict entries => cases hb
  | _ => exact id

omit [PyRuntime φ] in
/-- Below a value that is no dictionary there is nothing. -/
theorem Meet.nil_of_not_dict {a b x y : PyValue φ} {path : List (List Char)}
    (ha : a.isDict = false) (h : Meet a b path x y) : path = [] ∧ x = a ∧ y = b := by
  cases path with
  | nil => exact ⟨rfl, (Option.some.inj h.1).symm, (Option.some.inj h.2).symm⟩
  | cons key path =>
      have hnone := h.1
      rw [PyValue.at?_cons_of_not_dict ha] at hnone
      cases hnone

/-- The walk accepts exactly what it does not reject at any place. -/
theorem compareValue_iff {a : PyValue φ} (ha : a.DistinctKeys) (b : PyValue φ) :
    compareValue a b = true ↔ ∀ path x y, Meet a b path x y → Fits x y := by
  induction a using PyValue.induction_dict generalizing b with
  | leaf a hleaf =>
      rw [compareValue_of_not_dict hleaf, ← fits_of_not_dict hleaf]
      constructor
      · intro hfits path x y hmeet
        obtain ⟨-, rfl, rfl⟩ := hmeet.nil_of_not_dict hleaf
        exact hfits
      · exact fun h => h [] a b ⟨rfl, rfl⟩
  | dict a ih =>
      obtain ⟨hnodup, hentries⟩ := (PyValue.distinctKeys_dict_iff a).mp ha
      cases b with
      | dict b =>
          rw [compareValue, Bool.and_eq_true, compareEntries_iff]
          constructor
          · rintro ⟨hkeys, hall⟩ path x y ⟨hx, hy⟩
            cases path with
            | nil =>
                obtain rfl := Option.some.inj hx
                obtain rfl := Option.some.inj hy
                exact hkeys
            | cons key path =>
                rw [PyValue.at?_cons_dict, Option.bind_eq_some_iff] at hx hy
                obtain ⟨value, hvalue, hx⟩ := hx
                obtain ⟨other, hother, hy⟩ := hy
                have hmem := Assoc.mem_of_get hvalue
                obtain ⟨other', hother', hcompare⟩ := hall _ hmem
                obtain rfl := Option.some.inj (hother.symm.trans hother')
                exact (ih _ hmem (hentries _ hmem) other).mp hcompare path x y ⟨hx, hy⟩
          · intro h
            have hkeys : sameKeys a b = true := h [] _ _ ⟨rfl, rfl⟩
            refine ⟨hkeys, fun e he => ?_⟩
            have hkey := ((sameKeys_iff a b).mp hkeys e.1).mp (List.mem_map_of_mem he)
            obtain ⟨other, hother⟩ := Option.isSome_iff_exists.mp (Assoc.isSome_get_iff.mpr hkey)
            refine ⟨other, hother, (ih e he (hentries e he) other).mpr fun path x y hmeet => ?_⟩
            refine h (e.1 :: path) x y ⟨?_, ?_⟩
            · rw [PyValue.at?_cons_dict, Assoc.get_of_mem hnodup he]
              exact hmeet.1
            · rw [PyValue.at?_cons_dict, hother]
              exact hmeet.2
      | _ =>
          refine iff_of_false (by simp [compareValue]) fun h => ?_
          exact fits_dict_of_not_dict a rfl (h [] _ _ ⟨rfl, rfl⟩)

/-! ## Both directions -/

/-- Two values that differ, whichever is on the left. -/
def Differs : PyValue φ → PyValue φ → Prop
  | .dict a, .dict b => sameKeys a b = false
  | a, b => a.toStr ≠ b.toStr

/-- A value that is no dictionary has the text of a dictionary. -/
def Clashes (a b : PyValue φ) : Prop :=
  a.isDict = false ∧ b.isDict = true ∧ a.toStr = b.toStr

theorem differs_of_not_dict {a b : PyValue φ} (h : a.isDict = false ∨ b.isDict = false) :
    Differs a b ↔ a.toStr ≠ b.toStr := by
  cases a with
  | dict a =>
      cases b with
      | dict b => rcases h with h | h <;> cases h
      | _ => rfl
  | _ => rfl

theorem Differs.symm {a b : PyValue φ} (h : Differs a b) : Differs b a := by
  by_cases hdict : a.isDict = false ∨ b.isDict = false
  · rw [differs_of_not_dict hdict] at h
    exact (differs_of_not_dict hdict.symm).mpr h.symm
  · cases a with
    | dict a =>
        cases b with
        | dict b =>
            change sameKeys b a = false
            rw [sameKeys, Bool.and_comm]
            exact h
        | _ => exact absurd (.inr rfl) hdict
    | _ => exact absurd (.inl rfl) hdict

theorem fits_iff (a b : PyValue φ) : Fits a b ↔ ¬Differs a b ∧ ¬Clashes b a := by
  cases ha : a.isDict with
  | false =>
      rw [fits_of_not_dict ha, differs_of_not_dict (.inl ha), not_not, iff_self_and]
      exact fun _ hclash => absurd (ha.symm.trans hclash.2.1) (by decide)
  | true =>
      cases a with
      | dict a =>
          cases b with
          | dict b =>
              have hfits : Fits (.dict a) (.dict b : PyValue φ) ↔ sameKeys a b = true := Iff.rfl
              have hdiffers : Differs (.dict a) (.dict b : PyValue φ) ↔ sameKeys a b = false :=
                Iff.rfl
              rw [hfits, hdiffers, Bool.not_eq_false, iff_self_and]
              intro _ hclash
              cases hclash.1
          | _ =>
              refine iff_of_false (fits_dict_of_not_dict a rfl) ?_
              rintro ⟨hsame, hclash⟩
              rw [differs_of_not_dict (.inr rfl), not_not] at hsame
              exact hclash ⟨rfl, rfl, hsame.symm⟩
      | _ => cases ha

theorem Fits.exists_dict {a : PyDict φ} {b : PyValue φ} (h : Fits (.dict a) b) :
    ∃ entries, b = .dict entries ∧ sameKeys a entries = true := by
  cases b with
  | dict b => exact ⟨b, rfl, h⟩
  | _ => exact absurd h (fits_dict_of_not_dict a rfl)

/-- Values that fit in both directions can replace each other on the left. -/
theorem Fits.trans_of_symm {x y z : PyValue φ} (hxy : Fits x y) (hyx : Fits y x) (hyz : Fits y z) :
    Fits x z := by
  cases hx : x.isDict with
  | false =>
      cases hy : y.isDict with
      | false =>
          rw [fits_of_not_dict hx] at hxy ⊢
          rw [fits_of_not_dict hy] at hyz
          exact hxy.trans hyz
      | true =>
          cases y with
          | dict y => exact absurd hyx (fits_dict_of_not_dict y hx)
          | _ => cases hy
  | true =>
      cases x with
      | dict x =>
          obtain ⟨y, rfl, hkeys⟩ := hxy.exists_dict
          obtain ⟨z, rfl, hkeys'⟩ := hyz.exists_dict
          change sameKeys x z = true
          rw [sameKeys_iff] at hkeys hkeys' ⊢
          exact fun key => (hkeys key).trans (hkeys' key)
      | _ => cases hx

/-- Where everything fits, each place of the left value exists in the right one. -/
theorem exists_at?_of_fits {a b x : PyValue φ} {path : List (List Char)}
    (hfits : ∀ path x y, Meet a b path x y → Fits x y) (hx : at? path a = some x) :
    ∃ y, at? path b = some y := by
  induction path generalizing a b with
  | nil => exact ⟨b, rfl⟩
  | cons key path ih =>
      cases ha : a.isDict with
      | false =>
          rw [PyValue.at?_cons_of_not_dict ha] at hx
          cases hx
      | true =>
          cases a with
          | dict a =>
              obtain ⟨b, rfl, hkeys⟩ := (hfits [] _ _ ⟨rfl, rfl⟩).exists_dict
              obtain ⟨value, hvalue, hx⟩ := Option.bind_eq_some_iff.mp hx
              have hkey := ((sameKeys_iff a b).mp hkeys key).mp
                (Assoc.isSome_get_iff.mp (Option.isSome_of_eq_some hvalue))
              obtain ⟨other, hother⟩ := Option.isSome_iff_exists.mp (Assoc.isSome_get_iff.mpr hkey)
              rw [PyValue.at?_cons_dict, hother]
              refine ih (fun path x y hmeet => hfits (key :: path) x y ⟨?_, ?_⟩) hx
              · rw [PyValue.at?_cons_dict, hvalue]
                exact hmeet.1
              · rw [PyValue.at?_cons_dict, hother]
                exact hmeet.2
          | _ => cases ha

section Equivalence

variable (a b c : NestedDict φ)

/-- Two dictionaries have values at the same place that are related so. -/
def Somewhere (r : PyValue φ → PyValue φ → Prop) : Prop :=
  ∃ path x y, Meet (.dict a.entries) (.dict b.entries) path x y ∧ r x y

theorem deepCompare_iff_fits :
    deepCompare a.entries b.entries = true ↔
      ∀ path x y, Meet (.dict a.entries) (.dict b.entries) path x y → Fits x y := by
  have hcompare : deepCompare a.entries b.entries =
      compareValue (.dict a.entries) (.dict b.entries) := by
    rw [compareValue]
    rfl
  rw [hcompare, compareValue_iff a.distinct]

theorem deepCompare_iff :
    deepCompare a.entries b.entries = true ↔
      ¬Somewhere a b Differs ∧ ¬Somewhere a b fun x y => Clashes y x := by
  rw [deepCompare_iff_fits]
  simp only [fits_iff, Somewhere, not_exists, not_and]
  exact ⟨fun h => ⟨fun path x y hmeet => (h path x y hmeet).1, fun path x y hmeet =>
    (h path x y hmeet).2⟩, fun h path x y hmeet => ⟨h.1 path x y hmeet, h.2 path x y hmeet⟩⟩

theorem deepCompare_swap_iff :
    deepCompare b.entries a.entries = true ↔
      ¬Somewhere a b Differs ∧ ¬Somewhere a b Clashes := by
  have hswap : ∀ r : PyValue φ → PyValue φ → Prop,
      Somewhere b a r ↔ Somewhere a b fun x y => r y x := by
    intro r
    exact ⟨fun ⟨path, x, y, hmeet, h⟩ => ⟨path, y, x, hmeet.symm, h⟩,
      fun ⟨path, x, y, hmeet, h⟩ => ⟨path, y, x, hmeet.symm, h⟩⟩
  rw [deepCompare_iff, hswap, hswap]
  refine and_congr (not_congr ?_) Iff.rfl
  exact ⟨fun ⟨path, x, y, hmeet, h⟩ => ⟨path, x, y, hmeet, h.symm⟩,
    fun ⟨path, x, y, hmeet, h⟩ => ⟨path, x, y, hmeet, h.symm⟩⟩

theorem deepCompare_self : deepCompare a.entries a.entries = true := by
  rw [deepCompare_iff_fits]
  rintro path x y ⟨hx, hy⟩
  obtain rfl := Option.some.inj (hx.symm.trans hy)
  cases hdict : x.isDict with
  | false => exact (fits_of_not_dict hdict x).mpr rfl
  | true =>
      cases x with
      | dict x => exact (sameKeys_iff x x).mpr fun _ => Iff.rfl
      | _ => cases hdict

variable {a b c} in
theorem deepCompare_trans_of_symm (hab : deepCompare a.entries b.entries = true)
    (hba : deepCompare b.entries a.entries = true)
    (hbc : deepCompare b.entries c.entries = true) : deepCompare a.entries c.entries = true := by
  rw [deepCompare_iff_fits] at hab hba hbc ⊢
  rintro path x z ⟨hx, hz⟩
  obtain ⟨y, hy⟩ := exists_at?_of_fits hab hx
  exact (hab path x y ⟨hx, hy⟩).trans_of_symm (hba path y x ⟨hy, hx⟩) (hbc path y z ⟨hy, hz⟩)

/-- The laws of an equivalence relation at three dictionaries. -/
def IsEquivalenceAt : Prop :=
  deepCompare a.entries a.entries = true ∧
    deepCompare a.entries b.entries = deepCompare b.entries a.entries ∧
    (deepCompare a.entries b.entries = true → deepCompare b.entries c.entries = true →
      deepCompare a.entries c.entries = true)

/-- The laws hold exactly if the dictionaries differ somewhere, or if texts of dictionaries
meet dictionaries on both sides or on none. -/
theorem isEquivalenceAt_iff :
    IsEquivalenceAt a b c ↔
      (Somewhere a b Differs ∨ (Somewhere a b Clashes ↔ Somewhere a b fun x y => Clashes y x)) := by
  have hab := deepCompare_iff a b
  have hba := deepCompare_swap_iff a b
  have hsymm : deepCompare a.entries b.entries = deepCompare b.entries a.entries ↔
      (Somewhere a b Differs ∨
        (Somewhere a b Clashes ↔ Somewhere a b fun x y => Clashes y x)) := by
    rw [Bool.eq_iff_iff, hab, hba]
    tauto
  constructor
  · exact fun h => hsymm.mp h.2.1
  · intro h
    have heq := hsymm.mpr h
    exact ⟨deepCompare_self a, heq, fun hab hbc =>
      deepCompare_trans_of_symm hab (heq.symm.trans hab) hbc⟩

end Equivalence

/-- The text of an empty dictionary under the key `k`. -/
def emptyText : NestedDict Unit := ⟨[(['k'], .str ['\x7b', '\x7d'])], by
  rw [PyValue.distinctKeys_dict_iff]
  exact ⟨by decide, by simp [PyValue.DistinctKeys]⟩⟩

/-- An empty dictionary under the key `k`. -/
def emptyDict : NestedDict Unit := ⟨[(['k'], .dict [])], by
  rw [PyValue.distinctKeys_dict_iff]
  exact ⟨by decide, by simp [PyValue.DistinctKeys, PyValue.DistinctEntries, Assoc.keys]⟩⟩

/-- The text agrees with the dictionary, but the dictionary does not agree with the text. -/
theorem not_isEquivalenceAt_emptyDict :
    letI := PyRuntime.ascii
    deepCompare emptyText.entries emptyDict.entries = true ∧
      deepCompare emptyDict.entries emptyText.entries = false ∧
      ¬IsEquivalenceAt emptyText emptyDict emptyText := by
  let _ := PyRuntime.ascii
  have hleft : deepCompare emptyText.entries emptyDict.entries = true := by decide
  have hright : deepCompare emptyDict.entries emptyText.entries = false := by decide
  refine ⟨hleft, hright, fun h => ?_⟩
  have hsymm := h.2.1
  rw [hleft, hright] at hsymm
  cases hsymm

end Metatroni.Config
