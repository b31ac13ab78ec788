import Metatroni.Lib.PyValue

/-!
# Patches of configurations

`patch_config` of `utils.py` merges a nested dictionary into another one and says
whether something was changed. It is compared with the recursive merge patch
of JSON, in which scalars of the same text are kept.

## Implementation notes

Neither of the two changes the order of the keys that stay, and both add new keys at the end, so
dictionaries are compared with their order.

Dictionaries are values here. In Python `patch_config` puts the dictionaries of the patch
themselves into the configuration, and two keys may share one, as with the aliases of YAML. What
happens then if a shared dictionary is changed at one of its places is not part of the model.
-/

namespace Metatroni.Config

open PyValue (at?)

variable {φ : Type} [PyRuntime φ]

mutual

/-- `patch_config`: the new `config`, and whether it was changed. -/
def patchConfig : PyDict φ → PyDict φ → PyDict φ × Bool
  | config, [] => (config, false)
  | config, (name, value) :: data =>
      let (config, isChanged) := patchName config name value
      let (config, isChanged') := patchConfig config data
      (config, isChanged || isChanged')

/-- The body of its loop. -/
def patchName (config : PyDict φ) (name : List Char) : PyValue φ → PyDict φ × Bool
  | .none =>
      (Assoc.pop name config,
        -- `config.pop(name, None) is not None`
        match Assoc.get name config with
        | none | some .none => false
        | some _ => true)
  | .dict data =>
      match Assoc.get name config with
      | some (.dict old) =>
          let (new, isChanged) := patchConfig old data
          (Assoc.set name (.dict new) config, isChanged)
      | _ => (Assoc.set name (.dict data) config, true)
  | value =>
      match Assoc.get name config with
      | some old =>
          if old.toStr ≠ value.toStr then (Assoc.set name value config, true) else (config, false)
      | none => (Assoc.set name value config, true)

end

/-- A value that is neither `None` nor a list or a dictionary. -/
def isScalar : PyValue φ → Bool
  | .none | .list _ | .dict _ => false
  | _ => true

/-- The entries of a dictionary, none for another value. -/
def entriesOf : Option (PyValue φ) → PyDict φ
  | some (.dict entries) => entries
  | _ => []

mutual

/-- The merge patch of JSON on a dictionary. -/
def mergePatch : PyDict φ → PyDict φ → PyDict φ
  | target, [] => target
  | target, (name, value) :: patch =>
      mergePatch (Assoc.write name (mergeValue (Assoc.get name target) value) target) patch

/-- The merge patch on the value of a key; a scalar with the text of the new one is kept. -/
def mergeValue : Option (PyValue φ) → PyValue φ → Option (PyValue φ)
  | _, .none => none
  | old, .dict patch => some (.dict (mergePatch (entriesOf old) patch))
  | some old, value =>
      if isScalar old ∧ isScalar value ∧ old.toStr = value.toStr then some old else some value
  | none, value => some value

end

/-! ## One key -/

/-- What the loop leaves under a key, and whether it was changed. -/
def patchValue : Option (PyValue φ) → PyValue φ → Option (PyValue φ) × Bool
  | none, .none | some .none, .none => (none, false)
  | some _, .none => (none, true)
  | some (.dict old), .dict data =>
      (some (.dict (patchConfig old data).1), (patchConfig old data).2)
  | _, .dict data => (some (.dict data), true)
  | some old, value => if old.toStr ≠ value.toStr then (some value, true) else (some old, false)
  | none, value => (some value, true)

/-- A value that is neither `None` nor a dictionary. -/
def isPlain : PyValue φ → Bool
  | .none | .dict _ => false
  | _ => true

omit [PyRuntime φ] in
theorem kinds (v : PyValue φ) : v = .none ∨ isPlain v = true ∨ ∃ entries, v = .dict entries := by
  cases v with
  | none => exact .inl rfl
  | dict entries => exact .inr (.inr ⟨entries, rfl⟩)
  | _ => exact .inr (.inl rfl)

/-- There is a dictionary under the key. -/
def hasDict : Option (PyValue φ) → Bool
  | some (.dict _) => true
  | _ => false

omit [PyRuntime φ] in
theorem eq_some_dict_of_hasDict {o : Option (PyValue φ)} (h : hasDict o = true) :
    ∃ entries, o = some (.dict entries) := by
  cases o with
  | none => cases h
  | some old =>
      cases old with
      | dict entries => exact ⟨entries, rfl⟩
      | _ => cases h

section Kinds

variable {value : PyValue φ} (hplain : isPlain value = true)

include hplain

theorem patchValue_plain_none : patchValue none value = (some value, true) := by
  cases value with
  | none => cases hplain
  | dict entries => cases hplain
  | _ => rfl

theorem patchValue_plain_some (old : PyValue φ) :
    patchValue (some old) value =
      if old.toStr ≠ value.toStr then (some value, true) else (some old, false) := by
  cases value with
  | none => cases hplain
  | dict entries => cases hplain
  | _ => cases old <;> rfl

theorem mergeValue_plain_none : mergeValue none value = some value := by
  cases value with
  | none => cases hplain
  | dict entries => cases hplain
  | _ => rw [mergeValue] <;> simp

theorem mergeValue_plain_some (old : PyValue φ) :
    mergeValue (some old) value =
      if isScalar old ∧ isScalar value ∧ old.toStr = value.toStr then some old
      else some value := by
  cases value with
  | none => cases hplain
  | dict entries => cases hplain
  | _ => rw [mergeValue] <;> simp

end Kinds

theorem patchValue_dict_of_not_dict {o : Option (PyValue φ)} (h : hasDict o = false)
    (data : PyDict φ) : patchValue o (.dict data) = (some (.dict data), true) := by
  cases o with
  | none => rfl
  | some old =>
      cases old with
      | dict entries => cases h
      | _ => rfl

theorem patchValue_none (o : Option (PyValue φ)) :
    patchValue o .none = (none, match o with
      | none | some .none => false
      | some _ => true) := by
  cases o with
  | none => rfl
  | some old => cases old <;> rfl

theorem patchName_eq (config : PyDict φ) (name : List Char) (value : PyValue φ) :
    patchName config name value =
      (Assoc.write name (patchValue (Assoc.get name config) value).1 config,
        (patchValue (Assoc.get name config) value).2) := by
  rcases kinds value with rfl | hplain | ⟨data, rfl⟩
  · rw [patchName, patchValue_none]
    rfl
  · have hname : patchName config name value =
        match Assoc.get name config with
        | some old =>
            if old.toStr ≠ value.toStr then (Assoc.set name value config, true)
            else (config, false)
        | none => (Assoc.set name value config, true) := by
      cases value with
      | none => cases hplain
      | dict entries => cases hplain
      | _ => rw [patchName] <;> simp
    rw [hname]
    cases hget : Assoc.get name config with
    | none =>
        rw [patchValue_plain_none hplain]
        rfl
    | some old =>
        rw [patchValue_plain_some hplain]
        by_cases hstr : old.toStr = value.toStr
        · have hself := Assoc.write_get_self name config
          rw [hget] at hself
          simp only [hstr, ne_eq, not_true_eq_false, if_false, hself]
        · simp only [hstr, ne_eq, not_false_eq_true, if_true]
          rfl
  · rw [patchName]
    cases hdict : hasDict (Assoc.get name config) with
    | true =>
        obtain ⟨old, hold⟩ := eq_some_dict_of_hasDict hdict
        rw [hold]
        rfl
    | false =>
        rw [patchValue_dict_of_not_dict hdict]
        cases hget : Assoc.get name config with
        | none => rfl
        | some old =>
            cases old with
            | dict entries =>
                rw [hget] at hdict
                cases hdict
            | _ => rfl

/-! ## All keys -/

theorem patchConfig_fst (config data : PyDict φ) :
    (patchConfig config data).1 = Assoc.applyAll (fun o v => (patchValue o v).1) config data := by
  induction data generalizing config with
  | nil => rfl
  | cons e data ih =>
      rw [patchConfig, patchName_eq, Assoc.applyAll]
      exact ih _

theorem mergePatch_eq (target patch : PyDict φ) :
    mergePatch target patch = Assoc.applyAll mergeValue target patch := by
  induction patch generalizing target with
  | nil => rw [mergePatch, Assoc.applyAll]
  | cons e patch ih => rw [mergePatch, Assoc.applyAll, ih]

/-- Something was changed exactly if it was changed for some key. -/
theorem patchConfig_snd {config data : PyDict φ} (hnodup : (Assoc.keys data).Nodup) :
    (patchConfig config data).2 = true ↔
      ∃ e ∈ data, (patchValue (Assoc.get e.1 config) e.2).2 = true := by
  induction data generalizing config with
  | nil => exact iff_of_false nofun fun ⟨_, h, _⟩ => List.not_mem_nil h
  | cons e data ih =>
      obtain ⟨hfresh, hnodup⟩ := List.nodup_cons.mp hnodup
      rw [patchConfig, patchName_eq]
      change ((_ || (patchConfig (Assoc.write e.1 _ config) data).2) = true) ↔ _
      rw [Bool.or_eq_true, ih hnodup]
      simp only [List.mem_cons, exists_eq_or_imp]
      refine or_congr_right (exists_congr fun e' => and_congr_right fun he' => ?_)
      have hne : e'.1 ≠ e.1 := fun heq => hfresh (heq ▸ List.mem_map_of_mem he')
      rw [Assoc.get_write, if_neg hne]

/-! ## Places of a patch -/

/-- A key that is reached through dictionaries of both sides: what is under it, and the
value of the patch. -/
inductive Site : Option (PyValue φ) → PyValue φ → Option (PyValue φ) → PyValue φ → Prop
  | here (o : Option (PyValue φ)) (v : PyValue φ) : Site o v o v
  | inside {config data : PyDict φ} {name : List Char} {v v' : PyValue φ} {o' : Option (PyValue φ)}
      (hv : Assoc.get name data = some v) (h : Site (Assoc.get name config) v o' v') :
      Site (some (.dict config)) (.dict data) o' v'

/-- Some place has a property. -/
def SiteWith (p : Option (PyValue φ) → PyValue φ → Prop) (o : Option (PyValue φ))
    (v : PyValue φ) : Prop :=
  ∃ o' v', Site o v o' v' ∧ p o' v'

section Sites

omit [PyRuntime φ]

variable {p q : Option (PyValue φ) → PyValue φ → Prop}

theorem siteWith_leaf {o : Option (PyValue φ)} {v : PyValue φ}
    (h : ¬(hasDict o = true ∧ v.isDict = true)) : SiteWith p o v ↔ p o v := by
  constructor
  · rintro ⟨o', v', hsite, hp⟩
    cases hsite with
    | here => exact hp
    | inside hv hsite => exact absurd ⟨rfl, rfl⟩ h
  · exact fun hp => ⟨o, v, .here o v, hp⟩

theorem siteWith_dict {config data : PyDict φ} (hnodup : (Assoc.keys data).Nodup)
    (hp : ¬p (some (.dict config)) (.dict data)) :
    SiteWith p (some (.dict config)) (.dict data) ↔
      ∃ e ∈ data, SiteWith p (Assoc.get e.1 config) e.2 := by
  constructor
  · rintro ⟨o', v', hsite, hp'⟩
    cases hsite with
    | here => exact absurd hp' hp
    | inside hv hsite => exact ⟨_, Assoc.mem_of_get hv, o', v', hsite, hp'⟩
  · rintro ⟨e, he, o', v', hsite, hp'⟩
    exact ⟨o', v', .inside (Assoc.get_of_mem hnodup he) hsite, hp'⟩

/-- What holds for two dictionaries exactly if it holds for some key holds exactly if it
holds at some place. -/
theorem iff_siteWith (hp : ∀ config data, ¬p (some (.dict config)) (.dict data))
    (leaf : ∀ o v, v.DistinctKeys → ¬(hasDict o = true ∧ v.isDict = true) → (q o v ↔ p o v))
    (dict : ∀ config data, (Assoc.keys data).Nodup → (q (some (.dict config)) (.dict data) ↔
      ∃ e ∈ data, q (Assoc.get e.1 config) e.2))
    {v : PyValue φ} (hv : v.DistinctKeys) (o : Option (PyValue φ)) : q o v ↔ SiteWith p o v := by
  induction v using PyValue.induction_dict generalizing o with
  | leaf v hleaf =>
      have hnot : ¬(hasDict o = true ∧ v.isDict = true) := by simp [hleaf]
      rw [leaf o v hv hnot, siteWith_leaf hnot]
  | dict data ih =>
      obtain ⟨hnodup, hentries⟩ := (PyValue.distinctKeys_dict_iff data).mp hv
      cases hdict : hasDict o with
      | false =>
          have hnot : ¬(hasDict o = true ∧ (PyValue.dict data).isDict = true) := by simp [hdict]
          rw [leaf o _ hv hnot, siteWith_leaf hnot]
      | true =>
          obtain ⟨config, rfl⟩ := eq_some_dict_of_hasDict hdict
          rw [dict config data hnodup, siteWith_dict hnodup (hp config data)]
          exact exists_congr fun e => and_congr_right fun he => ih e he (hentries e he) _

end Sites

/-! ## What happens at a place -/

/-- There is a `None` below a value. -/
def HasNone (v : PyValue φ) : Prop := ∃ path, at? path v = some .none

/-- A new dictionary is added with a `None` in it. -/
def KeepsNone (o : Option (PyValue φ)) (v : PyValue φ) : Prop :=
  v.isDict = true ∧ hasDict o = false ∧ HasNone v

/-- Another value is kept because of its text, although the two are not both scalars. -/
def KeepsOther (o : Option (PyValue φ)) (v : PyValue φ) : Prop :=
  isPlain v = true ∧ ∃ old, o = some old ∧ old.toStr = v.toStr ∧
    ¬(isScalar old = true ∧ isScalar v = true) ∧ old ≠ v

/-- A key that has the value `None` is removed. -/
def RemovesNone (o : Option (PyValue φ)) (v : PyValue φ) : Prop := v = .none ∧ o = some .none

/-- A key with another value is removed, a dictionary is added or replaces another value, or a
value is added or replaces one of another text. -/
def Alters (o : Option (PyValue φ)) (v : PyValue φ) : Prop :=
  (v = .none ∧ ∃ old, o = some old ∧ old ≠ .none) ∨ (v.isDict = true ∧ hasDict o = false) ∨
    (isPlain v = true ∧ ∀ old, o = some old → old.toStr ≠ v.toStr)

omit [PyRuntime φ] in
/-- The kinds of places other than a dictionary that meets a dictionary. -/
theorem leaf_kinds {o : Option (PyValue φ)} {v : PyValue φ}
    (h : ¬(hasDict o = true ∧ v.isDict = true)) :
    v = .none ∨ isPlain v = true ∨ ∃ data, v = .dict data ∧ hasDict o = false := by
  rcases kinds v with rfl | hplain | ⟨data, rfl⟩
  · exact .inl rfl
  · exact .inr (.inl hplain)
  · exact .inr (.inr ⟨data, rfl, Bool.eq_false_iff.mpr fun hdict => h ⟨hdict, rfl⟩⟩)

omit [PyRuntime φ] in
theorem isDict_of_isPlain {v : PyValue φ} (h : isPlain v = true) : v.isDict = false := by
  cases v with
  | dict entries => cases h
  | _ => rfl

omit [PyRuntime φ] in
theorem ne_none_of_isPlain {v : PyValue φ} (h : isPlain v = true) : v ≠ .none := by
  rintro rfl
  cases h

section Leaves

variable (o : Option (PyValue φ)) (old : PyValue φ) (data : PyDict φ) {v : PyValue φ}

theorem alters_none_iff : Alters o (.none : PyValue φ) ↔ ∃ old, o = some old ∧ old ≠ .none := by
  simp [Alters, PyValue.isDict, isPlain]

theorem alters_dict_iff : Alters o (.dict data) ↔ hasDict o = false := by
  simp [Alters, PyValue.isDict, isPlain]

theorem alters_plain_iff (h : isPlain v = true) :
    Alters o v ↔ ∀ old, o = some old → old.toStr ≠ v.toStr := by
  simp [Alters, isDict_of_isPlain h, ne_none_of_isPlain h, h]

omit [PyRuntime φ] in
theorem removesNone_plain (h : isPlain v = true) : ¬RemovesNone o v := fun hr =>
  ne_none_of_isPlain h hr.1

end Leaves

/-- The flag is set exactly if something is altered at some place. -/
theorem patchValue_snd_iff {v : PyValue φ} (hv : v.DistinctKeys) (o : Option (PyValue φ)) :
    (patchValue o v).2 = true ↔ SiteWith Alters o v := by
  refine @iff_siteWith φ Alters (fun o v => (patchValue o v).2 = true) ?_ ?_ ?_ v hv o
  · intro config data
    rw [alters_dict_iff]
    exact nofun
  · intro o v _ hleaf
    rcases leaf_kinds hleaf with rfl | hplain | ⟨data, rfl, hdict⟩
    · rw [alters_none_iff, patchValue_none]
      cases o with
      | none => simp
      | some old => cases old <;> simp
    · rw [alters_plain_iff o hplain]
      cases o with
      | none => simp [patchValue_plain_none hplain]
      | some old =>
          rw [patchValue_plain_some hplain]
          by_cases hstr : old.toStr = v.toStr <;> simp [hstr]
    · rw [alters_dict_iff, patchValue_dict_of_not_dict hdict]
      exact iff_of_true rfl hdict
  · exact fun config data hnodup => patchConfig_snd hnodup

/-- Something else is under the key exactly if something is altered or a `None` is
removed at some place. -/
theorem patchValue_fst_ne_iff {v : PyValue φ} (hv : v.DistinctKeys) (o : Option (PyValue φ)) :
    (patchValue o v).1 ≠ o ↔ SiteWith (fun o v => Alters o v ∨ RemovesNone o v) o v := by
  refine @iff_siteWith φ (fun o v => Alters o v ∨ RemovesNone o v)
    (fun o v => (patchValue o v).1 ≠ o) ?_ ?_ ?_ v hv o
  · intro config data
    rw [alters_dict_iff]
    rintro (h | h)
    · cases h
    · cases h.1
  · intro o v _ hleaf
    rcases leaf_kinds hleaf with rfl | hplain | ⟨data, rfl, hdict⟩
    · rw [alters_none_iff, patchValue_none, RemovesNone]
      cases o with
      | none => simp
      | some old => cases old <;> simp
    · rw [alters_plain_iff o hplain, or_iff_left (removesNone_plain o hplain)]
      cases o with
      | none => simp [patchValue_plain_none hplain]
      | some old =>
          rw [patchValue_plain_some hplain]
          by_cases hstr : old.toStr = v.toStr
          · simp [hstr]
          · rw [if_pos hstr]
            refine iff_of_true (fun heq => hstr ?_) fun old' hold => ?_
            · rw [Option.some.inj heq]
            · exact Option.some.inj hold ▸ hstr
    · rw [alters_dict_iff, patchValue_dict_of_not_dict hdict]
      refine iff_of_true ?_ (.inl hdict)
      rintro rfl
      cases hdict
  · intro config data hnodup
    change some (PyValue.dict (patchConfig config data).1) ≠ _ ↔ _
    rw [ne_eq, Option.some.injEq, PyValue.dict.injEq, patchConfig_fst,
      Assoc.applyAll_eq_self_iff hnodup]
    push Not
    rfl

/-! ## The merge patch -/

omit [PyRuntime φ] in
theorem hasNone_dict_iff {data : PyDict φ} (hnodup : (Assoc.keys data).Nodup) :
    HasNone (.dict data) ↔ ∃ e ∈ data, HasNone e.2 := by
  constructor
  · rintro ⟨path, hpath⟩
    cases path with
    | nil => cases hpath
    | cons name path =>
        obtain ⟨v, hv, hpath⟩ := Option.bind_eq_some_iff.mp hpath
        exact ⟨_, Assoc.mem_of_get hv, path, hpath⟩
  · rintro ⟨e, he, path, hpath⟩
    refine ⟨e.1 :: path, ?_⟩
    rw [PyValue.at?_cons_dict, Assoc.get_of_mem hnodup he]
    exact hpath

omit [PyRuntime φ] in
theorem not_hasNone_of_isPlain {v : PyValue φ} (h : isPlain v = true) : ¬HasNone v := by
  rintro ⟨path, hpath⟩
  cases path with
  | nil => exact ne_none_of_isPlain h (Option.some.inj hpath)
  | cons name path =>
      rw [PyValue.at?_cons_of_not_dict (isDict_of_isPlain h)] at hpath
      cases hpath

/-- Merging into nothing leaves a value as it is exactly if there is no `None` below it. -/
theorem mergeValue_none_eq_iff {v : PyValue φ} (hv : v.DistinctKeys) :
    mergeValue none v = some v ↔ ¬HasNone v := by
  induction v using PyValue.induction_dict with
  | leaf v hleaf =>
      rcases kinds v with rfl | hplain | ⟨data, rfl⟩
      · refine iff_of_false (by simp [mergeValue]) fun h => h ⟨[], rfl⟩
      · exact iff_of_true (mergeValue_plain_none hplain) (not_hasNone_of_isPlain hplain)
      · cases hleaf
  | dict data ih =>
      obtain ⟨hnodup, hentries⟩ := (PyValue.distinctKeys_dict_iff data).mp hv
      have hempty : entriesOf (none : Option (PyValue φ)) = [] := rfl
      rw [mergeValue, Option.some.injEq, PyValue.dict.injEq, mergePatch_eq, hempty,
        Assoc.applyAll_nil_eq_iff hnodup, hasNone_dict_iff hnodup]
      push Not
      exact forall₂_congr fun e he => ih e he (hentries e he)

theorem mergeValue_dict_of_not_dict {o : Option (PyValue φ)} (h : hasDict o = false)
    (data : PyDict φ) : mergeValue o (.dict data) = mergeValue none (.dict data) := by
  have hentries : entriesOf o = [] := by
    cases o with
    | none => rfl
    | some old =>
        cases old with
        | dict entries => cases h
        | _ => rfl
  rw [mergeValue, mergeValue, hentries]
  rfl

/-- The code departs from the merge patch exactly if it keeps something at some place. -/
theorem patchValue_ne_mergeValue_iff {v : PyValue φ} (hv : v.DistinctKeys)
    (o : Option (PyValue φ)) :
    (patchValue o v).1 ≠ mergeValue o v ↔
      SiteWith (fun o v => KeepsNone o v ∨ KeepsOther o v) o v := by
  refine @iff_siteWith φ (fun o v => KeepsNone o v ∨ KeepsOther o v)
    (fun o v => (patchValue o v).1 ≠ mergeValue o v) ?_ ?_ ?_ v hv o
  · rintro config data (h | h)
    · cases h.2.1
    · cases h.1
  · intro o v hv hleaf
    rcases leaf_kinds hleaf with rfl | hplain | ⟨data, rfl, hdict⟩
    · rw [patchValue_none, mergeValue]
      refine iff_of_false (fun h => h rfl) ?_
      rintro (h | h)
      · cases h.1
      · cases h.1
    · rw [or_iff_right fun h => not_hasNone_of_isPlain hplain h.2.2, KeepsOther,
        and_iff_right hplain]
      cases o with
      | none =>
          rw [patchValue_plain_none hplain, mergeValue_plain_none hplain]
          exact iff_of_false (fun h => h rfl) nofun
      | some old =>
          rw [patchValue_plain_some hplain, mergeValue_plain_some hplain]
          by_cases hstr : old.toStr = v.toStr
          · by_cases hscalar : isScalar old = true ∧ isScalar v = true
            · rw [if_neg (not_not.mpr hstr), if_pos ⟨hscalar.1, hscalar.2, hstr⟩]
              refine iff_of_false (fun h => h rfl) ?_
              rintro ⟨old', hold, -, hnot, -⟩
              exact hnot (Option.some.inj hold ▸ hscalar)
            · have hnot : ¬(isScalar old = true ∧ isScalar v = true ∧ old.toStr = v.toStr) :=
                fun h => hscalar ⟨h.1, h.2.1⟩
              rw [if_neg (not_not.mpr hstr), if_neg hnot, ne_eq, Option.some.injEq]
              refine ⟨fun hne => ⟨old, rfl, hstr, hscalar, hne⟩, ?_⟩
              rintro ⟨old', hold, -, -, hne⟩
              exact Option.some.inj hold ▸ hne
          · simp [hstr]
    · rw [patchValue_dict_of_not_dict hdict, mergeValue_dict_of_not_dict hdict, ne_comm, ne_eq,
        mergeValue_none_eq_iff hv, not_not]
      constructor
      · exact fun h => .inl ⟨rfl, hdict, h⟩
      · rintro (h | h)
        · exact h.2.2
        · cases h.1
  · intro config data hnodup
    have hentries : entriesOf (some (.dict config : PyValue φ)) = config := rfl
    rw [mergeValue, hentries]
    change some (PyValue.dict (patchConfig config data).1) ≠ _ ↔ _
    rw [ne_eq, Option.some.injEq, PyValue.dict.injEq, patchConfig_fst, mergePatch_eq,
      Assoc.applyAll_eq_iff hnodup]
    push Not
    rfl

/-! ## The second application -/

theorem patchConfig_eq_self {config data : PyDict φ} (hnodup : (Assoc.keys data).Nodup)
    (h : ∀ e ∈ data, patchValue (Assoc.get e.1 config) e.2 = (Assoc.get e.1 config, false)) :
    patchConfig config data = (config, false) := by
  refine Prod.ext ?_ (Bool.eq_false_iff.mpr fun hchanged => ?_)
  · rw [patchConfig_fst, Assoc.applyAll_eq_self_iff hnodup]
    exact fun e he => congrArg Prod.fst (h e he)
  · obtain ⟨e, he, hflag⟩ := (patchConfig_snd hnodup).mp hchanged
    rw [h e he] at hflag
    cases hflag

theorem patchValue_plain_of_toStr_eq {old v : PyValue φ} (h : isPlain v = true)
    (hstr : old.toStr = v.toStr) : patchValue (some old) v = (some old, false) := by
  rw [patchValue_plain_some h, if_neg (not_not.mpr hstr)]

/-- A value without a `None` below it is not changed by itself. -/
theorem patchValue_self {v : PyValue φ} (hv : v.DistinctKeys) (hnone : ¬HasNone v) :
    patchValue (some v) v = (some v, false) := by
  induction v using PyValue.induction_dict with
  | leaf v hleaf =>
      rcases kinds v with rfl | hplain | ⟨data, rfl⟩
      · exact absurd ⟨[], rfl⟩ hnone
      · exact patchValue_plain_of_toStr_eq hplain rfl
      · cases hleaf
  | dict data ih =>
      obtain ⟨hnodup, hentries⟩ := (PyValue.distinctKeys_dict_iff data).mp hv
      rw [hasNone_dict_iff hnodup] at hnone
      have hself : patchConfig data data = (data, false) := by
        refine patchConfig_eq_self hnodup fun e he => ?_
        rw [Assoc.get_of_mem hnodup he]
        exact ih e he (hentries e he) fun h => hnone ⟨e, he, h⟩
      change (some (PyValue.dict (patchConfig data data).1), (patchConfig data data).2) = _
      rw [hself]

/-- Without a `None` in a new dictionary the second application changes nothing. -/
theorem patchValue_patchValue {v : PyValue φ} (hv : v.DistinctKeys) {o : Option (PyValue φ)}
    (h : ¬SiteWith KeepsNone o v) :
    patchValue (patchValue o v).1 v = ((patchValue o v).1, false) := by
  induction v using PyValue.induction_dict generalizing o with
  | leaf v hleaf =>
      rcases kinds v with rfl | hplain | ⟨data, rfl⟩
      · have hremoved : (patchValue o .none).1 = none := by rw [patchValue_none]
        rw [hremoved]
        rfl
      · cases o with
        | none =>
            rw [patchValue_plain_none hplain]
            exact patchValue_plain_of_toStr_eq hplain rfl
        | some old =>
            rw [patchValue_plain_some hplain]
            by_cases hstr : old.toStr = v.toStr
            · rw [if_neg (not_not.mpr hstr)]
              exact patchValue_plain_of_toStr_eq hplain hstr
            · rw [if_pos hstr]
              exact patchValue_plain_of_toStr_eq hplain rfl
      · cases hleaf
  | dict data ih =>
      obtain ⟨hnodup, hentries⟩ := (PyValue.distinctKeys_dict_iff data).mp hv
      cases hdict : hasDict o with
      | false =>
          rw [patchValue_dict_of_not_dict hdict]
          exact patchValue_self hv fun hnone => h ⟨_, _, .here _ _, rfl, hdict, hnone⟩
      | true =>
          obtain ⟨config, rfl⟩ := eq_some_dict_of_hasDict hdict
          have hself : patchConfig (patchConfig config data).1 data =
              ((patchConfig config data).1, false) := by
            refine patchConfig_eq_self hnodup fun e he => ?_
            have hget := Assoc.get_of_mem hnodup he
            rw [patchConfig_fst, Assoc.get_applyAll hnodup, hget]
            refine ih e he (hentries e he) ?_
            rintro ⟨o', v', hsite, hkeeps⟩
            exact h ⟨o', v', .inside hget hsite, hkeeps⟩
          change (some (PyValue.dict (patchConfig (patchConfig config data).1 data).1),
            (patchConfig (patchConfig config data).1 data).2) = _
          rw [hself]
          rfl

/-! ## The whole patch -/

section Whole

variable (config data : NestedDict φ)

/-- The result is the merge patch, a second application changes nothing, and the returned flag says
whether something was changed. -/
def IsMergePatch : Prop :=
  (patchConfig config.entries data.entries).1 = mergePatch config.entries data.entries ∧
    patchConfig (patchConfig config.entries data.entries).1 data.entries =
      ((patchConfig config.entries data.entries).1, false) ∧
    ((patchConfig config.entries data.entries).2 = true ↔
      (patchConfig config.entries data.entries).1 ≠ config.entries)

/-- Some place of the patch has a property. -/
def SomeSite (p : Option (PyValue φ) → PyValue φ → Prop) : Prop :=
  SiteWith p (some (.dict config.entries)) (.dict data.entries)

variable {config data} in
omit [PyRuntime φ] in
theorem someSite_or_iff {p q : Option (PyValue φ) → PyValue φ → Prop} :
    SomeSite config data (fun o v => p o v ∨ q o v) ↔
      SomeSite config data p ∨ SomeSite config data q := by
  constructor
  · rintro ⟨o, v, hsite, h | h⟩
    · exact .inl ⟨o, v, hsite, h⟩
    · exact .inr ⟨o, v, hsite, h⟩
  · rintro (⟨o, v, hsite, h⟩ | ⟨o, v, hsite, h⟩)
    · exact ⟨o, v, hsite, .inl h⟩
    · exact ⟨o, v, hsite, .inr h⟩

/-- The code is the merge patch exactly if no `None` is added with a new dictionary, nothing but
scalars is kept because of its text, and a `None` is not all that is removed. -/
theorem isMergePatch_iff :
    IsMergePatch config data ↔
      ¬SomeSite config data KeepsNone ∧ ¬SomeSite config data KeepsOther ∧
        (SomeSite config data RemovesNone → SomeSite config data Alters) := by
  have hpatch : patchValue (some (.dict config.entries)) (.dict data.entries) =
    (some (.dict (patchConfig config.entries data.entries).1),
      (patchConfig config.entries data.entries).2) := rfl
  have hmerge : mergeValue (some (.dict config.entries)) (.dict data.entries) =
      some (.dict (mergePatch config.entries data.entries)) := by
    rw [mergeValue]
    rfl
  have hkeeps := patchValue_ne_mergeValue_iff data.distinct (some (.dict config.entries))
  have hchanged := patchValue_fst_ne_iff data.distinct (some (.dict config.entries))
  have hflag := patchValue_snd_iff data.distinct (some (.dict config.entries))
  rw [hpatch, hmerge, ne_eq, Option.some.injEq, PyValue.dict.injEq] at hkeeps
  rw [hpatch, ne_eq, Option.some.injEq, PyValue.dict.injEq] at hchanged
  rw [hpatch] at hflag
  have hkeeps' := hkeeps.trans someSite_or_iff
  have hchanged' := hchanged.trans someSite_or_iff
  have hagain : ¬SomeSite config data KeepsNone →
      patchConfig (patchConfig config.entries data.entries).1 data.entries =
        ((patchConfig config.entries data.entries).1, false) := by
    intro hnone
    have hsecond := patchValue_patchValue data.distinct hnone
    rw [hpatch] at hsecond
    obtain ⟨hfst, hsnd⟩ := Prod.mk.inj hsecond
    exact Prod.ext (PyValue.dict.inj (Option.some.inj hfst)) hsnd
  change (patchConfig config.entries data.entries).2 = true ↔ SomeSite config data Alters at hflag
  rw [IsMergePatch, hflag, ne_eq, hchanged', or_iff_left_iff_imp.symm]
  constructor
  · rintro ⟨hresult, -, hflag'⟩
    have hnot := mt hkeeps'.mpr (not_not.mpr hresult)
    exact ⟨fun h => hnot (.inl h), fun h => hnot (.inr h), hflag'.symm⟩
  · rintro ⟨hnone, hother, hremoved⟩
    refine ⟨not_not.mp fun hne => ?_, hagain hnone, hremoved.symm⟩
    exact (hkeeps'.mp hne).elim hnone hother

end Whole

/-- A configuration without entries. -/
def emptyConfig : NestedDict Unit := ⟨[], by simp [PyValue.distinctKeys_dict_iff, Assoc.keys]⟩

/-- A patch that removes the key `b` below the new key `a`. -/
def removingPatch : NestedDict Unit := ⟨[(['a'], .dict [(['b'], .none)])], by
  simp [PyValue.DistinctKeys, PyValue.DistinctEntries, Assoc.keys]⟩

/-- The new dictionary is added as it is, with the `None` in it. -/
theorem not_isMergePatch_removingPatch :
    letI := PyRuntime.ascii
    Assoc.get ['a'] (patchConfig emptyConfig.entries removingPatch.entries).1 =
        some (.dict [(['b'], .none)]) ∧
      Assoc.get ['a'] (mergePatch emptyConfig.entries removingPatch.entries) = some (.dict []) ∧
      ¬IsMergePatch emptyConfig removingPatch := by
  let _ := PyRuntime.ascii
  have hcode : Assoc.get ['a'] (patchConfig emptyConfig.entries removingPatch.entries).1 =
      some (.dict [(['b'], .none)]) := rfl
  have hspec : Assoc.get ['a'] (mergePatch emptyConfig.entries removingPatch.entries) =
      some (.dict []) := rfl
  refine ⟨hcode, hspec, fun h => ?_⟩
  rw [h.1, hspec] at hcode
  cases hcode

end Metatroni.Config
