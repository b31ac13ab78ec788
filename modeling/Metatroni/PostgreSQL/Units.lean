import Metatroni.Lib.Json
import Metatroni.Lib.Rounding
import Mathlib.Data.Rat.Floor

/-!
# Units of parameters

`parse_int` of `utils.py` reads the value of a parameter that may have a unit, and
`convert_int_from_base_unit` writes a value in the greatest unit that loses nothing. The base unit
of a parameter may have a multiplier, such as `8kB`.

## Implementation notes

Numbers are exact, in place of floating-point numbers. An operation is `none` where it divides by
zero, and `some none` where it returns `None`.
-/

namespace Metatroni

namespace Units

open Rounding (roundEven)

/-! ## Numbers at the start of a text -/

/-- `[-+]?` -/
def matchSign : List Char → List Char × List Char
  | '+' :: cs => (['+'], cs)
  | '-' :: cs => (['-'], cs)
  | cs => ([], cs)

def isHexDigit (c : Char) : Bool := (Json.hexDigit? c).isSome

def isOctDigit (c : Char) : Bool := '0' ≤ c && c ≤ '7'

/-- `HEX_RE.match`: what matches, and the rest. -/
def matchHex (value : List Char) : Option (List Char × List Char) :=
  match matchSign value with
  | (sign, '0' :: 'x' :: cs) =>
      if cs.takeWhile isHexDigit = [] then none
      else some (sign ++ '0' :: 'x' :: cs.takeWhile isHexDigit, cs.dropWhile isHexDigit)
  | _ => none

/-- `OCT_RE.match` -/
def matchOct (value : List Char) : Option (List Char × List Char) :=
  match matchSign value with
  | (sign, '0' :: cs) => some (sign ++ '0' :: cs.takeWhile isOctDigit, cs.dropWhile isOctDigit)
  | _ => none

/-- `DEC_RE.match` -/
def matchDec (value : List Char) : Option (List Char × List Char) :=
  match matchSign value with
  | (sign, '0' :: cs) => some (sign ++ ['0'], cs)
  | (sign, c :: cs) =>
      if c.isDigit then some (sign ++ c :: cs.takeWhile Char.isDigit, cs.dropWhile Char.isDigit)
      else none
  | _ => none

/-- `strtol`. What matches can always be read by `int`. -/
def strtol (value : List Char) (strict : Bool) : Option ℤ × List Char :=
  let value := Text.strip value
  match (matchHex value).map (16, ·) <|> (matchOct value).map (8, ·) <|>
      (matchDec value).map (10, ·) with
  | some (base, word, rest) => (Text.int? base word, rest)
  | none => (if strict then none else some 1, value)

/-- The number that matches `DBL_RE`, and the rest. -/
def matchDbl (value : List Char) : Option (ℚ × List Char) :=
  let (sign, rest) := matchSign value
  let (whole, rest) := Json.digits rest
  let (frac, rest) := Json.fraction rest
  if whole = [] ∧ frac = [] then none
  else
    let (exp, rest) := Json.exponent rest
    let mantissa : ℚ := Text.ofDecimals (whole ++ frac.drop 1) / 10 ^ (frac.drop 1).length
    let number := mantissa * 10 ^ (Text.int? 10 (exp.drop 1)).getD 0
    some (if sign = ['-'] then -number else number, rest)

/-- `strtod` -/
def strtod (value : List Char) : Option ℚ × List Char :=
  let value := Text.strip value
  match matchDbl value with
  | some (number, rest) => (some number, rest)
  | none => (none, value)

/-! ## The tables -/

/-- The units from the greatest one on, each with its size in the base units. -/
abbrev ConversionTable := List (List Char × List (List Char × ℚ))

def memoryUnitConversionTable : ConversionTable :=
  [("TB".toList, [("B".toList, 1024 ^ 4), ("kB".toList, 1024 ^ 3), ("MB".toList, 1024 ^ 2)]),
    ("GB".toList, [("B".toList, 1024 ^ 3), ("kB".toList, 1024 ^ 2), ("MB".toList, 1024)]),
    ("MB".toList, [("B".toList, 1024 ^ 2), ("kB".toList, 1024), ("MB".toList, 1)]),
    ("kB".toList, [("B".toList, 1024), ("kB".toList, 1), ("MB".toList, 1 / 1024)]),
    ("B".toList, [("B".toList, 1), ("kB".toList, 1 / 1024), ("MB".toList, 1 / 1024 ^ 2)])]

def timeUnitConversionTable : ConversionTable :=
  [("d".toList, [("ms".toList, 1000 * 60 ^ 2 * 24), ("s".toList, 60 ^ 2 * 24),
      ("min".toList, 60 * 24)]),
    ("h".toList, [("ms".toList, 1000 * 60 ^ 2), ("s".toList, 60 ^ 2), ("min".toList, 60)]),
    ("min".toList, [("ms".toList, 1000 * 60), ("s".toList, 60), ("min".toList, 1)]),
    ("s".toList, [("ms".toList, 1000), ("s".toList, 1), ("min".toList, 1 / 60)]),
    ("ms".toList, [("ms".toList, 1), ("s".toList, 1 / 1000), ("min".toList, 1 / (1000 * 60))]),
    ("us".toList, [("ms".toList, 1 / 1000), ("s".toList, 1 / 1000 ^ 2),
      ("min".toList, 1 / (1000 ^ 2 * 60))])]

/-- `get_conversion_table` -/
def getConversionTable (baseUnit : List Char) : ConversionTable :=
  if baseUnit ∈ ["B".toList, "kB".toList, "MB".toList] then memoryUnitConversionTable
  else if baseUnit ∈ ["ms".toList, "s".toList, "min".toList] then timeUnitConversionTable
  else []

/-- `convert_tbl[unit][base_unit]` -/
def factor? (unit baseUnit : List Char) : Option ℚ :=
  (Assoc.get unit (getConversionTable baseUnit)).bind (Assoc.get baseUnit)

/-- Each unit with the next smaller one. -/
def roundOrder (convertTbl : ConversionTable) : List (List Char × List Char) :=
  (Assoc.keys convertTbl).zip (Assoc.keys convertTbl).tail

/-- The size of the next smaller unit, if there is one. -/
def smaller? (unit baseUnit : List Char) : Option ℚ :=
  (Assoc.get unit (roundOrder (getConversionTable baseUnit))).bind fun next => factor? next baseUnit

/-! ## The conversions -/

/-- The multiplier of a base unit, and the unit without it. -/
def splitBaseUnit (baseUnit : Option (List Char)) : ℤ × List Char :=
  let (baseValue, baseUnit) := strtol (baseUnit.getD "None".toList) false
  (baseValue.getD 1, baseUnit)

/-- `convert_to_base_unit` -/
def convertToBaseUnit (value : ℚ) (unit : List Char) (baseUnit : Option (List Char)) :
    Option (Option ℚ) :=
  let (baseValue, baseUnit) := splitBaseUnit baseUnit
  match factor? unit baseUnit with
  | none => some none
  | some factor =>
      if baseValue = 0 then none
      else
        let value := value * (factor / baseValue)
        match smaller? unit baseUnit with
        | none => some (some value)
        | some multiplier => some (some (roundEven (value / multiplier) * multiplier))

/-- `a % b` -/
def mod (a b : ℚ) : ℚ := a - ⌊a / b⌋ * b

/-- The text in one unit, unless the value is not an integral number of it. -/
def formatIn (baseValue : ℤ) (baseUnit : List Char) (entry : List Char × List (List Char × ℚ)) :
    Option (List Char) :=
  (Assoc.get baseUnit entry.2).bind fun multiplier =>
    if multiplier ≤ 1 ∨ mod baseValue multiplier = 0 then
      some (PyValue.intText (roundEven (baseValue / multiplier : ℚ)) ++ entry.1)
    else none

/-- `convert_int_from_base_unit` -/
def convertIntFromBaseUnit (baseValue : ℤ) (baseUnit : Option (List Char)) : Option (List Char) :=
  let (mult, baseUnit) := splitBaseUnit baseUnit
  (getConversionTable baseUnit).findSome? (formatIn (baseValue * mult) baseUnit)

/-- `parse_int` of a text -/
def parseInt (value : List Char) (baseUnit : Option (List Char)) : Option (Option ℤ) :=
  let (val, unit) := strtol value true
  let (val, unit) : Option ℚ × List Char :=
    if val = none ∧ unit.head? = some '.' ∨ unit.head?.any (· ∈ ['.', 'e', 'E']) then strtod value
    else (val.map (↑), unit)
  match val with
  | none => some none
  | some val =>
      let unit := Text.strip unit
      if unit = [] then some (some (roundEven val))
      else (convertToBaseUnit val unit baseUnit).map fun val => val.map roundEven

/-! ## What the tables have in common -/

section Tables

variable {unit baseUnit : List Char} {factor smaller : ℚ}

theorem mem_table_of_factor? (h : factor? unit baseUnit = some factor) :
    ∃ column, (unit, column) ∈ getConversionTable baseUnit ∧ (baseUnit, factor) ∈ column := by
  obtain ⟨column, hcolumn, hfactor⟩ := Option.bind_eq_some_iff.mp h
  exact ⟨column, Assoc.mem_of_get hcolumn, Assoc.mem_of_get hfactor⟩

theorem mem_getConversionTable {entry : List Char × List (List Char × ℚ)}
    (h : entry ∈ getConversionTable baseUnit) :
    entry ∈ memoryUnitConversionTable ++ timeUnitConversionTable := by
  rw [getConversionTable] at h
  split at h
  · exact List.mem_append_left _ h
  · split at h
    · exact List.mem_append_right _ h
    · cases h

theorem factor?_pos (h : factor? unit baseUnit = some factor) : 0 < factor := by
  have hall : ∀ entry ∈ memoryUnitConversionTable ++ timeUnitConversionTable,
      ∀ p ∈ entry.2, 0 < p.2 := by
    decide +kernel
  obtain ⟨column, hcolumn, hfactor⟩ := mem_table_of_factor? h
  exact hall _ (mem_getConversionTable hcolumn) _ hfactor

theorem smaller?_pos (h : smaller? unit baseUnit = some smaller) : 0 < smaller := by
  obtain ⟨next, -, hnext⟩ := Option.bind_eq_some_iff.mp h
  exact factor?_pos hnext

end Tables

/-! ## Rounding in a conversion -/

section Conversion

variable {value result : ℚ} {unit : List Char} {baseUnit : Option (List Char)} {factor smaller : ℚ}

/-- The conversion rounds to multiples of the multiplier in the next smaller unit. -/
theorem convertToBaseUnit_eq (hfactor : factor? unit (splitBaseUnit baseUnit).2 = some factor)
    (hsmaller : smaller? unit (splitBaseUnit baseUnit).2 = some smaller)
    (hresult : convertToBaseUnit value unit baseUnit = some (some result)) :
    (splitBaseUnit baseUnit).1 ≠ 0 ∧
      result = roundEven (value * (factor / (splitBaseUnit baseUnit).1) / smaller) * smaller := by
  simp only [convertToBaseUnit, hfactor, hsmaller] at hresult
  split at hresult
  · cases hresult
  · next hk => exact ⟨hk, (Option.some.inj (Option.some.inj hresult)).symm⟩

/-- The result is a nearest multiple of the next smaller unit if and only if the value in this unit
is within one half of a multiple of the multiplier, and it is the even one of two if and only if
this one is a multiple of the multiplier. -/
theorem convertToBaseUnit_isRounded_iff {k : ℤ} {plain : List Char}
    (hbase : splitBaseUnit baseUnit = (k, plain)) (hfactor : factor? unit plain = some factor)
    (hsmaller : smaller? unit plain = some smaller)
    (hresult : convertToBaseUnit value unit baseUnit = some (some result)) :
    (Rounding.IsRounded (smaller / k) (value * factor / k) result ↔
      ∃ n : ℤ, |n * k - value * factor / smaller| ≤ 1 / 2) ∧
    (result = roundEven (value * factor / smaller) * (smaller / k) ↔
      k ∣ roundEven (value * factor / smaller)) := by
  obtain ⟨hk, heq⟩ := convertToBaseUnit_eq (by rwa [hbase]) (by rwa [hbase]) hresult
  rw [hbase] at hk heq
  have hk' : (k : ℚ) ≠ 0 := Int.cast_ne_zero.mpr hk
  have hpos := smaller?_pos hsmaller
  have hunit : smaller / k ≠ 0 := div_ne_zero hpos.ne' hk'
  have hscale : (k : ℚ) * (smaller / k) = smaller := mul_div_cancel₀ _ hk'
  have hexact : value * factor / k / (smaller / k) = value * factor / smaller :=
    div_div_div_cancel_right₀ hk' _ _
  have hiff := Rounding.isRounded_coarse_iff hunit (value * factor / k) hk
  have heven := Rounding.roundEven_coarse_eq_iff hunit (value * factor / k) hk
  rw [hscale, hexact] at hiff heven
  rw [heq, ← mul_div_assoc]
  exact ⟨hiff, heven⟩

/-- 1 GB is 4 times 256 MB. -/
theorem isRounded_gigabyte :
    convertToBaseUnit 1 "GB".toList (some "256MB".toList) = some (some 4) ∧
      Rounding.IsRounded (1 / 256) (1 * 1024 / 256) (4 : ℚ) := by
  have hbase : splitBaseUnit (some "256MB".toList) = (256, "MB".toList) := by decide +kernel
  have hfactor : factor? "GB".toList "MB".toList = some 1024 := by decide +kernel
  have hsmaller : smaller? "GB".toList "MB".toList = some 1 := by decide +kernel
  have hresult : convertToBaseUnit 1 "GB".toList (some "256MB".toList) = some (some 4) := by
    decide +kernel
  have hiff := convertToBaseUnit_isRounded_iff hbase hfactor hsmaller hresult
  exact ⟨hresult, hiff.1.mpr ⟨4, by norm_num⟩⟩

/-- 0.1 MB are 12.8 times 8 kB, and 102 kB are 12.75 times 8 kB. -/
theorem not_isRounded_tenthOfMegabyte :
    splitBaseUnit (some "8kB".toList) = (8, "kB".toList) ∧
      factor? "MB".toList "kB".toList = some 1024 ∧ smaller? "MB".toList "kB".toList = some 1 ∧
      convertToBaseUnit (1 / 10) "MB".toList (some "8kB".toList) = some (some 13) ∧
      ¬Rounding.IsRounded (1 / 8) (1 / 10 * 1024 / 8) (13 : ℚ) := by
  refine ⟨by decide +kernel, by decide +kernel, by decide +kernel, by decide +kernel, ?_⟩
  rintro ⟨-, hnear⟩
  norm_num at hnear

end Conversion

/-! ## Formatting is undone by parsing -/

/-- A unit starts with a letter that is no exponent, and has no white space at its end. -/
structure IsUnit (unit : List Char) : Prop where
  head : ∃ c, unit.head? = some c ∧ c.isAlpha = true ∧ c ∉ ['.', 'e', 'E']
  last : ∀ c ∈ unit.getLast?, Text.isSpace c = false

theorem IsUnit.ne_nil {unit : List Char} (h : IsUnit unit) : unit ≠ [] := by
  obtain ⟨c, hc, -⟩ := h.head
  rintro rfl
  cases hc

theorem IsUnit.trimmed {unit : List Char} (h : IsUnit unit) : Text.IsTrimmed unit := by
  refine ⟨fun d hd => ?_, h.last⟩
  obtain ⟨c, hc, halpha, -⟩ := h.head
  obtain rfl := Option.some.inj (hc.symm.trans hd)
  rw [Text.isAlpha_iff] at halpha
  exact Text.isSpace_of_visible (by omega) (by omega)

theorem IsUnit.isDigit_head {unit : List Char} (h : IsUnit unit) :
    ∀ d ∈ unit.head?, d.isDigit = false := by
  intro d hd
  obtain ⟨e, he, halpha, -⟩ := h.head
  obtain rfl := Option.some.inj (he.symm.trans hd)
  rw [Text.isAlpha_iff] at halpha
  rw [← Bool.not_eq_true, Text.isDigit_iff]
  omega

section Digits

variable {c : Char} (hc : c.isDigit = true) (hzero : c ≠ '0')

include hc

theorem matchSign_of_isDigit (cs : List Char) : matchSign (c :: cs) = ([], c :: cs) := by
  rw [matchSign.eq_def]
  split
  · next heq => exact absurd hc (by rw [(List.cons.inj heq).1]; decide)
  · next heq => exact absurd hc (by rw [(List.cons.inj heq).1]; decide)
  · rfl

include hzero

theorem matchHex_of_isDigit (cs : List Char) : matchHex (c :: cs) = none := by
  rw [matchHex, matchSign_of_isDigit hc]
  split
  · next heq => exact absurd (List.cons.inj (Prod.mk.inj heq).2).1 hzero
  · rfl

theorem matchOct_of_isDigit (cs : List Char) : matchOct (c :: cs) = none := by
  rw [matchOct, matchSign_of_isDigit hc]
  split
  · next heq => exact absurd (List.cons.inj (Prod.mk.inj heq).2).1 hzero
  · rfl

theorem matchDec_of_isDigit {cs rest : List Char} (hcs : ∀ d ∈ cs, d.isDigit = true)
    (hrest : ∀ d ∈ rest.head?, d.isDigit = false) :
    matchDec (c :: (cs ++ rest)) = some (c :: cs, rest) := by
  rw [matchDec, matchSign_of_isDigit hc]
  split
  · next heq => exact absurd (List.cons.inj (Prod.mk.inj heq).2).1 hzero
  · next heq =>
      obtain ⟨rfl, hcons⟩ := Prod.mk.inj heq
      obtain ⟨rfl, rfl⟩ := List.cons.inj hcons
      rw [if_pos hc, Text.takeWhile_append_stop hcs hrest, Text.dropWhile_append_stop hcs hrest]
      rfl
  · next _ heq => exact (heq _ _ _ rfl).elim

end Digits

/-- A number in front of a unit. -/
theorem strtol_toDigits {n : ℕ} (hn : 0 < n) {unit : List Char} (h : IsUnit unit) (strict : Bool) :
    strtol (Nat.toDigits 10 n ++ unit) strict = (some (n : ℤ), unit) := by
  obtain ⟨c, cs, hcs⟩ := List.exists_cons_of_ne_nil (Nat.toDigits_ne_nil (b := 10) (n := n))
  have hdigits : ∀ d ∈ c :: cs, d.isDigit = true := by
    rw [← hcs]
    exact Json.isDigit_of_mem_toDigits
  have hzero : c ≠ '0' := by
    have hhead := Json.head?_toDigits_ne_zero hn
    rwa [hcs, List.head?_cons, Option.some_inj.ne] at hhead
  have hc : c.isDigit = true := hdigits c List.mem_cons_self
  have hvalue := Text.isDigit_iff.mp hc
  have htrimmed : Text.IsTrimmed (c :: (cs ++ unit)) := by
    constructor
    · intro d hd
      obtain rfl := Option.some.inj hd
      exact Text.isSpace_of_visible (by omega) (by omega)
    · intro d hd
      rw [← List.cons_append, List.getLast?_append_of_ne_nil _ h.ne_nil] at hd
      exact h.last d hd
  have hword : ∀ d ∈ cs, d.isDigit = true := fun d hd => hdigits d (List.mem_cons_of_mem _ hd)
  rw [hcs, List.cons_append, strtol, htrimmed.strip_eq, matchHex_of_isDigit hc hzero,
    matchOct_of_isDigit hc hzero, matchDec_of_isDigit hc hzero hword h.isDigit_head]
  change (Text.int? 10 (c :: cs), unit) = _
  rw [← hcs, Text.int?_toDigits]

/-- The base units. -/
def baseUnits : List (List Char) :=
  ["B".toList, "kB".toList, "MB".toList, "ms".toList, "s".toList, "min".toList]

theorem isUnit_of_mem {entry : List Char × List (List Char × ℚ)}
    (h : entry ∈ memoryUnitConversionTable ++ timeUnitConversionTable) : IsUnit entry.1 := by
  have hall : ∀ entry ∈ memoryUnitConversionTable ++ timeUnitConversionTable,
      (entry.1.head?.any fun c => c.isAlpha && !(['.', 'e', 'E'].contains c)) = true ∧
        (entry.1.getLast?.all fun c => !Text.isSpace c) = true := by
    decide +kernel
  obtain ⟨hhead, hlast⟩ := hall entry h
  constructor
  · cases hc : entry.1.head? with
    | none =>
        rw [hc] at hhead
        cases hhead
    | some c =>
        rw [hc, Option.any_some, Bool.and_eq_true] at hhead
        exact ⟨c, rfl, hhead.1, by simpa using hhead.2⟩
  · intro c hc
    rw [Option.mem_def.mp hc, Option.all_some] at hlast
    simpa using hlast

/-- A unit has an integral number of the next smaller ones, 1024 if it is one of memory. -/
theorem exists_ratio {unit baseUnit : List Char} {factor smaller : ℚ} (hbase : baseUnit ∈ baseUnits)
    (hfactor : factor? unit baseUnit = some factor)
    (hsmaller : smaller? unit baseUnit = some smaller) :
    ∃ c : ℤ, factor = c * smaller ∧
      (baseUnit ∈ ["B".toList, "kB".toList, "MB".toList] → c = 1024) := by
  have hall : ∀ baseUnit ∈ baseUnits, ∀ p ∈ roundOrder (getConversionTable baseUnit),
      ∀ f ∈ factor? p.1 baseUnit, ∀ g ∈ factor? p.2 baseUnit, (f / g).den = 1 ∧
        (baseUnit ∈ ["B".toList, "kB".toList, "MB".toList] → f / g = 1024) := by
    decide +kernel
  obtain ⟨next, hnext, hsmaller⟩ := Option.bind_eq_some_iff.mp hsmaller
  obtain ⟨hden, hmemory⟩ := hall baseUnit hbase _ (Assoc.mem_of_get hnext) _ hfactor _ hsmaller
  have hpos := factor?_pos hsmaller
  have hratio : ((factor / smaller).num : ℚ) = factor / smaller :=
    Rat.coe_int_num_of_den_eq_one hden
  refine ⟨(factor / smaller).num, ?_, ?_⟩
  · rw [hratio, div_mul_cancel₀ _ hpos.ne']
  · intro hmem
    have hvalue := hratio.trans (hmemory hmem)
    exact_mod_cast hvalue

/-- A unit that is not greater than the base unit divides it. -/
theorem den_of_le_one {unit baseUnit : List Char} {factor : ℚ}
    (h : factor? unit baseUnit = some factor) (hone : factor ≤ 1) : (1 / factor).den = 1 := by
  have hall : ∀ entry ∈ memoryUnitConversionTable ++ timeUnitConversionTable,
      ∀ p ∈ entry.2, p.2 ≤ 1 → (1 / p.2).den = 1 := by
    decide +kernel
  obtain ⟨column, hcolumn, hfactor⟩ := mem_table_of_factor? h
  exact hall _ (mem_getConversionTable hcolumn) _ hfactor hone

theorem factor?_of_mem {baseUnit : List Char} (hbase : baseUnit ∈ baseUnits)
    {entry : List Char × List (List Char × ℚ)} (hentry : entry ∈ getConversionTable baseUnit) :
    factor? entry.1 baseUnit = Assoc.get baseUnit entry.2 := by
  have hkeys : ∀ baseUnit ∈ baseUnits, (Assoc.keys (getConversionTable baseUnit)).Nodup := by
    decide +kernel
  rw [factor?, Assoc.get_of_mem (hkeys baseUnit hbase) hentry]
  rfl

/-- What is formatted in a unit is an integral number of it. -/
theorem exists_of_formatIn {baseUnit : List Char} (hbase : baseUnit ∈ baseUnits)
    {entry : List Char × List (List Char × ℚ)} (hentry : entry ∈ getConversionTable baseUnit)
    {baseValue : ℤ} {text : List Char} (h : formatIn baseValue baseUnit entry = some text) :
    ∃ factor, ∃ q : ℤ, factor? entry.1 baseUnit = some factor ∧ (baseValue : ℚ) = q * factor ∧
      text = PyValue.intText q ++ entry.1 := by
  obtain ⟨factor, hfactor, htext⟩ := Option.bind_eq_some_iff.mp h
  rw [← factor?_of_mem hbase hentry] at hfactor
  have hpos := factor?_pos hfactor
  have hintegral : ∀ q : ℤ, (baseValue : ℚ) = q * factor →
      roundEven (baseValue / factor : ℚ) = q := by
    intro q hq
    rw [hq, mul_div_cancel_right₀ _ hpos.ne', Rounding.roundEven_intCast]
  have hexists : (factor ≤ 1 ∨ mod baseValue factor = 0) →
      ∃ q : ℤ, (baseValue : ℚ) = q * factor := by
    rintro (hone | hmod)
    · have hnum : ((1 / factor).num : ℚ) = 1 / factor :=
        Rat.coe_int_num_of_den_eq_one (den_of_le_one hfactor hone)
      refine ⟨baseValue * (1 / factor).num, ?_⟩
      rw [Int.cast_mul, hnum, mul_assoc, one_div_mul_cancel hpos.ne', mul_one]
    · exact ⟨_, sub_eq_zero.mp hmod⟩
  split at htext
  · next hcondition =>
      obtain ⟨q, hq⟩ := hexists hcondition
      rw [hintegral q hq] at htext
      exact ⟨factor, q, hfactor, hq, (Option.some.inj htext).symm⟩
  · cases htext

/-- The search ends at the base unit at the latest. -/
theorem exists_convertIntFromBaseUnit {baseUnit : Option (List Char)} {k : ℤ} {plain : List Char}
    (hsplit : splitBaseUnit baseUnit = (k, plain)) (hplain : plain ∈ baseUnits) (baseValue : ℤ) :
    ∃ entry ∈ getConversionTable plain, ∃ text,
      formatIn (baseValue * k) plain entry = some text ∧
        convertIntFromBaseUnit baseValue baseUnit = some text := by
  have hfound : ∀ baseUnit ∈ baseUnits, ∃ entry ∈ getConversionTable baseUnit,
      ((Assoc.get baseUnit entry.2).any fun m => m ≤ 1) = true := by
    decide +kernel
  have hsearch : convertIntFromBaseUnit baseValue baseUnit =
      (getConversionTable plain).findSome? (formatIn (baseValue * k) plain) := by
    rw [convertIntFromBaseUnit, hsplit]
  have hsome : (convertIntFromBaseUnit baseValue baseUnit).isSome = true := by
    rw [hsearch, List.findSome?_isSome_iff]
    obtain ⟨entry, hentry, hany⟩ := hfound _ hplain
    refine ⟨entry, hentry, ?_⟩
    cases hget : Assoc.get plain entry.2 with
    | none =>
        rw [hget] at hany
        cases hany
    | some m =>
        rw [hget, Option.any_some] at hany
        rw [formatIn, hget, Option.bind_some, if_pos (.inl (of_decide_eq_true hany))]
        rfl
  obtain ⟨text, htext⟩ := Option.isSome_iff_exists.mp hsome
  obtain ⟨entry, hentry, hformat⟩ := List.exists_of_findSome?_eq_some (hsearch.symm.trans htext)
  exact ⟨entry, hentry, text, hformat, htext⟩

/-- A number of units that is an integral number of base units is converted without rounding, if the
multiplier divides the number of the next smaller units in a unit. -/
theorem convertToBaseUnit_of_ratio {baseUnit : Option (List Char)} {k : ℤ} {plain : List Char}
    (hsplit : splitBaseUnit baseUnit = (k, plain)) (hk : k ≠ 0) {unit : List Char} {factor : ℚ}
    (hfactor : factor? unit plain = some factor)
    (hratio : ∀ smaller, smaller? unit plain = some smaller →
      ∃ c : ℤ, factor = c * smaller ∧ k ∣ c) {v q : ℤ} (hvalue : (v * k : ℚ) = q * factor) :
    convertToBaseUnit q unit baseUnit = some (some (v : ℚ)) := by
  have hk' : (k : ℚ) ≠ 0 := Int.cast_ne_zero.mpr hk
  have hexact : (q : ℚ) * (factor / k) = v := by
    rw [← mul_div_assoc, ← hvalue, mul_div_cancel_right₀ _ hk']
  simp only [convertToBaseUnit, hsplit, hfactor, if_neg hk, hexact]
  cases hsmaller : smaller? unit plain with
  | none => rfl
  | some smaller =>
      obtain ⟨c, hc, d, rfl⟩ := hratio smaller hsmaller
      have hpos := smaller?_pos hsmaller
      have hmultiple : (v : ℚ) = ((q * d : ℤ) : ℚ) * smaller := by
        refine mul_right_cancel₀ hk' ?_
        rw [hvalue, hc]
        push_cast
        ring
      simp only
      rw [hmultiple, mul_div_cancel_right₀ _ hpos.ne', Rounding.roundEven_intCast]

/-- A base unit, or one of memory with a power of two up to 1024 in front of it. -/
inductive IsBaseUnit : List Char → Prop
  | plain {unit : List Char} (h : unit ∈ baseUnits) : IsBaseUnit unit
  | multiple {unit : List Char} (h : unit ∈ ["B".toList, "kB".toList, "MB".toList]) {i : ℕ}
      (hi : i ≤ 10) : IsBaseUnit (Nat.toDigits 10 (2 ^ i) ++ unit)

/-- The multiplier of a base unit divides the numbers of the next smaller units. -/
theorem IsBaseUnit.split {base : List Char} (h : IsBaseUnit base) :
    ∃ k plain, splitBaseUnit (some base) = (k, plain) ∧ 0 < k ∧ plain ∈ baseUnits ∧
      ∀ unit factor smaller, factor? unit plain = some factor →
        smaller? unit plain = some smaller → ∃ c : ℤ, factor = c * smaller ∧ k ∣ c := by
  have hplain : ∀ unit ∈ baseUnits, splitBaseUnit (some unit) = (1, unit) := by decide +kernel
  cases h with
  | plain hunit =>
      refine ⟨1, base, hplain base hunit, by decide, hunit, ?_⟩
      intro unit factor smaller hfactor hsmaller
      obtain ⟨c, hc, -⟩ := exists_ratio hunit hfactor hsmaller
      exact ⟨c, hc, one_dvd c⟩
  | @multiple unit hunit i hi =>
      have hnames : ∀ unit ∈ ["B".toList, "kB".toList, "MB".toList], unit ∈ baseUnits ∧
          ∃ entry ∈ memoryUnitConversionTable ++ timeUnitConversionTable, entry.1 = unit := by
        decide +kernel
      obtain ⟨hbase, entry, hentry, rfl⟩ := hnames unit hunit
      have hsplit : splitBaseUnit (some (Nat.toDigits 10 (2 ^ i) ++ entry.1)) =
          (((2 ^ i : ℕ) : ℤ), entry.1) := by
        simp only [splitBaseUnit, Option.getD_some,
          strtol_toDigits (Nat.two_pow_pos i) (isUnit_of_mem hentry)]
      refine ⟨_, _, hsplit, by exact_mod_cast Nat.two_pow_pos i, hbase, ?_⟩
      intro unit factor smaller hfactor hsmaller
      obtain ⟨c, hc, hmemory⟩ := exists_ratio hbase hfactor hsmaller
      refine ⟨c, hc, ?_⟩
      rw [hmemory hunit]
      exact_mod_cast pow_dvd_pow 2 hi

/-- `parse_int(convert_int_from_base_unit(v, base), base) = v` -/
theorem parseInt_convertIntFromBaseUnit {base : List Char} (hbase : IsBaseUnit base) {v : ℤ}
    (hv : 0 < v) :
    ∃ text, convertIntFromBaseUnit v (some base) = some text ∧
      parseInt text (some base) = some (some v) := by
  obtain ⟨k, plain, hsplit, hk, hplain, hratio⟩ := hbase.split
  obtain ⟨entry, hentry, text, hformat, htext⟩ := exists_convertIntFromBaseUnit hsplit hplain v
  obtain ⟨factor, q, hfactor, hvalue, rfl⟩ := exists_of_formatIn hplain hentry hformat
  refine ⟨_, htext, ?_⟩
  have hunit := isUnit_of_mem (mem_getConversionTable hentry)
  rw [Int.cast_mul] at hvalue
  have hq : 0 < q := by
    have hproduct : (0 : ℚ) < q * factor := by
      rw [← hvalue]
      exact_mod_cast mul_pos hv hk
    exact_mod_cast pos_of_mul_pos_left hproduct (factor?_pos hfactor).le
  obtain ⟨n, rfl⟩ := Int.eq_ofNat_of_zero_le hq.le
  have hstrtol := strtol_toDigits (Int.natCast_pos.mp hq) hunit true
  have hconvert := convertToBaseUnit_of_ratio hsplit hk.ne' hfactor
    (fun smaller => hratio _ _ smaller hfactor) hvalue
  have hletter : ¬entry.1.head?.any (· ∈ ['.', 'e', 'E']) = true := by
    obtain ⟨c, hc, -, hnot⟩ := hunit.head
    rw [hc, Option.any_some, decide_eq_true_iff]
    exact hnot
  change parseInt (Nat.toDigits 10 n ++ entry.1) (some base) = _
  have hcondition : ¬(some (n : ℤ) = none ∧ entry.1.head? = some '.' ∨
      entry.1.head?.any (· ∈ ['.', 'e', 'E']) = true) := by
    rintro (⟨hnone, -⟩ | hmem)
    · cases hnone
    · exact hletter hmem
  simp only [parseInt, hstrtol, if_neg hcondition, Option.map_some, hunit.trimmed.strip_eq,
    if_neg hunit.ne_nil]
  rw [hconvert]
  simp only [Option.map_some, Rounding.roundEven_intCast]

/-- 4 times 256 MB are 1 GB. -/
theorem parseInt_convertIntFromBaseUnit_gigabyte :
    ∃ text, convertIntFromBaseUnit 4 (some "256MB".toList) = some text ∧
      parseInt text (some "256MB".toList) = some (some 4) :=
  parseInt_convertIntFromBaseUnit (@IsBaseUnit.multiple "MB".toList (by decide) 8 (by decide))
    (by decide)

end Units

end Metatroni
