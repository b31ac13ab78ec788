import Metatroni.Lib.PyValue

/-!
# JSON texts

`json.dumps` without blanks and with all characters in ASCII, and `json.loads`. What
was written is read back: every value without floating-point numbers comes out as
it went in.

## Implementation notes

The reader has a bound on the depth of its calls, for which the length of the text
is always enough. The escape of a lone surrogate is not read, since it is no
character here.
-/

namespace Json

open PyValue (intText hexText)

variable {φ : Type}

/-! ## Writing -/

/-- The characters that have an escape of two characters, with its second one. -/
def escapes : List (Char × Char) :=
  [('"', '"'), ('\\', '\\'), ('\n', 'n'), ('\r', 'r'), ('\t', 't'), ('\x0c', 'f'), ('\x08', 'b')]

/-- A character between the quotes of a text. -/
def escape (c : Char) : List Char :=
  match Assoc.get c escapes with
  | some e => ['\\', e]
  | none =>
      if 0x20 ≤ c.toNat ∧ c.toNat ≤ 0x7e then [c]
      else if c.toNat < 0x10000 then '\\' :: 'u' :: hexText 4 c.toNat
      else
        -- two surrogates
        '\\' :: 'u' :: hexText 4 (0xd800 + (c.toNat - 0x10000) / 0x400) ++
          '\\' :: 'u' :: hexText 4 (0xdc00 + (c.toNat - 0x10000) % 0x400)

def quote (s : List Char) : List Char := '"' :: s.flatMap escape ++ ['"']

section Dumps

variable [PyRuntime φ]

mutual

/-- `json.dumps(value, separators=(',', ':'))` -/
def dumps : PyValue φ → List Char
  | .none => "null".toList
  | .bool true => "true".toList
  | .bool false => "false".toList
  | .int n => intText n
  | .float x => PyRuntime.reprFloat x
  | .str s => quote s
  | .list items => '[' :: dumpsItems items ++ [']']
  | .dict entries => '{' :: dumpsEntries entries ++ ['}']

def dumpsItems : List (PyValue φ) → List Char
  | [] => []
  | [v] => dumps v
  | v :: w :: vs => dumps v ++ ',' :: dumpsItems (w :: vs)

def dumpsEntries : PyDict φ → List Char
  | [] => []
  | [(k, v)] => quote k ++ ':' :: dumps v
  | (k, v) :: e :: es => quote k ++ ':' :: dumps v ++ ',' :: dumpsEntries (e :: es)

end

end Dumps

/-! ## Reading -/

/-- The blanks between the parts of a text. -/
def skip (cs : List Char) : List Char := cs.dropWhile (· ∈ [' ', '\t', '\n', '\r'])

/-- The value of a hexadecimal digit. -/
def hexDigit? (c : Char) : Option ℕ :=
  if c.isDigit then some (c.toNat - 48)
  else if 'a' ≤ c ∧ c ≤ 'f' then some (c.toNat - 87)
  else if 'A' ≤ c ∧ c ≤ 'F' then some (c.toNat - 55)
  else none

/-- Four hexadecimal digits. -/
def hex4 : List Char → Option (ℕ × List Char)
  | a :: b :: c :: d :: cs => do
      let a ← hexDigit? a
      let b ← hexDigit? b
      let c ← hexDigit? c
      let d ← hexDigit? d
      pure (((a * 16 + b) * 16 + c) * 16 + d, cs)
  | _ => none

def isHighSurrogate (n : ℕ) : Bool := 0xd800 ≤ n ∧ n ≤ 0xdbff

def isLowSurrogate (n : ℕ) : Bool := 0xdc00 ≤ n ∧ n ≤ 0xdfff

/-- The character behind `\u`. -/
def unicode (cs : List Char) : Option (Char × List Char) := do
  let (high, cs) ← hex4 cs
  if isHighSurrogate high then
    match cs with
    | '\\' :: 'u' :: cs =>
        let (low, cs) ← hex4 cs
        if isLowSurrogate low then
          pure (.ofNat (0x10000 + (high - 0xd800) * 0x400 + (low - 0xdc00)), cs)
        else none
    | _ => none
  else if isLowSurrogate high then none
  else pure (.ofNat high, cs)

/-- The second characters of the escapes, with what they stand for. -/
def unescapes : List (Char × Char) := ('/', '/') :: escapes.map Prod.swap

/-- The character behind a backslash. -/
def unescape : List Char → Option (Char × List Char)
  | [] => none
  | e :: cs => if e = 'u' then unicode cs else (Assoc.get e unescapes).map fun d => (d, cs)

/-- One character of a text. Control characters have to be escaped. -/
def scanChar (c : Char) (cs : List Char) : Option (Char × List Char) :=
  if c = '\\' then unescape cs
  else if c.toNat < 0x20 then none
  else some (c, cs)

/-- The rest of a text behind its first quote. -/
def scanString : ℕ → List Char → Option (List Char × List Char)
  | 0, _ => none
  | _ + 1, [] => none
  | fuel + 1, c :: cs =>
      if c = '"' then some ([], cs)
      else do
        let (d, cs) ← scanChar c cs
        let (s, cs) ← scanString fuel cs
        pure (d :: s, cs)

/-- The digits at the start. -/
def digits (cs : List Char) : List Char × List Char :=
  (cs.takeWhile Char.isDigit, cs.dropWhile Char.isDigit)

def sign : List Char → List Char × List Char
  | '-' :: cs => (['-'], cs)
  | cs => ([], cs)

def integral : List Char → Option (List Char × List Char)
  | '0' :: cs => some (['0'], cs)
  | cs => if (digits cs).1 = [] then none else some (digits cs)

def fraction : List Char → List Char × List Char
  | '.' :: cs =>
      if (digits cs).1 = [] then ([], '.' :: cs) else ('.' :: (digits cs).1, (digits cs).2)
  | cs => ([], cs)

def exponent : List Char → List Char × List Char
  | [] => ([], [])
  | e :: cs =>
      if e = 'e' ∨ e = 'E' then
        let (sign, body) : List Char × List Char :=
          match cs with
          | '+' :: cs => (['+'], cs)
          | '-' :: cs => (['-'], cs)
          | cs => ([], cs)
        if (digits body).1 = [] then ([], e :: cs)
        else (e :: sign ++ (digits body).1, (digits body).2)
      else ([], e :: cs)

/-- A text that is there at the start. -/
def constant (word : List Char) (v : PyValue φ) (cs : List Char) : Option (PyValue φ × List Char) :=
  if word <+: cs then some (v, cs.drop word.length) else none

variable [PyRuntime φ]

def number (cs : List Char) : Option (PyValue φ × List Char) := do
  let (sign, cs) := sign cs
  let (whole, cs) ← integral cs
  let (frac, cs) := fraction cs
  let (exp, cs) := exponent cs
  if frac = [] ∧ exp = [] then
    let n : ℤ := Text.ofDecimals whole
    pure (.int (if sign = [] then n else -n), cs)
  else pure (.float (PyRuntime.float (sign ++ whole ++ frac ++ exp)), cs)

/-- A literal with `PyRuntime.float` as value. -/
def floatConstant (word : List Char) : List Char → Option (PyValue φ × List Char) :=
  constant word (.float (PyRuntime.float word))

def literal (cs : List Char) : Option (PyValue φ × List Char) :=
  constant "null".toList .none cs <|> constant "true".toList (.bool true) cs <|>
    constant "false".toList (.bool false) cs <|> number cs <|>
    floatConstant "NaN".toList cs <|> floatConstant "Infinity".toList cs <|>
    floatConstant "-Infinity".toList cs

mutual

/-- `scan_once` -/
def scanValue : ℕ → List Char → Option (PyValue φ × List Char)
  | 0, _ => none
  | _ + 1, [] => none
  | fuel + 1, c :: cs =>
      if c = '"' then (scanString cs.length cs).map fun (s, cs) => (.str s, cs)
      else if c = '{' then
        match skip cs with
        | '}' :: cs => some (.dict [], cs)
        | cs => (scanEntries fuel cs).map fun (entries, cs) => (.dict (Assoc.ofPairs entries), cs)
      else if c = '[' then
        match skip cs with
        | ']' :: cs => some (.list [], cs)
        | cs => (scanItems fuel cs).map fun (items, cs) => (.list items, cs)
      else literal (c :: cs)

def scanItems : ℕ → List Char → Option (List (PyValue φ) × List Char)
  | 0, _ => none
  | fuel + 1, cs => do
      let (v, cs) ← scanValue fuel cs
      match skip cs with
      | ']' :: cs => pure ([v], cs)
      | ',' :: cs =>
          let (vs, cs) ← scanItems fuel (skip cs)
          pure (v :: vs, cs)
      | _ => none

def scanEntries : ℕ → List Char → Option (PyDict φ × List Char)
  | 0, _ => none
  | fuel + 1, '"' :: cs => do
      let (k, cs) ← scanString cs.length cs
      match skip cs with
      | ':' :: cs =>
          let (v, cs) ← scanValue fuel (skip cs)
          match skip cs with
          | '}' :: cs => pure ([(k, v)], cs)
          | ',' :: cs =>
              let (es, cs) ← scanEntries fuel (skip cs)
              pure ((k, v) :: es, cs)
          | _ => none
      | _ => none
  | _ + 1, _ => none

end

/-- `json.loads(text)`; `none` where it raises. -/
def loads (cs : List Char) : Option (PyValue φ) :=
  match scanValue cs.length (skip cs) with
  | some (v, rest) => if skip rest = [] then some v else none
  | none => none

/-! ## What was written is read -/

section Texts

theorem hexDigit?_digitChar : ∀ d < 16, hexDigit? (Nat.digitChar d) = some d := by decide

theorem hex4_hexText {n : ℕ} (h : n < 0x10000) (rest : List Char) :
    hex4 (hexText 4 n ++ rest) = some (n, rest) := by
  have hdigit : ∀ m, hexDigit? (Nat.digitChar (m % 16)) = some (m % 16) := fun m =>
    hexDigit?_digitChar _ (Nat.mod_lt _ (by decide))
  have hsum : (n / 16 / 16 / 16 % 16 * 16 + n / 16 / 16 % 16) * 16 + n / 16 % 16 =
      n / 16 := by omega
  simp only [hexText, List.nil_append, List.cons_append, hex4, hdigit, Option.bind_eq_bind,
    Option.bind_some, hsum, Nat.div_add_mod']
  rfl

theorem unicode_hexText {c : Char} (h : c.toNat < 0x10000) (rest : List Char) :
    unicode (hexText 4 c.toNat ++ rest) = some (c, rest) := by
  have hvalid : c.toNat < 0xd800 ∨ 0xdfff < c.toNat ∧ c.toNat < 0x110000 := c.valid
  have hhigh : isHighSurrogate c.toNat = false := by
    rw [isHighSurrogate, decide_eq_false_iff_not]
    omega
  have hlow : isLowSurrogate c.toNat = false := by
    rw [isLowSurrogate, decide_eq_false_iff_not]
    omega
  rw [unicode, hex4_hexText h]
  simp only [Option.bind_eq_bind, Option.bind_some, hhigh, hlow, Bool.false_eq_true, if_false,
    Char.ofNat_toNat, Option.pure_def]

/-- A character beyond the first plane is read from its two surrogates. -/
theorem unicode_surrogates {c : Char} {high low : ℕ} (hhigh : isHighSurrogate high = true)
    (hlow : isLowSurrogate low = true)
    (hsum : 0x10000 + (high - 0xd800) * 0x400 + (low - 0xdc00) = c.toNat) (rest : List Char) :
    unicode (hexText 4 high ++ '\\' :: 'u' :: (hexText 4 low ++ rest)) = some (c, rest) := by
  have hhigh' : high < 0x10000 := by
    rw [isHighSurrogate, decide_eq_true_eq] at hhigh
    omega
  have hlow' : low < 0x10000 := by
    rw [isLowSurrogate, decide_eq_true_eq] at hlow
    omega
  rw [unicode, hex4_hexText hhigh']
  simp only [Option.bind_eq_bind, Option.bind_some, hhigh, if_true, hex4_hexText hlow', hlow, hsum,
    Char.ofNat_toNat, Option.pure_def]

/-- The written form of a character is read as one character, and does not start with a quote. -/
theorem scanChar_escape (c : Char) (rest : List Char) :
    ∃ first cs, escape c ++ rest = first :: cs ∧ first ≠ '"' ∧
      scanChar first cs = some (c, rest) := by
  rw [escape]
  split
  · next e he =>
      have htable : escapes.all
          (fun p => p.2 ≠ 'u' ∧ Assoc.get p.2 unescapes = some p.1) = true := by decide
      obtain ⟨hu, hget⟩ := of_decide_eq_true (List.all_eq_true.mp htable _ (Assoc.mem_of_get he))
      refine ⟨'\\', e :: rest, rfl, by decide, ?_⟩
      rw [scanChar, if_pos rfl, unescape, if_neg hu, hget, Option.map_some]
  · next hnone =>
      split
      · next hascii =>
          have hplain : c ≠ '"' ∧ c ≠ '\\' := by
            constructor <;> (rintro rfl; revert hnone; decide)
          refine ⟨c, rest, rfl, hplain.1, ?_⟩
          rw [scanChar, if_neg hplain.2, if_neg (by omega)]
      · split
        · next hsmall =>
            refine ⟨'\\', 'u' :: (hexText 4 c.toNat ++ rest), rfl, by decide, ?_⟩
            rw [scanChar, if_pos rfl, unescape, if_pos rfl, unicode_hexText hsmall]
        · next hlarge =>
            have hvalid : c.toNat < 0xd800 ∨ 0xdfff < c.toNat ∧ c.toNat < 0x110000 := c.valid
            simp only [List.cons_append, List.append_assoc]
            refine ⟨'\\', _, rfl, by decide, ?_⟩
            rw [scanChar, if_pos rfl, unescape, if_pos rfl]
            refine unicode_surrogates ?_ ?_ ?_ rest
            · rw [isHighSurrogate, decide_eq_true_eq]
              omega
            · rw [isLowSurrogate, decide_eq_true_eq]
              omega
            · omega

/-- Reading a text behind its first quote. -/
theorem scanString_quote (s : List Char) {fuel : ℕ} (hfuel : (s.flatMap escape).length < fuel)
    (rest : List Char) : scanString fuel (s.flatMap escape ++ '"' :: rest) = some (s, rest) := by
  induction s generalizing fuel with
  | nil =>
      cases fuel with
      | zero => cases hfuel
      | succ fuel => rfl
  | cons c s ih =>
      cases fuel with
      | zero => cases hfuel
      | succ fuel =>
          obtain ⟨first, cs, hcs, hfirst, hscan⟩ :=
            scanChar_escape c (s.flatMap escape ++ '"' :: rest)
          rw [List.flatMap_cons, List.append_assoc, hcs, scanString, if_neg hfirst, hscan]
          have hlength := congrArg List.length hcs
          rw [List.flatMap_cons] at hfuel
          have hpos : 0 < (escape c).length := by
            rw [escape]
            split
            · simp
            · split
              · simp
              · split <;> simp
          simp only [List.length_append] at hfuel
          simp only [Option.bind_eq_bind, Option.bind_some, ih (by omega : _ < fuel)]
          rfl

end Texts
section Values

/-- What may stand behind a value. -/
def Ends (rest : List Char) : Prop := ∀ c ∈ rest.head?, c ∈ [',', ']', '}']

theorem skip_cons {c : Char} (h : c ∉ [' ', '\t', '\n', '\r']) (cs : List Char) :
    skip (c :: cs) = c :: cs :=
  List.dropWhile_cons_of_neg (by simpa using h)

theorem digits_append {word rest : List Char} (hword : ∀ c ∈ word, c.isDigit = true)
    (hrest : Ends rest) : digits (word ++ rest) = (word, rest) := by
  have hstop : ∀ c ∈ rest.head?, c.isDigit = false := by
    intro c hc
    have hends := hrest c hc
    simp only [List.mem_cons, List.not_mem_nil, or_false] at hends
    rcases hends with rfl | rfl | rfl <;> rfl
  rw [digits, Text.takeWhile_append_stop hword hstop, Text.dropWhile_append_stop hword hstop]

theorem fraction_of_ends {rest : List Char} (h : Ends rest) : fraction rest = ([], rest) := by
  rw [fraction.eq_def]
  split
  · next cs => exact absurd (h '.' rfl) (by decide)
  · rfl

theorem exponent_of_ends {rest : List Char} (h : Ends rest) : exponent rest = ([], rest) := by
  cases rest with
  | nil => rfl
  | cons c cs =>
      rw [exponent.eq_def]
      refine if_neg ?_
      rintro (rfl | rfl)
      · exact absurd (h 'e' rfl) (by decide)
      · exact absurd (h 'E' rfl) (by decide)

theorem isDigit_of_mem_toDigits {n : ℕ} : ∀ c ∈ Nat.toDigits 10 n, c.isDigit = true :=
  fun _ hc => Nat.isDigit_of_mem_toDigits (by decide) (by decide) hc

theorem head?_toDigits_append (n : ℕ) (rest : List Char) :
    (Nat.toDigits 10 n ++ rest).head? = (Nat.toDigits 10 n).head? :=
  List.head?_append_of_ne_nil _ Nat.toDigits_ne_nil

/-- A number other than zero does not start with a zero. -/
theorem head?_toDigits_ne_zero {n : ℕ} (h : 0 < n) : (Nat.toDigits 10 n).head? ≠ some '0' := by
  induction n using Nat.strongRecOn with
  | ind n ih =>
      by_cases hlt : n < 10
      · rw [Nat.toDigits_of_lt_base hlt]
        have hdigit : ∀ d < 10, 0 < d → [Nat.digitChar d].head? ≠ some '0' := by decide
        exact hdigit n hlt h
      · rw [Nat.toDigits_of_base_le (by decide) (by omega), head?_toDigits_append]
        exact ih (n / 10) (by omega) (by omega)

theorem integral_toDigits (n : ℕ) {rest : List Char} (h : Ends rest) :
    integral (Nat.toDigits 10 n ++ rest) = some (Nat.toDigits 10 n, rest) := by
  rcases Nat.eq_zero_or_pos n with rfl | hpos
  · rw [Nat.toDigits_zero]
    rfl
  · rw [integral.eq_def]
    split
    · next cs hcs =>
        refine absurd ?_ (head?_toDigits_ne_zero hpos)
        rw [← head?_toDigits_append n rest, hcs]
        rfl
    · rw [digits_append isDigit_of_mem_toDigits h, if_neg Nat.toDigits_ne_nil]

theorem sign_toDigits (n : ℕ) (rest : List Char) :
    sign (Nat.toDigits 10 n ++ rest) = ([], Nat.toDigits 10 n ++ rest) := by
  rw [sign.eq_def]
  split
  · next cs hcs =>
      have hhead : (Nat.toDigits 10 n).head? = some '-' := by
        rw [← head?_toDigits_append n rest, hcs]
        rfl
      exact absurd (isDigit_of_mem_toDigits _ (List.mem_of_mem_head? hhead)) (by decide)
  · rfl

theorem number_intText (n : ℤ) {rest : List Char} (h : Ends rest) :
    number (intText n ++ rest) = (some (.int n, rest) : Option (PyValue φ × List Char)) := by
  cases n with
  | ofNat n =>
      simp only [intText, number, sign_toDigits, integral_toDigits n h, Option.bind_eq_bind,
        Option.bind_some, fraction_of_ends h, exponent_of_ends h, Text.ofDecimals_toDigits,
        and_self, if_true, Option.pure_def, Int.ofNat_eq_natCast]
  | negSucc n =>
      have hsign : sign ('-' :: (Nat.toDigits 10 (n + 1) ++ rest)) =
        (['-'], Nat.toDigits 10 (n + 1) ++ rest) := rfl
      simp only [intText, List.cons_append, number, hsign, integral_toDigits (n + 1) h,
        Option.bind_eq_bind, Option.bind_some, fraction_of_ends h, exponent_of_ends h,
        Text.ofDecimals_toDigits, and_self, if_true, Option.pure_def, List.cons_ne_nil, if_false]
      rfl

omit [PyRuntime φ] in
theorem constant_append (word : List Char) (v : PyValue φ) (rest : List Char) :
    constant word v (word ++ rest) = some (v, rest) := by
  rw [constant, if_pos (List.prefix_append word rest), List.drop_left]

omit [PyRuntime φ] in
theorem constant_of_head_ne {c d : Char} (h : c ≠ d) (word cs : List Char) (v : PyValue φ) :
    constant (c :: word) v (d :: cs) = none :=
  if_neg fun hpre => h (List.cons_prefix_cons.mp hpre).1

theorem scanValue_literal {c : Char} (h : c ≠ '"' ∧ c ≠ '{' ∧ c ≠ '[') (fuel : ℕ)
    (cs : List Char) :
    scanValue (fuel + 1) (c :: cs) = (literal (c :: cs) : Option (PyValue φ × List Char)) := by
  rw [scanValue, if_neg h.1, if_neg h.2.1, if_neg h.2.2]

theorem literal_null (rest : List Char) :
    literal ("null".toList ++ rest) = (some (.none, rest) : Option (PyValue φ × List Char)) := by
  rw [literal, constant_append]
  rfl

theorem literal_true (rest : List Char) :
    literal ("true".toList ++ rest) =
      (some (.bool true, rest) : Option (PyValue φ × List Char)) := by
  rw [literal, constant_append]
  change (constant ('n' :: _) _ ('t' :: _) <|> _) = _
  rw [constant_of_head_ne (by decide)]
  rfl

theorem literal_false (rest : List Char) :
    literal ("false".toList ++ rest) =
      (some (.bool false, rest) : Option (PyValue φ × List Char)) := by
  rw [literal, constant_append]
  change (constant ('n' :: _) _ ('f' :: _) <|> constant ('t' :: _) _ ('f' :: _) <|> _) = _
  rw [constant_of_head_ne (by decide), constant_of_head_ne (by decide)]
  rfl

/-- A number starts with a digit or a minus sign. -/
theorem intText_eq_cons (n : ℤ) :
    ∃ c cs, intText n = c :: cs ∧ ∀ d : Char, (d.isDigit || d == '-') = false → d ≠ c := by
  cases n with
  | ofNat n =>
      cases hdigits : Nat.toDigits 10 n with
      | nil => exact absurd hdigits Nat.toDigits_ne_nil
      | cons c cs =>
          refine ⟨c, cs, hdigits, ?_⟩
          rintro d hd rfl
          have hdigit : d.isDigit = true := by
            apply @isDigit_of_mem_toDigits n
            rw [hdigits]
            exact List.mem_cons_self
          rw [hdigit] at hd
          cases hd
  | negSucc n =>
      refine ⟨'-', _, rfl, ?_⟩
      rintro d hd rfl
      cases hd

theorem literal_intText (n : ℤ) {rest : List Char} (h : Ends rest) :
    literal (intText n ++ rest) = (some (.int n, rest) : Option (PyValue φ × List Char)) := by
  have hnumber := @number_intText φ _ n _ h
  obtain ⟨c, cs, hcs, hc⟩ := intText_eq_cons n
  rw [hcs, List.cons_append] at hnumber ⊢
  rw [literal, hnumber]
  change (constant ('n' :: _) _ _ <|> constant ('t' :: _) _ _ <|> constant ('f' :: _) _ _ <|> _) = _
  rw [constant_of_head_ne (hc 'n' rfl), constant_of_head_ne (hc 't' rfl),
    constant_of_head_ne (hc 'f' rfl)]
  rfl

mutual

/-- Values without floating-point numbers whose dictionaries have distinct keys. -/
def Exact : PyValue φ → Prop
  | .float _ => False
  | .list items => ExactItems items
  | .dict entries => (Assoc.keys entries).Nodup ∧ ExactEntries entries
  | _ => True

def ExactItems : List (PyValue φ) → Prop
  | [] => True
  | v :: vs => Exact v ∧ ExactItems vs

def ExactEntries : PyDict φ → Prop
  | [] => True
  | (_, v) :: es => Exact v ∧ ExactEntries es

end

omit [PyRuntime φ] in
theorem exactItems_iff {items : List (PyValue φ)} : ExactItems items ↔ ∀ v ∈ items, Exact v := by
  induction items with
  | nil => exact iff_of_true trivial (List.forall_mem_nil _)
  | cons v vs ih => rw [ExactItems, ih, List.forall_mem_cons]

omit [PyRuntime φ] in
theorem exactEntries_iff {entries : PyDict φ} :
    ExactEntries entries ↔ ∀ e ∈ entries, Exact e.2 := by
  induction entries with
  | nil => exact iff_of_true trivial (List.forall_mem_nil _)
  | cons e es ih => rw [ExactEntries, ih, List.forall_mem_cons]

/-- A written value does not start with a blank or the end of a list. -/
theorem dumps_eq_cons {v : PyValue φ} (h : Exact v) :
    ∃ c cs, dumps v = c :: cs ∧ c ∉ [' ', '\t', '\n', '\r'] ∧ c ≠ ']' := by
  cases v with
  | none => exact ⟨'n', _, by rw [dumps]; rfl, by decide⟩
  | bool b =>
      cases b with
      | true => exact ⟨'t', _, by rw [dumps]; rfl, by decide⟩
      | false => exact ⟨'f', _, by rw [dumps]; rfl, by decide⟩
  | int n =>
      obtain ⟨c, cs, hcs, hc⟩ := intText_eq_cons n
      refine ⟨c, cs, by rw [dumps, hcs], ?_, (hc ']' rfl).symm⟩
      simp only [List.mem_cons, List.not_mem_nil, or_false, not_or]
      exact ⟨(hc ' ' rfl).symm, (hc '\t' rfl).symm, (hc '\n' rfl).symm, (hc '\r' rfl).symm⟩
  | float x => exact absurd h (by simp [Exact])
  | str s => exact ⟨'"', _, by rw [dumps, quote, List.cons_append], by decide⟩
  | list items => exact ⟨'[', _, by rw [dumps, List.cons_append], by decide⟩
  | dict entries => exact ⟨'{', _, by rw [dumps, List.cons_append], by decide⟩

theorem dumpsItems_eq_cons {v : PyValue φ} {vs : List (PyValue φ)} (h : ExactItems (v :: vs)) :
    ∃ c cs, dumpsItems (v :: vs) = c :: cs ∧ c ∉ [' ', '\t', '\n', '\r'] ∧ c ≠ ']' := by
  rw [ExactItems] at h
  obtain ⟨c, cs, hcs, hc⟩ := dumps_eq_cons h.1
  cases vs with
  | nil => exact ⟨c, cs, by rw [dumpsItems, hcs], hc⟩
  | cons w vs => exact ⟨c, _, by rw [dumpsItems, hcs, List.cons_append], hc⟩

theorem dumpsEntries_eq_cons (e : List Char × PyValue φ) (es : PyDict φ) :
    ∃ cs, dumpsEntries (e :: es) = '"' :: cs := by
  obtain ⟨k, v⟩ := e
  cases es with
  | nil => exact ⟨_, by rw [dumpsEntries, quote, List.cons_append, List.cons_append]⟩
  | cons e es =>
      exact ⟨_, by rw [dumpsEntries, quote, List.cons_append, List.cons_append, List.cons_append]⟩

theorem ends_cons {c : Char} (h : c ∈ [',', ']', '}']) (rest : List Char) : Ends (c :: rest) := by
  rintro d hd
  rw [List.head?_cons, Option.mem_some_iff] at hd
  exact hd ▸ h

theorem scanString_quote_append (s : List Char) (rest : List Char) :
    scanString (s.flatMap escape ++ '"' :: rest).length (s.flatMap escape ++ '"' :: rest) =
      some (s, rest) :=
  scanString_quote s (by simp) rest

mutual

/-- Reading a written value gives it back. -/
theorem scanValue_dumps : ∀ (v : PyValue φ) (fuel : ℕ) (rest : List Char), Exact v →
    (dumps v).length ≤ fuel → Ends rest → scanValue fuel (dumps v ++ rest) = some (v, rest)
  | v, 0, _, hexact, hfuel, _ => by
      obtain ⟨c, cs, hcs, -⟩ := dumps_eq_cons hexact
      rw [hcs] at hfuel
      cases hfuel
  | .none, fuel + 1, rest, _, _, _ => by
      rw [dumps]
      exact (scanValue_literal (by decide) fuel _).trans (literal_null rest)
  | .bool true, fuel + 1, rest, _, _, _ => by
      rw [dumps]
      exact (scanValue_literal (by decide) fuel _).trans (literal_true rest)
  | .bool false, fuel + 1, rest, _, _, _ => by
      rw [dumps]
      exact (scanValue_literal (by decide) fuel _).trans (literal_false rest)
  | .int n, fuel + 1, rest, _, _, hends => by
      obtain ⟨c, cs, hcs, hc⟩ := intText_eq_cons n
      have hliteral := @literal_intText φ _ n _ hends
      rw [dumps]
      rw [hcs] at hliteral ⊢
      exact (scanValue_literal ⟨(hc '"' rfl).symm, (hc '\x7b' rfl).symm, (hc '[' rfl).symm⟩
        fuel _).trans hliteral
  | .float x, _ + 1, _, hexact, _, _ => absurd hexact (by simp [Exact])
  | .str s, fuel + 1, rest, _, _, _ => by
      rw [dumps, quote, List.append_assoc, List.cons_append, scanValue, if_pos rfl]
      rw [List.singleton_append, scanString_quote_append, Option.map_some]
  | .list [], fuel + 1, rest, _, _, _ => by
      rw [dumps, dumpsItems]
      rfl
  | .list (v :: vs), fuel + 1, rest, hexact, hfuel, _ => by
      rw [Exact] at hexact
      obtain ⟨c, cs, hcs, hblank, hclose⟩ := dumpsItems_eq_cons hexact
      rw [dumps, List.length_append, List.length_cons, List.length_singleton] at hfuel
      have hitems := scanItems_dumps v vs fuel rest hexact (by omega)
      rw [dumps, List.append_assoc, List.singleton_append, List.cons_append, scanValue,
        if_neg (by decide), if_neg (by decide), if_pos rfl]
      rw [hcs, List.cons_append] at hitems ⊢
      rw [skip_cons hblank]
      split
      · next heq => exact absurd (List.cons.inj heq).1 hclose
      · rw [hitems, Option.map_some]
  | .dict [], fuel + 1, rest, _, _, _ => by
      rw [dumps, dumpsEntries]
      rfl
  | .dict (e :: es), fuel + 1, rest, hexact, hfuel, _ => by
      rw [Exact] at hexact
      obtain ⟨cs, hcs⟩ := dumpsEntries_eq_cons e es
      rw [dumps, List.length_append, List.length_cons, List.length_singleton] at hfuel
      have hentries := scanEntries_dumps e es fuel rest hexact.2 (by omega)
      rw [dumps, List.append_assoc, List.singleton_append, List.cons_append, scanValue,
        if_neg (by decide), if_pos rfl]
      rw [hcs, List.cons_append] at hentries ⊢
      rw [skip_cons (by decide)]
      split
      · next heq => exact absurd (List.cons.inj heq).1 (by decide)
      · simp only [hentries, Option.map_some, Assoc.ofPairs_of_nodup hexact.1]

theorem scanItems_dumps : ∀ (v : PyValue φ) (vs : List (PyValue φ)) (fuel : ℕ) (rest : List Char),
    ExactItems (v :: vs) → (dumpsItems (v :: vs)).length < fuel →
      scanItems fuel (dumpsItems (v :: vs) ++ ']' :: rest) = some (v :: vs, rest)
  | _, _, 0, _, _, hfuel => absurd hfuel (Nat.not_lt_zero _)
  | v, [], fuel + 1, rest, hexact, hfuel => by
      rw [dumpsItems] at hfuel ⊢
      rw [ExactItems] at hexact
      rw [scanItems, scanValue_dumps v fuel _ hexact.1 (by omega) (ends_cons (by decide) rest)]
      simp only [Option.bind_eq_bind, Option.bind_some, skip_cons (c := ']') (by decide)]
      rfl
  | v, w :: vs, fuel + 1, rest, hexact, hfuel => by
      rw [dumpsItems, List.length_append, List.length_cons] at hfuel
      rw [ExactItems] at hexact
      have hitems := scanItems_dumps w vs fuel rest hexact.2 (by omega)
      have hskip : skip (dumpsItems (w :: vs) ++ ']' :: rest) =
          dumpsItems (w :: vs) ++ ']' :: rest := by
        obtain ⟨c, cs, hcs, hblank, -⟩ := dumpsItems_eq_cons hexact.2
        rw [hcs, List.cons_append, skip_cons hblank]
      rw [dumpsItems, List.append_assoc, List.cons_append, scanItems,
        scanValue_dumps v fuel _ hexact.1 (by omega) (ends_cons (by decide) _)]
      simp only [Option.bind_eq_bind, Option.bind_some, skip_cons (c := ',') (by decide), hskip,
        hitems]
      rfl

theorem scanEntries_dumps : ∀ (e : List Char × PyValue φ) (es : PyDict φ) (fuel : ℕ)
    (rest : List Char), ExactEntries (e :: es) → (dumpsEntries (e :: es)).length < fuel →
      scanEntries fuel (dumpsEntries (e :: es) ++ '}' :: rest) = some (e :: es, rest)
  | _, _, 0, _, _, hfuel => absurd hfuel (Nat.not_lt_zero _)
  | (k, v), [], fuel + 1, rest, hexact, hfuel => by
      rw [ExactEntries] at hexact
      obtain ⟨c, cs, hcs, hblank, -⟩ := dumps_eq_cons hexact.1
      have hskip : skip (dumps v ++ '\x7d' :: rest) = dumps v ++ '\x7d' :: rest := by
        rw [hcs, List.cons_append, skip_cons hblank]
      rw [dumpsEntries, List.length_append, List.length_cons] at hfuel
      rw [dumpsEntries, quote, List.append_assoc, List.append_assoc, List.cons_append,
        List.singleton_append, List.cons_append, scanEntries, scanString_quote_append]
      simp only [Option.bind_eq_bind, Option.bind_some, skip_cons (c := ':') (by decide), hskip]
      rw [scanValue_dumps v fuel _ hexact.1 (by omega) (ends_cons (by decide) rest)]
      simp only [Option.bind_some, skip_cons (c := '\x7d') (by decide)]
      rfl
  | (k, v), e :: es, fuel + 1, rest, hexact, hfuel => by
      rw [ExactEntries] at hexact
      rw [dumpsEntries, List.length_append, List.length_append, List.length_cons,
        List.length_cons] at hfuel
      have hentries := scanEntries_dumps e es fuel rest hexact.2 (by omega)
      obtain ⟨c, cs, hcs, hblank, -⟩ := dumps_eq_cons hexact.1
      obtain ⟨cs', hcs'⟩ := dumpsEntries_eq_cons e es
      have hskip (rest : List Char) : skip (dumps v ++ rest) = dumps v ++ rest := by
        rw [hcs, List.cons_append, skip_cons hblank]
      have hskip' (rest : List Char) :
          skip (dumpsEntries (e :: es) ++ rest) = dumpsEntries (e :: es) ++ rest := by
        rw [hcs', List.cons_append, skip_cons (by decide)]
      simp only [dumpsEntries, quote, List.append_assoc, List.cons_append, List.nil_append]
      rw [scanEntries, scanString_quote_append]
      simp only [Option.bind_eq_bind, Option.bind_some, skip_cons (c := ':') (by decide), hskip]
      rw [scanValue_dumps v fuel _ hexact.1 (by omega) (ends_cons (by decide) _)]
      simp only [Option.bind_some, skip_cons (c := ',') (by decide), hskip', hentries]
      rfl

end

/-- `json.loads(json.dumps(value))` -/
theorem loads_dumps {v : PyValue φ} (h : Exact v) : loads (dumps v) = some v := by
  obtain ⟨c, cs, hcs, hblank, -⟩ := dumps_eq_cons h
  have hscan := scanValue_dumps v (dumps v).length [] h (Nat.le_refl _) nofun
  rw [List.append_nil, hcs] at hscan
  rw [loads, hcs, skip_cons hblank, hscan]
  rfl

end Values

end Json
