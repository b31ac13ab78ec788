import Mathlib.Data.List.Basic
import Mathlib.Data.Int.Notation

/-!
# Characters and numbers in texts

White space and decimal digits of Unicode, parts of texts, numbers in texts, and
where a scan over a list of characters stops.
-/

namespace Text

/-- The code points of white space. -/
def spaces : List ℕ :=
  [0x9, 0xa, 0xb, 0xc, 0xd, 0x1c, 0x1d, 0x1e, 0x1f, 0x20, 0x85, 0xa0, 0x1680, 0x2000, 0x2001,
    0x2002, 0x2003, 0x2004, 0x2005, 0x2006, 0x2007, 0x2008, 0x2009, 0x200a, 0x2028, 0x2029, 0x202f,
    0x205f, 0x3000]

def isSpace (c : Char) : Bool := spaces.contains c.toNat

/-- The zeros of the decimal systems. The other digits of each follow its zero. -/
def zeros : List ℕ :=
  [0x30, 0x660, 0x6f0, 0x7c0, 0x966, 0x9e6, 0xa66, 0xae6, 0xb66, 0xbe6, 0xc66, 0xce6, 0xd66, 0xde6,
    0xe50, 0xed0, 0xf20, 0x1040, 0x1090, 0x17e0, 0x1810, 0x1946, 0x19d0, 0x1a80, 0x1a90, 0x1b50,
    0x1bb0, 0x1c40, 0x1c50, 0xa620, 0xa8d0, 0xa900, 0xa9d0, 0xa9f0, 0xaa50, 0xabf0, 0xff10, 0x104a0,
    0x10d30, 0x11066, 0x110f0, 0x11136, 0x111d0, 0x112f0, 0x11450, 0x114d0, 0x11650, 0x116c0,
    0x11730, 0x118e0, 0x11950, 0x11c50, 0x11d50, 0x11da0, 0x16a60, 0x16ac0, 0x16b50, 0x1d7ce,
    0x1d7d8, 0x1d7e2, 0x1d7ec, 0x1d7f6, 0x1e140, 0x1e2f0, 0x1e950, 0x1fbf0]

/-- The value of a decimal digit. -/
def decimal? (c : Char) : Option ℕ :=
  (zeros.find? fun z => z ≤ c.toNat ∧ c.toNat < z + 10).map fun z => c.toNat - z

def isDecimal (c : Char) : Bool := (decimal? c).isSome

/-- The number that some decimal digits are. -/
def ofDecimals (digits : List Char) : ℕ :=
  digits.foldl (fun n c => 10 * n + (decimal? c).getD 0) 0

/-! ## Parts of texts -/

instance decidableMem (word : List Char) (words : List (List Char)) : Decidable (word ∈ words) :=
  List.instDecidableMemOfLawfulBEq word words

/-- A text without the white space at its end. -/
def rstrip (cs : List Char) : List Char := (cs.reverse.dropWhile isSpace).reverse

/-- A text without the white space at its ends. -/
def strip (cs : List Char) : List Char := rstrip (cs.dropWhile isSpace)

/-- A text without white space at its ends. -/
def IsTrimmed (cs : List Char) : Prop :=
  (∀ c ∈ cs.head?, isSpace c = false) ∧ ∀ c ∈ cs.getLast?, isSpace c = false

theorem IsTrimmed.strip_eq {cs : List Char} (h : IsTrimmed cs) : strip cs = cs := by
  have hdrop : ∀ cs : List Char, (∀ c ∈ cs.head?, isSpace c = false) →
      cs.dropWhile isSpace = cs := by
    intro cs hhead
    cases cs with
    | nil => rfl
    | cons c cs => exact List.dropWhile_cons_of_neg (by simp [hhead c rfl])
  rw [strip, hdrop cs h.1, rstrip, hdrop _ (by rw [List.head?_reverse]; exact h.2),
    List.reverse_reverse]

/-- What is before and behind the first place where a pattern occurs. -/
def breakOn (pattern : List Char) : List Char → Option (List Char × List Char)
  | [] => if pattern = [] then some ([], []) else none
  | c :: cs =>
      if pattern <+: c :: cs then some ([], (c :: cs).drop pattern.length)
      else (breakOn pattern cs).map fun (before, behind) => (c :: before, behind)

/-! ## Numbers -/

/-- The value of a digit: a decimal digit or a letter. -/
def digit? (base : ℕ) (c : Char) : Option ℕ :=
  let value := (decimal? c).or <|
    if c.isLower then some (c.toNat - 87) else if c.isUpper then some (c.toNat - 55) else none
  value.filter fun n => n < base

/-- Digits with single underscores between them. -/
def readDigits (base : ℕ) : Bool → ℕ → List Char → Option ℕ
  | afterDigit, n, [] => if afterDigit then some n else none
  | afterDigit, n, c :: cs =>
      if c = '_' then if afterDigit then readDigits base false n cs else none
      else
        match digit? base c with
        | none => none
        | some d => readDigits base true (base * n + d) cs

/-- A prefix such as `0x`, behind which one underscore may follow. -/
def skipPrefix (base : ℕ) : List Char → List Char
  | '0' :: x :: cs =>
      if base = 16 ∧ (x = 'x' ∨ x = 'X') then
        match cs with
        | '_' :: cs => cs
        | cs => cs
      else '0' :: x :: cs
  | cs => cs

/-- The integer that a text is, in base 10 or 16. -/
def int? (base : ℕ) (cs : List Char) : Option ℤ :=
  match strip cs with
  | '+' :: cs => (readDigits base false 0 (skipPrefix base cs)).map fun n => (n : ℤ)
  | '-' :: cs => (readDigits base false 0 (skipPrefix base cs)).map fun n => -(n : ℤ)
  | cs => (readDigits base false 0 (skipPrefix base cs)).map fun n => (n : ℤ)

/-- The digits of a number in upper case. -/
def upperHex (n : ℕ) : List Char := (Nat.toDigits 16 n).map Char.toUpper

section Classes

variable {c : Char}

theorem isUpper_iff : c.isUpper = true ↔ 65 ≤ c.toNat ∧ c.toNat ≤ 90 := by
  change decide (65 ≤ c.val ∧ c.val ≤ 90) = true ↔ _
  rw [decide_eq_true_eq, UInt32.le_iff_toNat_le, UInt32.le_iff_toNat_le]
  rfl

theorem isLower_iff : c.isLower = true ↔ 97 ≤ c.toNat ∧ c.toNat ≤ 122 := by
  change (decide (97 ≤ c.val) && decide (c.val ≤ 122)) = true ↔ _
  rw [Bool.and_eq_true, decide_eq_true_eq, decide_eq_true_eq, UInt32.le_iff_toNat_le,
    UInt32.le_iff_toNat_le]
  rfl

theorem isDigit_iff : c.isDigit = true ↔ 48 ≤ c.toNat ∧ c.toNat ≤ 57 := by
  change (decide (48 ≤ c.val) && decide (c.val ≤ 57)) = true ↔ _
  rw [Bool.and_eq_true, decide_eq_true_eq, decide_eq_true_eq, UInt32.le_iff_toNat_le,
    UInt32.le_iff_toNat_le]
  rfl

theorem isAlpha_iff :
    c.isAlpha = true ↔ (65 ≤ c.toNat ∧ c.toNat ≤ 90) ∨ (97 ≤ c.toNat ∧ c.toNat ≤ 122) := by
  rw [← isUpper_iff, ← isLower_iff, ← Bool.or_eq_true]
  rfl

/-- No letter, digit or other visible ASCII character is white space. -/
theorem isSpace_of_visible (h : 33 ≤ c.toNat) (h' : c.toNat ≤ 126) : isSpace c = false := by
  simp only [isSpace, spaces, List.contains_eq_mem, decide_eq_false_iff_not, List.mem_cons,
    List.not_mem_nil, or_false]
  omega

end Classes

theorem decimal?_of_isDigit {c : Char} (h : c.isDigit) : decimal? c = some (c.toNat - 48) := by
  have hrange : 48 ≤ c.toNat ∧ c.toNat < 48 + 10 :=
    ⟨(isDigit_iff.mp h).1, Nat.lt_succ_of_le (isDigit_iff.mp h).2⟩
  rw [decimal?, zeros, List.find?_cons_of_pos (by simpa using hrange)]
  rfl

theorem isDecimal_of_isDigit {c : Char} (h : c.isDigit) : isDecimal c = true := by
  rw [isDecimal, decimal?_of_isDigit h]
  rfl

/-- Reading a number that was written in decimal. -/
theorem ofDecimals_toDigits (n : ℕ) : ofDecimals (Nat.toDigits 10 n) = n := by
  have hfold : ∀ (digits : List Char) (init : ℕ), (∀ c ∈ digits, c.isDigit) →
      digits.foldl (fun n c => 10 * n + (decimal? c).getD 0) init =
        Nat.ofDigitChars 10 digits init := by
    intro digits
    induction digits with
    | nil =>
        intro init _
        exact Nat.ofDigitChars_nil.symm
    | cons c digits ih =>
        intro init hdigits
        obtain ⟨hc, hrest⟩ := List.forall_mem_cons.mp hdigits
        rw [List.foldl_cons, Nat.ofDigitChars_cons, ih _ hrest, decimal?_of_isDigit hc]
        rfl
  rw [ofDecimals, hfold _ _ fun c hc => Nat.isDigit_of_mem_toDigits (by decide) (by decide) hc]
  exact Nat.ofDigitChars_ten_toDigits

theorem digit?_of_isDigit {c : Char} (h : c.isDigit) : digit? 10 c = some (c.toNat - 48) := by
  have hvalue := isDigit_iff.mp h
  rw [digit?, decimal?_of_isDigit h]
  exact Option.filter_some_pos (decide_eq_true (by omega))

theorem readDigits_of_isDigit {digits : List Char} (h : ∀ c ∈ digits, c.isDigit)
    {afterDigit : Bool} (hne : afterDigit = true ∨ digits ≠ []) (n : ℕ) :
    readDigits 10 afterDigit n digits =
      some (digits.foldl (fun n c => 10 * n + (decimal? c).getD 0) n) := by
  induction digits generalizing afterDigit n with
  | nil => rw [readDigits, hne.resolve_right (fun h => h rfl)]; rfl
  | cons c digits ih =>
      obtain ⟨hc, hdigits⟩ := List.forall_mem_cons.mp h
      have hunderscore : c ≠ '_' := by
        rintro rfl
        exact absurd hc (by decide)
      rw [readDigits, if_neg hunderscore, digit?_of_isDigit hc, List.foldl_cons,
        decimal?_of_isDigit hc]
      exact ih hdigits (.inl rfl) _

theorem skipPrefix_ten (cs : List Char) : skipPrefix 10 cs = cs := by
  rw [skipPrefix.eq_def]
  split
  · exact if_neg fun h => absurd h.1 (by decide)
  · rfl

/-- `int(str(n))` -/
theorem int?_toDigits (n : ℕ) : int? 10 (Nat.toDigits 10 n) = some (n : ℤ) := by
  have hdigits : ∀ c ∈ Nat.toDigits 10 n, c.isDigit :=
    fun c hc => Nat.isDigit_of_mem_toDigits (by decide) (by decide) hc
  have hspace : ∀ c ∈ Nat.toDigits 10 n, isSpace c = false := by
    intro c hc
    have hvalue := isDigit_iff.mp (hdigits c hc)
    exact isSpace_of_visible (by omega) (by omega)
  have htrimmed : IsTrimmed (Nat.toDigits 10 n) :=
    ⟨fun c hc => hspace c (List.mem_of_mem_head? hc),
      fun c hc => hspace c (List.mem_of_getLast? hc)⟩
  have hread : readDigits 10 false 0 (Nat.toDigits 10 n) = some n := by
    rw [readDigits_of_isDigit hdigits (.inr Nat.toDigits_ne_nil)]
    exact congrArg some (ofDecimals_toDigits n)
  rw [int?, htrimmed.strip_eq]
  split
  · next heq => exact absurd (hdigits '+' (by rw [heq]; exact List.mem_cons_self)) (by decide)
  · next heq => exact absurd (hdigits '-' (by rw [heq]; exact List.mem_cons_self)) (by decide)
  · rw [skipPrefix_ten, hread]
    rfl

section Stop

variable {α : Type} {p : α → Bool} {word rest : List α}

/-- A scan goes through a word and stops at what follows. -/
theorem takeWhile_append_stop (hword : ∀ a ∈ word, p a) (hrest : ∀ a ∈ rest.head?, p a = false) :
    (word ++ rest).takeWhile p = word := by
  rw [List.takeWhile_append_of_pos hword]
  cases rest with
  | nil => simp
  | cons a rest => simp [hrest a rfl]

theorem dropWhile_append_stop (hword : ∀ a ∈ word, p a) (hrest : ∀ a ∈ rest.head?, p a = false) :
    (word ++ rest).dropWhile p = rest := by
  rw [List.dropWhile_append_of_pos hword]
  cases rest with
  | nil => rfl
  | cons a rest => simp [hrest a rfl]

end Stop

end Text
