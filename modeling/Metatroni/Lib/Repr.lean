import Metatroni.Lib.Json
import Mathlib.Algebra.Group.Nat.Defs

/-!
# Texts of values

`repr` of a text or of a list of texts shows the value: two texts with the same `repr` are the
same, whatever the platform holds to be printable.
-/

namespace PyRepr

open PyValue (hexText reprChar reprText reprItems)

variable {φ : Type} [PyRuntime φ]

/-! ## Hexadecimal digits -/

def hexValue (digits : List Char) (init : ℕ) : ℕ :=
  digits.foldl (fun n c => 16 * n + (Json.hexDigit? c).getD 0) init

theorem length_hexText (width n : ℕ) : (hexText width n).length = width := by
  induction width generalizing n with
  | zero => rfl
  | succ width ih => rw [hexText, List.length_append, ih, List.length_singleton]

theorem hexValue_hexText (width n : ℕ) : hexValue (hexText width n) 0 = n % 16 ^ width := by
  induction width generalizing n with
  | zero => exact (Nat.mod_one n).symm
  | succ width ih =>
      have hdigit : (Json.hexDigit? (Nat.digitChar (n % 16))).getD 0 = n % 16 := by
        rw [Json.hexDigit?_digitChar _ (Nat.mod_lt _ (by decide))]
        rfl
      have hstep : hexValue (hexText (width + 1) n) 0 =
          16 * hexValue (hexText width (n / 16)) 0 + n % 16 := by
        rw [hexText, hexValue, List.foldl_append, List.foldl_cons, List.foldl_nil, hdigit]
        rfl
      rw [hstep, ih, Nat.pow_succ', Nat.mod_mul, Nat.add_comm]

/-! ## A character -/

/-- The number of digits behind the letter of an escape. -/
def escapeWidth (e : Char) : Option ℕ := Assoc.get e [('x', 2), ('u', 4), ('U', 8)]

/-- The character that is shown at the start of a text, and what is left. -/
def readReprChar : List Char → Option (Char × List Char)
  | '\\' :: e :: cs =>
      match escapeWidth e with
      | some width => some (.ofNat (hexValue (cs.take width) 0), cs.drop width)
      | none => some ((Assoc.get e [('t', '\t'), ('n', '\n'), ('r', '\r')]).getD e, cs)
  | c :: cs => some (c, cs)
  | [] => none

theorem readReprChar_hexText {e c : Char} {width : ℕ} (he : escapeWidth e = some width)
    (hc : c.toNat < 16 ^ width) (rest : List Char) :
    readReprChar ('\\' :: e :: (hexText width c.toNat ++ rest)) = some (c, rest) := by
  have hlength := length_hexText width c.toNat
  simp only [readReprChar, he]
  rw [List.take_left' hlength, List.drop_left' hlength, hexValue_hexText, Nat.mod_eq_of_lt hc,
    Char.ofNat_toNat]

theorem readReprChar_reprChar {quote : Char} (hquote : quote ∈ ['\'', '"']) (c : Char)
    (rest : List Char) : readReprChar (reprChar φ quote c ++ rest) = some (c, rest) := by
  have hmax : c.toNat < 16 ^ 8 := c.val.toNat_lt
  have hplain : ∀ e ∈ ['\'', '"', '\\'], readReprChar ('\\' :: e :: rest) = some (e, rest) := by
    rw [List.forall_mem_cons, List.forall_mem_cons, List.forall_mem_singleton]
    exact ⟨rfl, rfl, rfl⟩
  have hliteral : c ≠ '\\' → readReprChar (c :: rest) = some (c, rest) := by
    intro h
    rw [readReprChar.eq_def]
    split
    · next heq => exact absurd (List.cons.inj heq).1 h
    · next heq =>
        obtain ⟨rfl, rfl⟩ := List.cons.inj heq
        rfl
    · next heq => cases heq
  rw [reprChar]
  split_ifs with hspecial htab hnewline hreturn hcontrol hprintable hshort hmiddle
  · have hmem : c ∈ ['\'', '"', '\\'] := by
      rcases hspecial with rfl | rfl
      · exact List.mem_append_left ['\\'] hquote
      · decide
    exact hplain c hmem
  · rw [htab]
    rfl
  · rw [hnewline]
    rfl
  · rw [hreturn]
    rfl
  · exact readReprChar_hexText rfl (by omega) rest
  · exact hliteral fun h => hspecial (.inr h)
  · exact readReprChar_hexText rfl (by omega) rest
  · exact readReprChar_hexText rfl (by omega) rest
  · exact readReprChar_hexText rfl hmax rest

/-- A character between the quotes does not start with the quote. -/
theorem reprChar_ne_quote {quote : Char} (hquote : quote ∈ ['\'', '"']) (c : Char)
    (rest rest' : List Char) : reprChar φ quote c ++ rest ≠ quote :: rest' := by
  intro heq
  have hbackslash : '\\' ≠ quote := by
    rintro rfl
    exact absurd hquote (by decide)
  rw [reprChar] at heq
  split_ifs at heq with hspecial htab hnewline hreturn hcontrol hprintable hshort hmiddle
  · exact hbackslash (List.cons.inj heq).1
  · exact hbackslash (List.cons.inj heq).1
  · exact hbackslash (List.cons.inj heq).1
  · exact hbackslash (List.cons.inj heq).1
  · exact hbackslash (List.cons.inj heq).1
  · exact hspecial (.inl (List.cons.inj heq).1)
  · exact hbackslash (List.cons.inj heq).1
  · exact hbackslash (List.cons.inj heq).1
  · exact hbackslash (List.cons.inj heq).1

/-! ## Texts -/

theorem flatMap_reprChar_inj {quote : Char} (hquote : quote ∈ ['\'', '"'])
    {s s' rest rest' : List Char}
    (h : s.flatMap (reprChar φ quote) ++ quote :: rest =
      s'.flatMap (reprChar φ quote) ++ quote :: rest') : s = s' ∧ rest = rest' := by
  induction s generalizing s' with
  | nil =>
      cases s' with
      | nil => exact ⟨rfl, (List.cons.inj h).2⟩
      | cons c s' =>
          rw [List.flatMap_cons, List.append_assoc] at h
          exact absurd h.symm (reprChar_ne_quote hquote c _ _)
  | cons c s ih =>
      rw [List.flatMap_cons, List.append_assoc] at h
      cases s' with
      | nil => exact absurd h (reprChar_ne_quote hquote c _ _)
      | cons d s' =>
          rw [List.flatMap_cons, List.append_assoc] at h
          have hread := congrArg readReprChar h
          rw [readReprChar_reprChar hquote, readReprChar_reprChar hquote, Option.some.injEq,
            Prod.mk.injEq] at hread
          obtain ⟨rfl, rfl⟩ := ih hread.2
          exact ⟨congrArg (· :: s) hread.1, rfl⟩

theorem exists_reprText (φ : Type) [PyRuntime φ] (s rest : List Char) :
    ∃ quote ∈ ['\'', '"'], reprText φ s ++ rest =
      quote :: (s.flatMap (reprChar φ quote) ++ quote :: rest) := by
  rw [reprText]
  split
  · exact ⟨'"', by decide, by simp⟩
  · exact ⟨'\'', by decide, by simp⟩

theorem reprText_append_inj {s s' rest rest' : List Char}
    (h : reprText φ s ++ rest = reprText φ s' ++ rest') : s = s' ∧ rest = rest' := by
  obtain ⟨quote, hquote, heq⟩ := exists_reprText φ s rest
  obtain ⟨quote', -, heq'⟩ := exists_reprText φ s' rest'
  rw [heq, heq'] at h
  obtain ⟨rfl, hbody⟩ := List.cons.inj h
  exact flatMap_reprChar_inj hquote hbody

/-! ## Lists of texts -/

/-- A list of texts as a value. -/
def texts (items : List (List Char)) : List (PyValue φ) := items.map .str

theorem reprItems_texts_cons (s : List Char) (items : List (List Char)) (rest : List Char) :
    reprItems (texts (s :: items) : List (PyValue φ)) ++ ']' :: rest =
      reprText φ s ++ if items = [] then ']' :: rest
        else ',' :: ' ' :: (reprItems (texts items : List (PyValue φ)) ++ ']' :: rest) := by
  cases items with
  | nil => rfl
  | cons t items =>
      rw [if_neg (List.cons_ne_nil _ _)]
      simp [texts, reprItems, PyValue.repr]

theorem reprItems_texts_inj {items items' : List (List Char)} {rest rest' : List Char}
    (h : reprItems (texts items : List (PyValue φ)) ++ ']' :: rest =
      reprItems (texts items' : List (PyValue φ)) ++ ']' :: rest') : items = items' := by
  have hnil : ∀ (s : List Char) (items : List (List Char)) (rest rest' : List Char),
      reprItems (texts (s :: items) : List (PyValue φ)) ++ ']' :: rest ≠ ']' :: rest' := by
    intro s items rest rest' heq
    rw [reprItems_texts_cons] at heq
    obtain ⟨quote, hquote, hquoted⟩ := exists_reprText φ s _
    rw [hquoted] at heq
    rw [(List.cons.inj heq).1] at hquote
    exact absurd hquote (by decide)
  induction items generalizing items' with
  | nil =>
      cases items' with
      | nil => rfl
      | cons t items' => exact absurd h.symm (hnil t items' _ _)
  | cons s items ih =>
      cases items' with
      | nil => exact absurd h (hnil s items _ _)
      | cons t items' =>
          rw [reprItems_texts_cons, reprItems_texts_cons] at h
          obtain ⟨rfl, htail⟩ := reprText_append_inj h
          split_ifs at htail with hempty hempty'
          · rw [hempty, hempty']
          · cases htail
          · cases htail
          · rw [ih (List.cons.inj (List.cons.inj htail).2).2]

/-- `str` of lists of texts -/
theorem toStr_texts_inj {items items' : List (List Char)}
    (h : (.list (texts items) : PyValue φ).toStr = (.list (texts items') : PyValue φ).toStr) :
    items = items' :=
  reprItems_texts_inj (List.cons.inj h).2

end PyRepr
