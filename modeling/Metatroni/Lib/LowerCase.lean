import Metatroni.Lib.Text

/-!
# Lower case

Lower-casing of a text by the tables of the Unicode database. All characters but
one are mapped on their own; a capital sigma at the end of a word has a form of its
own, so the characters around it matter. A comma separates words, which makes
the lower case of a comma-separated list the list of the lower cases.
-/

/-- The part of the Unicode database that lower-casing reads, and what it says about
white space and commas. -/
class CaseTable where
  toLower : Char → List Char
  isCased : Char → Bool
  isCaseIgnorable : Char → Bool
  toLower_ne_nil : ∀ c, toLower c ≠ []
  isSpace_toLower : ∀ c, ∀ d ∈ toLower c, Text.isSpace d = Text.isSpace c
  toLower_comma : toLower ',' = [',']
  eq_comma : ∀ c, ',' ∈ toLower c → c = ','
  isCased_comma : isCased ',' = false
  isCaseIgnorable_comma : isCaseIgnorable ',' = false

namespace Text

variable [CaseTable]

/-- The first character that is not ignored is a cased one. -/
def startsCased (cs : List Char) : Bool :=
  (cs.dropWhile CaseTable.isCaseIgnorable).head?.any CaseTable.isCased

/-- The lower case of a character between two texts, the first of them backwards. -/
def lowerChar (before : List Char) (c : Char) (after : List Char) : List Char :=
  if c = 'Σ' then if startsCased before && !startsCased after then ['ς'] else ['σ']
  else CaseTable.toLower c

def lowerFrom (before : List Char) : List Char → List Char
  | [] => []
  | c :: cs => lowerChar before c cs ++ lowerFrom (c :: before) cs

/-- `text.lower()` -/
def lower (cs : List Char) : List Char := lowerFrom [] cs

/-! ## Lists with commas -/

theorem startsCased_comma (cs rest : List Char) :
    startsCased (cs ++ ',' :: rest) = startsCased cs := by
  induction cs with
  | nil =>
      rw [startsCased, List.nil_append,
        List.dropWhile_cons_of_neg (by simp [CaseTable.isCaseIgnorable_comma])]
      exact CaseTable.isCased_comma
  | cons c cs ih =>
      rw [startsCased, startsCased, List.cons_append, List.dropWhile_cons, List.dropWhile_cons]
      split
      · exact ih
      · rfl

/-- What is before a comma has no influence. -/
theorem lowerFrom_comma (cs before rest : List Char) :
    lowerFrom (before ++ ',' :: rest) cs = lowerFrom before cs := by
  induction cs generalizing before with
  | nil => rfl
  | cons c cs ih =>
      have hchar : lowerChar (before ++ ',' :: rest) c cs = lowerChar before c cs := by
        rw [lowerChar, lowerChar, startsCased_comma]
      rw [lowerFrom, lowerFrom, hchar, ← List.cons_append, ih]

theorem lower_append_comma (cs rest : List Char) :
    lower (cs ++ ',' :: rest) = lower cs ++ ',' :: lower rest := by
  have hfrom : ∀ cs before, lowerFrom before (cs ++ ',' :: rest) =
      lowerFrom before cs ++ ',' :: lower rest := by
    intro cs
    induction cs with
    | nil =>
        intro before
        have hcomma : lowerChar before ',' rest = [','] := by
          rw [lowerChar, if_neg (by decide), CaseTable.toLower_comma]
        change lowerChar before ',' rest ++ lowerFrom ([] ++ ',' :: before) rest = _
        rw [hcomma, lowerFrom_comma]
        rfl
    | cons c cs ih =>
        intro before
        have hchar : lowerChar before c (cs ++ ',' :: rest) = lowerChar before c cs := by
          rw [lowerChar, lowerChar, startsCased_comma]
        rw [List.cons_append, lowerFrom, lowerFrom, hchar, ih, List.append_assoc]
  exact hfrom cs []

theorem lower_intercalate (words : List (List Char)) :
    lower ([','].intercalate words) = [','].intercalate (words.map lower) := by
  induction words with
  | nil => rfl
  | cons word words ih =>
      cases words with
      | nil => simp
      | cons next words =>
          rw [List.intercalate_cons_cons, List.append_assoc, List.singleton_append,
            lower_append_comma, ih]
          simp [List.intercalate_cons_cons]

/-! ## Characters of the lower case -/

theorem lowerChar_ne_nil (before : List Char) (c : Char) (after : List Char) :
    lowerChar before c after ≠ [] := by
  rw [lowerChar]
  split
  · split <;> simp
  · exact CaseTable.toLower_ne_nil c

theorem isSpace_lowerChar {before after : List Char} {c d : Char}
    (h : d ∈ lowerChar before c after) : isSpace d = isSpace c := by
  rw [lowerChar] at h
  split at h
  · next hc =>
      subst hc
      split at h
      · rw [List.mem_singleton.mp h]
        rfl
      · rw [List.mem_singleton.mp h]
        rfl
  · exact CaseTable.isSpace_toLower c d h

theorem comma_notMem_lowerFrom {cs : List Char} (h : ',' ∉ cs) (before : List Char) :
    ',' ∉ lowerFrom before cs := by
  induction cs generalizing before with
  | nil => exact List.not_mem_nil
  | cons c cs ih =>
      rw [List.mem_cons, not_or] at h
      rw [lowerFrom, List.mem_append, not_or]
      refine ⟨fun hmem => ?_, ih h.2 _⟩
      rw [lowerChar] at hmem
      split at hmem
      · split at hmem <;> exact absurd hmem (by decide)
      · exact h.1 (CaseTable.eq_comma c hmem).symm

theorem lower_eq_nil_iff {cs : List Char} : lower cs = [] ↔ cs = [] := by
  cases cs with
  | nil => exact iff_of_true rfl rfl
  | cons c cs =>
      refine iff_of_false (fun h => ?_) (List.cons_ne_nil _ _)
      exact lowerChar_ne_nil _ _ _ (List.append_eq_nil_iff.mp h).1

theorem head?_lowerFrom {cs : List Char} (h : ∀ c ∈ cs.head?, isSpace c = false)
    (before : List Char) : ∀ d ∈ (lowerFrom before cs).head?, isSpace d = false := by
  cases cs with
  | nil => nofun
  | cons c cs =>
      intro d hd
      rw [lowerFrom, List.head?_append_of_ne_nil _ (lowerChar_ne_nil _ _ _)] at hd
      rw [isSpace_lowerChar (List.mem_of_mem_head? hd)]
      exact h c rfl

theorem getLast?_lowerFrom {cs : List Char} (h : ∀ c ∈ cs.getLast?, isSpace c = false)
    (before : List Char) : ∀ d ∈ (lowerFrom before cs).getLast?, isSpace d = false := by
  induction cs generalizing before with
  | nil => nofun
  | cons c cs ih =>
      intro d hd
      rw [lowerFrom] at hd
      cases cs with
      | nil =>
          rw [lowerFrom, List.append_nil] at hd
          rw [isSpace_lowerChar (List.mem_of_getLast? hd)]
          exact h c rfl
      | cons c' cs =>
          have hne : lowerFrom (c :: before) (c' :: cs) ≠ [] := fun hnil =>
            lowerChar_ne_nil _ _ _ (List.append_eq_nil_iff.mp hnil).1
          rw [List.getLast?_append_of_ne_nil _ hne] at hd
          exact ih (fun e he => h e (by rwa [List.getLast?_cons_cons])) _ d hd

theorem IsTrimmed.lower {cs : List Char} (h : IsTrimmed cs) : IsTrimmed (lower cs) :=
  ⟨head?_lowerFrom h.1 [], getLast?_lowerFrom h.2 []⟩

end Text

/-- The character of a small code point. -/
theorem Text.toNat_ofNat {n : ℕ} (h : n < 0xd800) : (Char.ofNat n).toNat = n := by
  rw [Char.ofNat, dif_pos (Or.inl h)]
  rfl

/-- The table for ASCII, which maps the capital letters and no other character. -/
@[reducible] def CaseTable.ascii : CaseTable where
  toLower c := [if c.isUpper then .ofNat (c.toNat + 32) else c]
  isCased c := c.isAlpha
  isCaseIgnorable c := c ∈ ['\'', '.', ':', '^', '\x60']
  toLower_ne_nil c := List.cons_ne_nil _ _
  isSpace_toLower := by
    intro c d hd
    rw [List.mem_singleton.mp hd]
    split
    · next hupper =>
        obtain ⟨hle, hge⟩ := Text.isUpper_iff.mp hupper
        have hvalue : (Char.ofNat (c.toNat + 32)).toNat = c.toNat + 32 :=
          Text.toNat_ofNat (by omega)
        rw [Text.isSpace_of_visible (by omega) (by omega),
          Text.isSpace_of_visible (by omega) (by omega)]
    · rfl
  toLower_comma := by decide
  eq_comma := by
    intro c hc
    rw [List.mem_singleton] at hc
    split at hc
    · next hupper =>
        obtain ⟨hle, hge⟩ := Text.isUpper_iff.mp hupper
        have hvalue : (Char.ofNat (c.toNat + 32)).toNat = c.toNat + 32 :=
          Text.toNat_ofNat (by omega)
        rw [← hc] at hvalue
        exact absurd hvalue (by change ¬44 = _; omega)
    · exact hc.symm
  isCased_comma := by decide
  isCaseIgnorable_comma := by decide
