import Metatroni.Lib.Text
import Metatroni.PostgreSQL.Multisync

/-!
# The text of `synchronous_standby_names`

`set_synchronous_standby_names` writes a set of node names and
`parse_sync_standby_names` reads the setting. The writer quotes a name unless it
looks like an identifier. The reader cuts the text into tokens with an ordered
alternation of patterns, in which the keywords come before the identifiers.

## Implementation notes

Texts are lists of characters. What `lower` does to a name is of no importance
here, so it is arbitrary.
-/

namespace Metatroni

namespace SyncStandbyNames

open Multisync (Setting SyncType supportsMultipleSync supportsQuorumCommit)

/-! ## The writer -/

/-- `[A-Za-z_]` -/
def isIdentStart (c : Char) : Bool := c.isAlpha || c = '_'

/-- `[A-Za-z_0-9\$]` -/
def isIdentRest (c : Char) : Bool := c.isAlpha || c = '_' || c.isDigit || c = '$'

/-- `SYNC_STANDBY_NAME_RE.match`. The final `$` matches at the end and before a line break
at the end. -/
def nameMatches : List Char → Bool
  | [] => false
  | c :: cs => isIdentStart c &&
      (cs.dropWhile isIdentRest = [] || cs.dropWhile isIdentRest = ['\n'])

/-- The name is written as it is. -/
def isPlain (value : List Char) : Bool :=
  nameMatches value && value.map Char.toLower ≠ "first".toList &&
    value.map Char.toLower ≠ "any".toList

/-- `value.replace('"', '""')` -/
def double (value : List Char) : List Char :=
  value.flatMap fun c => if c = '"' then [c, c] else [c]

/-- `quote_ident`. -/
def quoteIdent (value : List Char) : List Char := '"' :: (double value ++ ['"'])

/-- `quote_standby_name`. -/
def quoteStandbyName (value : String) : List Char :=
  if isPlain value.toList then value.toList else quoteIdent value.toList

/-- The text that `set_synchronous_standby_names` builds. -/
def syncParam (majorVersion : ℕ) (isQuorumCommitMode : Bool) (sync : List String)
    (num : Option ℤ) : Option (List Char) :=
  let hasAsterisk := "*" ∈ sync ∨ (∃ n ∈ num, 1 ≤ n) ∧ sync = []
  let sync := if hasAsterisk then ["*".toList]
    else (sync.insertionSort (· ≤ ·)).map quoteStandbyName
  let several := supportsMultipleSync majorVersion && 1 < sync.length
  let num := if several then some (num.getD sync.length) else num
  let syncParam := if several then some ([','].intercalate sync) else sync.head?
  if supportsMultipleSync majorVersion ∧ (isQuorumCommitMode ∧ sync ≠ [] ∨ 1 < sync.length) then
    let keyword := if isQuorumCommitMode && supportsQuorumCommit majorVersion then "ANY " else ""
    let num := (num.map toString).getD "None"
    let syncParam := syncParam.getD "None".toList
    some (keyword.toList ++ num.toList ++ " (".toList ++ syncParam ++ [')'])
  else syncParam

/-! ## The reader -/

/-- The groups of `SYNC_REP_PARSER_RE`. -/
inductive TokenType
  | first
  | any
  | space
  | ident
  | dquot
  | star
  | num
  | comma
  | parenstart
  | parenend
  | junk
  deriving DecidableEq, Repr

/-- The text starts with a keyword, in any case. -/
def startsWith (keyword cs : List Char) : Bool :=
  (cs.take keyword.length).map Char.toLower = keyword

/-- The rest of `" (?: [^"]+ | "" )* "` after its first quote: what it matches and what is
left. The loop takes two quotes as long as a quote is left for the end. -/
def dquot : List Char → Option (List Char × List Char)
  | [] => none
  | [c] => if c = '"' then some ([c], []) else none
  | c :: d :: cs =>
      if c = '"' then
        if d = '"' then
          match dquot cs with
          | some (text, rest) => some (c :: d :: text, rest)
          | none => some ([c], d :: cs)
        else some ([c], d :: cs)
      else (dquot (d :: cs)).map fun r => (c :: r.1, r.2)

/-- The first pattern that matches: its group, what it matches and what is left. -/
def nextToken (c : Char) (cs : List Char) : TokenType × List Char × List Char :=
  if startsWith "first".toList (c :: cs) then (.first, (c :: cs).take 5, (c :: cs).drop 5)
  else if startsWith "any".toList (c :: cs) then (.any, (c :: cs).take 3, (c :: cs).drop 3)
  else if Text.isSpace c then
    (.space, c :: cs.takeWhile Text.isSpace, cs.dropWhile Text.isSpace)
  else if isIdentStart c then (.ident, c :: cs.takeWhile isIdentRest, cs.dropWhile isIdentRest)
  else
    match if c = '"' then dquot cs else none with
    | some (text, rest) => (.dquot, c :: text, rest)
    | none =>
        if c = '*' then (.star, [c], cs)
        else if Text.isDecimal c then
          (.num, c :: cs.takeWhile Text.isDecimal, cs.dropWhile Text.isDecimal)
        else if c = ',' then (.comma, [c], cs)
        else if c = '(' then (.parenstart, [c], cs)
        else if c = ')' then (.parenend, [c], cs)
        else (.junk, [c], cs)

/-- `SYNC_REP_PARSER_RE.finditer`, for at most so many tokens. -/
def scan : ℕ → List Char → List (TokenType × List Char)
  | 0, _ => []
  | _, [] => []
  | n + 1, c :: cs =>
      let (type, text, rest) := nextToken c cs
      (type, text) :: scan n rest

/-- A token, with its group, its text and its position. -/
structure Token where
  type : TokenType
  text : List Char
  start : ℕ
  deriving DecidableEq

/-- Add the positions. -/
def withStart (start : ℕ) : List (TokenType × List Char) → List Token
  | [] => []
  | (type, text) :: ts => ⟨type, text, start⟩ :: withStart (start + text.length) ts

/-- The tokens that are not white space. -/
def tokens (value : List Char) : List Token :=
  (withStart 0 (scan value.length value)).filter fun t => t.type ≠ .space

/-- `value.replace('""', '"')` -/
def undouble : List Char → List Char
  | [] => []
  | [c] => [c]
  | c :: d :: cs => if c = '"' ∧ d = '"' then c :: undouble cs else c :: undouble (d :: cs)

/-- The two messages of `ValueError`. -/
inductive ParseError
  | unexpectedToken (token : Token)
  | expectingComma (token : Token)
  deriving DecidableEq

section

variable [NodeName String]

/-- `_SSN`. -/
structure ParsedSsn [NodeName String] where
  syncType : SyncType
  hasStar : Bool
  num : ℕ
  members : CaseInsensitiveSet String

/-- The loop over the list of the names, from some index on. -/
def collect (length : ℕ) :
    ℕ → List Token → Bool → CaseInsensitiveSet String →
      Except ParseError (Bool × CaseInsensitiveSet String)
  | _, [], hasStar, members => .ok (hasStar, members)
  | i, t :: ts, hasStar, members =>
      if i % 2 = 1 then
        if length = i + 1 then .error (.unexpectedToken t)
        else if t.type ≠ .comma then .error (.expectingComma t)
        else collect length (i + 1) ts hasStar members
      else
        match t.type with
        | .ident | .first | .any =>
            collect length (i + 1) ts hasStar (members.add (String.ofList t.text))
        | .star => collect length (i + 1) ts true (members.add (String.ofList t.text))
        | .dquot =>
            let name := undouble t.text.tail.dropLast
            collect length (i + 1) ts hasStar (members.add (String.ofList name))
        | _ => .error (.unexpectedToken t)

/-- The end of `parse_sync_standby_names`, with the list of the names. -/
def parseList (syncType : SyncType) (num : ℕ) (synclist : List Token) :
    Except ParseError ParsedSsn := do
  let (hasStar, members) ← collect synclist.length 0 synclist false ∅
  return ⟨syncType, hasStar, num, members⟩

/-- `parse_sync_standby_names`. -/
def parse (value : List Char) : Except ParseError ParsedSsn :=
  let tokens := tokens value
  let types : List TokenType := tokens.map fun t => t.type
  let number (i : ℕ) : ℕ := Text.ofDecimals ((tokens[i]?.map fun t => t.text).getD [])
  if tokens = [] then .ok ⟨.off, false, 0, ∅⟩
  else if types.take 3 = [.any, .num, .parenstart] ∧ types.getLast? = some .parenend then
    parseList .quorum (number 1) (tokens.drop 3).dropLast
  else if types.take 3 = [.first, .num, .parenstart] ∧ types.getLast? = some .parenend then
    parseList .priority (number 1) (tokens.drop 3).dropLast
  else if types.take 2 = [.num, .parenstart] ∧ types.getLast? = some .parenend then
    parseList .priority (number 0) (tokens.drop 2).dropLast
  else parseList .priority 1 tokens

/-! ## Tokens -/

section Lexer

omit [NodeName String]

theorem dquot_suffix {cs text rest : List Char} (h : dquot cs = some (text, rest)) :
    rest <:+ cs := by
  induction cs using dquot.induct generalizing text rest with
  | case1 => cases h
  | case2 =>
      obtain ⟨-, rfl⟩ := Prod.mk.inj (Option.some.inj h)
      exact List.nil_suffix
  | case3 c hc =>
      rw [dquot, if_neg hc] at h
      cases h
  | case4 cs text' rest' hcs ih =>
      rw [dquot, if_pos rfl, if_pos rfl, hcs] at h
      obtain ⟨-, rfl⟩ := Prod.mk.inj (Option.some.inj h)
      exact (ih hcs).trans ((List.suffix_cons _ cs).trans (List.suffix_cons _ _))
  | case5 cs hcs ih =>
      rw [dquot, if_pos rfl, if_pos rfl, hcs] at h
      obtain ⟨-, rfl⟩ := Prod.mk.inj (Option.some.inj h)
      exact List.suffix_cons _ _
  | case6 d cs hd =>
      rw [dquot, if_pos rfl, if_neg hd] at h
      obtain ⟨-, rfl⟩ := Prod.mk.inj (Option.some.inj h)
      exact List.suffix_cons _ _
  | case7 c d cs hc ih =>
      rw [dquot, if_neg hc] at h
      obtain ⟨r, hr, heq⟩ := Option.map_eq_some_iff.mp h
      obtain ⟨-, rfl⟩ := Prod.mk.inj heq
      exact (ih hr).trans (List.suffix_cons _ _)

/-- A token takes at least its first character. -/
theorem nextToken_suffix (c : Char) (cs : List Char) : (nextToken c cs).2.2 <:+ cs := by
  unfold nextToken
  split
  · exact List.drop_suffix 4 cs
  split
  · exact List.drop_suffix 2 cs
  split
  · exact List.dropWhile_suffix _
  split
  · exact List.dropWhile_suffix _
  split
  · next text rest h =>
      split at h
      · exact dquot_suffix h
      · cases h
  repeat' split
  all_goals first | exact List.suffix_refl cs | exact List.dropWhile_suffix _

theorem length_nextToken (c : Char) (cs : List Char) : (nextToken c cs).2.2.length ≤ cs.length :=
  (nextToken_suffix c cs).length_le

theorem scan_eq_scan {n m : ℕ} {cs : List Char} (hn : cs.length ≤ n) (hm : cs.length ≤ m) :
    scan n cs = scan m cs := by
  induction n generalizing m cs with
  | zero =>
      obtain rfl := List.length_eq_zero_iff.mp (Nat.le_zero.mp hn)
      cases m <;> rfl
  | succ n ih =>
      cases cs with
      | nil => cases m <;> rfl
      | cons c cs =>
          obtain ⟨m, rfl⟩ := Nat.exists_eq_succ_of_ne_zero (Nat.ne_of_gt (Nat.lt_of_lt_of_le
            (Nat.succ_pos cs.length) hm))
          have hle := length_nextToken c cs
          simp only [scan]
          rw [ih (hle.trans (Nat.le_of_succ_le_succ hn)) (hle.trans (Nat.le_of_succ_le_succ hm))]

/-- The groups and the texts of the tokens. -/
def lex (cs : List Char) : List (TokenType × List Char) :=
  (scan cs.length cs).filter fun t => t.1 ≠ .space

theorem lex_nil : lex [] = [] := rfl

theorem lex_cons (c : Char) (cs : List Char) :
    lex (c :: cs) = if (nextToken c cs).1 = .space then lex (nextToken c cs).2.2
      else ((nextToken c cs).1, (nextToken c cs).2.1) :: lex (nextToken c cs).2.2 := by
  have hscan := scan_eq_scan (length_nextToken c cs) (le_refl _)
  simp only [lex, List.length_cons, scan, hscan, List.filter_cons, decide_not, Bool.not_eq_true',
    decide_eq_false_iff_not]
  by_cases h : (nextToken c cs).1 = .space <;> simp [h]

/-- White space is skipped, here one character. -/
theorem lex_skip {c : Char} {cs : List Char}
    (hnext : nextToken c cs = (.space, c :: cs.takeWhile Text.isSpace, cs.dropWhile Text.isSpace))
    (h : ∀ d ∈ cs.head?, Text.isSpace d = false) : lex (c :: cs) = lex cs := by
  have hdrop : ([] ++ cs).dropWhile Text.isSpace = cs := Text.dropWhile_append_stop (by simp) h
  rw [List.nil_append] at hdrop
  rw [lex_cons, hnext, hdrop]
  rfl

theorem map_withStart (start : ℕ) (ts : List (TokenType × List Char)) :
    (withStart start ts).map (fun t => (t.type, t.text)) = ts := by
  induction ts generalizing start with
  | nil => rfl
  | cons t ts ih => simp [withStart, ih]

theorem map_tokens (value : List Char) :
    (tokens value).map (fun t => (t.type, t.text)) = lex value := by
  unfold tokens lex
  conv_rhs => rw [← map_withStart 0 (scan value.length value), List.filter_map]
  rfl

theorem nextToken_parenend {c : Char} {cs : List Char} (h : (nextToken c cs).1 = .parenend) :
    c = ')' := by
  unfold nextToken at h
  repeat' split at h
  all_goals first | assumption | cases h

/-- Only a parenthesis is read as one. -/
theorem mem_of_parenend {cs text : List Char} (h : (.parenend, text) ∈ lex cs) : ')' ∈ cs := by
  induction hn : cs.length using Nat.strong_induction_on generalizing cs with
  | _ n ih =>
      cases cs with
      | nil => cases h
      | cons c cs =>
          have hlt : (nextToken c cs).2.2.length < n := by
            rw [← hn]
            exact Nat.lt_succ_of_le (length_nextToken c cs)
          have hrest : (.parenend, text) ∈ lex (nextToken c cs).2.2 → ')' ∈ c :: cs := fun hmem =>
            List.mem_cons_of_mem _ ((nextToken_suffix c cs).subset (ih _ hlt hmem rfl))
          rw [lex_cons] at h
          split at h
          · exact hrest h
          · rcases List.mem_cons.mp h with heq | hmem
            · rw [nextToken_parenend (congrArg Prod.fst heq).symm]
              exact List.mem_cons_self
            · exact hrest hmem

/-! ### Quoted names -/

theorem dquot_double (value : List Char) {rest : List Char} (hrest : rest.head? ≠ some '"') :
    dquot (double value ++ '"' :: rest) = some (double value ++ ['"'], rest) := by
  induction value with
  | nil =>
      cases rest with
      | nil => rfl
      | cons d rest =>
          have hd : d ≠ '"' := fun he => hrest (by simp [he])
          simp [double, dquot, hd]
  | cons c value ih =>
      by_cases hc : c = '"'
      · subst hc
        have hdouble : double ('"' :: value) = '"' :: '"' :: double value := rfl
        rw [hdouble, List.cons_append, List.cons_append, dquot, if_pos rfl, if_pos rfl, ih]
        rfl
      · have hdouble : double (c :: value) = c :: double value := by simp [double, hc]
        rw [hdouble, List.cons_append]
        -- at least the quote at the end follows
        cases hlist : double value ++ '"' :: rest with
        | nil => simp at hlist
        | cons d cs =>
            rw [dquot, if_neg hc, ← hlist, ih]
            rfl

theorem undouble_double (value : List Char) : undouble (double value) = value := by
  induction value with
  | nil => rfl
  | cons c value ih =>
      by_cases hc : c = '"'
      · subst hc
        have hdouble : double ('"' :: value) = '"' :: '"' :: double value := rfl
        rw [hdouble, undouble, if_pos ⟨rfl, rfl⟩, ih]
      · have hdouble : double (c :: value) = c :: double value := by simp [double, hc]
        rw [hdouble]
        cases hlist : double value with
        | nil =>
            rw [hlist] at ih
            rw [← ih]
            rfl
        | cons d cs =>
            rw [undouble, if_neg (fun h => hc h.1), ← hlist, ih]

theorem lex_quoteIdent (value : List Char) {rest : List Char} (hrest : rest.head? ≠ some '"') :
    lex (quoteIdent value ++ rest) = (.dquot, quoteIdent value) :: lex rest := by
  have hnext : nextToken '"' (double value ++ '"' :: rest) =
      (.dquot, '"' :: (double value ++ ['"']), rest) := by
    have hfirst : startsWith "first".toList ('"' :: (double value ++ '"' :: rest)) = false := rfl
    have hany : startsWith "any".toList ('"' :: (double value ++ '"' :: rest)) = false := rfl
    have hspace : Text.isSpace '"' = false := by decide
    have hident : isIdentStart '"' = false := by decide
    simp only [nextToken, hfirst, hany, hspace, hident, Bool.false_eq_true, if_false, if_true,
      dquot_double value hrest]
  have hsplit : quoteIdent value ++ rest = '"' :: (double value ++ '"' :: rest) := by
    simp [quoteIdent]
  rw [hsplit, lex_cons, hnext]
  rfl

/-! ### Names that are written as they are -/

theorem isIdentRest_of_isIdentStart {c : Char} (h : isIdentStart c = true) :
    isIdentRest c = true := by
  simp only [isIdentStart, isIdentRest, Bool.or_eq_true] at h ⊢
  exact .inl (.inl h)

theorem toNat_of_isIdentRest {c : Char} (h : isIdentRest c = true) :
    c = '_' ∨ c = '$' ∨ (48 ≤ c.toNat ∧ c.toNat ≤ 57) ∨ (65 ≤ c.toNat ∧ c.toNat ≤ 90) ∨
      (97 ≤ c.toNat ∧ c.toNat ≤ 122) := by
  simp only [isIdentRest, Bool.or_eq_true, decide_eq_true_eq, Text.isAlpha_iff,
    Text.isDigit_iff] at h
  rcases h with (((h | h) | h) | h) | h
  · exact .inr (.inr (.inr (.inl h)))
  · exact .inr (.inr (.inr (.inr h)))
  · exact .inl h
  · exact .inr (.inr (.inl h))
  · exact .inr (.inl h)

theorem isSpace_of_isIdentRest {c : Char} (h : isIdentRest c = true) : Text.isSpace c = false := by
  rcases toNat_of_isIdentRest h with rfl | rfl | h
  · decide
  · decide
  · exact Text.isSpace_of_visible (by omega) (by omega)

theorem ne_of_isIdentRest {c d : Char} (h : isIdentRest c = true) (hd : isIdentRest d = false) :
    c ≠ d := by
  rintro rfl
  rw [h] at hd
  cases hd

/-- A word never is, and never starts with, white space, a comma or a parenthesis. -/
theorem nextToken_of_isIdentRest {c : Char} (h : isIdentRest c = true) (cs : List Char) :
    (nextToken c cs).1 ≠ .space ∧ (nextToken c cs).1 ≠ .comma ∧
      (nextToken c cs).1 ≠ .parenend := by
  have hspace := isSpace_of_isIdentRest h
  have hcomma : c ≠ ',' := ne_of_isIdentRest h (by decide)
  have hparen : c ≠ ')' := ne_of_isIdentRest h (by decide)
  unfold nextToken
  simp only [hspace, hcomma, hparen, Bool.false_eq_true, if_false]
  repeat' split
  all_goals simp

theorem startsWith_cons (k c : Char) (keyword cs : List Char) :
    startsWith (k :: keyword) (c :: cs) = (c.toLower = k && startsWith keyword cs) := by
  simp [startsWith]

theorem isAlpha_of_toLower {c : Char} (h : c.toLower.isAlpha = true) : c.isAlpha = true := by
  by_cases hupper : c.isUpper = true
  · exact Text.isAlpha_iff.mpr (.inl (Text.isUpper_iff.mp hupper))
  · have hlower : c.toLower = c := dif_neg fun hval => hupper (decide_eq_true hval)
    rwa [hlower] at h

/-- A keyword ends before a character that is not part of a word. -/
theorem startsWith_append {keyword rest : List Char} (hkeyword : keyword.all Char.isAlpha = true)
    (hrest : ∀ c ∈ rest.head?, isIdentRest c = false) (word : List Char) :
    startsWith keyword (word ++ rest) = startsWith keyword word := by
  induction keyword generalizing word with
  | nil => rfl
  | cons k keyword ih =>
      rw [List.all_cons, Bool.and_eq_true] at hkeyword
      obtain ⟨hk, hkeyword⟩ := hkeyword
      cases word with
      | cons c word => rw [List.cons_append, startsWith_cons, startsWith_cons, ih hkeyword]
      | nil =>
          cases rest with
          | nil => rfl
          | cons d rest =>
              have hne : d.toLower ≠ k := by
                rintro rfl
                have hd := hrest d rfl
                simp [isIdentRest, isAlpha_of_toLower hk] at hd
              rw [List.nil_append, startsWith_cons]
              simp [hne, startsWith]

/-- The part of a name that is read as a word: a line break at its end is not. -/
def word (value : List Char) : List Char := value.takeWhile isIdentRest

/-- A name that is written as it is: a word, and maybe a line break. -/
theorem word_append_of_nameMatches {value : List Char} (h : nameMatches value = true) :
    ∃ c w tail, value = c :: w ++ tail ∧ word value = c :: w ∧ isIdentStart c = true ∧
      (∀ x ∈ c :: w, isIdentRest x = true) ∧ (tail = [] ∨ tail = ['\n']) := by
  cases value with
  | nil => cases h
  | cons c cs =>
      simp only [nameMatches, Bool.and_eq_true, Bool.or_eq_true, decide_eq_true_eq] at h
      obtain ⟨hc, htail⟩ := h
      refine ⟨c, cs.takeWhile isIdentRest, cs.dropWhile isIdentRest, ?_, ?_, hc, ?_, htail⟩
      · rw [List.cons_append, List.takeWhile_append_dropWhile]
      · rw [word, List.takeWhile_cons_of_pos (isIdentRest_of_isIdentStart hc)]
      · intro x hx
        rcases List.mem_cons.mp hx with rfl | hx
        · exact isIdentRest_of_isIdentStart hc
        · exact List.all_eq_true.mp List.all_takeWhile x hx

/-- An identifier that starts with no keyword. -/
theorem lex_ident {c : Char} {w rest : List Char} (hc : isIdentStart c = true)
    (hw : ∀ x ∈ w, isIdentRest x = true) (hrest : ∀ x ∈ rest.head?, isIdentRest x = false)
    (hfirst : startsWith "first".toList (c :: w) = false)
    (hany : startsWith "any".toList (c :: w) = false) :
    lex (c :: w ++ rest) = (.ident, c :: w) :: lex rest := by
  have hfirst' : startsWith "first".toList (c :: (w ++ rest)) = false :=
    (startsWith_append (by decide) hrest (c :: w)).trans hfirst
  have hany' : startsWith "any".toList (c :: (w ++ rest)) = false :=
    (startsWith_append (by decide) hrest (c :: w)).trans hany
  have hspace := isSpace_of_isIdentRest (isIdentRest_of_isIdentStart hc)
  have hnext : nextToken c (w ++ rest) = (.ident, c :: w, rest) := by
    simp only [nextToken, hfirst', hany', hspace, hc, Bool.false_eq_true, if_false, if_true,
      Text.takeWhile_append_stop hw hrest, Text.dropWhile_append_stop hw hrest]
  rw [List.cons_append, lex_cons, hnext]
  rfl

/-- The keyword that a text starts with, and its length. -/
def keyword? (cs : List Char) : Option (TokenType × ℕ) :=
  if startsWith "first".toList cs then some (.first, 5)
  else if startsWith "any".toList cs then some (.any, 3)
  else none

theorem keyword?_eq_none {cs : List Char} :
    keyword? cs = none ↔
      startsWith "first".toList cs = false ∧ startsWith "any".toList cs = false := by
  unfold keyword?
  cases startsWith "first".toList cs <;> cases startsWith "any".toList cs <;> simp

theorem length_of_startsWith {keyword cs : List Char} (h : startsWith keyword cs = true) :
    keyword.length ≤ cs.length := by
  have hlength := congrArg List.length (of_decide_eq_true h)
  rw [List.length_map, List.length_take] at hlength
  omega

theorem length_of_keyword? {cs : List Char} {type : TokenType} {n : ℕ}
    (h : keyword? cs = some (type, n)) : 0 < n ∧ n ≤ cs.length := by
  unfold keyword? at h
  split at h
  · next hfirst =>
      obtain ⟨-, rfl⟩ := Prod.mk.inj (Option.some.inj h)
      exact ⟨by decide, length_of_startsWith hfirst⟩
  · split at h
    · next hany =>
        obtain ⟨-, rfl⟩ := Prod.mk.inj (Option.some.inj h)
        exact ⟨by decide, length_of_startsWith hany⟩
    · cases h

/-- A word that starts with a keyword is cut after the keyword. -/
theorem lex_keyword {c : Char} {w rest : List Char} {type : TokenType} {n : ℕ}
    (hrest : ∀ x ∈ rest.head?, isIdentRest x = false)
    (h : keyword? (c :: w) = some (type, n)) :
    (type = .first ∨ type = .any) ∧
      lex (c :: w ++ rest) = (type, (c :: w).take n) :: lex ((c :: w).drop n ++ rest) := by
  have hlength := (length_of_keyword? h).2
  have hstart (keyword : List Char) (hkeyword : keyword.all Char.isAlpha = true) :
      startsWith keyword (c :: (w ++ rest)) = startsWith keyword (c :: w) :=
    startsWith_append hkeyword hrest (c :: w)
  have hfirst := hstart "first".toList (by decide)
  have hany := hstart "any".toList (by decide)
  have htake : (c :: (w ++ rest)).take n = (c :: w).take n :=
    show ((c :: w) ++ rest).take n = _ from List.take_append_of_le_length hlength
  have hdrop : (c :: (w ++ rest)).drop n = (c :: w).drop n ++ rest :=
    show ((c :: w) ++ rest).drop n = _ from List.drop_append_of_le_length hlength
  rw [List.cons_append, lex_cons]
  unfold keyword? at h
  split at h
  · next hkeyword =>
      obtain ⟨rfl, rfl⟩ := Prod.mk.inj (Option.some.inj h)
      have hnext : nextToken c (w ++ rest) =
          (.first, (c :: w).take 5, (c :: w).drop 5 ++ rest) := by
        rw [nextToken, hfirst, if_pos hkeyword, htake, hdrop]
      rw [hnext]
      exact ⟨.inl rfl, rfl⟩
  · next hno =>
      split at h
      · next hkeyword =>
          obtain ⟨rfl, rfl⟩ := Prod.mk.inj (Option.some.inj h)
          have hnext : nextToken c (w ++ rest) =
              (.any, (c :: w).take 3, (c :: w).drop 3 ++ rest) := by
            rw [nextToken, hfirst, if_neg hno, hany, if_pos hkeyword, htake, hdrop]
          rw [hnext]
          exact ⟨.inr rfl, rfl⟩
      · cases h

/-- What follows a name. -/
def Delimits (rest : List Char) : Prop :=
  rest = [] ∨ rest.head? = some ',' ∨ rest.head? = some ')'

theorem Delimits.head {rest : List Char} (h : Delimits rest) {c : Char} (hc : c ∈ rest.head?) :
    isIdentRest c = false ∧ Text.isSpace c = false ∧ c ≠ '"' := by
  rcases h with rfl | h | h
  · cases hc
  all_goals
    obtain rfl := Option.some.inj (h.symm.trans hc)
    decide

/-- A line break after a name is skipped. -/
theorem lex_tail {tail rest : List Char} (htail : tail = [] ∨ tail = ['\n'])
    (hrest : Delimits rest) : lex (tail ++ rest) = lex rest := by
  rcases htail with rfl | rfl
  · rfl
  · exact lex_skip rfl fun c hc => (hrest.head hc).2.1

theorem isIdentRest_of_tail {tail rest : List Char} (htail : tail = [] ∨ tail = ['\n'])
    (hrest : Delimits rest) {c : Char} (hc : c ∈ (tail ++ rest).head?) : isIdentRest c = false := by
  rcases htail with rfl | rfl
  · exact (hrest.head hc).1
  · obtain rfl := Option.some.inj hc
    decide

/-! ### Names -/

/-- The name that a token stands for. -/
def memberText : TokenType × List Char → Option (List Char)
  | (.ident, text) | (.first, text) | (.any, text) => some text
  | (.dquot, text) => some (undouble text.tail.dropLast)
  | _ => none

/-- The name is written as it is and its word is longer than a keyword that it starts with. -/
def Splits (value : List Char) : Prop :=
  isPlain value = true ∧
    ∃ type n, keyword? (word value) = some (type, n) ∧ n < (word value).length

/-- What is read where the name is not split. -/
def readBack (value : List Char) : List Char := if isPlain value then word value else value

theorem nameMatches_of_isPlain {value : List Char} (h : isPlain value = true) :
    nameMatches value = true := by
  simp only [isPlain, Bool.and_eq_true] at h
  exact h.1.1

/-- A name that is not split is one token. -/
theorem lex_name {name : String} (h : ¬Splits name.toList) {rest : List Char}
    (hrest : Delimits rest) :
    ∃ t, lex (quoteStandbyName name ++ rest) = t :: lex rest ∧
      memberText t = some (readBack name.toList) := by
  unfold quoteStandbyName readBack
  by_cases hplain : isPlain name.toList = true
  · obtain ⟨c, w, tail, hname, hword, hc, hw, htail⟩ :=
      word_append_of_nameMatches (nameMatches_of_isPlain hplain)
    have hhead : ∀ x ∈ (tail ++ rest).head?, isIdentRest x = false := fun x hx =>
      isIdentRest_of_tail htail hrest hx
    rw [if_pos hplain, if_pos hplain, hword, hname, List.append_assoc]
    cases hkeyword : keyword? (c :: w) with
    | none =>
        have hno := keyword?_eq_none.mp hkeyword
        refine ⟨(.ident, c :: w), ?_, rfl⟩
        rw [lex_ident hc (fun x hx => hw x (List.mem_cons_of_mem _ hx)) hhead hno.1 hno.2,
          lex_tail htail hrest]
    | some keyword =>
        obtain ⟨type, n⟩ := keyword
        obtain ⟨htype, hlex⟩ := lex_keyword hhead hkeyword
        have hn : n = (c :: w).length := by
          refine le_antisymm (length_of_keyword? hkeyword).2 (not_lt.mp fun hlt => h ⟨hplain, ?_⟩)
          rw [hword]
          exact ⟨type, n, hkeyword, hlt⟩
        rw [hn, List.take_length, List.drop_length, List.nil_append, lex_tail htail hrest] at hlex
        refine ⟨(type, c :: w), hlex, ?_⟩
        rcases htype with rfl | rfl <;> rfl
  · rw [if_neg hplain, if_neg hplain]
    refine ⟨_, lex_quoteIdent name.toList fun hquote => (hrest.head hquote).2.2 rfl, ?_⟩
    simp [memberText, quoteIdent, undouble_double]

/-- A name that is split is a keyword and a token that is no comma. -/
theorem lex_name_of_splits {name : String} (h : Splits name.toList) {rest : List Char}
    (hrest : Delimits rest) :
    ∃ t t' ts, lex (quoteStandbyName name ++ rest) = t :: t' :: ts ∧ t'.1 ≠ .comma ∧
      t'.1 ≠ .parenend := by
  obtain ⟨hplain, type, n, hkeyword, hlt⟩ := h
  obtain ⟨c, w, tail, hname, hword, hc, hw, htail⟩ :=
    word_append_of_nameMatches (nameMatches_of_isPlain hplain)
  have hhead : ∀ x ∈ (tail ++ rest).head?, isIdentRest x = false := fun x hx =>
    isIdentRest_of_tail htail hrest hx
  rw [hword] at hkeyword hlt
  obtain ⟨-, hlex⟩ := lex_keyword hhead hkeyword
  cases hdrop : (c :: w).drop n with
  | nil => exact absurd (List.drop_eq_nil_iff.mp hdrop) (not_le.mpr hlt)
  | cons x r =>
      have hx : isIdentRest x = true :=
        hw x (List.mem_of_mem_drop (hdrop ▸ List.mem_cons_self))
      obtain ⟨hspace, hcomma, hparen⟩ := nextToken_of_isIdentRest hx (r ++ (tail ++ rest))
      have hcut := lex_cons x (r ++ (tail ++ rest))
      rw [if_neg hspace] at hcut
      rw [hdrop] at hlex
      change _ = _ :: lex (x :: (r ++ (tail ++ rest))) at hlex
      rw [hcut] at hlex
      rw [quoteStandbyName, if_pos hplain, hname, List.append_assoc]
      exact ⟨_, _, _, hlex, hcomma, hparen⟩

theorem lex_comma (cs : List Char) : lex (',' :: cs) = (.comma, [',']) :: lex cs := by
  have hnext : nextToken ',' cs = (.comma, [','], cs) := rfl
  rw [lex_cons, hnext]
  rfl

/-- `','.join` of the names. -/
def joined (names : List String) : List Char := [','].intercalate (names.map quoteStandbyName)

theorem joined_cons_cons (name name' : String) (names : List String) (rest : List Char) :
    joined (name :: name' :: names) ++ rest =
      quoteStandbyName name ++ ',' :: (joined (name' :: names) ++ rest) := by
  simp [joined, List.intercalate_cons_cons]

/-- Names that are not split are read one by one, with the commas between them. -/
theorem lex_joined {names : List String} (hnames : names ≠ [])
    (h : ∀ name ∈ names, ¬Splits name.toList) {rest : List Char} (hrest : Delimits rest) :
    ∃ ts : List (TokenType × List Char),
      lex (joined names ++ rest) = ts.intersperse (.comma, [',']) ++ lex rest ∧
      ts.map memberText = names.map fun name => some (readBack name.toList) := by
  induction names with
  | nil => exact absurd rfl hnames
  | cons name names ih =>
      obtain ⟨hname, htail⟩ := List.forall_mem_cons.mp h
      cases names with
      | nil =>
          obtain ⟨t, hlex, ht⟩ := lex_name hname hrest
          exact ⟨[t], by simpa [joined] using hlex, by simp [ht]⟩
      | cons name' names =>
          obtain ⟨ts, hlex, hts⟩ := ih (List.cons_ne_nil _ _) htail
          obtain ⟨t, hlex', ht⟩ := lex_name hname
            (show Delimits (',' :: (joined (name' :: names) ++ rest)) from .inr (.inl rfl))
          cases ts with
          | nil => cases hts
          | cons t' ts =>
              refine ⟨t :: t' :: ts, ?_, by simp [ht, hts]⟩
              rw [joined_cons_cons, hlex', lex_comma, hlex]
              rfl

/-- Tokens that are no list of names: after some commas there is none where one belongs. -/
inductive Fails : List (TokenType × List Char) → Prop
  | here (t t' : TokenType × List Char) (ts : List (TokenType × List Char)) (hcomma : t'.1 ≠ .comma)
      (hparen : t'.1 ≠ .parenend) : Fails (t :: t' :: ts)
  | later (t t' : TokenType × List Char) {ts : List (TokenType × List Char)} (h : Fails ts) :
      Fails (t :: t' :: ts)

theorem fails_joined {names : List String} (h : ∃ name ∈ names, Splits name.toList)
    {rest : List Char} (hrest : Delimits rest) : Fails (lex (joined names ++ rest)) := by
  induction names with
  | nil =>
      obtain ⟨name, hname, -⟩ := h
      cases hname
  | cons name names ih =>
      have hsplit (rest : List Char) (hrest : Delimits rest) (hname : Splits name.toList) :
          Fails (lex (quoteStandbyName name ++ rest)) := by
        obtain ⟨t, t', ts, hlex, hcomma, hparen⟩ := lex_name_of_splits hname hrest
        rw [hlex]
        exact .here t t' ts hcomma hparen
      cases names with
      | nil =>
          obtain ⟨name', hmem, hname⟩ := h
          obtain rfl := List.mem_singleton.mp hmem
          simpa [joined] using hsplit rest hrest hname
      | cons name' names =>
          have hdelimits : Delimits (',' :: (joined (name' :: names) ++ rest)) := .inr (.inl rfl)
          rw [joined_cons_cons]
          by_cases hname : Splits name.toList
          · exact hsplit _ hdelimits hname
          · obtain ⟨t, hlex, -⟩ := lex_name hname hdelimits
            obtain ⟨bad, hmem, hbad⟩ := h
            rw [hlex, lex_comma]
            refine .later _ _ (ih ⟨bad, (List.mem_cons.mp hmem).resolve_left ?_, hbad⟩)
            rintro rfl
            exact hname hbad

/-- The parenthesis at the end is not part of the list. -/
theorem Fails.dropLast {ts : List (TokenType × List Char)} (h : Fails ts)
    (hlast : (ts.map Prod.fst).getLast? = some .parenend) : Fails ts.dropLast := by
  induction h with
  | here t t' ts hcomma hparen =>
      cases ts with
      | nil => exact absurd (Option.some.inj hlast) hparen
      | cons t'' ts => exact .here t t' _ hcomma hparen
  | @later t t' ts h ih =>
      cases ts with
      | nil => cases h
      | cons t'' ts => exact .later t t' (ih (by simpa using hlast))

/-! ### The number and the parentheses -/

theorem lex_parenstart (cs : List Char) : lex ('(' :: cs) = (.parenstart, ['(']) :: lex cs := by
  have hnext : nextToken '(' cs = (.parenstart, ['('], cs) := rfl
  rw [lex_cons, hnext]
  rfl

theorem lex_any {cs : List Char} (h : ∀ c ∈ cs.head?, Text.isSpace c = false) :
    lex ("ANY ".toList ++ cs) = (.any, "ANY".toList) :: lex cs := by
  have hnext : nextToken 'A' ('N' :: 'Y' :: ' ' :: cs) = (.any, "ANY".toList, ' ' :: cs) := rfl
  have hsplit : "ANY ".toList ++ cs = 'A' :: 'N' :: 'Y' :: ' ' :: cs := rfl
  rw [hsplit, lex_cons, hnext, if_neg (by simp), lex_skip rfl h]

theorem isIdentStart_of_isDigit {c : Char} (h : c.isDigit) : isIdentStart c = false := by
  have hdigit := Text.isDigit_iff.mp h
  have hc : c ≠ '_' := by
    rintro rfl
    exact absurd hdigit.2 (by decide)
  rw [Bool.eq_false_iff, ne_eq, isIdentStart, Bool.or_eq_true, decide_eq_true_eq, or_iff_left hc,
    Text.isAlpha_iff]
  omega

theorem startsWith_of_isDigit {k c : Char} (hk : k.isAlpha) (hc : c.isDigit)
    (keyword cs : List Char) : startsWith (k :: keyword) (c :: cs) = false := by
  have hne : c.toLower ≠ k := by
    rintro rfl
    have halpha := isIdentStart_of_isDigit hc
    rw [isIdentStart, isAlpha_of_toLower hk] at halpha
    cases halpha
  rw [startsWith_cons]
  simp [hne]

theorem lex_num {digits rest : List Char} (hne : digits ≠ []) (hdigits : ∀ c ∈ digits, c.isDigit)
    (hrest : ∀ c ∈ rest.head?, Text.isDecimal c = false) :
    lex (digits ++ rest) = (.num, digits) :: lex rest := by
  cases digits with
  | nil => exact absurd rfl hne
  | cons c cs =>
      obtain ⟨hc, hcs⟩ := List.forall_mem_cons.mp hdigits
      have hfirst : startsWith "first".toList (c :: (cs ++ rest)) = false :=
        startsWith_of_isDigit (by decide) hc _ _
      have hany : startsWith "any".toList (c :: (cs ++ rest)) = false :=
        startsWith_of_isDigit (by decide) hc _ _
      have hword : isIdentRest c = true := by simp [isIdentRest, hc]
      have hquote : c ≠ '"' := ne_of_isIdentRest hword (by decide)
      have hstar : c ≠ '*' := ne_of_isIdentRest hword (by decide)
      have hdecimals : ∀ x ∈ cs, Text.isDecimal x = true := fun x hx =>
        Text.isDecimal_of_isDigit (hcs x hx)
      have hnext : nextToken c (cs ++ rest) = (.num, c :: cs, rest) := by
        simp only [nextToken, hfirst, hany, isSpace_of_isIdentRest hword,
          isIdentStart_of_isDigit hc, hquote, hstar, Text.isDecimal_of_isDigit hc,
          Bool.false_eq_true, if_false, if_true, Text.takeWhile_append_stop hdecimals hrest,
          Text.dropWhile_append_stop hdecimals hrest]
      rw [List.cons_append, lex_cons, hnext]
      rfl

/-- The list in parentheses, after the number and maybe the keyword. -/
def listText (any : Bool) (num : ℕ) (names : List String) : List Char :=
  (if any then "ANY ".toList else []) ++
    (Nat.toDigits 10 num ++ ' ' :: '(' :: (joined names ++ [')']))

theorem lex_listText (any : Bool) (num : ℕ) (names : List String) :
    lex (listText any num names) = (if any then [(.any, "ANY".toList)] else []) ++
      (.num, Nat.toDigits 10 num) :: (.parenstart, ['(']) :: lex (joined names ++ [')']) := by
  have hdigits : ∀ c ∈ Nat.toDigits 10 num, c.isDigit := fun c hc =>
    Nat.isDigit_of_mem_toDigits (by decide) (by decide) hc
  have hnum : lex (Nat.toDigits 10 num ++ ' ' :: '(' :: (joined names ++ [')'])) =
      (.num, Nat.toDigits 10 num) :: (.parenstart, ['(']) :: lex (joined names ++ [')']) := by
    have hstop : ∀ c ∈ (' ' :: '(' :: (joined names ++ [')'])).head?, Text.isDecimal c = false := by
      intro c hc
      obtain rfl := Option.some.inj hc
      decide
    rw [lex_num Nat.toDigits_ne_nil hdigits hstop, lex_skip rfl, lex_parenstart]
    intro c hc
    obtain rfl := Option.some.inj hc
    decide
  cases any with
  | false => exact hnum
  | true =>
      refine (lex_any ?_).trans (congrArg _ hnum)
      intro c hc
      -- the first digit of the number follows
      have hmem : c ∈ Nat.toDigits 10 num := by
        cases hlist : Nat.toDigits 10 num with
        | nil => exact absurd hlist Nat.toDigits_ne_nil
        | cons d ds =>
            rw [hlist] at hc
            obtain rfl := Option.some.inj hc
            exact List.mem_cons_self
      exact isSpace_of_isIdentRest (by simp [isIdentRest, hdigits c hmem])

end Lexer

/-! ## Parsing -/

/-- The group and the text of a token. -/
def Token.key (t : Token) : TokenType × List Char := (t.type, t.text)

theorem collect_member {t : Token} {name : List Char} (ht : memberText t.key = some name)
    (length : ℕ) {i : ℕ} (hi : i % 2 = 0) (ts : List Token) (hasStar : Bool)
    (members : CaseInsensitiveSet String) :
    collect length i (t :: ts) hasStar members =
      collect length (i + 1) ts hasStar (members.add (String.ofList name)) := by
  obtain ⟨type, text, start⟩ := t
  have hodd : ¬i % 2 = 1 := by omega
  cases type
  case first | any | ident | dquot =>
    obtain rfl := Option.some.inj ht
    simp [collect, hodd]
  all_goals cases ht

/-- A list of names with the commas between them. -/
theorem collect_intersperse {keys : List (TokenType × List Char)} {names : List (List Char)}
    (hkeys : keys.map memberText = names.map some) {tokens : List Token}
    (htokens : tokens.map Token.key = keys.intersperse (.comma, [','])) {length i : ℕ}
    (hi : i % 2 = 0) (hlength : length = i + tokens.length) (hasStar : Bool)
    (members : CaseInsensitiveSet String) :
    collect length i tokens hasStar members =
      .ok (hasStar, (names.map String.ofList).foldl CaseInsensitiveSet.add members) := by
  induction keys generalizing names tokens i members with
  | nil =>
      obtain rfl : names = [] := by simpa using hkeys.symm
      obtain rfl : tokens = [] := by simpa using htokens
      rfl
  | cons key keys ih =>
      cases names with
      | nil => cases hkeys
      | cons name names =>
          obtain ⟨hkey, hrest⟩ := List.cons.inj hkeys
          cases keys with
          | nil =>
              obtain rfl : names = [] := by simpa using hrest.symm
              obtain ⟨t, rfl, rfl⟩ := List.map_eq_singleton_iff.mp htokens
              rw [collect_member hkey length hi]
              rfl
          | cons key' keys =>
              obtain ⟨t, tokens', rfl, rfl, htokens'⟩ := List.map_eq_cons_iff.mp htokens
              obtain ⟨t', tokens'', rfl, ht', htokens''⟩ := List.map_eq_cons_iff.mp htokens'
              have hnext : length ≠ i + 1 + 1 := by
                -- another name follows the comma
                have hpos : 0 < tokens''.length := by
                  rw [← List.length_map, htokens'']
                  cases keys <;> simp [List.intersperse]
                simp only [List.length_cons] at hlength
                omega
              have hodd : (i + 1) % 2 = 1 := by omega
              have hcomma : t'.type = .comma := congrArg Prod.fst ht'
              rw [collect_member hkey length hi, collect, if_pos hodd, if_neg hnext,
                if_neg (not_not.mpr hcomma), ih hrest htokens'' (by omega)
                  (by simp only [List.length_cons] at hlength; omega)]
              rfl

theorem collect_even (length : ℕ) {i : ℕ} (hi : i % 2 = 0) (t : Token) (ts : List Token)
    (hasStar : Bool) (members : CaseInsensitiveSet String) :
    (∃ e, collect length i (t :: ts) hasStar members = .error e) ∨
      ∃ hasStar' members', collect length i (t :: ts) hasStar members =
        collect length (i + 1) ts hasStar' members' := by
  have hodd : ¬i % 2 = 1 := by omega
  rw [collect, if_neg hodd]
  split
  all_goals first | exact .inr ⟨_, _, rfl⟩ | exact .inl ⟨_, rfl⟩

theorem collect_odd (length : ℕ) {i : ℕ} (hi : i % 2 = 1) (t : Token) (ts : List Token)
    (hasStar : Bool) (members : CaseInsensitiveSet String) :
    (∃ e, collect length i (t :: ts) hasStar members = .error e) ∨
      t.type = .comma ∧ collect length i (t :: ts) hasStar members =
        collect length (i + 1) ts hasStar members := by
  rw [collect, if_pos hi]
  split
  · exact .inl ⟨_, rfl⟩
  · split
    · exact .inl ⟨_, rfl⟩
    · next hcomma => exact .inr ⟨not_not.mp hcomma, rfl⟩

theorem collect_fails {tokens : List Token} (h : Fails (tokens.map Token.key)) (length : ℕ) {i : ℕ}
    (hi : i % 2 = 0) (hasStar : Bool) (members : CaseInsensitiveSet String) :
    ∃ e, collect length i tokens hasStar members = .error e := by
  generalize hkeys : tokens.map Token.key = keys at h
  induction h generalizing tokens i hasStar members with
  | here k k' ks hcomma hparen =>
      obtain ⟨t, tokens', rfl, -, hkeys'⟩ := List.map_eq_cons_iff.mp hkeys
      obtain ⟨t', tokens'', rfl, rfl, -⟩ := List.map_eq_cons_iff.mp hkeys'
      rcases collect_even length hi t (t' :: tokens'') hasStar members with
        herror | ⟨hasStar', members', heq⟩
      · exact herror
      · rw [heq]
        rcases collect_odd length (by omega : (i + 1) % 2 = 1) t' tokens'' hasStar' members' with
          herror | ⟨htype, -⟩
        · exact herror
        · exact absurd htype hcomma
  | later k k' h ih =>
      obtain ⟨t, tokens', rfl, -, hkeys'⟩ := List.map_eq_cons_iff.mp hkeys
      obtain ⟨t', tokens'', rfl, -, hkeys''⟩ := List.map_eq_cons_iff.mp hkeys'
      rcases collect_even length hi t (t' :: tokens'') hasStar members with
        herror | ⟨hasStar', members', heq⟩
      · exact herror
      · rw [heq]
        rcases collect_odd length (by omega : (i + 1) % 2 = 1) t' tokens'' hasStar' members' with
          herror | ⟨-, heq'⟩
        · exact herror
        · rw [heq']
          exact ih (by omega) hasStar' members' hkeys''

theorem parseList_ok {synclist : List Token} {keys : List (TokenType × List Char)}
    {names : List (List Char)} (hkeys : keys.map memberText = names.map some)
    (hsynclist : synclist.map Token.key = keys.intersperse (.comma, [','])) (syncType : SyncType)
    (num : ℕ) :
    parseList syncType num synclist =
      .ok ⟨syncType, false, num, .ofList (names.map String.ofList)⟩ := by
  rw [parseList, collect_intersperse hkeys hsynclist rfl (Nat.zero_add _).symm]
  rfl

theorem parseList_fails {synclist : List Token} (h : Fails (synclist.map Token.key))
    (syncType : SyncType) (num : ℕ) : ∃ e, parseList syncType num synclist = .error e := by
  obtain ⟨e, he⟩ := collect_fails h synclist.length (Nat.zero_mod 2) false ∅
  exact ⟨e, by rw [parseList, he]; rfl⟩

section Forms

variable {value : List Char} {keys : List (TokenType × List Char)}

omit [NodeName String] in
theorem map_type_tokens (h : lex value = keys) :
    (tokens value).map (fun t => t.type) = keys.map Prod.fst := by
  rw [← h, ← map_tokens, List.map_map]
  rfl

omit [NodeName String] in
theorem map_key_drop (h : lex value = keys) (n : ℕ) :
    ((tokens value).drop n).map Token.key = keys.drop n := by
  rw [List.map_drop]
  exact congrArg (List.drop n) ((map_tokens value).trans h)

omit [NodeName String] in
theorem tokens_ne_nil (h : lex value = keys) (hkeys : keys ≠ []) : tokens value ≠ [] := by
  intro hnil
  have := map_tokens value
  rw [hnil, h] at this
  exact hkeys this.symm

omit [NodeName String] in
theorem getLast?_parenstart (types : List TokenType) :
    (.parenstart :: types).getLast? = some TokenType.parenend ↔
      types.getLast? = some .parenend := by
  cases types <;> simp

/-- `ANY num (...)` -/
theorem parse_any {a digits p : List Char}
    (h : lex value = (.any, a) :: (.num, digits) :: (.parenstart, p) :: keys) :
    parse value = if (keys.map Prod.fst).getLast? = some .parenend then
        parseList .quorum (Text.ofDecimals digits) ((tokens value).drop 3).dropLast
      else parseList .priority 1 (tokens value) := by
  have htypes := map_type_tokens h
  have hnumber : (tokens value)[1]?.map (fun t => t.text) = some digits := by
    have := congrArg (fun ks => ks[1]?.map Prod.snd) ((map_tokens value).trans h)
    simpa using this
  simp only [parse, if_neg (tokens_ne_nil h (List.cons_ne_nil _ _)), hnumber, htypes]
  refine if_congr ?_ rfl ?_
  · simp [getLast?_parenstart]
  · simp

/-- `num (...)` -/
theorem parse_num {digits p : List Char}
    (h : lex value = (.num, digits) :: (.parenstart, p) :: keys) :
    parse value = if (keys.map Prod.fst).getLast? = some .parenend then
        parseList .priority (Text.ofDecimals digits) ((tokens value).drop 2).dropLast
      else parseList .priority 1 (tokens value) := by
  have htypes := map_type_tokens h
  have hnumber : (tokens value)[0]?.map (fun t => t.text) = some digits := by
    have := congrArg (fun ks => ks[0]?.map Prod.snd) ((map_tokens value).trans h)
    simpa using this
  simp only [parse, if_neg (tokens_ne_nil h (List.cons_ne_nil _ _)), hnumber, htypes]
  rw [if_neg (by simp), if_neg (by simp)]
  exact if_congr (by simp [getLast?_parenstart]) rfl rfl

/-- A text without a parenthesis at its end. -/
theorem parse_bare (hkeys : keys ≠ []) (h : lex value = keys) (hvalue : ')' ∉ value) :
    parse value = parseList .priority 1 (tokens value) := by
  have hlast : ((tokens value).map fun t => t.type).getLast? ≠ some .parenend := by
    intro hlast
    obtain ⟨t, ht, htype⟩ := List.mem_map.mp (List.mem_of_getLast? hlast)
    have hmem : t.key ∈ lex value := by
      rw [← map_tokens]
      exact List.mem_map_of_mem ht
    have hkey : t.key = (.parenend, t.text) := by rw [Token.key, htype]
    exact hvalue (mem_of_parenend (hkey ▸ hmem))
  simp only [parse, if_neg (tokens_ne_nil h hkeys), hlast, and_false, if_false]

/-- One token. -/
theorem parse_single {t : TokenType × List Char} (h : lex value = [t]) :
    parse value = parseList .priority 1 (tokens value) := by
  have htypes := map_type_tokens h
  simp only [parse, if_neg (tokens_ne_nil h (List.cons_ne_nil _ _)), htypes]
  simp

/-- A list in parentheses is parsed without them, unless the closing one is part of a token. -/
theorem parse_listText (any : Bool) (num : ℕ) (names : List String) :
    ∃ synclist, synclist.map Token.key = (lex (joined names ++ [')'])).dropLast ∧
      parse (listText any num names) =
        if ((lex (joined names ++ [')'])).map Prod.fst).getLast? = some .parenend then
          parseList (if any then .quorum else .priority) num synclist
        else parseList .priority 1 (tokens (listText any num names)) := by
  have hlex := lex_listText any num names
  cases any with
  | false =>
      refine ⟨((tokens (listText false num names)).drop 2).dropLast, ?_, ?_⟩
      · rw [List.map_dropLast, map_key_drop hlex]
        rfl
      · rw [parse_num hlex, Text.ofDecimals_toDigits]
        rfl
  | true =>
      refine ⟨((tokens (listText true num names)).drop 3).dropLast, ?_, ?_⟩
      · rw [List.map_dropLast, map_key_drop hlex]
        rfl
      · rw [parse_any hlex, Text.ofDecimals_toDigits]
        rfl

theorem parse_listText_ok (any : Bool) (num : ℕ) {names : List String} (hnames : names ≠ [])
    (h : ∀ name ∈ names, ¬Splits name.toList) :
    parse (listText any num names) = .ok ⟨if any then .quorum else .priority, false, num,
      .ofList (names.map fun name => String.ofList (readBack name.toList))⟩ := by
  obtain ⟨synclist, hsynclist, hparse⟩ := parse_listText any num names
  obtain ⟨ts, hlex, hts⟩ := lex_joined hnames h (show Delimits [')'] from .inr (.inr rfl))
  have hend : lex [')'] = [(.parenend, [')'])] := rfl
  rw [hend] at hlex
  rw [hlex, List.dropLast_concat] at hsynclist
  rw [hlex, List.map_append, if_pos (by simp)] at hparse
  have hkeys : ts.map memberText = (names.map fun name => readBack name.toList).map some := by
    rw [hts, List.map_map]
    rfl
  rw [hparse, parseList_ok hkeys hsynclist, List.map_map]
  rfl

theorem parse_listText_fails (any : Bool) (num : ℕ) {names : List String}
    (h : ∃ name ∈ names, Splits name.toList) : ∃ e, parse (listText any num names) = .error e := by
  obtain ⟨synclist, hsynclist, hparse⟩ := parse_listText any num names
  have hfails := fails_joined h (show Delimits [')'] from .inr (.inr rfl))
  rw [hparse]
  split
  · next hlast =>
      have hlist := hfails.dropLast hlast
      rw [← hsynclist] at hlist
      exact parseList_fails hlist _ _
  · -- the number is taken for a name, or for a comma
    refine parseList_fails ?_ _ _
    have hkeys : (tokens (listText any num names)).map Token.key = lex (listText any num names) :=
      map_tokens _
    rw [hkeys, lex_listText]
    cases any with
    | false => exact .here _ _ _ (by simp) (by simp)
    | true => exact .here _ _ _ (by simp) (by simp)

theorem parse_joined_ok {name : String} (h : ¬Splits name.toList) :
    parse (joined [name]) =
      .ok ⟨.priority, false, 1, .ofList [String.ofList (readBack name.toList)]⟩ := by
  obtain ⟨t, hlex, ht⟩ := lex_name h (show Delimits [] from .inl rfl)
  have hjoined : joined [name] = quoteStandbyName name ++ [] := by simp [joined]
  rw [lex_nil, ← hjoined] at hlex
  have hkeys : [t].map memberText = [readBack name.toList].map some := by simp [ht]
  have htokens : (tokens (joined [name])).map Token.key = [t].intersperse (.comma, [',']) :=
    (map_tokens _).trans hlex
  rw [parse_single hlex, parseList_ok hkeys htokens]
  rfl

theorem parse_joined_fails {name : String} (h : Splits name.toList) :
    ∃ e, parse (joined [name]) = .error e := by
  have hfails := fails_joined ⟨name, List.mem_singleton_self name, h⟩
    (show Delimits [] from .inl rfl)
  rw [List.append_nil] at hfails
  have hparen : ')' ∉ joined [name] := by
    obtain ⟨c, w, tail, hname, -, -, hw, htail⟩ :=
      word_append_of_nameMatches (nameMatches_of_isPlain h.1)
    have hjoined : joined [name] = c :: w ++ tail := by
      rw [← hname, joined, List.map_singleton, quoteStandbyName, if_pos h.1]
      simp
    rw [hjoined]
    intro hmem
    rcases List.mem_append.mp hmem with hmem | hmem
    · exact ne_of_isIdentRest (hw _ hmem) (by decide) rfl
    · rcases htail with rfl | rfl <;> simp at hmem
  have hne : lex (joined [name]) ≠ [] := by
    intro hnil
    rw [hnil] at hfails
    cases hfails
  rw [parse_bare hne rfl hparen]
  refine parseList_fails ?_ _ _
  have hkeys : (tokens (joined [name])).map Token.key = lex (joined [name]) := map_tokens _
  rwa [hkeys]

end Forms

/-! ## Names that come back -/

section Names

omit [NodeName String]

/-- Where a name is written as it is, it starts with no keyword and ends with no line break. -/
def Fits (name : String) : Prop :=
  isPlain name.toList = true → startsWith "first".toList name.toList = false ∧
    startsWith "any".toList name.toList = false ∧ name.toList.getLast? ≠ some '\n'

instance (name : String) : Decidable (Fits name) :=
  inferInstanceAs (Decidable (_ → _))

theorem word_of_forall {value : List Char} (h : ∀ c ∈ value, isIdentRest c = true) :
    word value = value := by
  rw [word, ← List.append_nil value, List.takeWhile_append_of_pos h]
  rfl

theorem readBack_readBack (value : List Char) : readBack (readBack value) = readBack value := by
  by_cases hplain : isPlain value = true
  · have hword : word (word value) = word value :=
      word_of_forall fun c hc => List.all_eq_true.mp List.all_takeWhile c hc
    have hread : readBack value = word value := if_pos hplain
    rw [hread, readBack, hword, ite_self]
  · have hread : readBack value = value := if_neg hplain
    rw [hread, hread]

theorem map_toLower_of_startsWith {keyword cs : List Char} (h : startsWith keyword cs = true)
    (hlength : keyword.length = cs.length) : cs.map Char.toLower = keyword := by
  have heq := of_decide_eq_true h
  rwa [List.take_of_length_le (Nat.le_of_eq hlength.symm)] at heq

/-- A keyword is shorter than the name, as the keywords themselves are quoted. -/
theorem lt_length_of_keyword? {value : List Char} (hplain : isPlain value = true)
    {type : TokenType} {n : ℕ} (h : keyword? value = some (type, n)) : n < value.length := by
  simp only [isPlain, Bool.and_eq_true, decide_eq_true_eq] at hplain
  obtain ⟨⟨-, hfirst⟩, hany⟩ := hplain
  refine lt_of_le_of_ne (length_of_keyword? h).2 fun hlength => ?_
  unfold keyword? at h
  split at h
  · next hstart =>
      obtain ⟨-, rfl⟩ := Prod.mk.inj (Option.some.inj h)
      exact hfirst (map_toLower_of_startsWith hstart hlength)
  · split at h
    · next hstart =>
        obtain ⟨-, rfl⟩ := Prod.mk.inj (Option.some.inj h)
        exact hany (map_toLower_of_startsWith hstart hlength)
    · cases h

theorem fits_iff (name : String) :
    Fits name ↔ ¬Splits name.toList ∧ readBack name.toList = name.toList := by
  by_cases hplain : isPlain name.toList = true
  swap
  · simp [Fits, Splits, readBack, hplain]
  obtain ⟨c, w, tail, hname, hword, -, hw, htail⟩ :=
    word_append_of_nameMatches (nameMatches_of_isPlain hplain)
  have hread : readBack name.toList = c :: w := by rw [readBack, if_pos hplain, hword]
  rcases htail with rfl | rfl
  · rw [List.append_nil] at hname
    have hlast : name.toList.getLast? ≠ some '\n' := fun hlast =>
      ne_of_isIdentRest (hw '\n' (hname ▸ List.mem_of_getLast? hlast)) (by decide) rfl
    have hsplits : Splits name.toList ↔ keyword? name.toList ≠ none := by
      rw [Splits, hword, ← hname]
      refine ⟨fun ⟨_, type, n, hkeyword, _⟩ => by simp [hkeyword], fun hne => ⟨hplain, ?_⟩⟩
      obtain ⟨⟨type, n⟩, hkeyword⟩ := Option.ne_none_iff_exists'.mp hne
      exact ⟨type, n, hkeyword, lt_length_of_keyword? hplain hkeyword⟩
    rw [hsplits, not_not, keyword?_eq_none, hread, ← hname]
    simp [Fits, hplain, hlast]
  · have hlast : name.toList.getLast? = some '\n' := by
      rw [hname, List.getLast?_append]
      rfl
    have hne : readBack name.toList ≠ name.toList := by
      rw [hread, hname]
      simp
    simp [Fits, hplain, hlast, hne]

/-- Names that fit are read as they are. -/
theorem map_readBack {names : List String} (h : ∀ name ∈ names, Fits name) :
    (names.map fun name => String.ofList (readBack name.toList)) = names := by
  refine (List.map_congr_left fun name hname => ?_).trans (List.map_id _)
  rw [((fits_iff name).mp (h name hname)).2, String.ofList_toList]
  rfl

end Names

/-! ## Round trip -/

omit [NodeName String] in
theorem exists_eq_singleton {sync : List String} (hne : sync ≠ []) (h : ¬1 < sync.length) :
    ∃ name, sync = [name] := by
  have hpos := List.length_pos_iff.mpr hne
  exact List.length_eq_one_iff.mp (by omega)

omit [NodeName String] in
/-- The text that is written: a list in parentheses for several names and in the quorum mode,
else the only name. -/
theorem syncParam_eq {majorVersion : ℕ} (hversion : supportsMultipleSync majorVersion = true)
    (isQuorumCommitMode : Bool) {sync : List String} (hne : sync ≠ []) (hstar : "*" ∉ sync)
    (num : ℕ) :
    syncParam majorVersion isQuorumCommitMode sync
        (if isQuorumCommitMode then some (num : ℤ) else none) =
      some (if isQuorumCommitMode = true ∨ 1 < sync.length then
        listText (isQuorumCommitMode && supportsQuorumCommit majorVersion)
          (if isQuorumCommitMode then num else sync.length) (sync.insertionSort (· ≤ ·))
      else joined (sync.insertionSort (· ≤ ·))) := by
  have hlength : (sync.insertionSort (· ≤ ·)).length = sync.length :=
    List.length_insertionSort _ _
  have hempty : (sync.insertionSort (· ≤ ·)).map quoteStandbyName ≠ [] := by
    intro hnil
    have hzero := congrArg List.length hnil
    rw [List.length_map, hlength] at hzero
    exact hne (List.length_eq_zero_iff.mp hzero)
  have hasterisk (num : Option ℤ) : ¬("*" ∈ sync ∨ (∃ n ∈ num, 1 ≤ n) ∧ sync = []) := by
    rintro (h | h)
    · exact hstar h
    · exact hne h.2
  have hrepr (n : ℕ) : (n : ℤ).repr.toList = Nat.toDigits 10 n := String.toList_ofList
  have hkeyword : (if supportsQuorumCommit majorVersion = true then "ANY " else "").toList =
      if supportsQuorumCommit majorVersion = true then "ANY ".toList else [] := apply_ite _ _ _ _
  simp only [syncParam, if_neg (hasterisk _), List.length_map, hlength, hversion]
  by_cases hone : 1 < sync.length
  · cases isQuorumCommitMode <;> simp [hone, hempty, listText, joined, hrepr, hkeyword]
  · -- one name is its own list
    obtain ⟨name, rfl⟩ := exists_eq_singleton hne hone
    cases isQuorumCommitMode <;> simp [listText, joined, hrepr, hkeyword]

/-- What the setting stands for is what was written. -/
def RoundTrip (majorVersion : ℕ) (isQuorumCommitMode : Bool) (sync : List String) (num : ℕ) :
    Prop :=
  ∃ value ssn,
    syncParam majorVersion isQuorumCommitMode sync
      (if isQuorumCommitMode then some (num : ℤ) else none) = some value ∧
    parse value = .ok ssn ∧
    ssn.hasStar = false ∧
    ssn.num = (if isQuorumCommitMode then num else sync.length) ∧
    ssn.syncType = (if isQuorumCommitMode && supportsQuorumCommit majorVersion then .quorum
      else .priority) ∧
    ∀ name, name ∈ ssn.members.values ↔ name ∈ sync

section RoundTrip

variable {majorVersion : ℕ} (hversion : supportsMultipleSync majorVersion = true)
  (isQuorumCommitMode : Bool) {sync : List String} (hne : sync ≠ []) (hstar : "*" ∉ sync) (num : ℕ)

include hversion hne hstar

/-- Names that are not split are read, each as far as it is a word. -/
theorem parse_syncParam_ok (h : ∀ name ∈ sync, ¬Splits name.toList) :
    ∃ value, syncParam majorVersion isQuorumCommitMode sync
        (if isQuorumCommitMode then some (num : ℤ) else none) = some value ∧
      parse value = .ok ⟨if isQuorumCommitMode && supportsQuorumCommit majorVersion then .quorum
        else .priority, false, if isQuorumCommitMode then num else sync.length,
        .ofList ((sync.insertionSort (· ≤ ·)).map fun name =>
          String.ofList (readBack name.toList))⟩ := by
  have hperm := List.perm_insertionSort (· ≤ ·) sync
  have hsorted : ∀ name ∈ sync.insertionSort (· ≤ ·), ¬Splits name.toList := fun name hname =>
    h name (hperm.mem_iff.mp hname)
  have hnonempty : sync.insertionSort (· ≤ ·) ≠ [] := fun hnil =>
    hne (hnil ▸ hperm).nil_eq.symm
  refine ⟨_, syncParam_eq hversion isQuorumCommitMode hne hstar num, ?_⟩
  split
  · exact parse_listText_ok _ _ hnonempty hsorted
  · next hbare =>
      obtain ⟨hmode, hlength⟩ := not_or.mp hbare
      obtain rfl : isQuorumCommitMode = false := Bool.eq_false_of_not_eq_true hmode
      obtain ⟨name, rfl⟩ := exists_eq_singleton hne hlength
      exact parse_joined_ok (h name (List.mem_singleton_self name))

theorem parse_syncParam_fails (h : ∃ name ∈ sync, Splits name.toList) :
    ∃ value e, syncParam majorVersion isQuorumCommitMode sync
      (if isQuorumCommitMode then some (num : ℤ) else none) = some value ∧
      parse value = .error e := by
  have hperm := List.perm_insertionSort (· ≤ ·) sync
  obtain ⟨name, hname, hsplits⟩ := h
  rw [syncParam_eq hversion isQuorumCommitMode hne hstar num]
  split
  · obtain ⟨e, he⟩ := parse_listText_fails (isQuorumCommitMode && supportsQuorumCommit majorVersion)
      (if isQuorumCommitMode then num else sync.length) ⟨name, hperm.mem_iff.mpr hname, hsplits⟩
    exact ⟨_, e, rfl, he⟩
  · next hbare =>
      obtain ⟨-, hlength⟩ := not_or.mp hbare
      obtain ⟨name', rfl⟩ := exists_eq_singleton hne hlength
      obtain rfl := List.mem_singleton.mp hname
      obtain ⟨e, he⟩ := parse_joined_fails hsplits
      exact ⟨_, e, rfl, he⟩

theorem not_roundTrip_of_splits (h : ∃ name ∈ sync, Splits name.toList) :
    ¬RoundTrip majorVersion isQuorumCommitMode sync num := by
  rintro ⟨value', ssn, hvalue', hparse', -⟩
  obtain ⟨value, e, hvalue, hparse⟩ :=
    parse_syncParam_fails hversion isQuorumCommitMode hne hstar num h
  obtain rfl := Option.some.inj (hvalue.symm.trans hvalue')
  cases hparse.symm.trans hparse'

/-- What is read is what was written if and only if each name that is written as it is starts with
no keyword and ends with no line break. -/
theorem roundTrip_iff (hdistinct : (sync.map lower).Nodup) :
    RoundTrip majorVersion isQuorumCommitMode sync num ↔ ∀ name ∈ sync, Fits name := by
  have hperm := List.perm_insertionSort (· ≤ ·) sync
  by_cases hsplits : ∃ name ∈ sync, Splits name.toList
  · refine iff_of_false
      (not_roundTrip_of_splits hversion isQuorumCommitMode hne hstar num hsplits) fun hfits => ?_
    obtain ⟨name, hname, hname'⟩ := hsplits
    exact ((fits_iff name).mp (hfits name hname)).1 hname'
  · have hno : ∀ name ∈ sync, ¬Splits name.toList := fun name hname hname' =>
      hsplits ⟨name, hname, hname'⟩
    obtain ⟨value, hvalue, hparse⟩ :=
      parse_syncParam_ok hversion isQuorumCommitMode hne hstar num hno
    constructor
    · rintro ⟨value', ssn, hvalue', hparse', -, -, -, hmembers⟩ name hname
      obtain rfl := Option.some.inj (hvalue.symm.trans hvalue')
      obtain rfl := Except.ok.inj (hparse.symm.trans hparse')
      refine (fits_iff name).mpr ⟨hno name hname, ?_⟩
      -- what is read has no line break at its end
      obtain ⟨name', -, hread⟩ := List.mem_map.mp
        (CaseInsensitiveSet.mem_of_mem_values_ofList ((hmembers name).mpr hname))
      rw [← hread, String.toList_ofList, readBack_readBack]
    · intro hfits
      have hmap := map_readBack fun name hname => hfits name (hperm.mem_iff.mp hname)
      have hnodup : ((sync.insertionSort (· ≤ ·)).map lower).Nodup :=
        (hperm.map lower).nodup_iff.mpr hdistinct
      rw [hmap] at hparse
      refine ⟨value, _, hvalue, hparse, rfl, rfl, rfl, fun name => ?_⟩
      rw [CaseInsensitiveSet.values_ofList hnodup]
      exact hperm.mem_iff

end RoundTrip

end

/-- The parts of the setting that `SyncHandler` works with are those of the text. -/
theorem parse_syncParam_eq_ofNodes {majorVersion : ℕ}
    (hversion : supportsMultipleSync majorVersion = true) {sync : CaseInsensitiveSet String}
    (hne : sync.values ≠ []) (hstar : "*" ∉ sync.values) (hfits : ∀ name ∈ sync.values, Fits name) :
    ∃ value ssn, syncParam majorVersion false sync.values none = some value ∧
      parse value = .ok ssn ∧ ssn.syncType = (Setting.ofNodes majorVersion sync).syncType ∧
      ⟨ssn.hasStar, ssn.num, ssn.members⟩ = (Setting.ofNodes majorVersion sync).parse := by
  have hperm := sync.sorted_perm
  have hsorted : sync.values.insertionSort (· ≤ ·) = sync.sorted := rfl
  obtain ⟨value, hvalue, hparse⟩ := parse_syncParam_ok hversion false hne hstar 0
    fun name hname => ((fits_iff name).mp (hfits name hname)).1
  rw [hsorted, map_readBack fun name hname => hfits name (hperm.mem_iff.mp hname)] at hparse
  refine ⟨value, _, hvalue, hparse, ?_⟩
  unfold Setting.ofNodes
  cases hnames : sync.sorted with
  | nil => exact absurd (hnames ▸ hperm).nil_eq.symm hne
  | cons name names =>
      have hlength : sync.values.length = (name :: names).length := by
        rw [← hnames]
        exact hperm.length_eq.symm
      dsimp only
      by_cases hseveral : supportsMultipleSync majorVersion = true ∧ names ≠ []
      · rw [if_pos hseveral]
        exact ⟨rfl, rfl⟩
      · obtain rfl : names = [] := by simpa [hversion] using hseveral
        rw [if_neg hseveral]
        refine ⟨rfl, ?_⟩
        simp [Setting.parse, hlength]

/-- A name with a space and a name that is a keyword come back from `ANY 1 ("a b","any")`. -/
theorem roundTrip_quoted : RoundTrip 160000 true ["a b", "any"] 1 :=
  (roundTrip_iff (by decide) true (by decide) (by decide) 1 (by decide +kernel)).mpr (by decide)

/-- The name `anything` is written as it is and read as the keyword `any` and the name `thing`. -/
theorem not_roundTrip_anything :
    supportsMultipleSync 160000 = true ∧ (["anything"].map lower).Nodup ∧
      ¬RoundTrip 160000 false ["anything"] 1 := by
  refine ⟨by decide, by simp, ?_⟩
  refine not_roundTrip_of_splits (by decide) false (by decide) (by decide) 1 ?_
  exact ⟨"anything", List.mem_singleton_self _, by decide, .any, 3, by decide, by decide⟩

end SyncStandbyNames

end Metatroni
