import Metatroni.Lib.Dict
import Metatroni.Lib.Text

/-!
# `primary_conninfo`

`format_dsn` writes connection parameters as a connection string, `parse_dsn`
reads a connection string and `_check_primary_conninfo` compares what was read
with the parameters that are wanted.

## Implementation notes

Texts are lists of characters. Where the source keeps a position in a text, the
model keeps what is left from there on.
-/

namespace Metatroni

namespace Conninfo

/-- The value of a connection parameter. -/
inductive Value
  | none
  | str (s : List Char)
  | int (n : ℤ)
  deriving DecidableEq

/-- `str(value)` -/
def Value.text : Value → List Char
  | .none => "None".toList
  | .str s => s
  | .int n => (toString n).toList

/-- The truth value. -/
def Value.truthy : Value → Bool
  | .none => false
  | .str s => s ≠ []
  | .int n => n ≠ 0

abbrev Params := Dict String Value

/-- What is not `None` in a dictionary. -/
def text? (params : Params) (kw : String) : Option (List Char) :=
  match params.lookup kw with
  | .none | some .none => none
  | some value => some value.text

/-! ## The writer -/

def keywords (params : Params) : List String :=
  ["dbname", "user",
    if ((params.lookup "passfile").getD .none).truthy then "passfile" else "password",
    "host", "port", "sslmode", "sslcompression", "sslcert", "sslkey", "sslpassword", "sslrootcert",
    "sslcrl", "sslcrldir", "application_name", "krbsrvname", "gssencmode", "channel_binding",
    "target_session_attrs", "sslnegotiation"]

/-- `key_ver.get(kw, 0)` -/
def keyVer : String → ℕ
  | "target_session_attrs" => 100000
  | "gssencmode" => 120000
  | "channel_binding" => 130000
  | "sslpassword" => 130000
  | "sslcrldir" => 140000
  | "sslnegotiation" => 170000
  | _ => 0

/-- A quote, a backslash and a space are escaped. -/
def isEscaped (c : Char) : Bool := c = '\'' || c = '\\' || c = ' '

def escape (value : List Char) : List Char :=
  value.flatMap fun c => if isEscaped c then ['\\', c] else [c]

/-- The text that is written for a keyword, if its value is not `None` and the server knows it. -/
def writtenText (majorVersion : ℕ) (params : Params) (kw : String) : Option (List Char) :=
  if keyVer kw ≤ majorVersion then text? params kw else none

/-- The keywords that `format_dsn` writes, with their texts. -/
def written (majorVersion : ℕ) (params : Params) : List (String × List Char) :=
  (keywords params).filterMap fun kw =>
    (writtenText majorVersion params kw).map fun value => (kw, value)

/-- `{0}={1}` -/
def assignment (kw : String) (value : List Char) : List Char := kw.toList ++ '=' :: escape value

def formatDsn (majorVersion : ℕ) (params : Params) : List Char :=
  [' '].intercalate ((written majorVersion params).map fun p => assignment p.1 p.2)

/-! ## The reader -/

/-- `[a-z_]` -/
def isParameterChar (c : Char) : Bool := c.isLower || c = '_'

/-- `PARAMETER_RE.match`: the parameter and what is left after the match. -/
def matchParameter (cs : List Char) : Option (List Char × List Char) :=
  match cs.takeWhile isParameterChar, (cs.dropWhile isParameterChar).dropWhile Text.isSpace with
  | c :: param, '=' :: rest => some (c :: param, rest.dropWhile Text.isSpace)
  | _, _ => none

/-- The loop of `read_param_value` after a quote. -/
def readQuoted : List Char → Option (List Char × List Char)
  | [] => none
  | '\'' :: cs => some ([], cs)
  | ['\\'] => none
  | '\\' :: c :: cs => (readQuoted cs).map fun r => (c :: r.1, r.2)
  | c :: cs => (readQuoted cs).map fun r => (c :: r.1, r.2)

/-- The loop of `read_param_value` without a quote: it stops at white space. -/
def readUnquoted : List Char → List Char × List Char
  | [] => ([], [])
  | ['\\'] => ([], [])
  | '\\' :: c :: cs => (c :: (readUnquoted cs).1, (readUnquoted cs).2)
  | c :: cs =>
      if Text.isSpace c then ([], c :: cs) else (c :: (readUnquoted cs).1, (readUnquoted cs).2)

/-- `read_param_value`, of a text that is not empty. -/
def readParamValue : List Char → Option (List Char × List Char)
  | '\'' :: cs => readQuoted cs
  | cs => some (readUnquoted cs)

/-- What is read is a dictionary of texts. -/
abbrev Parsed := Dict String (List Char)

/-- The loop of `_conninfo_dsn_parse`, for at most so many steps. -/
def dsnLoop : ℕ → List Char → Parsed → Option Parsed
  | _, [], ret => some ret
  | 0, _, _ => none
  | n + 1, c :: cs, ret =>
      if Text.isSpace c then dsnLoop n cs ret
      else do
        let (param, rest) ← matchParameter (c :: cs)
        if rest = [] then none
        else
          let (value, rest) ← readParamValue rest
          dsnLoop n rest (ret.set (String.ofList param) value)

/-- `_conninfo_dsn_parse`. -/
def dsnParse (dsn : List Char) : Option Parsed := dsnLoop dsn.length dsn ∅

/-- `sslmode` takes precedence over `requiressl`. -/
def convertRequiressl (ret : Parsed) : Parsed :=
  if ret.isEmpty ∨ "sslmode" ∈ ret then ret
  else
    match ret.lookup "requiressl" with
    | none => ret
    | some requiressl =>
        let ret : Parsed := ret.erase "requiressl"
        ret.set "sslmode" (if requiressl = "1".toList then "require".toList else "prefer".toList)

/-- `ret.setdefault(key, value)` -/
def setdefault (ret : Parsed) (key value : String) : Parsed :=
  if key ∈ ret then ret else ret.set key value.toList

/-- The defaults that `parse_dsn` adds. -/
def withDefaults (ret : Parsed) : Parsed :=
  if ret.isEmpty then ret
  else
    setdefault (setdefault (setdefault (setdefault ret "sslmode" "prefer") "gssencmode" "prefer")
      "channel_binding" "prefer") "sslnegotiation" "postgres"

section

variable (uriParse : List Char → Option Parsed)

/-- `_conninfo_parse`. -/
def conninfoParse (value : List Char) : Option Parsed :=
  let ret :=
    if "postgres://".toList.isPrefixOf value || "postgresql://".toList.isPrefixOf value then
      uriParse value
    else dsnParse value
  ret.map convertRequiressl

variable (parseConninfo : List Char → Option Parsed)

/-- `parse_dsn`. The parser of the database driver is asked first. -/
def parseDsn (value : List Char) : Option Parsed :=
  let ret :=
    match parseConninfo value with
    | some ret => if ret.isEmpty then conninfoParse uriParse value else some ret
    | none => conninfoParse uriParse value
  ret.map withDefaults

/-! ## The comparison -/

/-- `str(conninfo.get(p))` -/
def getStr (conninfo : Parsed) (p : String) : List Char :=
  (conninfo.lookup p).getD "None".toList

/-- The connection string of a running WAL receiver, with the database and the password of the
setting. -/
def fromWalReceiver (walReceiver primaryConninfo : Parsed) : Parsed :=
  let walReceiver : Parsed := walReceiver.erase "dbname"
  let walReceiver :=
    match primaryConninfo.lookup "dbname" with
    | some dbname => if dbname = [] then walReceiver else walReceiver.set "dbname" dbname
    | none => walReceiver
  match primaryConninfo.lookup "password" with
  | some password => walReceiver.set "password" password
  | none => walReceiver

/-- `_check_primary_conninfo`, with the connection string of the WAL receiver and the test of the
passfile. -/
def checkPrimaryConninfo (majorVersion : ℕ) (isStarting : Bool) (walReceiver : Option (List Char))
    (checkPassfile : List Char → Params → Bool) (primaryConninfo : Option Parsed)
    (wanted : Params) : Bool :=
  let primaryConninfo := primaryConninfo.getD ∅
  if wanted.isEmpty then primaryConninfo.isEmpty
  else if primaryConninfo.isEmpty then false
  else
    let wanted : Params := if majorVersion < 170000 then wanted.erase "dbname" else wanted
    let primaryConninfo :=
      match if isStarting then none else walReceiver.bind (parseDsn uriParse parseConninfo) with
      | some walReceiver =>
          if walReceiver.isEmpty then primaryConninfo
          else fromWalReceiver walReceiver primaryConninfo
      | none => primaryConninfo
    let compare (primaryConninfo : Parsed) : Bool :=
      wanted.keys.all fun p =>
        match text? wanted p with
        | some v => getStr primaryConninfo p = v
        | none => true
    match primaryConninfo.lookup "passfile", primaryConninfo.lookup "password",
        wanted.lookup "password" with
    | some passfile, none, some password =>
        checkPassfile passfile wanted && compare (primaryConninfo.set "password" password.text)
    | _, _, _ => compare primaryConninfo

end

/-! ## What was written is read -/

/-- A value that is read as it was: it is not empty, and its only white space is the space, which
is escaped. -/
def Readable (value : List Char) : Prop :=
  value ≠ [] ∧ ∀ c ∈ value, Text.isSpace c = true → c = ' '

instance (value : List Char) : Decidable (Readable value) :=
  @instDecidableAnd _ _ inferInstance (List.decidableBAll _ _)

theorem escape_cons (c : Char) (cs : List Char) :
    escape (c :: cs) = (if isEscaped c then ['\\', c] else [c]) ++ escape cs := List.flatMap_cons

theorem readUnquoted_plain {c : Char} (hc : c ≠ '\\') (hspace : Text.isSpace c = false)
    (cs : List Char) :
    readUnquoted (c :: cs) = (c :: (readUnquoted cs).1, (readUnquoted cs).2) := by
  rw [readUnquoted]
  · simp [hspace]
  · rintro rfl rfl
    exact hc rfl
  · rintro c' cs' rfl rfl
    exact hc rfl

theorem readUnquoted_stop {rest : List Char} (h : rest = [] ∨ rest.head? = some ' ') :
    readUnquoted rest = ([], rest) := by
  rcases h with rfl | h
  · rfl
  · obtain ⟨cs, rfl⟩ := List.head?_eq_some_iff.mp h
    rfl

theorem readUnquoted_escape {value : List Char}
    (hvalue : ∀ c ∈ value, Text.isSpace c = true → c = ' ') {rest : List Char}
    (hrest : rest = [] ∨ rest.head? = some ' ') :
    readUnquoted (escape value ++ rest) = (value, rest) := by
  induction value with
  | nil => exact readUnquoted_stop hrest
  | cons c cs ih =>
      obtain ⟨hc, hcs⟩ := List.forall_mem_cons.mp hvalue
      rw [escape_cons]
      by_cases hescaped : isEscaped c = true
      · rw [if_pos hescaped]
        simp only [List.cons_append, List.nil_append, readUnquoted, ih hcs]
      · simp only [isEscaped, Bool.or_eq_true, decide_eq_true_eq, not_or] at hescaped
        obtain ⟨⟨hquote, hbackslash⟩, hspace⟩ := hescaped
        have hno : Text.isSpace c = false := Bool.eq_false_iff.mpr fun h => hspace (hc h)
        rw [if_neg (by simp [isEscaped, hquote, hbackslash, hspace])]
        rw [List.singleton_append, List.cons_append, readUnquoted_plain hbackslash hno, ih hcs]

/-- The text of a value starts with no quote and no white space. -/
theorem head_escape {value : List Char} (h : Readable value) (rest : List Char) :
    ∃ c cs, escape value ++ rest = c :: cs ∧ c ≠ '\'' ∧ Text.isSpace c = false := by
  obtain ⟨hne, hspaces⟩ := h
  cases value with
  | nil => exact absurd rfl hne
  | cons c cs =>
      rw [escape_cons]
      by_cases hescaped : isEscaped c = true
      · rw [if_pos hescaped]
        exact ⟨'\\', _, rfl, by decide, by decide⟩
      · rw [if_neg hescaped]
        simp only [isEscaped, Bool.or_eq_true, decide_eq_true_eq, not_or] at hescaped
        exact ⟨c, _, rfl, hescaped.1.1, Bool.eq_false_iff.mpr fun h =>
          hescaped.2 (hspaces c List.mem_cons_self h)⟩

theorem readParamValue_escape {value : List Char} (h : Readable value) {rest : List Char}
    (hrest : rest = [] ∨ rest.head? = some ' ') :
    readParamValue (escape value ++ rest) = some (value, rest) := by
  have hread := readUnquoted_escape h.2 hrest
  obtain ⟨c, cs, heq, hquote, -⟩ := head_escape h rest
  rw [heq] at hread ⊢
  rw [readParamValue, hread]
  rintro cs' hcons
  exact hquote (List.cons.inj hcons).1

/-- The keywords are read as parameters. -/
def IsParameter (kw : String) : Prop := kw.toList ≠ [] ∧ ∀ c ∈ kw.toList, isParameterChar c = true

instance (kw : String) : Decidable (IsParameter kw) :=
  @instDecidableAnd _ _ inferInstance (List.decidableBAll _ _)

theorem isParameter_of_mem {params : Params} {kw : String} (h : kw ∈ keywords params) :
    IsParameter kw := by
  have hall : ∀ kw ∈ keywords params, IsParameter kw := by
    unfold keywords
    split <;> decide
  exact hall kw h

theorem isSpace_of_isParameterChar {c : Char} (h : isParameterChar c = true) :
    Text.isSpace c = false := by
  rw [isParameterChar, Bool.or_eq_true, decide_eq_true_eq, Text.isLower_iff] at h
  rcases h with h | rfl
  · exact Text.isSpace_of_visible (by omega) (by omega)
  · decide

theorem matchParameter_assignment {kw : String} (hkw : IsParameter kw) {value : List Char}
    (hvalue : Readable value) (rest : List Char) :
    matchParameter (assignment kw value ++ rest) = some (kw.toList, escape value ++ rest) := by
  obtain ⟨hne, hchars⟩ := hkw
  have hstop : ∀ c ∈ ('=' :: (escape value ++ rest)).head?, isParameterChar c = false := by
    intro c hc
    obtain rfl := Option.some.inj hc
    decide
  have hspaces : (escape value ++ rest).dropWhile Text.isSpace = escape value ++ rest := by
    obtain ⟨c, cs, heq, -, hspace⟩ := head_escape hvalue rest
    rw [heq, List.dropWhile_cons_of_neg (by simp [hspace])]
  have htext : assignment kw value ++ rest = kw.toList ++ '=' :: (escape value ++ rest) := by
    simp [assignment]
  rw [htext, matchParameter, Text.takeWhile_append_stop hchars hstop,
    Text.dropWhile_append_stop hchars hstop]
  have hequals : ('=' :: (escape value ++ rest)).dropWhile Text.isSpace =
      '=' :: (escape value ++ rest) := rfl
  rw [hequals]
  cases hlist : kw.toList with
  | nil => exact absurd hlist hne
  | cons c cs => simp only [hspaces]

/-- One step of the loop reads one parameter. -/
theorem dsnLoop_assignment {kw : String} (hkw : IsParameter kw) {value : List Char}
    (hvalue : Readable value) {rest : List Char} (hrest : rest = [] ∨ rest.head? = some ' ') (n : ℕ)
    (ret : Parsed) :
    dsnLoop (n + 1) (assignment kw value ++ rest) ret = dsnLoop n rest (ret.set kw value) := by
  have hmatch := matchParameter_assignment hkw hvalue rest
  obtain ⟨c, cs, hcons, -, -⟩ := head_escape hvalue rest
  have hne : escape value ++ rest ≠ [] := by
    rw [hcons]
    exact List.cons_ne_nil c cs
  obtain ⟨hkw, hchars⟩ := hkw
  cases hlist : kw.toList with
  | nil => exact absurd hlist hkw
  | cons k ks =>
      have htext : assignment kw value ++ rest = k :: (ks ++ '=' :: (escape value ++ rest)) := by
        simp [assignment, hlist]
      have hspace : Text.isSpace k = false :=
        isSpace_of_isParameterChar (hchars k (hlist ▸ List.mem_cons_self))
      rw [htext] at hmatch ⊢
      simp [dsnLoop, hspace, hmatch, hne, readParamValue_escape hvalue hrest]

/-- The pairs are read one after the other. -/
theorem dsnLoop_intercalate {pairs : List (String × List Char)}
    (h : ∀ p ∈ pairs, IsParameter p.1 ∧ Readable p.2) {n : ℕ}
    (hn : ([' '].intercalate (pairs.map fun p => assignment p.1 p.2)).length ≤ n) (ret : Parsed) :
    dsnLoop n ([' '].intercalate (pairs.map fun p => assignment p.1 p.2)) ret =
      some (pairs.foldl (fun ret p => ret.set p.1 p.2) ret) := by
  induction pairs generalizing n ret with
  | nil => cases n <;> rfl
  | cons p pairs ih =>
      obtain ⟨⟨hkw, hvalue⟩, hpairs⟩ := List.forall_mem_cons.mp h
      have hlength : 0 < (assignment p.1 p.2).length := by
        rw [assignment, List.length_append, List.length_cons]
        exact Nat.add_pos_right _ (Nat.succ_pos _)
      cases pairs with
      | nil =>
          have htext : [' '].intercalate ([p].map fun p => assignment p.1 p.2) =
              assignment p.1 p.2 ++ [] := by simp
          rw [htext] at hn ⊢
          rw [List.append_nil] at hn
          obtain ⟨m, rfl⟩ :=
            Nat.exists_eq_succ_of_ne_zero (Nat.ne_of_gt (Nat.lt_of_lt_of_le hlength hn))
          rw [dsnLoop_assignment hkw hvalue (.inl rfl)]
          cases m <;> rfl
      | cons p' pairs =>
          have htext : [' '].intercalate ((p :: p' :: pairs).map fun p => assignment p.1 p.2) =
              assignment p.1 p.2 ++ ' ' :: [' '].intercalate
                ((p' :: pairs).map fun p => assignment p.1 p.2) := by
            simp [List.intercalate_cons_cons]
          rw [htext] at hn ⊢
          rw [List.length_append, List.length_cons] at hn
          obtain ⟨m, rfl⟩ : ∃ m, n = m + 1 + 1 := ⟨n - 2, by omega⟩
          rw [dsnLoop_assignment hkw hvalue (.inr rfl), dsnLoop,
            if_pos (by decide), ih hpairs (by omega)]
          rfl

section Written

variable {majorVersion : ℕ} {params : Params}

theorem mem_written {kw : String} {value : List Char} :
    (kw, value) ∈ written majorVersion params ↔
      kw ∈ keywords params ∧ writtenText majorVersion params kw = some value := by
  simp only [written, List.mem_filterMap, Option.map_eq_some_iff, Prod.mk.injEq]
  constructor
  · rintro ⟨kw', hmem, value', htext, rfl, rfl⟩
    exact ⟨hmem, htext⟩
  · rintro ⟨hmem, htext⟩
    exact ⟨kw, hmem, value, htext, rfl, rfl⟩

/-- What `_conninfo_dsn_parse` makes of readable values. -/
theorem dsnParse_formatDsn (h : ∀ p ∈ written majorVersion params, Readable p.2) :
    ∃ ret, dsnParse (formatDsn majorVersion params) = some ret ∧
      ∀ kw, ret.lookup kw =
        if kw ∈ keywords params then writtenText majorVersion params kw else none := by
  have hpairs : ∀ p ∈ written majorVersion params, IsParameter p.1 ∧ Readable p.2 := fun p hp =>
    ⟨isParameter_of_mem (mem_written.mp hp).1, h p hp⟩
  refine ⟨_, dsnLoop_intercalate hpairs (le_refl _) ∅, fun kw => ?_⟩
  rw [written, Dict.lookup_foldl_filterMap, AList.lookup_empty, Option.or_none]

theorem formatDsn_eq_append (hne : written majorVersion params ≠ []) :
    ∃ kw value rest, (kw, value) ∈ written majorVersion params ∧
      formatDsn majorVersion params = assignment kw value ++ rest := by
  unfold formatDsn
  cases hpairs : written majorVersion params with
  | nil => exact absurd hpairs hne
  | cons p pairs =>
      cases pairs with
      | nil => exact ⟨p.1, p.2, [], List.mem_cons_self, by simp⟩
      | cons p' pairs =>
          exact ⟨p.1, p.2, _, List.mem_cons_self, List.intercalate_cons_cons.trans
            (List.append_assoc _ _ _)⟩

/-- A connection string that is written is no URI. -/
theorem not_isPrefixOf_formatDsn (scheme : List Char)
    (hscheme : ∀ c ∈ scheme, isParameterChar c = true) :
    (scheme ++ "://".toList).isPrefixOf (formatDsn majorVersion params) = false := by
  have hstop (c : Char) (hc : isParameterChar c = false) (cs : List Char) :
      ∀ x ∈ (c :: cs).head?, isParameterChar x = false := by
    intro x hx
    obtain rfl := Option.some.inj hx
    exact hc
  rw [Bool.eq_false_iff]
  intro hpre
  obtain ⟨tail, htail⟩ := List.isPrefixOf_iff_prefix.mp hpre
  have hcolon : (formatDsn majorVersion params).dropWhile isParameterChar =
      ':' :: '/' :: '/' :: tail := by
    rw [← htail, List.append_assoc]
    exact Text.dropWhile_append_stop hscheme (hstop ':' (by decide) _)
  have hne : written majorVersion params ≠ [] := by
    intro hnil
    rw [formatDsn, hnil] at hcolon
    cases hcolon
  obtain ⟨kw, value, rest, hmem, htext⟩ := formatDsn_eq_append hne
  have hequals : (formatDsn majorVersion params).dropWhile isParameterChar =
      '=' :: (escape value ++ rest) := by
    rw [htext, assignment, List.append_assoc]
    exact Text.dropWhile_append_stop (isParameter_of_mem (mem_written.mp hmem).1).2
      (hstop '=' (by decide) _)
  rw [hcolon] at hequals
  exact absurd (List.cons.inj hequals).1 (by decide)

end Written

/-! ## What is read is readable -/

/-- A text without quotes, in which the backslashes escape something. -/
inductive Escaped : List Char → Prop
  | nil : Escaped []
  | plain {c : Char} {cs : List Char} (hbackslash : c ≠ '\\') (hquote : c ≠ '\'') (h : Escaped cs) :
      Escaped (c :: cs)
  | pair {c : Char} {cs : List Char} (hc : isEscaped c = true) (h : Escaped cs) :
      Escaped ('\\' :: c :: cs)

theorem Escaped.append {cs ds : List Char} (hcs : Escaped cs) (hds : Escaped ds) :
    Escaped (cs ++ ds) := by
  induction hcs with
  | nil => exact hds
  | plain hbackslash hquote _ ih => exact .plain hbackslash hquote ih
  | pair hc _ ih => exact .pair hc ih

theorem escaped_escape (value : List Char) : Escaped (escape value) := by
  induction value with
  | nil => exact .nil
  | cons c cs ih =>
      rw [escape_cons]
      by_cases hc : isEscaped c = true
      · rw [if_pos hc]
        exact .pair hc ih
      · rw [if_neg hc]
        simp only [isEscaped, Bool.or_eq_true, decide_eq_true_eq, not_or] at hc
        exact .plain hc.1.2 hc.1.1 ih

theorem escaped_assignment {kw : String} (hkw : IsParameter kw) (value : List Char) :
    Escaped (assignment kw value) := by
  have hchars : ∀ cs : List Char, (∀ c ∈ cs, isParameterChar c = true) → Escaped cs := by
    intro cs
    induction cs with
    | nil => exact fun _ => .nil
    | cons c cs ih =>
        intro h
        obtain ⟨hc, hcs⟩ := List.forall_mem_cons.mp h
        refine .plain ?_ ?_ (ih hcs)
        all_goals
          rintro rfl
          cases hc
  exact (hchars _ hkw.2).append (.plain (by decide) (by decide) (escaped_escape value))

theorem escaped_formatDsn (majorVersion : ℕ) (params : Params) :
    Escaped (formatDsn majorVersion params) := by
  have hpairs : ∀ p ∈ written majorVersion params, IsParameter p.1 := fun p hp =>
    isParameter_of_mem (mem_written.mp hp).1
  unfold formatDsn
  generalize written majorVersion params = pairs at hpairs
  induction pairs with
  | nil => exact .nil
  | cons p pairs ih =>
      obtain ⟨hp, hpairs⟩ := List.forall_mem_cons.mp hpairs
      cases pairs with
      | nil => simpa using escaped_assignment hp p.2
      | cons p' pairs =>
          rw [List.map_cons, List.map_cons, List.intercalate_cons_cons, List.append_assoc]
          exact (escaped_assignment hp p.2).append (.plain (by decide) (by decide) (ih hpairs))

theorem Escaped.dropWhile {p : Char → Bool} (hp : p '\\' = false) {cs : List Char}
    (h : Escaped cs) : Escaped (cs.dropWhile p) := by
  induction h with
  | nil => exact .nil
  | @plain c cs hbackslash hquote h ih =>
      rw [List.dropWhile_cons]
      split
      · exact ih
      · exact .plain hbackslash hquote h
  | pair hc h _ =>
      rw [List.dropWhile_cons_of_neg (by simp [hp])]
      exact .pair hc h

/-- What is left after a parameter starts with no white space. -/
theorem matchParameter_escaped {cs param rest : List Char} (h : Escaped cs)
    (hmatch : matchParameter cs = some (param, rest)) :
    Escaped rest ∧ ∀ c ∈ rest.head?, Text.isSpace c = false := by
  unfold matchParameter at hmatch
  split at hmatch
  · next c param' rest' _ hequals =>
      obtain ⟨-, rfl⟩ := Prod.mk.inj (Option.some.inj hmatch)
      have hrest : Escaped ('=' :: rest') := by
        rw [← hequals]
        exact (h.dropWhile (by decide)).dropWhile (by decide)
      cases hrest with
      | plain _ _ hrest =>
          refine ⟨hrest.dropWhile (by decide), fun c hc => ?_⟩
          have hhead := List.head?_dropWhile_not Text.isSpace rest'
          rw [Option.mem_def.mp hc] at hhead
          simpa using hhead
  · cases hmatch

theorem readUnquoted_escaped {cs : List Char} (h : Escaped cs) :
    (∀ c ∈ (readUnquoted cs).1, Text.isSpace c = true → c = ' ') ∧ Escaped (readUnquoted cs).2 := by
  induction h with
  | nil => exact ⟨by simp [readUnquoted], .nil⟩
  | @plain c cs hbackslash hquote h ih =>
      cases hspace : Text.isSpace c with
      | true =>
          have hread : readUnquoted (c :: cs) = ([], c :: cs) := by
            rw [readUnquoted, if_pos hspace]
            · rintro rfl rfl
              exact hbackslash rfl
            · rintro c' cs' rfl rfl
              exact hbackslash rfl
          rw [hread]
          exact ⟨by simp, .plain hbackslash hquote h⟩
      | false =>
          rw [readUnquoted_plain hbackslash hspace]
          refine ⟨List.forall_mem_cons.mpr ⟨fun hc => ?_, ih.1⟩, ih.2⟩
          rw [hspace] at hc
          cases hc
  | @pair c cs hc h ih =>
      simp only [readUnquoted]
      refine ⟨List.forall_mem_cons.mpr ⟨fun hspace => ?_, ih.1⟩, ih.2⟩
      simp only [isEscaped, Bool.or_eq_true, decide_eq_true_eq] at hc
      rcases hc with (rfl | rfl) | rfl
      · cases hspace
      · cases hspace
      · rfl

theorem readParamValue_escaped {cs value rest : List Char} (h : Escaped cs) (hne : cs ≠ [])
    (hhead : ∀ c ∈ cs.head?, Text.isSpace c = false)
    (hread : readParamValue cs = some (value, rest)) : Readable value ∧ Escaped rest := by
  have hunquoted : readParamValue cs = some (readUnquoted cs) := by
    rw [readParamValue]
    rintro cs' rfl
    cases h with
    | plain _ hquote _ => exact hquote rfl
  rw [hunquoted] at hread
  obtain ⟨hchars, hrest⟩ := readUnquoted_escaped h
  have heq := Option.some.inj hread
  rw [heq] at hchars hrest
  refine ⟨⟨?_, hchars⟩, hrest⟩
  -- the first character is no white space
  rintro rfl
  cases h with
  | nil => exact hne rfl
  | @plain c cs hbackslash _ _ =>
      rw [readUnquoted_plain hbackslash (hhead c rfl)] at heq
      cases heq
  | pair _ _ =>
      rw [readUnquoted] at heq
      cases heq

theorem dsnLoop_readable {n : ℕ} {cs : List Char} (h : Escaped cs) {ret ret' : Parsed}
    (hret : ∀ kw value, ret.lookup kw = some value → Readable value)
    (hloop : dsnLoop n cs ret = some ret') :
    ∀ kw value, ret'.lookup kw = some value → Readable value := by
  induction n generalizing cs ret with
  | zero =>
      cases cs with
      | nil =>
          obtain rfl := Option.some.inj hloop
          exact hret
      | cons c cs => cases hloop
  | succ n ih =>
      cases cs with
      | nil =>
          obtain rfl := Option.some.inj hloop
          exact hret
      | cons c cs =>
          rw [dsnLoop] at hloop
          split at hloop
          · next hspace =>
              cases h with
              | plain _ _ h => exact ih h hret hloop
              | pair _ _ => cases hspace
          · obtain ⟨⟨param, rest⟩, hmatch, hloop⟩ := Option.bind_eq_some_iff.mp hloop
            obtain ⟨hrest, hhead⟩ := matchParameter_escaped h hmatch
            dsimp only at hloop
            split at hloop
            · cases hloop
            · next hne =>
                obtain ⟨⟨value, rest'⟩, hread, hloop⟩ := Option.bind_eq_some_iff.mp hloop
                obtain ⟨hvalue, hrest'⟩ := readParamValue_escaped hrest hne hhead hread
                refine ih hrest' (fun kw value' hlookup => ?_) hloop
                rw [Dict.lookup_set] at hlookup
                split at hlookup
                · obtain rfl := Option.some.inj hlookup
                  exact hvalue
                · exact hret kw value' hlookup

/-! ## The comparison with what was written -/

/-- What a parameter that is not in the connection string is compared with. -/
def default (p : String) : List Char :=
  if p = "sslmode" ∨ p = "gssencmode" ∨ p = "channel_binding" then "prefer".toList
  else if p = "sslnegotiation" then "postgres".toList
  else "None".toList

theorem lookup_setdefault (ret : Parsed) (key value p : String) :
    (setdefault ret key value).lookup p =
      if p = key then some ((ret.lookup p).getD value.toList) else ret.lookup p := by
  unfold setdefault
  by_cases hp : p = key
  · subst hp
    split
    · next hmem =>
        obtain ⟨v, hv⟩ := Option.isSome_iff_exists.mp (AList.lookup_isSome.mpr hmem)
        simp [hv]
    · next hmem => simp [AList.lookup_eq_none.mpr hmem]
  · rw [if_neg hp]
    split
    · rfl
    · exact Dict.lookup_set_ne _ hp _

theorem getStr_withDefaults {ret : Parsed} (hne : ret ≠ ∅) (p : String) :
    getStr (withDefaults ret) p = (ret.lookup p).getD (default p) := by
  have hempty : ¬ret.isEmpty = true := fun h => hne ((Dict.isEmpty_iff ret).mp h)
  rw [getStr, withDefaults, if_neg hempty]
  simp only [lookup_setdefault, default]
  by_cases h₁ : p = "sslnegotiation"
  · subst h₁
    simp
  by_cases h₂ : p = "channel_binding"
  · subst h₂
    simp
  by_cases h₃ : p = "gssencmode"
  · subst h₃
    simp
  by_cases h₄ : p = "sslmode"
  · subst h₄
    simp
  simp [h₁, h₂, h₃, h₄]

theorem lookup_withDefaults_ne {p : String}
    (hp : p ∉ ["sslmode", "gssencmode", "channel_binding", "sslnegotiation"]) {ret : Parsed} :
    (withDefaults ret).lookup p = ret.lookup p := by
  simp only [List.mem_cons, List.not_mem_nil, or_false, not_or] at hp
  obtain ⟨h₁, h₂, h₃, h₄⟩ := hp
  unfold withDefaults
  split
  · rfl
  · simp only [lookup_setdefault, if_neg h₁, if_neg h₂, if_neg h₃, if_neg h₄]

theorem withDefaults_ne_empty {ret : Parsed} (hne : ret ≠ ∅) : withDefaults ret ≠ ∅ := by
  intro h
  have hempty : ¬ret.isEmpty = true := fun h => hne ((Dict.isEmpty_iff ret).mp h)
  have hsome : (withDefaults ret).lookup "sslnegotiation" ≠ none := by
    rw [withDefaults, if_neg hempty, lookup_setdefault, if_pos rfl]
    simp
  rw [h, AList.lookup_empty] at hsome
  exact hsome rfl

theorem text?_erase (params : Params) (key p : String) :
    text? (params.erase key) p = if p = key then none else text? params p := by
  unfold text?
  rw [Dict.lookup_erase_eq]
  by_cases hp : p = key
  · rw [if_pos hp, if_pos hp]
  · rw [if_neg hp, if_neg hp]

theorem mem_keys_of_text? {params : Params} {p : String} {value : List Char}
    (h : text? params p = some value) : p ∈ params.keys := by
  rw [← AList.mem_keys, ← AList.lookup_isSome]
  unfold text? at h
  split at h
  · cases h
  · cases h
  · next hlookup => rw [hlookup]; rfl

section Check

variable {uriParse parseConninfo : List Char → Option Parsed} {majorVersion : ℕ} {isStarting : Bool}
  {checkPassfile : List Char → Params → Bool}

/-- The comparison walks over the parameters that are wanted. -/
theorem checkPrimaryConninfo_eq_true {ret : Parsed} {wanted : Params} (hwanted : wanted ≠ ∅)
    (hret : ret ≠ ∅) (hpassfile : ret.lookup "passfile" = none) :
    checkPrimaryConninfo uriParse parseConninfo majorVersion isStarting none checkPassfile
        (some ret) wanted = true ↔
      ∀ p value, text? wanted p = some value → ¬(p = "dbname" ∧ majorVersion < 170000) →
        getStr ret p = value := by
  have hcompare (wanted : Params) :
      (wanted.keys.all fun p => match text? wanted p with
        | some v => getStr ret p = v
        | none => true) = true ↔ ∀ p value, text? wanted p = some value → getStr ret p = value := by
    rw [List.all_eq_true]
    constructor
    · intro h p value htext
      have hp := h p (mem_keys_of_text? htext)
      rw [htext] at hp
      exact of_decide_eq_true hp
    · intro h p _
      split
      · next v htext => exact decide_eq_true (h p v htext)
      · rfl
  have hempty : ¬wanted.isEmpty = true := fun h => hwanted ((Dict.isEmpty_iff wanted).mp h)
  have hempty' : ¬ret.isEmpty = true := fun h => hret ((Dict.isEmpty_iff ret).mp h)
  simp only [checkPrimaryConninfo, Option.getD_some, if_neg hempty, if_neg hempty',
    Option.bind_none, ite_self, hpassfile, hcompare]
  by_cases hversion : majorVersion < 170000
  · refine forall_congr' fun p => forall_congr' fun value => ?_
    rw [if_pos hversion, text?_erase]
    by_cases hp : p = "dbname" <;> simp [hp, hversion]
  · simp [hversion]

end Check

section Fixpoint

variable (uriParse parseConninfo : List Char → Option Parsed) (majorVersion : ℕ) (isStarting : Bool)
  (checkPassfile : List Char → Params → Bool) (params : Params)

theorem conninfoParse_formatDsn_eq :
    conninfoParse uriParse (formatDsn majorVersion params) =
      (dsnParse (formatDsn majorVersion params)).map convertRequiressl := by
  have hpostgres : "postgres://".toList.isPrefixOf (formatDsn majorVersion params) = false :=
    not_isPrefixOf_formatDsn "postgres".toList (List.all_eq_true.mp (by decide))
  have hpostgresql : "postgresql://".toList.isPrefixOf (formatDsn majorVersion params) = false :=
    not_isPrefixOf_formatDsn "postgresql".toList (List.all_eq_true.mp (by decide))
  simp only [conninfoParse, hpostgres, hpostgresql, Bool.or_self, Bool.false_eq_true, if_false]

variable {uriParse parseConninfo majorVersion isStarting checkPassfile params}

/-- Whatever was written, only readable values are read. -/
theorem conninfoParse_readable {ret : Parsed}
    (h : conninfoParse uriParse (formatDsn majorVersion params) = some ret) {kw : String}
    {value : List Char} (hlookup : ret.lookup kw = some value) : Readable value := by
  rw [conninfoParse_formatDsn_eq] at h
  obtain ⟨ret', hparse, rfl⟩ := Option.map_eq_some_iff.mp h
  have hret' : ∀ kw value, ret'.lookup kw = some value → Readable value :=
    dsnLoop_readable (escaped_formatDsn majorVersion params) (by simp) hparse
  unfold convertRequiressl at hlookup
  split at hlookup
  · exact hret' kw value hlookup
  · split at hlookup
    · exact hret' kw value hlookup
    · rw [Dict.lookup_set, Dict.lookup_erase_eq] at hlookup
      split at hlookup
      · obtain rfl := Option.some.inj hlookup
        split <;> decide
      · split at hlookup
        · cases hlookup
        · exact hret' kw value hlookup

variable (uriParse) in
/-- Readable values are read as they were written, and nothing else is. -/
theorem conninfoParse_formatDsn (h : ∀ p ∈ written majorVersion params, Readable p.2) :
    ∃ ret, conninfoParse uriParse (formatDsn majorVersion params) = some ret ∧
      ∀ kw, ret.lookup kw =
        if kw ∈ keywords params then writtenText majorVersion params kw else none := by
  obtain ⟨ret, hparse, hlookup⟩ := dsnParse_formatDsn h
  have hrequiressl : ret.lookup "requiressl" = none := by
    rw [hlookup, if_neg]
    unfold keywords
    split <;> decide
  have hconvert : convertRequiressl ret = ret := by
    unfold convertRequiressl
    split
    · rfl
    · rw [hrequiressl]
  refine ⟨ret, ?_, hlookup⟩
  rw [conninfoParse_formatDsn_eq, hparse, Option.map_some, hconvert]

theorem eq_empty_of_written {ret : Parsed}
    (hlookup : ∀ kw, ret.lookup kw =
      if kw ∈ keywords params then writtenText majorVersion params kw else none) :
    ret = ∅ ↔ written majorVersion params = [] := by
  rw [Dict.eq_empty_iff, List.eq_nil_iff_forall_not_mem]
  constructor
  · rintro h ⟨kw, value⟩ hmem
    obtain ⟨hkw, htext⟩ := mem_written.mp hmem
    have hnone := h kw
    rw [hlookup, if_pos hkw, htext] at hnone
    cases hnone
  · intro h kw
    rw [hlookup]
    split
    · next hkw =>
        rw [Option.eq_none_iff_forall_ne_some]
        exact fun value htext => h (kw, value) (mem_written.mpr ⟨hkw, htext⟩)
    · rfl

/-- What `parse_dsn` gives where the driver fails or reads the same. -/
theorem parseDsn_eq
    (hlibrary : parseConninfo (formatDsn majorVersion params) = none ∨
      parseConninfo (formatDsn majorVersion params) =
        conninfoParse uriParse (formatDsn majorVersion params)) :
    parseDsn uriParse parseConninfo (formatDsn majorVersion params) =
      (conninfoParse uriParse (formatDsn majorVersion params)).map withDefaults := by
  rcases hlibrary with h | h
  · rw [parseDsn, h]
  · rw [parseDsn, h]
    cases conninfoParse uriParse (formatDsn majorVersion params) with
    | none => rfl
    | some ret => simp

theorem written_empty : written majorVersion ∅ = [] := by
  rw [List.eq_nil_iff_forall_not_mem]
  rintro ⟨kw, value⟩ hmem
  have htext := (mem_written.mp hmem).2
  rw [writtenText] at htext
  split at htext <;> cases htext

/-- A parameter that is wanted is found if it was written, or if it looks like the default. -/
theorem getStr_eq_iff {ret : Parsed} (hret : ret ≠ ∅)
    (hlookup : ∀ kw, ret.lookup kw =
      if kw ∈ keywords params then writtenText majorVersion params kw else none) {kw : String}
    {value : List Char} (htext : text? params kw = some value) :
    getStr (withDefaults ret) kw = value ↔
      kw ∈ keywords params ∧ keyVer kw ≤ majorVersion ∨ value = default kw := by
  rw [getStr_withDefaults hret, hlookup]
  by_cases hkw : kw ∈ keywords params ∧ keyVer kw ≤ majorVersion
  · simp [hkw.1, writtenText, hkw.2, htext]
  · have hnone : (if kw ∈ keywords params then writtenText majorVersion params kw else none) =
        none := by
      rw [writtenText]
      split
      · next hmem => exact if_neg fun hversion => hkw ⟨hmem, hversion⟩
      · rfl
    rw [hnone, or_iff_right hkw, Option.getD_none]
    exact eq_comm

theorem check_iff (hinline : ((params.lookup "passfile").getD .none).truthy = false) {ret : Parsed}
    (hlookup : ∀ kw, ret.lookup kw =
      if kw ∈ keywords params then writtenText majorVersion params kw else none) :
    checkPrimaryConninfo uriParse parseConninfo majorVersion isStarting none checkPassfile
        (some (withDefaults ret)) params = true ↔
      params = ∅ ∨ written majorVersion params ≠ [] ∧
        ∀ kw ∈ params.keys, ∀ value ∈ text? params kw,
          ¬(kw = "dbname" ∧ majorVersion < 170000) →
            kw ∈ keywords params ∧ keyVer kw ≤ majorVersion ∨ value = default kw := by
  have hempty := eq_empty_of_written hlookup
  have hdefaults : withDefaults ∅ = ∅ := rfl
  by_cases hparams : params = ∅
  · subst hparams
    rw [hempty.mpr written_empty, hdefaults]
    exact iff_of_true rfl (.inl rfl)
  · have hisEmpty : ¬params.isEmpty = true := fun h => hparams ((Dict.isEmpty_iff params).mp h)
    by_cases hwritten : written majorVersion params = []
    · rw [hempty.mpr hwritten, hdefaults]
      have hcheck : checkPrimaryConninfo uriParse parseConninfo majorVersion isStarting none
          checkPassfile (some ∅) params = false := by
        rw [checkPrimaryConninfo, if_neg hisEmpty]
        rfl
      simp [hcheck, hparams, hwritten]
    · have hret : ret ≠ ∅ := fun h => hwritten (hempty.mp h)
      have hpassfile : (withDefaults ret).lookup "passfile" = none := by
        rw [lookup_withDefaults_ne (by decide), hlookup, if_neg]
        rw [keywords, hinline]
        decide
      rw [checkPrimaryConninfo_eq_true hparams (withDefaults_ne_empty hret) hpassfile]
      simp only [hparams, hwritten, false_or, ne_eq, not_false_eq_true, true_and]
      have hkeys (P : String → List Char → Prop) :
          (∀ kw ∈ params.keys, ∀ value ∈ text? params kw, P kw value) ↔
            ∀ kw value, text? params kw = some value → P kw value :=
        ⟨fun h kw value htext => h kw (mem_keys_of_text? htext) value htext,
          fun h kw _ value htext => h kw value htext⟩
      rw [hkeys]
      exact forall_congr' fun kw => forall_congr' fun value => imp_congr_right fun htext =>
        imp_congr_right fun _ => getStr_eq_iff hret hlookup htext

variable (uriParse parseConninfo majorVersion isStarting checkPassfile params)

/-- Each value that was written comes back, and the comparison with what is wanted succeeds while
no WAL receiver is running. -/
def Fixpoint : Prop :=
  (∀ p ∈ written majorVersion params, ∃ ret,
    conninfoParse uriParse (formatDsn majorVersion params) = some ret ∧ ret.lookup p.1 = some p.2) ∧
  checkPrimaryConninfo uriParse parseConninfo majorVersion isStarting none checkPassfile
    (parseDsn uriParse parseConninfo (formatDsn majorVersion params)) params = true

/-- The values that are written are readable, and what is not written is not compared or looks like
the default. -/
def Keeps : Prop :=
  (∀ p ∈ written majorVersion params, Readable p.2) ∧
  (params = ∅ ∨ written majorVersion params ≠ [] ∧
    ∀ kw ∈ params.keys, ∀ value ∈ text? params kw, ¬(kw = "dbname" ∧ majorVersion < 170000) →
      kw ∈ keywords params ∧ keyVer kw ≤ majorVersion ∨ value = default kw)

variable {uriParse parseConninfo majorVersion isStarting checkPassfile params}

/-- With the password in the connection string, and a driver that fails or agrees where the values
are readable. -/
theorem fixpoint_iff (hinline : ((params.lookup "passfile").getD .none).truthy = false)
    (hlibrary : (∀ p ∈ written majorVersion params, Readable p.2) →
      parseConninfo (formatDsn majorVersion params) = none ∨
      parseConninfo (formatDsn majorVersion params) =
        conninfoParse uriParse (formatDsn majorVersion params)) :
    Fixpoint uriParse parseConninfo majorVersion isStarting checkPassfile params ↔
      Keeps majorVersion params := by
  have hreadable : (∀ p ∈ written majorVersion params, ∃ ret,
      conninfoParse uriParse (formatDsn majorVersion params) = some ret ∧
        ret.lookup p.1 = some p.2) ↔ ∀ p ∈ written majorVersion params, Readable p.2 := by
    constructor
    · intro h p hp
      obtain ⟨ret, hparse, hlookup⟩ := h p hp
      exact conninfoParse_readable hparse hlookup
    · intro h p hp
      obtain ⟨ret, hparse, hlookup⟩ := conninfoParse_formatDsn uriParse h
      obtain ⟨hkw, htext⟩ := mem_written.mp hp
      exact ⟨ret, hparse, by rw [hlookup, if_pos hkw, htext]⟩
  rw [Fixpoint, Keeps, hreadable]
  refine and_congr_right fun h => ?_
  obtain ⟨ret, hparse, hlookup⟩ := conninfoParse_formatDsn uriParse h
  rw [parseDsn_eq (hlibrary h), hparse]
  exact check_iff hinline hlookup

end Fixpoint

/-- A driver that reads what the built-in parser reads. -/
def driver : List Char → Option Parsed := conninfoParse fun _ => none

/-- Parameters with a space and a quote in their values. -/
def quoted : Params :=
  (((∅ : Params).set "host" (.str "a b".toList)).set "port" (.int 5432)).set "password"
    (.str "it's".toList)

theorem fixpoint_quoted :
    Fixpoint (fun _ => none) driver 160000 false (fun _ _ => false) quoted :=
  (fixpoint_iff (by decide) fun _ => .inr rfl).mpr
    ⟨by decide, .inr ⟨by decide, by decide⟩⟩

/-- `sslpassword` is not written before version 13 but it is compared. -/
def withSslpassword : Params :=
  ((∅ : Params).set "host" (.str "a".toList)).set "sslpassword" (.str "secret".toList)

/-- A tab in a password ends the value. -/
def withTab : Params :=
  ((∅ : Params).set "host" (.str "a".toList)).set "password" (.str "top\tsecret".toList)

theorem not_fixpoint :
    ¬Fixpoint (fun _ => none) driver 120000 false (fun _ _ => false) withSslpassword ∧
      ¬Fixpoint (fun _ => none) driver 160000 false (fun _ _ => false) withTab := by
  constructor
  · intro h
    exact absurd h.2 (by decide +kernel)
  · intro h
    exact absurd h.2 (by decide +kernel)

end Conninfo

end Metatroni
