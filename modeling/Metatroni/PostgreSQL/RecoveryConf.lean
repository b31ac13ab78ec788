import Metatroni.CaseInsensitiveDict
import Metatroni.PostgreSQL.Conninfo

/-!
# `recovery.conf`

`ConfigWriter` writes parameters to a file, one in a line, and
`_read_recovery_params_pre_v12` reads the file line by line. Quotes and backslashes
of a value are doubled when it is written.

## Implementation notes

The lines of a file are given without their ends, which the reader strips anyway. What follows
the last end of a line is one more line, which is empty.
-/

namespace Metatroni

namespace RecoveryConf

open Conninfo (matchParameter IsParameter isParameterChar)

/-! ## The writer -/

/-- `ConfigWriter.escape` -/
def escape (value : List Char) : List Char :=
  value.flatMap fun c => if c = '\'' || c = '\\' then [c, c] else [c]

/-- `writeline` -/
def writeline (line : List Char) : List Char := line ++ ['\n']

/-- What `__enter__` writes. -/
def header : List Char :=
  writeline "# Do not edit this file manually!\n# It will be overwritten by Patroni!".toList

/-- `{0} = '{1}'` -/
def paramLine (param : String) (value : List Char) : List Char :=
  param.toList ++ " = '".toList ++ escape value ++ ['\'']

/-- `write_param` -/
def writeParam (param : String) (value : List Char) : List Char :=
  writeline (paramLine param value)

/-- The file after each pair is written. -/
def writeFile (params : Dict String (List Char)) : List Char :=
  header ++ params.entries.flatMap fun e => writeParam e.1 e.2

/-! ## The reader -/

/-- The ends of lines of a file that is read as text. -/
def universalNewlines : List Char → List Char
  | [] => []
  | '\r' :: '\n' :: cs => '\n' :: universalNewlines cs
  | '\r' :: cs => '\n' :: universalNewlines cs
  | c :: cs => c :: universalNewlines cs

/-- The lines of a file. -/
def fileLines (text : List Char) : List (List Char) := (universalNewlines text).splitOn '\n'

/-- `strip_comment` -/
def stripComment (value : List Char) : List Char :=
  if '#' ∈ value then Text.strip (value.takeWhile (· ≠ '#')) else value

/-- The loop of `read_recovery_param_value` behind the first quote. -/
def readQuoted : List Char → Option (List Char)
  | [] => none
  | ['\\'] => none
  | '\\' :: c :: cs => (readQuoted cs).map (c :: ·)
  | ['\''] => some []
  | '\'' :: c :: cs =>
      if c = '#' ∨ c = ' ' then
        if stripComment (c :: cs) ≠ [] then none else some []
      else if c ≠ '\'' then none
      else (readQuoted cs).map (c :: ·)
  | c :: cs => (readQuoted cs).map (c :: ·)

/-- `read_recovery_param_value` -/
def readRecoveryParamValue (value : List Char) : Option (List Char) :=
  match Text.strip value with
  | [] => none
  | '\'' :: cs => readQuoted cs
  | cs =>
      let value := stripComment cs
      if value = [] ∨ ' ' ∈ value ∨ '\\' ∈ value then none else some value

/-- The values that are read, each with the mark that a change needs a restart. -/
abbrev Values := CaseInsensitiveDict String (List Char × Bool)

/-- The loop over the lines of `_read_recovery_params_pre_v12`. -/
def readLines : List (List Char) → Values → Option Values
  | [], values => some values
  | line :: lines, values =>
      let line := Text.strip line
      if line = [] ∨ line.head? = some '#' then readLines lines values
      else do
        let (param, rest) ← matchParameter line
        let value ← readRecoveryParamValue rest
        readLines lines (values.set (String.ofList param) (value, true))

/-- `_read_recovery_params_pre_v12`, before the defaults are filled in. -/
def readRecoveryParams (text : List Char) : Option Values := readLines (fileLines text) ∅

/-! ## A value -/

/-- The scan undoes the doubling. -/
theorem readQuoted_escape (value : List Char) :
    readQuoted (escape value ++ ['\'']) = some value := by
  induction value with
  | nil => rfl
  | cons c cs ih =>
      rw [escape, List.flatMap_cons, ← escape]
      by_cases hquote : c = '\''
      · subst hquote
        simp [readQuoted, ih]
      · by_cases hbackslash : c = '\\'
        · subst hbackslash
          simp [readQuoted, ih]
        · simp [readQuoted, hquote, hbackslash, ih]

/-- A name and a value without ends of lines. -/
structure IsWritable (param : String) (value : List Char) : Prop where
  param : IsParameter param
  newline_notMem : '\n' ∉ value
  return_notMem : '\r' ∉ value

theorem mem_escape_iff {c : Char} {value : List Char} : c ∈ escape value ↔ c ∈ value := by
  rw [escape, List.mem_flatMap]
  constructor
  · rintro ⟨d, hd, hc⟩
    have hcd : c = d := by
      split at hc
      · simpa using hc
      · simpa using hc
    rwa [hcd]
  · intro hc
    refine ⟨c, hc, ?_⟩
    split
    · exact List.mem_cons_self
    · exact List.mem_cons_self

theorem isTrimmed_quoted (value : List Char) :
    Text.IsTrimmed ('\'' :: (escape value ++ ['\''])) := by
  constructor
  · intro c hc
    obtain rfl := Option.some.inj hc
    decide
  · intro c hc
    rw [← List.cons_append, List.getLast?_concat] at hc
    obtain rfl := Option.some.inj hc
    decide

theorem readRecoveryParamValue_quoted (value : List Char) :
    readRecoveryParamValue ('\'' :: (escape value ++ ['\''])) = some value := by
  rw [readRecoveryParamValue, (isTrimmed_quoted value).strip_eq]
  exact readQuoted_escape value

/-! ## A line -/

section Line

variable {param : String} {value : List Char}

theorem paramLine_eq (param : String) (value : List Char) :
    paramLine param value =
      param.toList ++ ' ' :: '=' :: ' ' :: '\'' :: (escape value ++ ['\'']) := by
  simp [paramLine]

theorem matchParameter_paramLine (h : IsParameter param) (value : List Char) :
    matchParameter (paramLine param value) =
      some (param.toList, '\'' :: (escape value ++ ['\''])) := by
  obtain ⟨hne, hchars⟩ := h
  have hstop : ∀ c ∈ (' ' :: '=' :: ' ' :: '\'' :: (escape value ++ ['\''])).head?,
      isParameterChar c = false := by
    intro c hc
    obtain rfl := Option.some.inj hc
    decide
  rw [paramLine_eq, matchParameter, Text.takeWhile_append_stop hchars hstop,
    Text.dropWhile_append_stop hchars hstop]
  cases hlist : param.toList with
  | nil => exact absurd hlist hne
  | cons c cs => rfl

theorem head?_paramLine (h : IsParameter param) (value : List Char) :
    ∃ c, (paramLine param value).head? = some c ∧ isParameterChar c = true := by
  obtain ⟨hne, hchars⟩ := h
  rw [paramLine_eq]
  cases hlist : param.toList with
  | nil => exact absurd hlist hne
  | cons c cs => exact ⟨c, rfl, hchars c (by rw [hlist]; exact List.mem_cons_self)⟩

theorem isTrimmed_paramLine (h : IsParameter param) (value : List Char) :
    Text.IsTrimmed (paramLine param value) := by
  constructor
  · intro c hc
    obtain ⟨d, hd, hparam⟩ := head?_paramLine h value
    obtain rfl := Option.some.inj (hd.symm.trans hc)
    exact Conninfo.isSpace_of_isParameterChar hparam
  · intro c hc
    rw [paramLine, List.getLast?_concat] at hc
    obtain rfl := Option.some.inj hc
    decide

/-- A line adds what was written. -/
theorem readLines_paramLine (h : IsParameter param) (value : List Char) (lines : List (List Char))
    (values : Values) :
    readLines (paramLine param value :: lines) values =
      readLines lines (values.set param (value, true)) := by
  obtain ⟨c, hc, hparam⟩ := head?_paramLine h value
  have hskip : ¬(paramLine param value = [] ∨ (paramLine param value).head? = some '#') := by
    rintro (hnil | hcomment)
    · rw [hnil] at hc
      cases hc
    · rw [hc, Option.some.injEq] at hcomment
      rw [hcomment] at hparam
      exact absurd hparam (by decide)
  rw [readLines, (isTrimmed_paramLine h value).strip_eq]
  simp only [if_neg hskip, matchParameter_paramLine h, readRecoveryParamValue_quoted,
    Option.bind_eq_bind, Option.bind_some, String.ofList_toList]

theorem notMem_paramLine {c : Char} (hparam : c ∉ param.toList) (hvalue : c ∉ value)
    (hc : c ≠ ' ' ∧ c ≠ '=' ∧ c ≠ '\'') : c ∉ paramLine param value := by
  simp [paramLine, mem_escape_iff, hparam, hvalue, hc]

theorem notMem_of_not_isParameterChar (h : IsParameter param) {c : Char}
    (hc : isParameterChar c = false) : c ∉ param.toList :=
  fun hmem => absurd (h.2 c hmem) (by simp [hc])

end Line

/-! ## A file -/

theorem universalNewlines_of_notMem {text : List Char} (h : '\r' ∉ text) :
    universalNewlines text = text := by
  induction text with
  | nil => rfl
  | cons c cs ih =>
      rw [List.mem_cons, not_or] at h
      rw [universalNewlines, ih h.2]
      · rintro _ hreturn -
        exact h.1 hreturn.symm
      · rintro hreturn
        exact h.1 hreturn.symm

/-- The lines that are written are the lines that are read. -/
theorem fileLines_writeline {lines : List (List Char)}
    (h : ∀ line ∈ lines, '\n' ∉ line ∧ '\r' ∉ line) :
    fileLines (lines.flatMap writeline) = lines ++ [[]] := by
  have hreturn : '\r' ∉ lines.flatMap writeline := by
    intro hmem
    obtain ⟨line, hline, hmem⟩ := List.mem_flatMap.mp hmem
    rw [writeline, List.mem_append, List.mem_singleton] at hmem
    rcases hmem with hmem | hmem
    · exact (h line hline).2 hmem
    · exact absurd hmem (by decide)
  rw [fileLines, universalNewlines_of_notMem hreturn]
  clear hreturn
  induction lines with
  | nil => rfl
  | cons line lines ih =>
      rw [List.forall_mem_cons] at h
      rw [List.flatMap_cons, writeline, List.append_assoc, List.singleton_append,
        List.splitOn_append_cons_self_of_not_mem h.1.1, ih h.2]
      rfl

theorem notMem_of_isWritable {param : String} {value : List Char} (h : IsWritable param value) :
    '\n' ∉ paramLine param value ∧ '\r' ∉ paramLine param value :=
  ⟨notMem_paramLine (notMem_of_not_isParameterChar h.param (by decide)) h.newline_notMem
      (by decide),
    notMem_paramLine (notMem_of_not_isParameterChar h.param (by decide)) h.return_notMem
      (by decide)⟩

/-- The two lines of the header. -/
def headerLines : List (List Char) :=
  ["# Do not edit this file manually!".toList, "# It will be overwritten by Patroni!".toList]

theorem writeFile_eq (params : Dict String (List Char)) :
    writeFile params = (headerLines ++ params.entries.map fun e => paramLine e.1 e.2).flatMap
      writeline := by
  have hheader : header = headerLines.flatMap writeline := by decide +kernel
  rw [List.flatMap_append, ← hheader, List.flatMap_map]
  rfl

theorem readLines_comment {line : List Char}
    (h : Text.strip line = line ∧ line.head? = some '#') (lines : List (List Char))
    (values : Values) : readLines (line :: lines) values = readLines lines values := by
  rw [readLines, h.1]
  exact if_pos (.inr h.2)

theorem readLines_headerLines (lines : List (List Char)) (values : Values) :
    readLines (headerLines ++ lines) values = readLines lines values := by
  rw [headerLines, List.cons_append, List.cons_append, readLines_comment (by decide +kernel),
    readLines_comment (by decide +kernel)]
  rfl

theorem readLines_params {params : List (Sigma fun _ : String => List Char)}
    (h : ∀ e ∈ params, IsWritable e.1 e.2) (values : Values) :
    readLines ((params.map fun e => paramLine e.1 e.2) ++ [[]]) values =
      some (values.update (params.map fun e => (e.1, (e.2, true)))) := by
  induction params generalizing values with
  | nil => rfl
  | cons e params ih =>
      rw [List.forall_mem_cons] at h
      rw [List.map_cons, List.cons_append, readLines_paramLine h.1.param, ih h.2]
      rfl

/-- A name is its own lower case. -/
theorem lower_of_isParameter {param : String} (h : IsParameter param) : lower param = param := by
  refine String.toList_inj.mp ?_
  change (param.map Char.toLower).toList = param.toList
  rw [String.toList_map]
  refine (List.map_congr_left fun c hc => ?_).trans (List.map_id _)
  have hparam := h.2 c hc
  rw [isParameterChar, Bool.or_eq_true, decide_eq_true_eq, Text.isLower_iff] at hparam
  refine dif_neg ?_
  rintro ⟨hA, hZ⟩
  have hA' : 65 ≤ c.toNat := UInt32.le_iff_toNat_le.mp hA
  have hZ' : c.toNat ≤ 90 := UInt32.le_iff_toNat_le.mp hZ
  rcases hparam with hlower | rfl
  · omega
  · exact absurd hZ' (by decide)

/-- The parameters that are written are read back. -/
theorem readRecoveryParams_writeFile (params : Dict String (List Char))
    (h : ∀ e ∈ params.entries, IsWritable e.1 e.2) :
    ∃ values, readRecoveryParams (writeFile params) = some values ∧
      values.items? = some (params.entries.map fun e => (e.1, (e.2, true))) := by
  have hlines : ∀ line ∈ headerLines ++ params.entries.map fun e => paramLine e.1 e.2,
      '\n' ∉ line ∧ '\r' ∉ line := by
    rw [List.forall_mem_append, List.forall_mem_map]
    exact ⟨by decide +kernel, fun e he => notMem_of_isWritable (h e he)⟩
  have hkeys : ((∅ : Dict String (String × List Char × Bool)).keys ++
      (params.entries.map fun e => (e.1, (e.2, true))).map fun p => lower p.1).Nodup := by
    rw [AList.keys_empty, List.nil_append, List.map_map]
    have hnames : params.entries.map ((fun p : String × List Char × Bool => lower p.1) ∘
        fun e => (e.1, (e.2, true))) = params.keys :=
      List.map_congr_left fun e he => lower_of_isParameter (h e he).param
    rw [hnames]
    exact params.nodupKeys
  refine ⟨CaseInsensitiveDict.update ∅ (params.entries.map fun e => (e.1, (e.2, true))), ?_, ?_⟩
  · rw [readRecoveryParams, writeFile_eq, fileLines_writeline hlines, List.append_assoc,
      readLines_headerLines]
    exact readLines_params h ∅
  · rw [CaseInsensitiveDict.items?_eq, CaseInsensitiveDict.values_update]
    have hentries := Dict.entries_foldl_set (fun p : String × List Char × Bool => lower p.1) id
      _ _ hkeys
    exact congrArg some ((congrArg (List.map _) hentries).trans (by simp))

/-- A value with quotes, a backslash, a comment and blanks. -/
theorem readRecoveryParams_writeFile_quotes :
    ∃ values, readRecoveryParams (writeFile ((∅ : Dict String (List Char)).set "restore_command"
        " cp '\\%f' # ".toList)) = some values ∧
      values.items? = some [("restore_command", " cp '\\%f' # ".toList, true)] := by
  refine readRecoveryParams_writeFile _ fun e he => ?_
  obtain rfl := List.mem_singleton.mp he
  exact ⟨by decide, by decide, by decide⟩

end RecoveryConf

end Metatroni
