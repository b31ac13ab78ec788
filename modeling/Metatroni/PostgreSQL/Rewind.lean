import Metatroni.Lib.Text
import Mathlib.Algebra.Order.Ring.Int

/-!
# The decision to rewind

A node that is going to follow a primary compares its own timeline and position
with those of the primary, `_check_timeline_and_lsn` of `postgresql/rewind.py`. If
its WAL is not a prefix of the primary's, the node has to be rewound.

## Implementation notes

Texts are lists of characters, positions and timelines are integers as in the
source.
-/

namespace Metatroni

namespace Rewind

/-! ## Positions and histories -/

/-- `parse_lsn`. -/
def parseLsn (lsn : List Char) : Option ℤ :=
  match lsn.splitOn '/' with
  | high :: low :: _ => do
      let high ← Text.int? 16 high
      let low ← Text.int? 16 low
      pure (high * 0x100000000 + low)
  | _ => none

/-- `format_lsn`. -/
def formatLsn (lsn : ℤ) (full : Bool) : List Char :=
  let high := lsn / 0x100000000
  let low := Text.upperHex (lsn % 0x100000000).toNat
  (if high < 0 then ['-'] else []) ++ Text.upperHex high.natAbs ++ '/' ::
    ((if full then List.replicate (8 - low.length) '0' else []) ++ low)

/-- A line of a history: the timeline, where it was left, and why. -/
structure HistoryLine where
  timeline : ℤ
  switchpoint : ℤ
  reason : List Char
  deriving DecidableEq

/-- A line of `parse_history`. -/
def parseHistoryLine (line : List Char) : Option HistoryLine :=
  match (Text.strip line).splitOn '\t' with
  | [timeline, lsn, reason] => do
      let timeline ← Text.int? 10 timeline
      let lsn ← parseLsn lsn
      pure ⟨timeline, lsn, reason⟩
  | _ => none

/-- `parse_history`. -/
def parseHistory (data : List Char) : List HistoryLine :=
  (data.splitOn '\n').filterMap parseHistoryLine

/-! ## The end of a checkpoint -/

/-- What `pg_waldump` writes to its two outputs, if it can be executed. -/
structure Dump where
  out : List Char
  err : List Char

/-- The first position in front of one of these patterns that can be parsed. -/
def firstLsn (text : List Char) : List (List Char) → ℤ
  | [] => 0
  | pattern :: patterns =>
      match (Text.breakOn pattern (text ++ ['\n'])).bind fun parts => parseLsn parts.1 with
      | some lsn => lsn
      | none => firstLsn text patterns

/-- `_get_checkpoint_end`. -/
def getCheckpointEnd (waldump : ℤ → List Char → Option Dump) (timeline lsn : ℤ) : ℤ :=
  let lsn8 := formatLsn lsn true
  let lsnStr := formatLsn lsn false
  match waldump timeline lsnStr with
  | none => 0
  | some dump =>
      match (Text.rstrip dump.out).splitOn '\n', (Text.rstrip dump.err).splitOn '\n' with
      | [out], [err] =>
          match Text.breakOn (", lsn: ".toList ++ lsn8 ++ ", prev ".toList) out,
            Text.breakOn ("error in WAL record at ".toList ++ lsnStr ++
              ": invalid record length at ".toList) err with
          | some _, some (_, behind) =>
              firstLsn behind [": expected at least ".toList, ": wanted ".toList, "\n".toList]
          | _, _ => 0
      | _, _ => 0

/-! ## The decision -/

/-- `REWIND_STATUS`. -/
inductive Status
  | initial
  | checkpoint
  | check
  | need
  | notNeed
  | success
  | failed
  deriving DecidableEq, Repr

/-- The answer to a query: an exception, no row, or a row. -/
inductive Answer (α : Type)
  | failed
  | noRow
  | row (value : α)

/-- `_get_local_timeline_lsn`. -/
structure Local where
  inRecovery : Bool
  timeline : Option ℤ
  lsn : Option ℤ

/-- The leader and what it answers. -/
structure Leader where
  /-- It is a remote member, or its role in the DCS is that of a primary. -/
  hasPrimaryRole : Bool
  /-- `check_leader_is_not_in_recovery`. -/
  isNotInRecovery : Bool
  /-- The timeline in the row of `IDENTIFY_SYSTEM`. -/
  identifySystem : Answer ℤ
  /-- The text in the row of `TIMELINE_HISTORY`. -/
  timelineHistory : ℤ → Answer (List Char)

/-- `format_history_line`. -/
def formatHistoryLine (line : HistoryLine) : List Char :=
  (toString line.timeline).toList ++ '\t' :: (formatLsn line.switchpoint false ++
    '\t' :: line.reason)

/-- `_log_primary_history`: the lines that it logs, or `none` where it raises `IndexError`. -/
def logPrimaryHistory (history : List HistoryLine) (i : ℕ) : Option (List (List Char)) :=
  let start := i - 3
  let shown := (if history.length ≤ i + 4 then history else history.take (i + 2)).drop start
  history.getLast?.map fun last =>
    shown.map formatHistoryLine ++
      if shown.getLast? ≠ some last then ["...".toList, formatHistoryLine last] else []

/-- The loop over the history: whether a rewind is needed, and where the loop stopped. -/
def searchHistory (inRecovery : Bool) (timeline lsn checkpointEnd : ℤ) :
    ℕ → List HistoryLine → Bool × ℕ
  | i, [] => (true, i - 1)
  | i, line :: lines =>
      if line.timeline = timeline then
        if inRecovery then (line.switchpoint < lsn, i)
        else if line.switchpoint ≤ lsn then (true, i)
        else (line.switchpoint ≠ checkpointEnd, i)
      else if timeline < line.timeline then (true, i)
      else searchHistory inRecovery timeline lsn checkpointEnd (i + 1) lines

/-- `need_rewind and REWIND_STATUS.NEED or REWIND_STATUS.NOT_NEED` -/
def Status.ofNeedRewind (needRewind : Bool) : Status := if needRewind then .need else .notNeed

/-- `_check_timeline_and_lsn`: the new state, or `none` where an exception is raised. -/
def checkTimelineAndLsn (waldump : ℤ → List Char → Option Dump) (node : Local) (leader : Leader)
    (state : Status) : Option Status :=
  match node.timeline, node.lsn with
  | some timeline, some lsn =>
      if !leader.hasPrimaryRole || !leader.isNotInRecovery then some state
      else
        match leader.identifySystem with
        | .failed => some state
        | .noRow => some .notNeed
        | .row primaryTimeline =>
            if primaryTimeline < timeline then some .need
            else if timeline = primaryTimeline then some .notNeed
            else if 1 < primaryTimeline then
              match leader.timelineHistory primaryTimeline with
              | .failed => some state
              | .noRow => some .notNeed
              | .row text =>
                  let history := parseHistory text
                  let (needRewind, i) := searchHistory node.inRecovery timeline lsn
                    (getCheckpointEnd waldump timeline lsn) 0 history
                  (logPrimaryHistory history i).map fun _ => .ofNeedRewind needRewind
            else some .notNeed
  | _, _ => some state

/-! ## What the decision is about -/

/-- The lines of the history of a primary, in order and all before its own timeline. -/
structure IsHistory (history : List HistoryLine) (primaryTimeline : ℤ) : Prop where
  increasing : history.Pairwise fun a b => a.timeline < b.timeline ∧ a.switchpoint < b.switchpoint
  below : ∀ line ∈ history, line.timeline < primaryTimeline

/-- The node left its timeline where the primary did: it has not replayed more, or its last
checkpoint ends there. -/
def LeavesAt (inRecovery : Bool) (lsn checkpointEnd : ℤ) (line : HistoryLine) : Prop :=
  if inRecovery then lsn ≤ line.switchpoint else checkpointEnd = line.switchpoint

instance (inRecovery : Bool) (lsn checkpointEnd : ℤ) (line : HistoryLine) :
    Decidable (LeavesAt inRecovery lsn checkpointEnd line) :=
  inferInstanceAs (Decidable (ite _ _ _))

/-- The WAL of the node is a prefix of the primary's. -/
def IsPrefix (history : List HistoryLine) (primaryTimeline : ℤ) (inRecovery : Bool)
    (timeline lsn checkpointEnd : ℤ) : Prop :=
  timeline = primaryTimeline ∨
    ∃ line ∈ history, line.timeline = timeline ∧ LeavesAt inRecovery lsn checkpointEnd line

section Search

variable {inRecovery : Bool} {timeline lsn checkpointEnd : ℤ}

/-- The search finds the line of the timeline, if there is one. -/
theorem searchHistory_eq_false_iff (hend : inRecovery = false → lsn < checkpointEnd)
    {lines : List HistoryLine}
    (hlines : lines.Pairwise fun a b => a.timeline < b.timeline ∧ a.switchpoint < b.switchpoint)
    (i : ℕ) :
    (searchHistory inRecovery timeline lsn checkpointEnd i lines).1 = false ↔
      ∃ line ∈ lines, line.timeline = timeline ∧ LeavesAt inRecovery lsn checkpointEnd line := by
  induction lines generalizing i with
  | nil => simp [searchHistory]
  | cons line lines ih =>
      obtain ⟨hline, hlines⟩ := List.pairwise_cons.mp hlines
      -- a later line is of a later timeline
      have hlater (h : timeline ≤ line.timeline) :
          ¬∃ line' ∈ lines, line'.timeline = timeline ∧
            LeavesAt inRecovery lsn checkpointEnd line' := by
        rintro ⟨line', hmem, heq, -⟩
        exact absurd (hline line' hmem).1 (by omega)
      rw [searchHistory]
      simp only [List.mem_cons, exists_eq_or_imp]
      by_cases heq : line.timeline = timeline
      · rw [if_pos heq, or_iff_left (hlater heq.ge), and_iff_right heq, LeavesAt]
        cases inRecovery with
        | true => simp
        | false =>
            have hlt := hend rfl
            by_cases hle : line.switchpoint ≤ lsn
            · simp only [Bool.false_eq_true, if_false, if_pos hle, Bool.true_eq_false, false_iff]
              omega
            · simp only [Bool.false_eq_true, if_false, if_neg hle, decide_eq_false_iff_not, not_not]
              exact eq_comm
      · rw [if_neg heq]
        by_cases hlt : timeline < line.timeline
        · rw [if_pos hlt]
          refine iff_of_false nofun ?_
          rintro (⟨heq', -⟩ | hexists)
          · exact heq heq'
          · exact hlater hlt.le hexists
        · rw [if_neg hlt, ih hlines, or_iff_right fun h => heq h.1]

end Search

theorem logPrimaryHistory_eq_none_iff (history : List HistoryLine) (i : ℕ) :
    logPrimaryHistory history i = none ↔ history = [] := by
  rw [logPrimaryHistory, Option.map_eq_none_iff, List.getLast?_eq_none_iff]

/-- A leader whose answers are available. -/
def Leader.answering (primaryTimeline : ℤ) (history : List Char) : Leader :=
  ⟨true, true, .row primaryTimeline, fun _ => .row history⟩

/-- No exception is raised, and a rewind is needed exactly if the WAL of the node is not a prefix
of the primary's. -/
def DecidesRewind (waldump : ℤ → List Char → Option Dump) (primaryTimeline : ℤ)
    (history : List Char) (inRecovery : Bool) (timeline lsn checkpointEnd : ℤ) (state : Status) :
    Prop :=
  ∃ state', checkTimelineAndLsn waldump ⟨inRecovery, some timeline, some lsn⟩
      (.answering primaryTimeline history) state = some state' ∧
    (state' = .notNeed ↔
      IsPrefix (parseHistory history) primaryTimeline inRecovery timeline lsn checkpointEnd) ∧
    (state' = .need ↔
      ¬IsPrefix (parseHistory history) primaryTimeline inRecovery timeline lsn checkpointEnd)

theorem ofNeedRewind_iff {needRewind : Bool} {p : Prop} (h : needRewind = false ↔ p) :
    (Status.ofNeedRewind needRewind = .notNeed ↔ p) ∧
      (Status.ofNeedRewind needRewind = .need ↔ ¬p) := by
  rw [← h]
  cases needRewind <;> decide

/-- The decision is right exactly if the history is not needed or has a line. A timeline below the
first one has no history, and is taken for a prefix. -/
theorem decidesRewind_iff {waldump : ℤ → List Char → Option Dump} {primaryTimeline : ℤ}
    {history : List Char} (hhistory : IsHistory (parseHistory history) primaryTimeline)
    {inRecovery : Bool} {timeline lsn checkpointEnd : ℤ}
    (hend : inRecovery = false →
      lsn < checkpointEnd ∧ getCheckpointEnd waldump timeline lsn = checkpointEnd)
    (state : Status) :
    DecidesRewind waldump primaryTimeline history inRecovery timeline lsn checkpointEnd state ↔
      (timeline < primaryTimeline →
        1 < primaryTimeline ∧ parseHistory history ≠ [] ∨
        primaryTimeline ≤ 1 ∧ IsPrefix (parseHistory history) primaryTimeline inRecovery timeline
          lsn checkpointEnd) := by
  have hsearch : (searchHistory inRecovery timeline lsn (getCheckpointEnd waldump timeline lsn) 0
      (parseHistory history)).1 = false ↔
      ∃ line ∈ parseHistory history, line.timeline = timeline ∧
        LeavesAt inRecovery lsn checkpointEnd line := by
    cases inRecovery with
    | true =>
        exact @searchHistory_eq_false_iff true _ _ _ (fun h => absurd h (by decide)) _
          hhistory.increasing 0
    | false =>
        rw [(hend rfl).2]
        exact searchHistory_eq_false_iff (fun _ => (hend rfl).1) hhistory.increasing 0
  -- a timeline that is not below the primary's is not in its history
  have hnotBelow (h : primaryTimeline ≤ timeline) : IsPrefix (parseHistory history)
      primaryTimeline inRecovery timeline lsn checkpointEnd ↔ timeline = primaryTimeline := by
    refine or_iff_left ?_
    rintro ⟨line, hline, heq, -⟩
    exact absurd (hhistory.below line hline) (by omega)
  unfold DecidesRewind checkTimelineAndLsn
  simp only [Leader.answering, Bool.not_true, Bool.or_self, Bool.false_eq_true, if_false]
  by_cases hgt : primaryTimeline < timeline
  · simp only [if_pos hgt, Option.some.injEq, exists_eq_left']
    rw [hnotBelow hgt.le]
    refine iff_of_true ⟨iff_of_false nofun ?_, iff_of_true trivial ?_⟩
      fun h => absurd h (by omega)
    · omega
    · omega
  · by_cases heq : timeline = primaryTimeline
    · simp only [if_neg hgt, if_pos heq, Option.some.injEq, exists_eq_left']
      rw [hnotBelow heq.ge]
      refine iff_of_true ⟨iff_of_true trivial heq, iff_of_false nofun ?_⟩
        fun h => absurd h (by omega)
      exact not_not.mpr heq
    · have hlt : timeline < primaryTimeline := by omega
      have hpre : IsPrefix (parseHistory history) primaryTimeline inRecovery timeline lsn
          checkpointEnd ↔ ∃ line ∈ parseHistory history, line.timeline = timeline ∧
            LeavesAt inRecovery lsn checkpointEnd line := or_iff_right heq
      simp only [if_neg hgt, if_neg heq]
      rw [forall_prop_of_true hlt]
      by_cases hone : 1 < primaryTimeline
      · rw [if_pos hone, or_iff_left fun h => absurd h.1 (by omega), and_iff_right hone]
        by_cases hempty : parseHistory history = []
        · refine iff_of_false ?_ fun h => h hempty
          rintro ⟨state', hstate, -⟩
          rw [(logPrimaryHistory_eq_none_iff _ _).mpr hempty] at hstate
          cases hstate
        · refine iff_of_true ?_ hempty
          obtain ⟨shown, hshown⟩ := Option.ne_none_iff_exists'.mp
            (mt (logPrimaryHistory_eq_none_iff (parseHistory history) _).mp hempty)
          refine ⟨_, by rw [hshown]; rfl, ?_⟩
          rw [hpre]
          exact ofNeedRewind_iff hsearch
      · rw [if_neg hone, or_iff_right fun h => hone h.1, and_iff_right (by omega)]
        simp

/-- The record of a shutdown checkpoint, and the failure to read the next record. -/
def shutdownDump : Dump :=
  ⟨"rmgr: XLOG len (rec/tot): 114/114, tx: 0, lsn: 0/0182E220, prev 0/0182E1E8, desc: X\n".toList,
    "error in WAL record at 0/182E220: invalid record length at 0/182E298: wanted 24, got 0".toList⟩

/-- A former primary that was shut down at the place where the new one started. -/
theorem decidesRewind_formerPrimary :
    getCheckpointEnd (fun _ _ => some shutdownDump) 1 0x182E220 = 0x182E298 ∧
      DecidesRewind (fun _ _ => some shutdownDump) 2 "1\t0/182E298\tno recovery target\n".toList
        false 1 0x182E220 0x182E298 .check := by
  have hend : getCheckpointEnd (fun _ _ => some shutdownDump) 1 0x182E220 = 0x182E298 := by
    decide +kernel
  have hparse : parseHistory "1\t0/182E298\tno recovery target\n".toList =
      [⟨1, 0x182E298, "no recovery target".toList⟩] := by
    decide +kernel
  refine ⟨hend, (decidesRewind_iff ?_ (fun _ => ⟨by decide, hend⟩) _).mpr
    fun _ => .inl ⟨by decide, ?_⟩⟩
  · rw [hparse]
    exact ⟨List.pairwise_singleton _ _, by simp⟩
  · rw [hparse]
    simp

/-- A history without a line that can be parsed has no last line that could be logged. -/
theorem not_decidesRewind_emptyHistory :
    IsHistory (parseHistory []) 2 ∧
      ¬DecidesRewind (fun _ _ => none) 2 [] true 1 0x3000000 0 .check := by
  have hparse : parseHistory [] = [] := by decide
  refine ⟨by rw [hparse]; exact ⟨.nil, nofun⟩, ?_⟩
  rintro ⟨state', hstate, -⟩
  have hnone : checkTimelineAndLsn (fun _ _ => none) ⟨true, some 1, some 0x3000000⟩
      (.answering 2 []) .check = none := by decide
  rw [hnone] at hstate
  cases hstate

end Rewind

end Metatroni
