import Metatroni.Lib.Json
import Metatroni.PostgreSQL.Rewind
import Mathlib.Data.List.DropRight

/-!
# The history of timelines in the DCS

The primary keeps the history of its timeline in the DCS, `Ha.update_cluster_history`. A line of
a history file says where a timeline was left and why. In the DCS a line may also have the time
of the promotion and the name of the node, which the file does not have.

## Implementation notes

The fields of a stored line have the types of `_HistoryTuple`. The source takes this for granted,
and `fromNode` is `none` if a stored line is none.
-/

namespace Metatroni

namespace History

open Rewind (HistoryLine parseHistory)

variable (φ : Type)

/-- `_HistoryTuple`: a line with three fields, or also the time of the promotion, or also the name
of the node. -/
structure HistoryTuple extends HistoryLine where
  promotion : Option (List Char × Option (List Char))
  deriving DecidableEq

namespace HistoryTuple

/-- `len(line)` -/
def size (line : HistoryTuple) : ℕ :=
  match line.promotion with
  | none => 3
  | some (_, none) => 4
  | some (_, some _) => 5

def toValue (line : HistoryTuple) : PyValue φ :=
  .list ([.int line.timeline, .int line.switchpoint, .str line.reason] ++
    match line.promotion with
    | none => []
    | some (time, none) => [.str time]
    | some (time, some name) => [.str time, .str name])

variable {φ}

def ofValue? : PyValue φ → Option HistoryTuple
  | .list [.int timeline, .int lsn, .str reason] => some ⟨⟨timeline, lsn, reason⟩, none⟩
  | .list [.int timeline, .int lsn, .str reason, .str time] =>
      some ⟨⟨timeline, lsn, reason⟩, some (time, none)⟩
  | .list [.int timeline, .int lsn, .str reason, .str time, .str name] =>
      some ⟨⟨timeline, lsn, reason⟩, some (time, some name)⟩
  | _ => none

theorem ofValue?_toValue (line : HistoryTuple) : ofValue? (line.toValue φ) = some line := by
  obtain ⟨line, promotion⟩ := line
  match promotion with
  | none => rfl
  | some (_, none) => rfl
  | some (_, some _) => rfl

theorem exact_toValue (line : HistoryTuple) : Json.Exact (line.toValue φ) := by
  obtain ⟨line, promotion⟩ := line
  match promotion with
  | none => simp [toValue, Json.Exact, Json.ExactItems]
  | some (_, none) => simp [toValue, Json.Exact, Json.ExactItems]
  | some (_, some _) => simp [toValue, Json.Exact, Json.ExactItems]

end HistoryTuple

/-- `TimelineHistory.from_node`, the lines. -/
def fromNode [PyRuntime φ] (value : List Char) : Option (List HistoryTuple) :=
  match (Json.loads value : Option (PyValue φ)) with
  | some (.list lines) => lines.mapM HistoryTuple.ofValue?
  | _ => some []

/-- What the decision of a node depends on. -/
structure Node where
  name : List Char
  hasTimelines : Bool
  primaryTimeline : ℤ
  /-- The content of the history file of a timeline and the time when it was changed. -/
  historyFile : ℤ → Option (List Char × List Char)
  /-- `max_timelines_history`, if the DCS has a configuration. -/
  maxTimelinesHistory : Option ℤ

/-- `list[start:]` -/
def sliceFrom {α : Type} (start : ℤ) (l : List α) : List α :=
  l.drop (if start < 0 then l.length + start else start).toNat

namespace Node

variable (node : Node)

/-- `get_history` -/
def getHistory (timeline : ℤ) : List HistoryTuple :=
  match node.historyFile timeline with
  | none => []
  | some (content, mtime) =>
      let history : List HistoryTuple := (parseHistory content).map fun line => ⟨line, none⟩
      match history.getLast? with
      | none => []
      | some last =>
          if last.timeline = timeline - 1 then
            history.dropLast ++ [⟨last.toHistoryLine, some (mtime, some node.name)⟩]
          else history

/-- The stored lines by their timelines. -/
def byTimeline (clusterHistory : List HistoryTuple) : List (ℤ × HistoryTuple) :=
  Assoc.ofPairs (clusterHistory.map fun line => (line.timeline, line))

/-- The fields of the stored line are appended to a line of the file. -/
def enrich (clusterHistory : List (ℤ × HistoryTuple)) (line : HistoryTuple) : HistoryTuple :=
  match Assoc.get line.timeline clusterHistory with
  | none => line
  | some stored =>
      if line.size = 3 ∧ 4 ≤ stored.size ∧ stored.switchpoint = line.switchpoint then
        { line with promotion := stored.promotion }
      else line

/-- `update_cluster_history`: the value that is written. -/
def updateClusterHistory [PyRuntime φ] (clusterHistory : Option (List HistoryTuple)) :
    Option (List Char) :=
  let clusterHistory := clusterHistory.getD []
  if !node.hasTimelines then none
  else if node.primaryTimeline = 1 then
    if clusterHistory ≠ [] then some "[]".toList else none
  else if clusterHistory.getLast?.all fun last =>
      last.timeline ≠ node.primaryTimeline - 1 || last.size ≠ 5 then
    let history := node.getHistory node.primaryTimeline
    let history : List HistoryTuple :=
      match node.maxTimelinesHistory with
      | some n => sliceFrom (-n) history
      | none => history
    let history := history.map (enrich (byTimeline clusterHistory))
    if history ≠ [] then some (Json.dumps (.list (history.map (·.toValue φ)))) else none
  else none

end Node

/-! ## What is written -/

/-- The lines that are kept of a history: the last ones, or all. -/
def truncated {α : Type} (maxTimelinesHistory : Option ℕ) (history : List α) : List α :=
  match maxTimelinesHistory with
  | none | some 0 => history
  | some n => history.rtake n

/-- The lines are those of a history. The last one has the promotion of the node, and another one
has what a stored line for the same timeline and LSN has. -/
structure IsEnriched (stored : List HistoryTuple) (own : List Char × Option (List Char))
    (history : List HistoryLine) (lines : List HistoryTuple) : Prop where
  lines_eq : lines.map HistoryTuple.toHistoryLine = history
  last : ∀ line ∈ lines.getLast?, line.promotion = some own
  carried : ∀ line ∈ lines.dropLast, ∀ promotion, line.promotion = some promotion ↔
    ∃ s ∈ stored, s.timeline = line.timeline ∧ s.switchpoint = line.switchpoint ∧
      s.promotion = some promotion

/-- A stored history to which a promotion has nothing to add. -/
def IsSettled (primaryTimeline : ℤ) (stored : List HistoryTuple) : Prop :=
  ∃ last ∈ stored.getLast?, last.timeline = primaryTimeline - 1 ∧ last.size = 5

/-! ### The stored text -/

theorem exactItems_toValue (lines : List HistoryTuple) :
    Json.ExactItems (lines.map (·.toValue φ)) := by
  refine Json.exactItems_iff.mpr fun v hv => ?_
  obtain ⟨line, -, rfl⟩ := List.mem_map.mp hv
  exact line.exact_toValue

theorem mapM_ofValue?_toValue (lines : List HistoryTuple) :
    (lines.map (·.toValue φ)).mapM HistoryTuple.ofValue? = some lines := by
  induction lines with
  | nil => rfl
  | cons line lines ih =>
      rw [List.map_cons, List.mapM_cons, line.ofValue?_toValue, ih]
      rfl

theorem fromNode_dumps [PyRuntime φ] (lines : List HistoryTuple) :
    fromNode φ (Json.dumps (.list (lines.map (·.toValue φ)))) = some lines := by
  have hloads : Json.loads (Json.dumps (.list (lines.map (·.toValue φ)))) =
      some (.list (lines.map (·.toValue φ))) := by
    refine Json.loads_dumps ?_
    rw [Json.Exact]
    exact exactItems_toValue φ lines
  rw [fromNode, hloads]
  exact mapM_ofValue?_toValue φ lines

/-! ### The lines that are kept -/

theorem sliceFrom_neg {α : Type} (n : ℕ) (l : List α) :
    sliceFrom (-n) l = truncated (some n) l := by
  cases n with
  | zero => rfl
  | succ n =>
      change _ = l.drop (l.length - (n + 1))
      rw [sliceFrom, if_pos (by omega)]
      congr 1
      omega

theorem map_truncated {α β : Type} (f : α → β) (n : Option ℕ) (l : List α) :
    (truncated n l).map f = truncated n (l.map f) := by
  match n with
  | none => rfl
  | some 0 => rfl
  | some (n + 1) => simp [truncated, List.rtake, List.map_drop]

/-- The last line is kept. -/
theorem truncated_concat {α : Type} (n : Option ℕ) (l : List α) (a : α) :
    ∃ kept, truncated n (l ++ [a]) = kept ++ [a] ∧ ∀ b ∈ kept, b ∈ l := by
  match n with
  | none => exact ⟨l, rfl, fun _ => id⟩
  | some 0 => exact ⟨l, rfl, fun _ => id⟩
  | some (n + 1) =>
      refine ⟨l.rtake n, List.rtake_concat_succ .., fun b hb => ?_⟩
      exact List.mem_of_mem_drop hb

/-! ### The lines that are enriched -/

namespace HistoryTuple

theorem size_eq_three_iff (line : HistoryTuple) : line.size = 3 ↔ line.promotion = none := by
  obtain ⟨line, promotion⟩ := line
  match promotion with
  | none => simp [size]
  | some (_, none) => simp [size]
  | some (_, some _) => simp [size]

theorem four_le_size_iff (line : HistoryTuple) : 4 ≤ line.size ↔ line.promotion ≠ none := by
  obtain ⟨line, promotion⟩ := line
  match promotion with
  | none => simp [size]
  | some (_, none) => simp [size]
  | some (_, some _) => simp [size]

end HistoryTuple

namespace Node

theorem toHistoryLine_enrich (stored : List (ℤ × HistoryTuple)) (line : HistoryTuple) :
    (enrich stored line).toHistoryLine = line.toHistoryLine := by
  rw [enrich]
  split
  · rfl
  · split
    · rfl
    · rfl

theorem enrich_of_promotion (stored : List (ℤ × HistoryTuple)) {line : HistoryTuple}
    (h : line.promotion ≠ none) : enrich stored line = line := by
  rw [enrich]
  split
  · rfl
  · rw [if_neg]
    rintro ⟨hsize, -⟩
    exact h (line.size_eq_three_iff.mp hsize)

/-- A line of the file gets what a stored line for the same timeline and LSN has. -/
theorem promotion_enrich_iff {stored : List HistoryTuple}
    (hstored : (stored.map fun s => s.timeline).Nodup) {line : HistoryTuple}
    (h : line.promotion = none) (promotion : List Char × Option (List Char)) :
    (enrich (byTimeline stored) line).promotion = some promotion ↔
      ∃ s ∈ stored, s.timeline = line.timeline ∧ s.switchpoint = line.switchpoint ∧
        s.promotion = some promotion := by
  have hkeys : (Assoc.keys (stored.map fun s => (s.timeline, s))).Nodup := by
    rwa [Assoc.keys, List.map_map]
  rw [byTimeline, Assoc.ofPairs_of_nodup hkeys, enrich]
  cases hget : Assoc.get line.timeline (stored.map fun s => (s.timeline, s)) with
  | none =>
      refine iff_of_false (by simp [h]) ?_
      rintro ⟨s, hs, htimeline, -⟩
      refine Assoc.get_eq_none_iff.mp hget ?_
      rw [Assoc.keys, List.map_map, ← htimeline]
      exact List.mem_map_of_mem hs
  | some s =>
      have hmem := Assoc.mem_of_get hget
      obtain ⟨s', hs', heq⟩ := List.mem_map.mp hmem
      obtain ⟨htimeline, rfl⟩ := Prod.mk.inj heq
      -- no other stored line is for the same timeline
      have hunique : ∀ t ∈ stored, t.timeline = line.timeline → t = s' := by
        intro t ht htimeline'
        have hget' := Assoc.get_of_mem hkeys (List.mem_map_of_mem ht)
        rw [htimeline', hget] at hget'
        exact (Option.some.inj hget').symm
      have hcondition : (line.size = 3 ∧ 4 ≤ s'.size ∧ s'.switchpoint = line.switchpoint) ↔
          s'.promotion ≠ none ∧ s'.switchpoint = line.switchpoint := by
        rw [HistoryTuple.size_eq_three_iff, HistoryTuple.four_le_size_iff, and_iff_right h]
      simp only [hcondition]
      constructor
      · intro hline
        split at hline
        · next hlsn => exact ⟨s', hs', htimeline, hlsn.2, hline⟩
        · rw [h] at hline
          cases hline
      · rintro ⟨t, ht, htimeline', hlsn, hpromotion⟩
        rw [hunique t ht htimeline'] at hlsn hpromotion
        rw [if_pos ⟨by rw [hpromotion]; exact Option.some_ne_none _, hlsn⟩]
        exact hpromotion

/-! ### A run -/

variable {φ} {node : Node} {maxTimelinesHistory : Option ℕ}
  {content mtime : List Char} {last : HistoryLine}

/-- The last line of the file gets the time of the file and the name of the node. -/
theorem getHistory_eq (timeline : ℤ) (hfile : node.historyFile timeline = some (content, mtime))
    (hlast : (parseHistory content).getLast? = some last)
    (htimeline : last.timeline = timeline - 1) :
    node.getHistory timeline = (parseHistory content).dropLast.map (fun line => ⟨line, none⟩) ++
      [⟨last, some (mtime, some node.name)⟩] := by
  obtain ⟨lines, hlines⟩ := List.getLast?_eq_some_iff.mp hlast
  simp [getHistory, hfile, hlines, htimeline]

/-- A history that is settled is not written again. -/
theorem updateClusterHistory_of_isSettled [PyRuntime φ] (hone : node.primaryTimeline ≠ 1)
    {stored : List HistoryTuple} (h : IsSettled node.primaryTimeline stored) :
    node.updateClusterHistory φ (some stored) = none := by
  obtain ⟨last, hlast, htimeline, hsize⟩ := h
  rw [updateClusterHistory, if_neg hone, Option.getD_some, Option.mem_def.mp hlast]
  simp [htimeline, hsize]

/-- Any other history is merged with the one of the file. -/
theorem updateClusterHistory_eq [PyRuntime φ] {history : Option (List HistoryTuple)}
    {value : List Char} (hone : node.primaryTimeline ≠ 1)
    (hmax : node.maxTimelinesHistory = maxTimelinesHistory.map (↑))
    (h : node.updateClusterHistory φ history = some value) :
    value = Json.dumps (.list (((truncated maxTimelinesHistory
      (node.getHistory node.primaryTimeline)).map (enrich (byTimeline (history.getD [])))).map
        (·.toValue φ))) := by
  have hkept : (match node.maxTimelinesHistory with
      | some n => sliceFrom (-n) (node.getHistory node.primaryTimeline)
      | none => node.getHistory node.primaryTimeline) =
      truncated maxTimelinesHistory (node.getHistory node.primaryTimeline) := by
    rw [hmax]
    cases maxTimelinesHistory with
    | none => rfl
    | some n => exact sliceFrom_neg n _
  simp only [updateClusterHistory, if_neg hone, hkept] at h
  split at h
  · cases h
  · split at h
    · split at h
      · exact (Option.some.inj h).symm
      · cases h
    · cases h

end Node

/-- Lines of a file that are enriched, with a last line that has a promotion. -/
theorem isEnriched_concat {stored kept : List HistoryTuple}
    (hstored : (stored.map fun s => s.timeline).Nodup)
    (hkept : ∀ line ∈ kept, line.promotion = none) {last : HistoryTuple}
    {own : List Char × Option (List Char)} (hown : last.promotion = some own) :
    IsEnriched stored own ((kept ++ [last]).map HistoryTuple.toHistoryLine)
      ((kept ++ [last]).map (Node.enrich (Node.byTimeline stored))) where
  lines_eq := by
    rw [List.map_map]
    exact List.map_congr_left fun line _ => Node.toHistoryLine_enrich _ line
  last line hline := by
    rw [List.map_append, List.map_singleton, List.getLast?_concat,
      Node.enrich_of_promotion _ (hown ▸ Option.some_ne_none own), Option.mem_some_iff] at hline
    rw [← hline, hown]
  carried line hline promotion := by
    rw [List.map_append, List.map_singleton, List.dropLast_concat] at hline
    obtain ⟨fileLine, hmem, rfl⟩ := List.mem_map.mp hline
    rw [Node.toHistoryLine_enrich]
    exact Node.promotion_enrich_iff hstored (hkept fileLine hmem) promotion

theorem isSettled_concat (kept : List HistoryTuple) (clusterHistory : List (ℤ × HistoryTuple))
    {primaryTimeline : ℤ} {last : HistoryTuple} (hlast : last.timeline = primaryTimeline - 1)
    (hsize : last.size = 5) :
    IsSettled primaryTimeline ((kept ++ [last]).map (Node.enrich clusterHistory)) := by
  have hpromotion : last.promotion ≠ none := last.four_le_size_iff.mp (by omega)
  refine ⟨last, ?_, hlast, hsize⟩
  rw [List.map_append, List.map_singleton, Node.enrich_of_promotion _ hpromotion]
  exact List.getLast?_concat

variable {φ} {maxTimelinesHistory : Option ℕ} {content mtime : List Char} {last : HistoryLine}

/-- The history that is written agrees with the file, keeps what is stored of the promotions, and
is not written again. -/
theorem updateClusterHistory_settles [PyRuntime φ] (node : Node) (hone : 1 < node.primaryTimeline)
    (hmax : node.maxTimelinesHistory = maxTimelinesHistory.map (↑))
    (hfile : node.historyFile node.primaryTimeline = some (content, mtime))
    (hlast : (parseHistory content).getLast? = some last)
    (htimeline : last.timeline = node.primaryTimeline - 1) {history : Option (List HistoryTuple)}
    (hstored : ((history.getD []).map fun s => s.timeline).Nodup) {value : List Char}
    (hvalue : node.updateClusterHistory φ history = some value) :
    ∃ lines, fromNode φ value = some lines ∧
      IsEnriched (history.getD []) (mtime, some node.name)
        (truncated maxTimelinesHistory (parseHistory content)) lines ∧
      node.updateClusterHistory φ (some lines) = none := by
  have hhistory := node.getHistory_eq _ hfile hlast htimeline
  have hfields : (node.getHistory node.primaryTimeline).map HistoryTuple.toHistoryLine =
      parseHistory content := by
    obtain ⟨lines, hlines⟩ := List.getLast?_eq_some_iff.mp hlast
    rw [hhistory, hlines, List.dropLast_concat, List.map_append, List.map_map, List.map_singleton]
    exact congrArg (· ++ [last]) (List.map_id lines)
  obtain ⟨kept, hkept, hmem⟩ := truncated_concat maxTimelinesHistory
    ((parseHistory content).dropLast.map fun line => HistoryTuple.mk line none)
    (HistoryTuple.mk last (some (mtime, some node.name)))
  have hnone : ∀ line ∈ kept, line.promotion = none := by
    intro line hline
    obtain ⟨_, -, rfl⟩ := List.mem_map.mp (hmem line hline)
    rfl
  rw [Node.updateClusterHistory_eq hone.ne' hmax hvalue, ← hfields, ← map_truncated, hhistory,
    hkept]
  exact ⟨_, fromNode_dumps _ _, isEnriched_concat hstored hnone rfl,
    Node.updateClusterHistory_of_isSettled hone.ne' (isSettled_concat kept _ htimeline rfl)⟩

/-- A node that was promoted to timeline 3. -/
def promoted : Node where
  name := "a".toList
  hasTimelines := true
  primaryTimeline := 3
  historyFile _ := some ("1\t0/3000000\tno recovery target\n2\t0/5000000\tpromoted\n".toList,
    "2024-02-02".toList)
  maxTimelinesHistory := some 2

/-- The first promotion, as it is stored. -/
def firstPromotion : HistoryTuple :=
  ⟨⟨1, 0x3000000, "no recovery target".toList⟩, some ("2024-01-01".toList, some "b".toList)⟩

/-- The second promotion is added to the first one. -/
theorem updateClusterHistory_settles_promoted :
    letI := PyRuntime.ascii
    ∃ value, promoted.updateClusterHistory Unit (some [firstPromotion]) = some value ∧
      ∃ lines, fromNode Unit value = some lines ∧
        IsEnriched [firstPromotion] ("2024-02-02".toList, some "a".toList)
          [⟨1, 0x3000000, "no recovery target".toList⟩, ⟨2, 0x5000000, "promoted".toList⟩] lines ∧
        promoted.updateClusterHistory Unit (some lines) = none := by
  let _ := PyRuntime.ascii
  have hparse : parseHistory
      "1\t0/3000000\tno recovery target\n2\t0/5000000\tpromoted\n".toList =
      [⟨1, 0x3000000, "no recovery target".toList⟩, ⟨2, 0x5000000, "promoted".toList⟩] := by
    decide +kernel
  have hwritten : (promoted.updateClusterHistory Unit (some [firstPromotion])).isSome = true := by
    decide +kernel
  obtain ⟨value, hvalue⟩ := Option.isSome_iff_exists.mp hwritten
  have hsettles := @updateClusterHistory_settles Unit (some 2) _ _ _ _ promoted (by decide) rfl rfl
    (by rw [hparse]; rfl) rfl (some [firstPromotion]) (List.nodup_singleton _) _ hvalue
  rw [hparse] at hsettles
  exact ⟨value, hvalue, hsettles⟩

end History

end Metatroni
