import Metatroni.Lib.Environment
import Metatroni.Slots.Sync

/-!
# Which replication slots are dropped

`_drop_incorrect_slots` drops the slots that the cluster does not ask for, and those whose
attributes are not the ones it asks for. It leaves the others as they are.

## Implementation notes

PostgreSQL is a parameter. What is assumed of it is what its documentation says of the statements,
where nobody else changes the slots. Temporary slots and those that PostgreSQL synchronises itself
are not shown.
-/

namespace Metatroni

namespace Slots

namespace Sync

open Interaction Interaction.Method

/-! ## PostgreSQL -/

/-- A replication slot. -/
structure Row where
  kind : Kind
  active : Bool
  temporary : Bool
  failover : Bool
  deriving DecidableEq

/-- The slot is shown to Patroni. -/
def Row.shown (row : Row) : Bool := !row.temporary && !row.failover

/-- The slots by their names. -/
abbrev Rows := String → Option Row

/-- A new slot. -/
def newRow (kind : Kind) : Row := ⟨kind, false, false, false⟩

/-- A primary of PostgreSQL 11 or newer: the slots in each state, and the answers to statements. -/
structure Postgres (τ : Type) where
  slots : τ → Rows
  answers : Environment Query Query.Answer SlotsException τ
  /-- A statement that fails changes no slot, or its answer has been lost. -/
  failed : ∀ {t q e t'}, answers t ⟨q, .error e⟩ t' →
    slots t' = slots t ∨ ∃ a, answers t ⟨q, .ok a⟩ t'
  load : ∀ {t rows t'}, answers t ⟨.loadReplicationSlots, .ok rows⟩ t' →
    (rows.map Prod.fst).Nodup ∧ (∀ name kind, (name, kind) ∈ rows ↔
      ∃ row, slots t name = some row ∧ row.shown = true ∧ row.kind = kind) ∧ slots t' = slots t
  /-- An active slot is not dropped. -/
  drop : ∀ {t name result t'}, answers t ⟨.dropReplicationSlot name, .ok result⟩ t' →
    result = (slots t name).elim (false, false) (fun row => (row.active, !row.active)) ∧
      slots t' = if result.2 then Function.update (slots t) name none else slots t
  createPhysical : ∀ {t name t'}, answers t ⟨.createPhysicalReplicationSlot name, .ok ()⟩ t' →
    slots t name = none → ∃ lsn, lsn ≠ 0 ∧
      slots t' = Function.update (slots t) name (some (newRow (.physical (some lsn) none)))
  /-- The slot may be advanced less than was asked for. -/
  advance : ∀ {t name lsn t'}, answers t ⟨.advanceReplicationSlot name lsn, .ok ()⟩ t' →
    ∀ {restartLsn xmin active temporary failover},
      slots t name = some ⟨.physical (some restartLsn) xmin, active, temporary, failover⟩ →
        ∃ restartLsn', restartLsn' ≠ 0 ∧ slots t' = Function.update (slots t) name
          (some ⟨.physical (some restartLsn') xmin, active, temporary, failover⟩)
  connect : ∀ {t database t'}, answers t ⟨.connect database, .ok ()⟩ t' → slots t' = slots t
  createLogical : ∀ {t database name plugin t'},
    answers t ⟨.createLogicalReplicationSlot (.str database) name (.str plugin), .ok ()⟩ t' →
      (slots t name = none → ∃ datoid catalogXmin confirmedFlushLsn,
        slots t' = Function.update (slots t) name (some (newRow (.logical plugin database datoid
          catalogXmin confirmedFlushLsn)))) ∧
      ∀ {row}, slots t name = some row → slots t' = slots t
  isPrimary : ∀ {t b t'}, answers t ⟨.isPrimary, .ok b⟩ t' → b = true ∧ slots t' = slots t

/-- A statement succeeds, unless it advances a slot, or creates one that PostgreSQL may be unable to
create. -/
def Succeeds (unable : Set String) : Call → Prop
  | ⟨_, .ok _⟩ => True
  | ⟨.advanceReplicationSlot _ _, _⟩ => True
  | ⟨.createPhysicalReplicationSlot name, _⟩ => name ∈ unable
  | ⟨.createLogicalReplicationSlot _ name _, _⟩ => name ∈ unable
  | _ => False

/-- PostgreSQL, as long as its statements succeed. -/
def Postgres.env {τ : Type} (pg : Postgres τ) (unable : Set String) :
    Environment Query Query.Answer SlotsException τ :=
  fun t e t' => pg.answers t e t' ∧ Succeeds unable e

/-- There is no exception. -/
abbrev NoException {τ : Type} : SlotsException → SlotsHandler → τ → Prop := fun _ _ _ => False

/-! ## Slots and rows -/

/-- The attributes of a slot are those of a row. -/
def Fits (slot : Slot) : Kind → Prop
  | .physical .. => slot.lookup "type" = some (.str "physical")
  | .logical plugin database .. => slot.lookup "type" = some (.str "logical") ∧
      slot.lookup "database" = some (.str database) ∧ slot.lookup "plugin" = some (.str plugin)

/-- A slot that has a type, and a database and a plugin if it is logical. -/
def Typed (slot : Slot) : Prop := ∃ kind, Fits slot kind

theorem fits_loaded (majorVersion : ℕ) (kind : Kind) : Fits (loaded majorVersion kind) kind := by
  cases kind with
  | physical restartLsn xmin => simp [Fits, loaded, Dict.lookup_set]
  | logical plugin database datoid catalogXmin confirmedFlushLsn =>
      simp only [Fits, loaded]
      split
      · simp [Dict.lookup_set]
      · simp [Dict.lookup_set]

/-- A slot is compared with what is asked for. -/
theorem exists_compareSlots {value slot : Slot} {kind : Kind} (hvalue : Typed value)
    (hslot : Fits slot kind) :
    ∃ same, compareSlots value slot "database" = some same ∧ (same = true ↔ Fits value kind) := by
  obtain ⟨wanted, hwanted⟩ := hvalue
  cases wanted with
  | physical _ _ =>
      have htype : value.lookup "type" = some (.str "physical") := hwanted
      cases kind with
      | physical restartLsn xmin =>
          have hstype : slot.lookup "type" = some (.str "physical") := hslot
          exact ⟨true, by simp [compareSlots, htype, hstype], iff_of_true rfl htype⟩
      | logical plugin database datoid catalogXmin confirmedFlushLsn =>
          exact ⟨false, by simp [compareSlots, htype, hslot.1], by simp [Fits, htype]⟩
  | logical p d _ _ _ =>
      obtain ⟨htype, hd, hp⟩ := hwanted
      cases kind with
      | physical restartLsn xmin =>
          have hstype : slot.lookup "type" = some (.str "physical") := hslot
          exact ⟨false, by simp [compareSlots, htype, hstype], by simp [Fits, htype]⟩
      | logical plugin database datoid catalogXmin confirmedFlushLsn =>
          obtain ⟨hstype, hdatabase, hplugin⟩ := hslot
          by_cases hsame : d = database ∧ p = plugin
          · refine ⟨true, ?_, by simp [Fits, htype, hd, hp, hsame]⟩
            simp [compareSlots, Slot.get, htype, hd, hp, hstype, hplugin, hdatabase, hsame]
          · refine ⟨false, ?_, by simp [Fits, htype, hd, hp, hsame]⟩
            by_cases hdb : d = database
            · have hne : p ≠ plugin := fun h => hsame ⟨hdb, h⟩
              simp [compareSlots, Slot.get, htype, hd, hp, hstype, hplugin, hdatabase, hdb, hne]
            · simp [compareSlots, Slot.get, htype, hd, hstype, hdatabase, hdb]

/-! ## One slot -/

/-- A slot as it is in PostgreSQL, in the copy, and as the cluster asks for it. -/
structure Cell where
  row : Option Row
  cached : Option Slot
  wanted : Option Slot

def view (s : SlotsHandler) (rows : Rows) (name : String) : Cell :=
  ⟨rows name, s.replicationSlots.lookup name, s.slots.lookup name⟩

/-- A slot after an attempt to drop it. -/
def Cell.dropped (c : Cell) : Cell :=
  if c.row.any fun row => !row.active then ⟨none, none, c.wanted⟩ else c

/-- `_drop_incorrect_slots`, for one slot. -/
def Cell.swept (settings : Settings) (name : String) (c : Cell) : Cell :=
  match c.cached, c.wanted with
  | none, _ => c
  | some slot, none =>
      if settings.isPaused || ignoreReplicationSlot settings slot name = some true then c
      else c.dropped
  | some slot, some value => if compareSlots value slot "database" = some true then c else c.dropped

/-- The copy of a slot agrees with its row. -/
def Cell.Fresh (majorVersion : ℕ) (c : Cell) : Prop :=
  c.cached = (c.row.filter Row.shown).map fun row => loaded majorVersion row.kind

/-- The copy of the slots agrees with PostgreSQL. -/
def Fresh (majorVersion : ℕ) (s : SlotsHandler) (rows : Rows) : Prop :=
  ∀ name, (view s rows name).Fresh majorVersion

theorem Fresh.lookup {majorVersion : ℕ} {s : SlotsHandler} {rows : Rows}
    (h : Fresh majorVersion s rows) (name : String) : s.replicationSlots.lookup name =
      ((rows name).filter Row.shown).map fun row => loaded majorVersion row.kind := h name

/-- Only one slot changes. -/
def Frame (name : String) (s s' : SlotsHandler) (rows rows' : Rows) : Prop :=
  ∀ k ≠ name, view s' rows' k = view s rows k

variable {τ : Type} {pg : Postgres τ} {unable : Set String} {settings : Settings} {s : SlotsHandler}
  {t : τ} {rows : Rows} {name : String}

theorem Cell.wanted_dropped (c : Cell) : c.dropped.wanted = c.wanted := by
  rw [Cell.dropped]
  split
  · rfl
  · rfl

theorem Cell.Fresh.swept {majorVersion : ℕ} {c : Cell} (h : c.Fresh majorVersion) :
    (c.swept settings name).Fresh majorVersion := by
  have hdropped : c.dropped.Fresh majorVersion := by
    rw [Cell.dropped]
    split
    · rfl
    · exact h
  rw [Cell.swept]
  split
  · exact h
  · split
    · exact h
    · exact hdropped
  · split
    · exact h
    · exact hdropped

theorem Cell.wanted_swept (c : Cell) : (c.swept settings name).wanted = c.wanted := by
  rw [Cell.swept]
  split
  · rfl
  · split
    · rfl
    · exact c.wanted_dropped
  · split
    · rfl
    · exact c.wanted_dropped

theorem view_eq_iff {row : Option Row} {cached wanted : Option Slot} :
    view s rows name = ⟨row, cached, wanted⟩ ↔ rows name = row ∧
      s.replicationSlots.lookup name = cached ∧ s.slots.lookup name = wanted := by
  rw [view, Cell.mk.injEq]

theorem frame_setSlot (value : Slot) :
    Frame name s { s with slots := s.slots.set name value } rows rows := fun k hk => by
  simp [view, Dict.lookup_set_ne _ hk]

theorem frame_setRow (row : Option Row) : Frame name s s rows (Function.update rows name row) :=
  fun k hk => by simp [view, hk]

theorem Frame.trans {s₁ s₂ s₃ : SlotsHandler} {rows₁ rows₂ rows₃ : Rows}
    (h : Frame name s₁ s₂ rows₁ rows₂) (h' : Frame name s₂ s₃ rows₂ rows₃) :
    Frame name s₁ s₃ rows₁ rows₃ := fun k hk => (h' k hk).trans (h k hk)

/-! ## The copy of the slots -/

/-- The copy that `load_replication_slots` builds. -/
theorem lookup_copy {rows : List (String × Kind)} (hnodup : (rows.map Prod.fst).Nodup)
    (majorVersion : ℕ) (name : String) (slot : Slot) :
    (rows.foldl (fun (slots : Dict String Slot) r => slots.set r.1 (loaded majorVersion r.2))
        ∅).lookup name = some slot ↔
      ∃ kind, (name, kind) ∈ rows ∧ loaded majorVersion kind = slot := by
  rw [← Option.mem_def, AList.mem_lookup_iff, Dict.entries_foldl_set Prod.fst
    (fun r => loaded majorVersion r.2) rows ∅ hnodup]
  constructor
  · intro h
    obtain ⟨⟨k, kind⟩, hmem, heq⟩ := List.mem_map.mp h
    obtain ⟨rfl, hslot⟩ := Sigma.mk.inj heq
    exact ⟨kind, hmem, eq_of_heq hslot⟩
  · rintro ⟨kind, hmem, rfl⟩
    exact List.mem_map.mpr ⟨(name, kind), hmem, rfl⟩

/-- The copy of the slots that are shown. -/
theorem fresh_copy {shown : List (String × Kind)} (hnodup : (shown.map Prod.fst).Nodup)
    (hshown : ∀ name kind, (name, kind) ∈ shown ↔
      ∃ row, rows name = some row ∧ row.shown = true ∧ row.kind = kind) {majorVersion : ℕ}
    (hcopy : s.replicationSlots = shown.foldl (fun (slots : Dict String Slot) r =>
      slots.set r.1 (loaded majorVersion r.2)) ∅) : Fresh majorVersion s rows := by
  intro name
  ext slot
  have hlookup : (view s rows name).cached = s.replicationSlots.lookup name := rfl
  rw [hlookup, hcopy, lookup_copy hnodup, Option.map_eq_some_iff]
  constructor
  · rintro ⟨kind, hmem, rfl⟩
    obtain ⟨row, hrow, hp, rfl⟩ := (hshown name kind).mp hmem
    exact ⟨row, Option.filter_eq_some_iff.mpr ⟨hrow, hp⟩, rfl⟩
  · rintro ⟨row, hrow, rfl⟩
    obtain ⟨hrow, hp⟩ := Option.filter_eq_some_iff.mp hrow
    exact ⟨row.kind, (hshown name row.kind).mpr ⟨row, hrow, hp, rfl⟩, rfl⟩

/-- `load_replication_slots` keeps the attributes of every slot that is shown. -/
theorem wpIn_loadReplicationSlots (pg : Postgres τ) (unable : Set String) (t : τ)
    (hversion : 90400 ≤ settings.majorVersion) (hload : s.scheduleLoadSlots = true) :
    wpIn (pg.env unable) (loadReplicationSlots settings)
      (fun _ s' t' => pg.slots t' = pg.slots t ∧ Fresh settings.majorVersion s' (pg.slots t))
      NoException s t := by
  have hcond : (decide (90400 ≤ settings.majorVersion) && s.scheduleLoadSlots) = true := by
    rw [hload, decide_eq_true hversion, Bool.and_self]
  rw [loadReplicationSlots, wpIn_bind, wpIn_self, if_pos hcond, wpIn_bind, wpIn_ask]
  refine ⟨fun shown t' ht => ?_, fun _ _ ht => ht.2⟩
  obtain ⟨hnodup, hshown, hslots⟩ := pg.load ht.1
  rw [wpIn_bind, wpIn_update, wpIn_bind, wpIn_self, when]
  split
  · exact ⟨hslots, fresh_copy hnodup hshown rfl⟩
  · exact ⟨hslots, fresh_copy hnodup hshown rfl⟩

/-! ## Slots that are dropped -/

theorem view_erase (name k : String) :
    view { s with replicationSlots := s.replicationSlots.erase name }
        (Function.update rows name none) k =
      if k = name then ⟨none, none, s.slots.lookup k⟩ else view s rows k := by
  by_cases hk : k = name
  · subst hk
    simp [view]
  · simp [view, hk]

/-- PostgreSQL drops a slot unless it is active. -/
theorem wpIn_askDrop {Q : Bool × Bool → SlotsHandler → τ → Prop}
    (hdropped : ∀ t', (pg.slots t name).any (fun row => !row.active) = true →
      pg.slots t' = Function.update (pg.slots t) name none → Q (false, true) s t')
    (hkept : ∀ result t', (pg.slots t name).any (fun row => !row.active) = false →
      result.2 = false → pg.slots t' = pg.slots t → Q result s t') :
    wpIn (pg.env unable) (ask (.dropReplicationSlot name)) Q NoException s t := by
  refine wpIn_ask.mpr ⟨fun result t' ht => ?_, fun _ _ ht => ht.2⟩
  obtain ⟨hresult, hslots⟩ := pg.drop ht.1
  cases hrow : pg.slots t name with
  | none =>
      rw [hrow] at hresult
      subst hresult
      exact hkept _ t' (by rw [hrow]; rfl) rfl hslots
  | some row =>
      rw [hrow] at hresult
      subst hresult
      by_cases hactive : row.active = true
      · simp only [Option.elim_some, hactive, Bool.not_true, Bool.false_eq_true,
          if_false] at hslots ⊢
        exact hkept _ t' (by simp [hrow, hactive]) rfl hslots
      · rw [Bool.not_eq_true] at hactive
        simp only [Option.elim_some, hactive, Bool.not_false, if_true] at hslots ⊢
        exact hdropped t' (by simp [hrow, hactive]) hslots

theorem cell_erased (hinactive : (rows name).any (fun row => !row.active) = true) :
    let s' := { s with replicationSlots := s.replicationSlots.erase name }
    Frame name s s' rows (Function.update rows name none) ∧
      view s' (Function.update rows name none) name = (view s rows name).dropped := by
  refine ⟨fun k hk => (view_erase name k).trans (if_neg hk), ?_⟩
  exact (view_erase name name).trans ((if_pos rfl).trans (if_pos hinactive).symm)

theorem cell_kept (hactive : (rows name).any (fun row => !row.active) = false) :
    let s' := { s with scheduleLoadSlots := true }
    Frame name s s' rows rows ∧ view s' rows name = (view s rows name).dropped :=
  ⟨fun _ _ => rfl, (if_neg (Bool.eq_false_iff.mp hactive)).symm⟩

theorem wpIn_dropReplicationSlot (pg : Postgres τ) (unable : Set String) (s : SlotsHandler) (t : τ)
    (name : String) : wpIn (pg.env unable) (dropReplicationSlot name)
      (fun _ s' t' => Frame name s s' (pg.slots t) (pg.slots t') ∧
        view s' (pg.slots t') name = (view s (pg.slots t) name).dropped) NoException s t := by
  rw [dropReplicationSlot, wpIn_bind]
  refine wpIn_askDrop (fun t' hinactive hslots => ?_) fun result t' hactive hresult hslots => ?_
  · rw [if_pos rfl, wpIn_update, hslots]
    exact cell_erased hinactive
  · rw [hresult, if_neg Bool.false_ne_true, wpIn_update, hslots]
    exact cell_kept hactive

theorem wpIn_dropUnknownSlot (pg : Postgres τ) (unable : Set String) {slot : Slot} {ignored : Bool}
    (hslot : s.replicationSlots.lookup name = some slot) (hwanted : s.slots.lookup name = none)
    (hignored : ignoreReplicationSlot settings slot name = some ignored) :
    wpIn (pg.env unable) (dropUnknownSlot settings name)
      (fun _ s' t' => Frame name s s' (pg.slots t) (pg.slots t') ∧
        view s' (pg.slots t') name = (view s (pg.slots t) name).swept settings name)
      NoException s t := by
  by_cases hpaused : settings.isPaused = true
  · rw [dropUnknownSlot, if_pos hpaused]
    refine ⟨fun _ _ => rfl, ?_⟩
    simp [Cell.swept, view, hslot, hwanted, hpaused]
  · rw [dropUnknownSlot, if_neg hpaused]
    cases ignored with
    | true =>
        have hkept : view s (pg.slots t) name =
            (view s (pg.slots t) name).swept settings name := by
          simp [Cell.swept, view, hslot, hwanted, hignored]
        simpa [hslot, hignored, orRaise, when] using ⟨fun _ _ => rfl, hkept⟩
    | false =>
        have hswept : (view s (pg.slots t) name).swept settings name =
            (view s (pg.slots t) name).dropped := by
          simp [Cell.swept, view, hslot, hwanted, hpaused, hignored]
        rw [hswept]
        simpa [hslot, hignored, orRaise, when] using wpIn_dropReplicationSlot pg unable s t name

theorem wpIn_dropMismatchedSlot (pg : Postgres τ) (unable : Set String) {value : Slot}
    (hvalue : s.slots.lookup name = some value)
    (hcompare : ∀ slot, s.replicationSlots.lookup name = some slot →
      (compareSlots value slot "database").isSome = true) :
    wpIn (pg.env unable) (dropMismatchedSlot name)
      (fun _ s' t' => Frame name s s' (pg.slots t) (pg.slots t') ∧
        view s' (pg.slots t') name = (view s (pg.slots t) name).swept settings name)
      NoException s t := by
  rw [dropMismatchedSlot, wpIn_bind, wpIn_self]
  cases hslot : s.replicationSlots.lookup name with
  | none =>
      refine ⟨fun _ _ => rfl, ?_⟩
      simp [Cell.swept, view, hslot]
  | some slot =>
      obtain ⟨same, hsame⟩ := Option.isSome_iff_exists.mp (hcompare slot hslot)
      cases same with
      | true =>
          have hkept : view s (pg.slots t) name =
              (view s (pg.slots t) name).swept settings name := by
            simp [Cell.swept, view, hslot, hvalue, hsame]
          simpa [hvalue, hsame, orRaise] using ⟨fun _ _ => rfl, hkept⟩
      | false =>
          have hswept : (view s (pg.slots t) name).swept settings name =
              (view s (pg.slots t) name).dropped := by
            simp [Cell.swept, view, hslot, hvalue, hsame]
          rw [hswept, Option.elim_some]
          simp only [orRaise, hvalue, hsame, Option.elim_some, wpIn_bind, wpIn_pure,
            Bool.false_eq_true, if_false]
          refine wpIn_askDrop (fun t' hinactive hslots => ?_)
            fun result t' hactive hresult hslots => ?_
          · rw [if_pos rfl, wpIn_update, hslots]
            exact cell_erased hinactive
          · have hne : result ≠ (false, true) := fun h => by simp [h] at hresult
            rw [if_neg hne, wpIn_update, hslots]
            exact cell_kept hactive

/-! ## All the slots -/

/-- A slot that `_drop_incorrect_slots` leaves as it is. -/
def Kept (settings : Settings) (wanted : Dict String Slot) (name : String) (row : Row) : Prop :=
  row.shown = false ∨ row.active = true ∨
    (∃ slot, wanted.lookup name = some slot ∧ Fits slot row.kind) ∨
    name ∉ wanted ∧ (settings.isPaused = true ∨
      ignoreReplicationSlot settings (loaded settings.majorVersion row.kind) name = some true)

/-- The MPP handler answers for every slot that the cluster does not ask for. -/
def Answers (settings : Settings) (wanted : Dict String Slot) (rows : Rows) : Prop :=
  ∀ name ∉ wanted, ∀ row, rows name = some row → row.shown = true →
    (settings.mppIgnores (loaded settings.majorVersion row.kind)).isSome = true

theorem Answers.isSome_ignoreReplicationSlot (h : Answers settings s.slots rows)
    (hfresh : Fresh settings.majorVersion s rows) (name : String) (slot : Slot)
    (hslot : s.replicationSlots.lookup name = some slot) (hname : name ∉ s.slots) :
    (ignoreReplicationSlot settings slot name).isSome = true := by
  rw [hfresh.lookup, Option.map_eq_some_iff] at hslot
  obtain ⟨row, hrow, rfl⟩ := hslot
  obtain ⟨hrow, hshown⟩ := Option.filter_eq_some_iff.mp hrow
  rw [ignoreReplicationSlot]
  split
  · rfl
  · exact h name hname row hrow hshown

/-- A loop whose turns change one slot each. -/
theorem wpIn_forEach_name {x : String → Method Unit} {names : List String}
    (Pre : String → Cell → Prop) (Step : String → Cell → Cell → Prop)
    (hx : ∀ name s t, Pre name (view s (pg.slots t) name) → wpIn (pg.env unable) (x name)
      (fun _ s' t' => Frame name s s' (pg.slots t) (pg.slots t') ∧
        Step name (view s (pg.slots t) name) (view s' (pg.slots t') name)) NoException s t)
    (hnodup : names.Nodup) (hPre : ∀ name ∈ names, Pre name (view s (pg.slots t) name)) :
    wpIn (pg.env unable) (forEach x names)
      (fun _ s' t' =>
        (∀ name ∈ names, Step name (view s (pg.slots t) name) (view s' (pg.slots t') name)) ∧
        ∀ name ∉ names, view s' (pg.slots t') name = view s (pg.slots t) name)
      NoException s t := by
  refine wpIn_next (wpIn_forEach (fun s t => view s (pg.slots t))
    (fun name c => c = view s (pg.slots t) name ∧ Pre name c)
    (fun name c => Step name (view s (pg.slots t) name) c) (fun name k => k = name)
    ?_ (hnodup.imp fun hne k hk hk' => hne (hk.symm.trans hk')) ?_) ?_
  · intro name _ s₁ t₁ h
    obtain ⟨heq, hname⟩ := h name rfl
    refine wpIn_next (hx name s₁ t₁ hname) ?_
    rintro _ s₂ t₂ ⟨hframe, hstep⟩
    refine ⟨fun k hk => ?_, fun k hk => hframe k hk⟩
    subst hk
    rw [← heq]
    exact hstep
  · intro name hname k hk
    subst hk
    exact ⟨rfl, hPre k hname⟩
  · rintro _ s' t' ⟨hstep, hframe⟩
    exact ⟨fun name hname => hstep name hname name rfl,
      fun name hname => hframe name fun b hb hbn => hname (hbn ▸ hb)⟩

/-- `_drop_incorrect_slots`, for every slot. -/
theorem wpIn_dropIncorrectSlots (pg : Postgres τ) (unable : Set String) (settings : Settings)
    (t : τ)
    (hignore : ∀ name slot, s.replicationSlots.lookup name = some slot → name ∉ s.slots →
      (ignoreReplicationSlot settings slot name).isSome = true)
    (hcompare : ∀ name slot value, s.replicationSlots.lookup name = some slot →
      s.slots.lookup name = some value → (compareSlots value slot "database").isSome = true) :
    wpIn (pg.env unable) (dropIncorrectSlots settings)
      (fun _ s' t' => ∀ name, view s' (pg.slots t') name =
        (view s (pg.slots t) name).swept settings name) NoException s t := by
  rw [dropIncorrectSlots, wpIn_bind, wpIn_self, wpIn_bind]
  refine wpIn_next (wpIn_forEach_name
    (fun name c => ∃ slot ignored, c.cached = some slot ∧ c.wanted = none ∧
      ignoreReplicationSlot settings slot name = some ignored)
    (fun name c c' => c' = c.swept settings name)
    (fun _ _ _ ⟨_, _, hslot, hwanted, hignored⟩ =>
      wpIn_dropUnknownSlot pg unable hslot hwanted hignored)
    (s.replicationSlots.nodupKeys.filter _) ?_) ?_
  · intro name hname
    obtain ⟨hcached, hwanted⟩ := List.mem_filter.mp hname
    obtain ⟨slot, hslot⟩ := Option.isSome_iff_exists.mp
      (AList.lookup_isSome.mpr (AList.mem_keys.mpr hcached))
    obtain ⟨ignored, hignored⟩ := Option.isSome_iff_exists.mp
      (hignore name slot hslot (of_decide_eq_true hwanted))
    exact ⟨slot, ignored, hslot, AList.lookup_eq_none.mpr (of_decide_eq_true hwanted), hignored⟩
  rintro _ s₁ t₁ ⟨hstep₁, hframe₁⟩
  have hsame : ∀ name ∈ s.slots, view s₁ (pg.slots t₁) name = view s (pg.slots t) name :=
    fun name hname => hframe₁ name fun h => of_decide_eq_true (List.mem_filter.mp h).2 hname
  refine wpIn_next (wpIn_forEach_name
    (fun _ c => ∃ value, c.wanted = some value ∧ ∀ slot, c.cached = some slot →
      (compareSlots value slot "database").isSome = true)
    (fun name c c' => c' = c.swept settings name)
    (fun _ _ _ ⟨_, hvalue, hsame⟩ => wpIn_dropMismatchedSlot pg unable hvalue hsame)
    s.slots.nodupKeys ?_) ?_
  · intro name hname
    obtain ⟨value, hvalue⟩ := Option.isSome_iff_exists.mp
      (AList.lookup_isSome.mpr (AList.mem_keys.mpr hname))
    rw [hsame name hname]
    exact ⟨value, hvalue, fun slot hslot => hcompare name slot value hslot hvalue⟩
  rintro _ s₂ t₂ ⟨hstep₂, hframe₂⟩ name
  by_cases hwanted : name ∈ s.slots
  · rw [hstep₂ name hwanted, hsame name hwanted]
  · rw [hframe₂ name hwanted]
    cases hcached : s.replicationSlots.lookup name with
    | none =>
        have hunknown : name ∉ s.replicationSlots.keys := AList.lookup_eq_none.mp hcached
        rw [hframe₁ name fun h => hunknown (List.mem_filter.mp h).1]
        simp [Cell.swept, view, hcached]
    | some slot =>
        have hknown : name ∈ s.replicationSlots.keys :=
          AList.lookup_isSome.mp (Option.isSome_iff_exists.mpr ⟨slot, hcached⟩)
        exact hstep₁ name (List.mem_filter.mpr ⟨hknown, decide_eq_true hwanted⟩)

/-- A slot is left as it is, or it is one that is dropped unless it is active. -/
theorem swept_cases (hfresh : Fresh settings.majorVersion s rows)
    (htyped : ∀ name value, s.slots.lookup name = some value → Typed value) {row : Row}
    (hrow : rows name = some row) :
    (view s rows name).swept settings name = view s rows name ∧ Kept settings s.slots name row ∨
      (view s rows name).swept settings name = (view s rows name).dropped ∧
        (Kept settings s.slots name row ↔ row.active = true) := by
  have hcached := hfresh.lookup name
  rw [hrow, Option.filter_some] at hcached
  by_cases hshown : row.shown = true
  · rw [if_pos hshown, Option.map_some] at hcached
    cases hwanted : s.slots.lookup name with
    | none =>
        have hnot : name ∉ s.slots := AList.lookup_eq_none.mp hwanted
        by_cases hignored : settings.isPaused = true ∨ ignoreReplicationSlot settings
            (loaded settings.majorVersion row.kind) name = some true
        · refine .inl ⟨?_, .inr (.inr (.inr ⟨hnot, hignored⟩))⟩
          simp [Cell.swept, view, hcached, hwanted, hignored]
        · refine .inr ⟨?_, ?_⟩
          · simp [Cell.swept, view, hcached, hwanted, hignored]
          · simp [Kept, hshown, hwanted, hignored]
    | some value =>
        have hmem : name ∈ s.slots :=
          AList.lookup_isSome.mp (Option.isSome_iff_exists.mpr ⟨value, hwanted⟩)
        obtain ⟨same, hsame, hfits⟩ := exists_compareSlots (htyped name value hwanted)
          (fits_loaded settings.majorVersion row.kind)
        cases same with
        | true =>
            refine .inl ⟨?_, .inr (.inr (.inl ⟨value, hwanted, hfits.mp rfl⟩))⟩
            simp [Cell.swept, view, hcached, hwanted, hsame]
        | false =>
            have hnot : ¬Fits value row.kind := fun h => Bool.false_ne_true (hfits.mpr h)
            refine .inr ⟨?_, ?_⟩
            · simp [Cell.swept, view, hcached, hwanted, hsame]
            · simp [Kept, hshown, hwanted, hmem, hnot]
  · rw [if_neg hshown, Option.map_none] at hcached
    refine .inl ⟨?_, .inl (Bool.eq_false_iff.mpr hshown)⟩
    simp [Cell.swept, view, hcached]

/-- From a fresh copy, a slot is dropped unless it is kept. -/
theorem swept_row_iff (hfresh : Fresh settings.majorVersion s rows)
    (htyped : ∀ name value, s.slots.lookup name = some value → Typed value) (row : Row) :
    ((view s rows name).swept settings name).row = some row ↔
      rows name = some row ∧ Kept settings s.slots name row := by
  cases hrow : rows name with
  | none =>
      have hcached := hfresh.lookup name
      rw [hrow] at hcached
      simp [Cell.swept, view, hcached, hrow]
  | some row₀ =>
      rcases swept_cases hfresh htyped hrow with ⟨hswept, hkept⟩ | ⟨hswept, hkept⟩
      · rw [hswept]
        simp only [view, hrow, Option.some.injEq]
        exact ⟨fun h => ⟨h, h ▸ hkept⟩, And.left⟩
      · rw [hswept]
        by_cases hactive : row₀.active = true
        · simp only [Cell.dropped, view, hrow, Option.any_some, hactive, Bool.not_true,
            Bool.false_eq_true, if_false, Option.some.injEq]
          exact ⟨fun h => ⟨h, h ▸ hkept.mpr hactive⟩, And.left⟩
        · simp only [Cell.dropped, view, hrow, Option.any_some, hactive, Bool.not_false, if_true,
            Option.some.injEq]
          constructor
          · exact fun h => absurd h (by simp)
          · rintro ⟨rfl, h⟩
            exact absurd (hkept.mp h) hactive

theorem isSome_compareSlots (hfresh : Fresh settings.majorVersion s rows)
    (htyped : ∀ name value, s.slots.lookup name = some value → Typed value) (name : String)
    (slot value : Slot) (hslot : s.replicationSlots.lookup name = some slot)
    (hvalue : s.slots.lookup name = some value) :
    (compareSlots value slot "database").isSome = true := by
  rw [hfresh.lookup, Option.map_eq_some_iff] at hslot
  obtain ⟨row, -, rfl⟩ := hslot
  obtain ⟨same, hsame, -⟩ :=
    exists_compareSlots (htyped name value hvalue) (fits_loaded settings.majorVersion row.kind)
  rw [hsame]
  rfl

/-- From a fresh copy, the slots that are left are those that are kept, and the copy stays fresh. -/
theorem wpIn_dropIncorrectSlots_of_fresh (pg : Postgres τ) (unable : Set String) {t : τ}
    (hfresh : Fresh settings.majorVersion s (pg.slots t))
    (hanswers : Answers settings s.slots (pg.slots t))
    (htyped : ∀ name value, s.slots.lookup name = some value → Typed value) :
    wpIn (pg.env unable) (dropIncorrectSlots settings)
      (fun _ s' t' => Fresh settings.majorVersion s' (pg.slots t') ∧
        (∀ name, s'.slots.lookup name = s.slots.lookup name) ∧
        ∀ name row, pg.slots t' name = some row ↔
          pg.slots t name = some row ∧ Kept settings s.slots name row) NoException s t := by
  refine wpIn_next (wpIn_dropIncorrectSlots pg unable settings t
    (hanswers.isSome_ignoreReplicationSlot hfresh) (isSome_compareSlots hfresh htyped)) ?_
  intro _ s' t' hview
  refine ⟨fun name => ?_, fun name => ?_, fun name row => ?_⟩
  · rw [hview]
    exact (hfresh name).swept
  · exact (congrArg Cell.wanted (hview name)).trans (Cell.wanted_swept _)
  · have hrow : pg.slots t' name = ((view s (pg.slots t) name).swept settings name).row :=
      congrArg Cell.row (hview name)
    rw [hrow]
    exact swept_row_iff hfresh htyped row

end Sync

end Slots

end Metatroni
