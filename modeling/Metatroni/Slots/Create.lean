import Metatroni.Slots.Drop

/-!
# Which replication slots are created

Every slot that the cluster asks for is there after the primary has ensured the physical and the
logical slots, except for those that have no position and were dropped.
-/

namespace Metatroni

namespace Slots

namespace Sync

open Interaction Interaction.Method

variable {τ : Type} {pg : Postgres τ} {unable : Set String} {settings : Settings} {s : SlotsHandler}
  {t : τ} {rows : Rows} {name : String}

/-! ## Physical slots -/

theorem lookup_foldl_set (src : Slot) (keys : List String) (dst : Slot) (k : String) :
    (keys.foldl (fun (dst : Slot) key => Dict.set dst key (src.get key .null)) dst).lookup k =
      if k ∈ keys then some (src.get k .null) else dst.lookup k := by
  induction keys generalizing dst with
  | nil => rfl
  | cons key keys ih =>
      rw [List.foldl_cons, ih, Dict.lookup_set]
      by_cases hk : k = key
      · subst hk
        simp
      · simp [hk]

/-- Copied items are those of the source. -/
theorem exists_copyItems {src : Slot} {keys : List String} (h : ∀ k ∈ keys, k ∈ src) (dst : Slot) :
    ∃ value, copyItems src dst keys = some value ∧
      ∀ k, value.lookup k = if k ∈ keys then src.lookup k else dst.lookup k := by
  refine ⟨_, if_pos (List.all_eq_true.mpr fun k hk => decide_eq_true (h k hk)), fun k => ?_⟩
  rw [lookup_foldl_set]
  split
  · next hk =>
      obtain ⟨v, hv⟩ := Option.isSome_iff_exists.mp (AList.lookup_isSome.mpr (h k hk))
      rw [Slot.get, hv]
      rfl
  · rfl

/-- An LSN that is asked for is a number. -/
def HasLsn (value : Slot) : Prop :=
  (value.get "lsn" .null).truthy = true → ∃ lsn, value.get "lsn" .null = .int lsn

/-- A physical slot that no pass drops without creating it again. -/
def Good (value : Slot) (row : Row) : Prop :=
  ∀ restartLsn xmin, row.kind = .physical restartLsn xmin →
    (Value.ofInt? restartLsn).truthy = true ∨ value.get "expected_active" .null = .bool true ∨
      (Value.ofInt? xmin).truthy = true ∨ row.active = true

/-- A slot that is as the cluster asks for it. -/
def Settled (value : Slot) (row : Row) : Prop :=
  row.shown = true ∧ Fits value row.kind ∧ Good value row

/-- A pass settles a slot, unless it drops one that cannot be settled, or PostgreSQL cannot create
it. -/
def Improves (mayFail : Prop) (value : Slot) (old new : Option Row) : Prop :=
  (∃ row, new = some row ∧ Settled value row) ∨
    new = none ∧ (mayFail ∨ ∃ row, old = some row ∧ ¬Good value row)

theorem Improves.of_le {mayFail : Prop} {value : Slot} {old old' new : Option Row}
    (h : Improves mayFail value old new) (hle : ∀ row, old = some row → old' = some row) :
    Improves mayFail value old' new := by
  rcases h with h | ⟨hnew, hfail | ⟨row, hrow, hbad⟩⟩
  · exact .inl h
  · exact .inr ⟨hnew, .inl hfail⟩
  · exact .inr ⟨hnew, .inr ⟨row, hle row hrow, hbad⟩⟩

theorem settled_newRow {value : Slot} (hvalue : value.lookup "type" = some (.str "physical"))
    {lsn : ℤ} (hlsn : lsn ≠ 0) : Settled value (newRow (.physical (some lsn) none)) := by
  refine ⟨rfl, hvalue, ?_⟩
  rintro _ _ ⟨⟩
  exact .inl (decide_eq_true hlsn)

/-- The position and the horizon are those of a row, and the other items are those asked for. -/
structure Copied (restartLsn xmin : Option ℤ) (value value' : Slot) : Prop where
  restartLsn : value'.get "restart_lsn" .null = Value.ofInt? restartLsn
  xmin : value'.get "xmin" .null = Value.ofInt? xmin
  other : ∀ k ∉ physicalKeys, value'.lookup k = value.lookup k

theorem exists_copy_physical (majorVersion : ℕ) (restartLsn xmin : Option ℤ) (value : Slot) :
    ∃ value', copyItems (loaded majorVersion (.physical restartLsn xmin)) value physicalKeys =
        some value' ∧ Copied restartLsn xmin value value' := by
  have hkeys : ∀ k ∈ physicalKeys, k ∈ loaded majorVersion (.physical restartLsn xmin) := by
    simp [physicalKeys, loaded]
  obtain ⟨value', hcopy, hlookup⟩ := exists_copyItems hkeys value
  refine ⟨value', hcopy, ?_, ?_, fun k hk => (hlookup k).trans (if_neg hk)⟩
  · rw [Slot.get, hlookup]
    simp [physicalKeys, loaded]
  · rw [Slot.get, hlookup]
    simp [physicalKeys, loaded, Dict.lookup_set]

/-- What becomes of a physical slot that is created, advanced or dropped. -/
structure Attempted (pg : Postgres τ) (unable : Set String) (name : String) (value : Slot)
    (old : Option Row) (s : SlotsHandler) (t : τ) (s' : SlotsHandler) (t' : τ) : Prop where
  frame : Frame name s s' (pg.slots t) (pg.slots t')
  wanted : s'.slots.lookup name = some value
  improves : Improves (name ∈ unable) value old (pg.slots t' name)

/-- A physical slot that is missing is created, or PostgreSQL cannot create it. -/
theorem wpIn_createPhysicalSlot (pg : Postgres τ) (unable : Set String) {value : Slot}
    (htype : value.lookup "type" = some (.str "physical"))
    (hcell : view s (pg.slots t) name = ⟨none, none, some value⟩) (old : Option Row) :
    wpIn (pg.env unable) (do
        handle (ask (.createPhysicalReplicationSlot name)) fun _ => pure ()
        update fun s => { s with scheduleLoadSlots := true } : Method Unit)
      (fun _ => Attempted pg unable name value old s t) NoException s t := by
  obtain ⟨hrow, hcached, hwanted⟩ := view_eq_iff.mp hcell
  have hcreated : ∀ {t'}, pg.answers t ⟨.createPhysicalReplicationSlot name, .ok ()⟩ t' →
      Attempted pg unable name value old s t { s with scheduleLoadSlots := true } t' := by
    intro t' ht
    obtain ⟨lsn, hlsn, hslots⟩ := pg.createPhysical ht hrow
    refine ⟨?_, hwanted, ?_⟩
    · rw [hslots]
      exact frame_setRow _
    · rw [hslots]
      exact .inl ⟨_, Function.update_self .., settled_newRow htype hlsn⟩
  rw [wpIn_bind, wpIn_handle, wpIn_ask]
  refine ⟨fun _ t' ht => hcreated ht.1, fun e t' ht => ?_⟩
  rw [wpIn_pure, wpIn_update]
  rcases pg.failed ht.1 with hslots | ⟨_, hlost⟩
  · refine ⟨?_, hwanted, ?_⟩
    · rw [hslots]
      exact fun _ _ => rfl
    · rw [hslots]
      exact .inr ⟨hrow, .inl ht.2⟩
  · exact hcreated hlost

/-- A slot without a position that nothing else holds is not good. -/
theorem not_good {value : Slot} {row : Row} {restartLsn xmin : Option ℤ}
    (hkind : row.kind = .physical restartLsn xmin)
    (hrestart : (Value.ofInt? restartLsn).truthy = false)
    (hexpected : value.get "expected_active" .null ≠ .bool true)
    (hxmin : (Value.ofInt? xmin).truthy = false) (hactive : row.active = false) :
    ¬Good value row := by
  intro hgood
  rcases hgood restartLsn xmin hkind with h | h | h | h
  · exact Bool.false_ne_true (hrestart.symm.trans h)
  · exact hexpected h
  · exact Bool.false_ne_true (hxmin.symm.trans h)
  · exact Bool.false_ne_true (hactive.symm.trans h)

/-- A slot that cannot be settled is dropped, unless it is active. -/
theorem wpIn_dropBadSlot (pg : Postgres τ) (unable : Set String) {value slot : Slot} {row : Row}
    (hcell : view s (pg.slots t) name = ⟨some row, some slot, some value⟩)
    (hshown : row.shown = true) (hfits : Fits value row.kind)
    (hbad : row.active = false → ¬Good value row) :
    wpIn (pg.env unable) (dropReplicationSlot name)
      (fun _ => Attempted pg unable name value (some row) s t) NoException s t := by
  refine wpIn_next (wpIn_dropReplicationSlot pg unable s t name) ?_
  rintro _ s' t' ⟨hframe, hview⟩
  have hrow' : pg.slots t' name = (view s (pg.slots t) name).dropped.row :=
    congrArg Cell.row hview
  have hwanted' : s'.slots.lookup name = (view s (pg.slots t) name).dropped.wanted :=
    congrArg Cell.wanted hview
  refine ⟨hframe, ?_, ?_⟩
  · rw [hwanted', Cell.wanted_dropped, hcell]
  · rw [hrow', hcell]
    by_cases hactive : row.active = true
    · refine .inl ⟨row, by simp [Cell.dropped, hactive], hshown, hfits, fun _ _ _ => ?_⟩
      exact .inr (.inr (.inr hactive))
    · exact .inr ⟨by simp [Cell.dropped, hactive], .inr ⟨row, rfl,
        hbad (Bool.eq_false_iff.mpr hactive)⟩⟩

/-- A slot that is settled stays so when it is advanced, and when this fails. -/
theorem wpIn_tryAdvance (pg : Postgres τ) (unable : Set String) {value : Slot} {row : Row}
    {restartLsn : ℤ} {xmin : Option ℤ} (lsn : ℤ) (hrow : pg.slots t name = some row)
    (hkind : row.kind = .physical (some restartLsn) xmin)
    (hwanted : s.slots.lookup name = some value) (hsettled : Settled value row) :
    wpIn (pg.env unable) (handle (ask (.advanceReplicationSlot name lsn)) fun _ => pure ())
      (fun _ => Attempted pg unable name value (some row) s t) NoException s t := by
  have hadvanced : ∀ {t'}, pg.answers t ⟨.advanceReplicationSlot name lsn, .ok ()⟩ t' →
      Attempted pg unable name value (some row) s t s t' := by
    intro t' ht
    obtain ⟨kind, active, temporary, failover⟩ := row
    obtain rfl : kind = _ := hkind
    obtain ⟨r', hr', hslots⟩ := pg.advance ht hrow
    refine ⟨?_, hwanted, ?_⟩
    · rw [hslots]
      exact frame_setRow _
    · rw [hslots]
      refine .inl ⟨_, Function.update_self .., hsettled.1, hsettled.2.1, ?_⟩
      rintro _ _ ⟨⟩
      exact .inl (decide_eq_true hr')
  rw [wpIn_handle, wpIn_ask]
  refine ⟨fun _ t' ht => hadvanced ht.1, fun _ t' ht => ?_⟩
  rw [wpIn_pure]
  rcases pg.failed ht.1 with hslots | ⟨_, hlost⟩
  · refine ⟨?_, hwanted, .inl ⟨row, ?_, hsettled⟩⟩
    · rw [hslots]
      exact fun _ _ => rfl
    · rw [hslots]
      exact hrow
  · exact hadvanced hlost

/-- A slot whose position is not known is dropped, the others may be advanced. -/
theorem wpIn_advancePhysicalSlot (pg : Postgres τ) (unable : Set String) {value slot : Slot}
    {row : Row} {restartLsn xmin : Option ℤ}
    (hcell : view s (pg.slots t) name = ⟨some row, some slot, some value⟩)
    (hshown : row.shown = true) (hkind : row.kind = .physical restartLsn xmin)
    (htype : value.lookup "type" = some (.str "physical"))
    (hrestart : value.get "restart_lsn" .null = Value.ofInt? restartLsn) (hlsn : HasLsn value)
    (hxmin : (Value.ofInt? xmin).truthy = false)
    (hexpected : value.get "expected_active" .null ≠ .bool true) :
    wpIn (pg.env unable) (advancePhysicalSlot name value)
      (fun _ => Attempted pg unable name value (some row) s t) NoException s t := by
  obtain ⟨hrow, hcached, hwanted⟩ := view_eq_iff.mp hcell
  have hfits : Fits value row.kind := by
    rw [hkind]
    exact htype
  cases htruthy : (Value.ofInt? restartLsn).truthy with
  | false =>
      rw [advancePhysicalSlot, if_pos (by rw [hrestart, htruthy]; rfl)]
      exact wpIn_dropBadSlot pg unable hcell hshown hfits
        (not_good hkind htruthy hexpected hxmin)
  | true =>
      have hsettled : Settled value row := by
        refine ⟨hshown, hfits, fun r x hkind' => .inl ?_⟩
        obtain ⟨rfl, rfl⟩ := Kind.physical.inj (hkind.symm.trans hkind')
        exact htruthy
      have hsame : Attempted pg unable name value (some row) s t s t :=
        ⟨fun _ _ => rfl, hwanted, .inl ⟨row, hrow, hsettled⟩⟩
      obtain ⟨r, rfl⟩ : ∃ r, restartLsn = some r := by
        cases restartLsn with
        | none => cases htruthy
        | some r => exact ⟨r, rfl⟩
      change (Value.int r).truthy = true at htruthy
      change value.get "restart_lsn" .null = .int r at hrestart
      rw [advancePhysicalSlot, hrestart, htruthy, Bool.not_true, if_neg Bool.false_ne_true]
      cases hlsnTruthy : (value.get "lsn" .null).truthy with
      | false => exact hsame
      | true =>
          obtain ⟨lsn, hvalue⟩ := hlsn hlsnTruthy
          simp only [if_true, hvalue, orRaise, Value.int?, Option.elim_some, wpIn_bind, wpIn_pure,
            when]
          split
          · exact wpIn_tryAdvance pg unable lsn hrow hkind hwanted hsettled
          · exact hsame

/-- Two slots are the same but for positions. -/
def Alike (value value' : Slot) : Prop :=
  ∀ k ∉ ["lsn", "restart_lsn", "xmin"], value'.lookup k = value.lookup k

theorem Alike.fits_iff {value value' : Slot} (h : Alike value value') (kind : Kind) :
    Fits value' kind ↔ Fits value kind := by
  cases kind with
  | physical => rw [Fits, Fits, h "type" (by decide)]
  | logical =>
      rw [Fits, Fits, h "type" (by decide), h "database" (by decide), h "plugin" (by decide)]

theorem Alike.settled_iff {value value' : Slot} (h : Alike value value') (row : Row) :
    Settled value' row ↔ Settled value row := by
  rw [Settled, Settled, h.fits_iff, Good, Good, Slot.get, Slot.get, h "expected_active" (by decide)]

/-- Positions do not matter for what is asked for. -/
theorem Alike.improves_iff {value value' : Slot} (h : Alike value value') {mayFail : Prop}
    {old new : Option Row} : Improves mayFail value' old new ↔ Improves mayFail value old new := by
  have hgood : ∀ row, Good value' row ↔ Good value row := fun row => by
    rw [Good, Good, Slot.get, Slot.get, h "expected_active" (by decide)]
  simp only [Improves, h.settled_iff, hgood]

theorem lookup_type_loaded (majorVersion : ℕ) (restartLsn xmin : Option ℤ) :
    (loaded majorVersion (.physical restartLsn xmin)).lookup "type" = some (.str "physical") :=
  fits_loaded majorVersion (.physical restartLsn xmin)

/-- The items are copied, and then the slot may be dropped. -/
theorem wpIn_cleanInactivePhysicalSlot (pg : Postgres τ) (unable : Set String)
    (hversion : 110000 ≤ settings.majorVersion) (clean : Bool) {value : Slot} {row : Row}
    {restartLsn xmin : Option ℤ} (hcell : view s (pg.slots t) name = ⟨some row,
      some (loaded settings.majorVersion (.physical restartLsn xmin)), some value⟩) :
    wpIn (pg.env unable) (cleanInactivePhysicalSlot settings clean name value)
      (fun value' s' t' => Frame name s s' (pg.slots t) (pg.slots t') ∧
        Copied restartLsn xmin value value' ∧
        (view s' (pg.slots t') name = ⟨none, none, some value'⟩ ∨
          view s' (pg.slots t') name = ⟨some row,
            some (loaded settings.majorVersion (.physical restartLsn xmin)), some value'⟩))
      NoException s t := by
  obtain ⟨hrow, hcached, -⟩ := view_eq_iff.mp hcell
  have hcan : settings.canAdvanceSlots = true := decide_eq_true hversion
  have hslotType := lookup_type_loaded settings.majorVersion restartLsn xmin
  obtain ⟨value', hcopy, hcopied⟩ :=
    exists_copy_physical settings.majorVersion restartLsn xmin value
  generalize hs₁ : ({ s with slots := s.slots.set name value' } : SlotsHandler) = s₁
  have hframe₁ : Frame name s s₁ (pg.slots t) (pg.slots t) := hs₁ ▸ frame_setSlot value'
  have hcell₁ : view s₁ (pg.slots t) name = ⟨some row,
      some (loaded settings.majorVersion (.physical restartLsn xmin)), some value'⟩ := by
    subst hs₁
    exact view_eq_iff.mpr ⟨hrow, hcached, Dict.lookup_set_self _ _ _⟩
  rw [cleanInactivePhysicalSlot, wpIn_bind, wpIn_self]
  simp only [hcached, Option.filter_some, hcan, if_true, Option.elim_some, hslotType, hcopy,
    orRaise, setSlot, wpIn_bind, wpIn_pure, wpIn_update, hs₁]
  rw [when]
  split
  · refine wpIn_next (wpIn_dropReplicationSlot pg unable s₁ t name) ?_
    rintro _ s₂ t₂ ⟨hframe₂, hview₂⟩
    refine ⟨hframe₁.trans hframe₂, hcopied, ?_⟩
    rw [hview₂, hcell₁]
    by_cases hactive : row.active = true
    · exact .inr (if_neg (by simp [hactive]))
    · exact .inl (if_pos (by simp [hactive]))
  · exact ⟨hframe₁, hcopied, .inr hcell₁⟩

/-- A physical slot that is there is advanced, dropped, or dropped and created again. -/
theorem wpIn_ensurePhysicalSlot_present (pg : Postgres τ) (unable : Set String)
    (hversion : 110000 ≤ settings.majorVersion) (clean : Bool) {value : Slot} {row : Row}
    {restartLsn xmin : Option ℤ}
    (htype : value.lookup "type" = some (.str "physical")) (hlsn : HasLsn value)
    (hshown : row.shown = true) (hkind : row.kind = .physical restartLsn xmin)
    (hcell : view s (pg.slots t) name = ⟨some row,
      some (loaded settings.majorVersion (.physical restartLsn xmin)), some value⟩) :
    wpIn (pg.env unable) (ensurePhysicalSlot settings clean name)
      (fun _ s' t' => Frame name s s' (pg.slots t) (pg.slots t') ∧
        (∃ value', s'.slots.lookup name = some value' ∧
          value'.lookup "type" = some (.str "physical")) ∧
        Improves (name ∈ unable) value (some row) (pg.slots t' name)) NoException s t := by
  obtain ⟨-, -, hwanted⟩ := view_eq_iff.mp hcell
  have hcan : settings.canAdvanceSlots = true := decide_eq_true hversion
  have hslotType : (loaded settings.majorVersion (.physical restartLsn xmin)).get "type" .null =
      .str "physical" := by
    rw [Slot.get, lookup_type_loaded]
    rfl
  rw [ensurePhysicalSlot, wpIn_bind, wpIn_self]
  simp only [hwanted, htype, orRaise, Option.elim_some, wpIn_bind, wpIn_pure, ne_eq, not_true,
    if_false]
  refine wpIn_next (wpIn_cleanInactivePhysicalSlot pg unable hversion clean hcell) ?_
  rintro value' s₁ t₁ ⟨hframe₁, hcopied, hcell₁⟩
  have htype' : value'.lookup "type" = some (.str "physical") :=
    (hcopied.other _ (by decide)).trans htype
  have halike : Alike value value' := fun k hk =>
    hcopied.other k fun hmem => hk (List.mem_cons_of_mem _ hmem)
  simp only [← halike.improves_iff]
  rcases hcell₁ with hcell₁ | hcell₁
  · obtain ⟨-, hcached₁, -⟩ := view_eq_iff.mp hcell₁
    rw [wpIn_bind, wpIn_self, hcached₁, Option.elim_none]
    refine wpIn_next (wpIn_createPhysicalSlot pg unable htype' hcell₁ (some row)) ?_
    rintro _ s₂ t₂ ⟨hframe₂, hwanted₂, himproves⟩
    exact ⟨hframe₁.trans hframe₂, ⟨value', hwanted₂, htype'⟩, himproves⟩
  · obtain ⟨hrow₁, hcached₁, hwanted₁⟩ := view_eq_iff.mp hcell₁
    rw [wpIn_bind, wpIn_self, hcached₁, Option.elim_some, when]
    split
    · next hadvance =>
        simp only [hcan, hslotType, hcopied.xmin, decide_true, Bool.true_and, Bool.and_eq_true,
          decide_eq_true_eq, Bool.not_eq_true'] at hadvance
        have hlsn' : HasLsn value' := by
          rw [HasLsn, Slot.get, hcopied.other _ (by decide)]
          exact hlsn
        refine wpIn_next (wpIn_advancePhysicalSlot pg unable hcell₁ hshown hkind htype'
          hcopied.restartLsn hlsn' hadvance.2 hadvance.1) ?_
        rintro _ s₂ t₂ ⟨hframe₂, hwanted₂, himproves⟩
        exact ⟨hframe₁.trans hframe₂, ⟨value', hwanted₂, htype'⟩, himproves⟩
    · next hadvance =>
        have hkept : value'.get "expected_active" .null = .bool true ∨
            (Value.ofInt? xmin).truthy = true := by
          by_contra hnot
          refine hadvance ?_
          simpa [hcan, hslotType, hcopied.xmin] using hnot
        refine ⟨hframe₁, ⟨value', hwanted₁, htype'⟩, .inl ⟨row, hrow₁, hshown, ?_,
          fun r x hkind' => ?_⟩⟩
        · rw [hkind]
          exact htype'
        · obtain ⟨rfl, rfl⟩ := Kind.physical.inj (hkind.symm.trans hkind')
          rcases hkept with h | h
          · exact .inr (.inl h)
          · exact .inr (.inr (.inl h))

/-- What the cluster may ask for. -/
structure Asked (value : Slot) : Prop where
  valid : Typed value
  hasLsn : HasLsn value

/-- What a slot that is asked for is like when slots are created. -/
structure Cell.Ready (majorVersion : ℕ) (c : Cell) (value : Slot) : Prop where
  wanted : c.wanted = some value
  fresh : c.Fresh majorVersion
  asked : Asked value
  fits : ∀ row, c.row = some row → row.shown = true ∧ Fits value row.kind

theorem Cell.Fresh.eq_none {majorVersion : ℕ} {c : Cell} (h : c.Fresh majorVersion)
    (hrow : c.row = none) : c.cached = none := by
  rw [h, hrow]
  rfl

theorem Cell.Fresh.eq_some {majorVersion : ℕ} {c : Cell} (h : c.Fresh majorVersion) {row : Row}
    (hrow : c.row = some row) (hshown : row.shown = true) :
    c.cached = some (loaded majorVersion row.kind) := by
  rw [h, hrow, Option.filter_some, if_pos hshown]
  rfl

/-- What `_ensure_physical_slots` does to a slot that is asked for. -/
def PhysicalStep (mayFail : Prop) (value : Slot) (c c' : Cell) : Prop :=
  (value.lookup "type" = some (.str "physical") →
    (∃ value', c'.wanted = some value' ∧ value'.lookup "type" = some (.str "physical")) ∧
      Improves mayFail value c.row c'.row) ∧
  (value.lookup "type" = some (.str "logical") → c' = c)

theorem wpIn_ensurePhysicalSlot (pg : Postgres τ) (unable : Set String)
    (hversion : 110000 ≤ settings.majorVersion) (clean : Bool) {value : Slot}
    (hready : (view s (pg.slots t) name).Ready settings.majorVersion value) :
    wpIn (pg.env unable) (ensurePhysicalSlot settings clean name)
      (fun _ s' t' => Frame name s s' (pg.slots t) (pg.slots t') ∧
        PhysicalStep (name ∈ unable) value (view s (pg.slots t) name)
          (view s' (pg.slots t') name)) NoException s t := by
  obtain ⟨hwanted, hfresh, ⟨⟨wanted, htyped⟩, hlsn⟩, hfits⟩ := hready
  have hlookup : s.slots.lookup name = some value := hwanted
  cases wanted with
  | physical _ _ =>
      have htype : value.lookup "type" = some (.str "physical") := htyped
      have hnot : value.lookup "type" ≠ some (.str "logical") := by simp [htype]
      cases hrow : pg.slots t name with
      | none =>
          have hcached := hfresh.eq_none hrow
          have hslot : s.replicationSlots.lookup name = none := hcached
          rw [ensurePhysicalSlot, wpIn_bind, wpIn_self]
          simp only [hlookup, htype, orRaise, Option.elim_some, pure_then, ne_eq, not_true,
            if_false]
          rw [wpIn_bind, cleanInactivePhysicalSlot, wpIn_bind, wpIn_self, hslot, Option.filter_none,
            Option.elim_none, wpIn_pure, wpIn_bind, wpIn_self, hslot, Option.elim_none]
          refine wpIn_next (wpIn_createPhysicalSlot pg unable htype
            (view_eq_iff.mpr ⟨hrow, hcached, hwanted⟩) none) ?_
          rintro _ s' t' ⟨hframe, hwanted', himproves⟩
          refine ⟨hframe, fun _ => ⟨⟨value, hwanted', htype⟩, ?_⟩, fun h => absurd h hnot⟩
          change Improves (name ∈ unable) value (pg.slots t name) (pg.slots t' name)
          rw [hrow]
          exact himproves
      | some row =>
          obtain ⟨hshown, hfit⟩ := hfits row hrow
          have hcached := hfresh.eq_some hrow hshown
          obtain ⟨kind, active, temporary, failover⟩ := row
          cases kind with
          | physical restartLsn xmin =>
              refine wpIn_next (wpIn_ensurePhysicalSlot_present pg unable hversion clean htype hlsn
                hshown rfl (view_eq_iff.mpr ⟨hrow, hcached, hwanted⟩)) ?_
              rintro _ s' t' ⟨hframe, hwanted', himproves⟩
              refine ⟨hframe, fun _ => ⟨hwanted', ?_⟩, fun h => absurd h hnot⟩
              change Improves (name ∈ unable) value (pg.slots t name) (pg.slots t' name)
              rw [hrow]
              exact himproves
          | logical => exact absurd hfit.1 hnot
  | logical _ _ _ _ _ =>
      have htype : value.lookup "type" = some (.str "logical") := htyped.1
      rw [ensurePhysicalSlot, wpIn_bind, wpIn_self]
      simp only [hlookup, htype, orRaise, Option.elim_some, wpIn_bind, wpIn_pure]
      exact ⟨fun _ _ => rfl, fun h => absurd (htype.symm.trans h) (by decide), fun _ => rfl⟩

/-- `_ensure_physical_slots`, for every slot. -/
theorem wpIn_ensurePhysicalSlots (pg : Postgres τ) (unable : Set String)
    (hversion : 110000 ≤ settings.majorVersion) (clean : Bool)
    (hready : ∀ name value, s.slots.lookup name = some value →
      (view s (pg.slots t) name).Ready settings.majorVersion value) :
    wpIn (pg.env unable) (ensurePhysicalSlots settings clean)
      (fun _ s' t' => (∀ name value, s.slots.lookup name = some value →
        PhysicalStep (name ∈ unable) value (view s (pg.slots t) name)
          (view s' (pg.slots t') name)) ∧
        ∀ name ∉ s.slots, view s' (pg.slots t') name = view s (pg.slots t) name)
      NoException s t := by
  rw [ensurePhysicalSlots, wpIn_bind, wpIn_self]
  refine wpIn_next (wpIn_forEach_name
    (fun _ c => ∃ value, c.Ready settings.majorVersion value)
    (fun name c c' => ∀ value, c.wanted = some value →
      PhysicalStep (name ∈ unable) value c c')
    ?_ s.slots.nodupKeys ?_) ?_
  · rintro name s t ⟨value, hvalue⟩
    refine wpIn_next (wpIn_ensurePhysicalSlot pg unable hversion clean hvalue) ?_
    rintro _ s' t' ⟨hframe, hstep⟩
    refine ⟨hframe, fun value' hvalue' => ?_⟩
    obtain rfl := Option.some.inj (hvalue.wanted.symm.trans hvalue')
    exact hstep
  · intro name hname
    obtain ⟨value, hvalue⟩ := Option.isSome_iff_exists.mp
      (AList.lookup_isSome.mpr (AList.mem_keys.mpr hname))
    exact ⟨value, hready name value hvalue⟩
  · rintro _ s' t' ⟨hstep, hframe⟩
    exact ⟨fun name value hvalue => hstep name
      (AList.lookup_isSome.mp (Option.isSome_iff_exists.mpr ⟨value, hvalue⟩)) value hvalue, hframe⟩

/-- A logical slot is as it was before the physical slots. -/
theorem wanted_of_physicalStep {s' : SlotsHandler} {rows' : Rows}
    (htyped : ∀ name value, s.slots.lookup name = some value → Typed value)
    (hstep : ∀ name value, s.slots.lookup name = some value →
      PhysicalStep (name ∈ unable) value (view s rows name) (view s' rows' name))
    (hframe : ∀ name ∉ s.slots, view s' rows' name = view s rows name) {value' : Slot}
    (hvalue' : s'.slots.lookup name = some value') :
    value'.lookup "type" = some (.str "physical") ∨
      s.slots.lookup name = some value' ∧ view s' rows' name = view s rows name := by
  cases hvalue : s.slots.lookup name with
  | none =>
      have hsame := congrArg Cell.wanted (hframe name (AList.lookup_eq_none.mp hvalue))
      exact absurd (hvalue'.symm.trans (hsame.trans hvalue)) (by simp)
  | some value =>
      obtain ⟨kind, hkind⟩ := htyped name value hvalue
      cases kind with
      | physical =>
          obtain ⟨⟨value₁, hwanted, htype⟩, -⟩ := (hstep name value hvalue).1 hkind
          obtain rfl := Option.some.inj (hvalue'.symm.trans hwanted)
          exact .inl htype
      | logical =>
          have hsame := (hstep name value hvalue).2 hkind.1
          have hwanted := (congrArg Cell.wanted hsame).symm.trans hvalue'
          exact .inr ⟨hvalue.symm.trans hwanted, hsame⟩

/-! ## Logical slots -/

theorem nodup_eraseDups {α : Type} [DecidableEq α] (as : List α) : as.eraseDups.Nodup := by
  induction h : as.length using Nat.strong_induction_on generalizing as with
  | _ n ih =>
      cases as with
      | nil => exact List.nodup_nil
      | cons a as =>
          rw [List.eraseDups_cons]
          refine List.nodup_cons.mpr ⟨?_, ih _ ?_ _ rfl⟩
          · intro hmem
            have hne := (List.mem_filter.mp (List.mem_eraseDups.mp hmem)).2
            simp at hne
          · rw [← h]
            exact Nat.lt_succ_of_le (List.length_filter_le _ as)

/-- A slot that has a datoid is logical, and has the items that are copied. -/
theorem Cell.Fresh.of_hasDatoid {majorVersion : ℕ} (hversion : 110000 ≤ majorVersion) {c : Cell}
    (h : c.Fresh majorVersion)
    (hdatoid : c.cached.any (fun slot => (slot.get "datoid" .null).truthy) = true) :
    ∃ row slot, c.row = some row ∧ row.shown = true ∧ c.cached = some slot ∧
      ∀ k ∈ logicalKeys, k ∈ slot := by
  obtain ⟨slot, hcached, htruthy⟩ := (Option.any_eq_true _ _).mp hdatoid
  have hslot := hcached
  rw [h, Option.map_eq_some_iff] at hslot
  obtain ⟨row, hrow, rfl⟩ := hslot
  obtain ⟨hrow, hshown⟩ := Option.filter_eq_some_iff.mp hrow
  refine ⟨row, _, hrow, hshown, hcached, ?_⟩
  obtain ⟨kind, active, temporary, failover⟩ := row
  cases kind with
  | physical restartLsn xmin =>
      simp [loaded, Slot.get, Dict.lookup_set, Value.truthy] at htruthy
  | logical plugin database datoid catalogXmin confirmedFlushLsn =>
      have h' : 100000 ≤ majorVersion := le_trans (by decide) hversion
      simp [logicalKeys, loaded, h']

/-- What the first loop of `_ensure_logical_slots_primary` does to a slot. -/
structure CopyStep (value : Slot) (c c' : Cell) : Prop where
  row : c'.row = c.row
  cached : c'.cached = c.cached
  wanted : ∃ value', c'.wanted = some value' ∧ value'.lookup "type" = value.lookup "type" ∧
    (c.cached.any (fun slot => (slot.get "datoid" .null).truthy) = false → value' = value)

theorem wpIn_copyLogicalSlot (pg : Postgres τ) (unable : Set String)
    (hversion : 110000 ≤ settings.majorVersion) {value : Slot}
    (hwanted : (view s (pg.slots t) name).wanted = some value)
    (hfresh : value.lookup "type" = some (.str "logical") →
      (view s (pg.slots t) name).Fresh settings.majorVersion) (htyped : Typed value) :
    wpIn (pg.env unable) (copyLogicalSlot name)
      (fun _ s' t' => Frame name s s' (pg.slots t) (pg.slots t') ∧
        CopyStep value (view s (pg.slots t) name) (view s' (pg.slots t') name))
      NoException s t := by
  have hlookup : s.slots.lookup name = some value := hwanted
  have hkept : Frame name s s (pg.slots t) (pg.slots t) ∧
      CopyStep value (view s (pg.slots t) name) (view s (pg.slots t) name) :=
    ⟨fun _ _ => rfl, rfl, rfl, value, hwanted, rfl, fun _ => rfl⟩
  rw [copyLogicalSlot, wpIn_bind, wpIn_self]
  obtain ⟨kind, hkind⟩ := htyped
  cases kind with
  | physical =>
      have htype : value.lookup "type" = some (.str "physical") := hkind
      simpa [hlookup, htype, orRaise] using hkept
  | logical plugin database _ _ _ =>
      obtain ⟨htype, hdatabase, -⟩ := hkind
      cases hdatoid : hasDatoid s name with
      | false => simpa [hlookup, htype, hdatabase, hdatoid, orRaise] using hkept
      | true =>
          obtain ⟨row, slot, hrow, hshown, hcached, hkeys⟩ :=
            (hfresh htype).of_hasDatoid hversion hdatoid
          obtain ⟨value', hcopy, hvalue'⟩ := exists_copyItems hkeys value
          have hslot : s.replicationSlots.lookup name = some slot := hcached
          simp only [hlookup, htype, hslot, hcopy, orRaise, setSlot, Option.elim_some,
            wpIn_bind, wpIn_pure, wpIn_update, if_true]
          refine ⟨frame_setSlot value', rfl, rfl, value', Dict.lookup_set_self _ _ _,
            (hvalue' _).trans (if_neg (by decide)), fun h => ?_⟩
          exact absurd (hdatoid.symm.trans h) (by decide)

/-- A logical slot that is missing, with what it is asked to be. -/
def Missing (slots : Dict String Slot) (item : Value × String × Value) : Prop :=
  ∃ value database plugin, slots.lookup item.2.1 = some value ∧
    value.lookup "type" = some (.str "logical") ∧ value.lookup "database" = some (.str database) ∧
    value.lookup "plugin" = some (.str plugin) ∧ item.1 = .str database ∧ item.2.2 = .str plugin

/-- The row of a slot is what it is asked to be, if there is one. -/
def MayCreate (slots : Dict String Slot) (name : String) (c : Cell) : Prop :=
  ∀ value row, slots.lookup name = some value → c.row = some row →
    row.shown = true ∧ Fits value row.kind

/-- There is a row, and it is what it is asked to be, or PostgreSQL cannot create the slot. -/
def Created (unable : Set String) (slots : Dict String Slot) (name : String) (c : Cell) : Prop :=
  ∀ value, slots.lookup name = some value →
    (∃ row, c.row = some row ∧ Settled value row) ∨ c.row = none ∧ name ∈ unable

theorem settled_of_logical {value : Slot} {row : Row}
    (htype : value.lookup "type" = some (.str "logical")) (hshown : row.shown = true)
    (hfits : Fits value row.kind) : Settled value row := by
  refine ⟨hshown, hfits, fun r x hkind => ?_⟩
  rw [hkind] at hfits
  exact absurd (htype.symm.trans hfits) (by decide)

theorem wpIn_createLogicalSlot (pg : Postgres τ) (unable : Set String) {slots : Dict String Slot}
    {item : Value × String × Value} (hmissing : Missing slots item)
    (hmay : MayCreate slots item.2.1 (view s (pg.slots t) item.2.1)) :
    wpIn (pg.env unable) (createLogicalSlot item)
      (fun _ s' t' => Frame item.2.1 s s' (pg.slots t) (pg.slots t') ∧
        Created unable slots item.2.1 (view s' (pg.slots t') item.2.1)) NoException s t := by
  obtain ⟨value, database, plugin, hvalue, htype, hdatabase, hplugin, hd, hp⟩ := hmissing
  obtain ⟨_, name, _⟩ := item
  obtain rfl : _ = Value.str database := hd
  obtain rfl : _ = Value.str plugin := hp
  -- a slot that is there is what it is asked to be
  have hrow : ∀ row, pg.slots t name = some row → Settled value row := by
    intro row hrow
    obtain ⟨hshown, hfits⟩ := hmay value row hvalue hrow
    exact settled_of_logical htype hshown hfits
  have hcreated : ∀ {t'}, pg.answers t
      ⟨.createLogicalReplicationSlot (.str database) name (.str plugin), .ok ()⟩ t' →
      (∀ k ≠ name, pg.slots t' k = pg.slots t k) ∧
        ∃ row, pg.slots t' name = some row ∧ Settled value row := by
    intro t' ht
    obtain ⟨hcreate, hkeep⟩ := pg.createLogical ht
    cases hslot : pg.slots t name with
    | none =>
        obtain ⟨datoid, catalogXmin, confirmedFlushLsn, hslots⟩ := hcreate hslot
        rw [hslots]
        exact ⟨fun k hk => Function.update_of_ne hk _ _, _, Function.update_self ..,
          settled_of_logical htype rfl ⟨htype, hdatabase, hplugin⟩⟩
    | some row =>
        rw [hkeep hslot]
        exact ⟨fun _ _ => rfl, row, hslot, hrow row hslot⟩
  rw [createLogicalSlot, wpIn_bind, wpIn_handle, wpIn_ask]
  refine ⟨fun _ t' ht => ?_, fun _ t' ht => ?_⟩
  · obtain ⟨hsame, hnew⟩ := hcreated ht.1
    rw [wpIn_update]
    refine ⟨fun k hk => by simp [view, hsame k hk], fun value' hvalue' => .inl ?_⟩
    obtain rfl := Option.some.inj (hvalue.symm.trans hvalue')
    exact hnew
  · rw [wpIn_update, wpIn_update]
    have hend : (∀ k ≠ name, pg.slots t' k = pg.slots t k) ∧
        ((∃ row, pg.slots t' name = some row ∧ Settled value row) ∨
          pg.slots t' name = none ∧ name ∈ unable) := by
      rcases pg.failed ht.1 with hslots | ⟨_, hlost⟩
      · rw [hslots]
        refine ⟨fun _ _ => rfl, ?_⟩
        cases hslot : pg.slots t name with
        | none => exact .inr ⟨rfl, ht.2⟩
        | some row => exact .inl ⟨row, rfl, hrow row hslot⟩
      · exact ⟨(hcreated hlost).1, .inl (hcreated hlost).2⟩
    refine ⟨fun k hk => by simp [view, hend.1 k hk, hk], fun value' hvalue' => ?_⟩
    obtain rfl := Option.some.inj (hvalue.symm.trans hvalue')
    exact hend.2

/-- The logical slots that are missing in a database are created. -/
theorem wpIn_createLogicalSlots (pg : Postgres τ) (unable : Set String) {slots : Dict String Slot}
    {missing : List (Value × String × Value)} (hnodup : (missing.map fun item => item.2.1).Nodup)
    (hmissing : ∀ item ∈ missing, Missing slots item) (database : Value)
    (hmay : ∀ item ∈ missing, item.1 = database →
      MayCreate slots item.2.1 (view s (pg.slots t) item.2.1)) :
    wpIn (pg.env unable) (createLogicalSlots missing database)
      (fun _ s' t' => (∀ item ∈ missing, item.1 = database →
        Created unable slots item.2.1 (view s' (pg.slots t') item.2.1)) ∧
        ∀ name, (∀ item ∈ missing, item.1 = database → item.2.1 ≠ name) →
          view s' (pg.slots t') name = view s (pg.slots t) name) NoException s t := by
  have hsublist : (missing.filter fun item => item.1 = database).Sublist missing :=
    List.filter_sublist
  rw [createLogicalSlots, wpIn_bind, wpIn_ask]
  refine ⟨fun _ t₁ ht => ?_, fun _ _ ht => ht.2⟩
  rw [← pg.connect ht.1] at hmay ⊢
  refine wpIn_next (wpIn_forEach (fun s t => view s (pg.slots t)) (MayCreate slots)
    (Created unable slots) (fun item name => name = item.2.1) ?_
    (((List.pairwise_map.mp hnodup).sublist hsublist).imp fun hne k hk hk' =>
      hne (hk.symm.trans hk')) ?_) ?_
  · intro item hitem s t hmay
    refine wpIn_next (wpIn_createLogicalSlot pg unable (hmissing item (hsublist.mem hitem))
      (hmay item.2.1 rfl)) ?_
    rintro _ s' t' ⟨hframe, hcreated⟩
    refine ⟨fun k hk => ?_, fun k hk => hframe k hk⟩
    subst hk
    exact hcreated
  · intro item hitem k hk
    subst hk
    obtain ⟨hmem, hdb⟩ := List.mem_filter.mp hitem
    exact hmay item hmem (of_decide_eq_true hdb)
  · rintro _ s' t' ⟨hcreated, hframe⟩
    refine ⟨fun item hitem hdb => ?_, fun name hname => hframe name fun item hitem hk => ?_⟩
    · exact hcreated item (List.mem_filter.mpr ⟨hitem, decide_eq_true hdb⟩) item.2.1 rfl
    · obtain ⟨hmem, hdb⟩ := List.mem_filter.mp hitem
      exact hname item hmem (of_decide_eq_true hdb) hk.symm

/-- The logical slots that are missing are created. -/
theorem wpIn_createAllSlots (pg : Postgres τ) (unable : Set String) (slots : Dict String Slot)
    {missing : List (Value × String × Value)} (hnodup : (missing.map fun item => item.2.1).Nodup)
    (hmissing : ∀ item ∈ missing, Missing slots item)
    (hmay : ∀ item ∈ missing, MayCreate slots item.2.1 (view s (pg.slots t) item.2.1)) :
    wpIn (pg.env unable) (forEach (createLogicalSlots missing) (missing.map Prod.fst).eraseDups)
      (fun _ s' t' =>
        (∀ item ∈ missing, Created unable slots item.2.1 (view s' (pg.slots t') item.2.1)) ∧
        ∀ name, (∀ item ∈ missing, item.2.1 ≠ name) →
          view s' (pg.slots t') name = view s (pg.slots t) name) NoException s t := by
  refine wpIn_next (wpIn_forEach (fun s t => view s (pg.slots t)) (MayCreate slots)
    (Created unable slots)
    (fun database name => ∃ item ∈ missing, item.1 = database ∧ item.2.1 = name)
    ?_ ((nodup_eraseDups _).imp ?_) ?_) ?_
  · intro database _ s t hmay
    refine wpIn_next (wpIn_createLogicalSlots pg unable hnodup hmissing database
      fun item hitem hdb => hmay item.2.1 ⟨item, hitem, hdb, rfl⟩) ?_
    rintro _ s' t' ⟨hcreated, hframe⟩
    refine ⟨?_, fun k hk => hframe k fun item hitem hdb hk' => hk ⟨item, hitem, hdb, hk'⟩⟩
    rintro k ⟨item, hitem, hdb, rfl⟩
    exact hcreated item hitem hdb
  · rintro d d' hne k ⟨item, hitem, rfl, rfl⟩ ⟨item', hitem', rfl, hname⟩
    exact hne (congrArg Prod.fst (List.inj_on_of_nodup_map hnodup hitem hitem' hname.symm))
  · rintro database - k ⟨item, hitem, -, rfl⟩
    exact hmay item hitem
  · rintro _ s' t' ⟨hcreated, hframe⟩
    refine ⟨fun item hitem => ?_, fun name hname => hframe name ?_⟩
    · exact hcreated item.1 (List.mem_eraseDups.mpr (List.mem_map_of_mem hitem)) item.2.1
        ⟨item, hitem, rfl, rfl⟩
    · rintro database - ⟨item, hitem, -, hk⟩
      exact hname item hitem hk

/-- The slots that are missing are those that `_ensure_logical_slots_primary` creates. -/
theorem mem_missingSlots {item : Value × String × Value} :
    item ∈ missingSlots s ↔ ∃ value, s.slots.lookup item.2.1 = some value ∧
      value.get "type" .null = .str "logical" ∧ hasDatoid s item.2.1 = false ∧
      item.1 = value.get "database" .null ∧ item.2.2 = value.get "plugin" .null := by
  obtain ⟨database, name, plugin⟩ := item
  rw [missingSlots, List.mem_map]
  constructor
  · rintro ⟨⟨k, value⟩, he, heq⟩
    obtain ⟨hmem, hp⟩ := List.mem_filter.mp he
    simp only [Prod.mk.injEq] at heq
    obtain ⟨rfl, rfl, rfl⟩ := heq
    simp only [Bool.and_eq_true, decide_eq_true_eq, Bool.not_eq_true'] at hp
    exact ⟨value, AList.mem_lookup_iff.mpr hmem, hp.1, hp.2, rfl, rfl⟩
  · rintro ⟨value, hvalue, htype, hdatoid, hd, hp⟩
    refine ⟨⟨name, value⟩, List.mem_filter.mpr ⟨AList.mem_lookup_iff.mp hvalue, ?_⟩, ?_⟩
    · simp [htype, hdatoid]
    · exact Prod.ext hd.symm (Prod.ext rfl hp.symm)

theorem nodup_missingSlots (s : SlotsHandler) :
    ((missingSlots s).map fun item => item.2.1).Nodup := by
  have hsublist : ((s.slots.entries.filter fun e => e.2.get "type" .null = .str "logical" &&
      !hasDatoid s e.1).map Sigma.fst).Sublist s.slots.keys := List.filter_sublist.map Sigma.fst
  rw [missingSlots, List.map_map]
  exact hsublist.nodup s.slots.nodupKeys

theorem lookup_of_get_type {value : Slot} {type : String} (h : value.get "type" .null = .str type) :
    value.lookup "type" = some (.str type) := by
  cases hlookup : value.lookup "type" with
  | none =>
      rw [Slot.get, hlookup] at h
      cases h
  | some v =>
      rw [Slot.get, hlookup] at h
      exact congrArg some h

theorem get_of_lookup {value : Slot} {k : String} {v : Value} (h : value.lookup k = some v) :
    value.get k .null = v := by
  rw [Slot.get, h]
  rfl

/-- A valid slot that is logical has names for its database and its plugin. -/
theorem Typed.of_logical {value : Slot} (htyped : Typed value)
    (htype : value.lookup "type" = some (.str "logical")) :
    ∃ database plugin, value.lookup "database" = some (.str database) ∧
      value.lookup "plugin" = some (.str plugin) := by
  obtain ⟨kind, hkind⟩ := htyped
  cases kind with
  | physical => exact absurd (htype.symm.trans hkind) (by decide)
  | logical plugin database => exact ⟨database, plugin, hkind.2⟩

/-- The first loop of `_ensure_logical_slots_primary`. -/
theorem wpIn_copyLogicalSlots (pg : Postgres τ) (unable : Set String)
    (hversion : 110000 ≤ settings.majorVersion)
    (htyped : ∀ name value, s.slots.lookup name = some value → Typed value)
    (hfresh : ∀ name value, s.slots.lookup name = some value →
      value.lookup "type" = some (.str "logical") →
        (view s (pg.slots t) name).Fresh settings.majorVersion) :
    wpIn (pg.env unable) (forEach copyLogicalSlot s.slots.keys)
      (fun _ s' t' => (∀ name value, s.slots.lookup name = some value →
        CopyStep value (view s (pg.slots t) name) (view s' (pg.slots t') name)) ∧
        ∀ name ∉ s.slots, view s' (pg.slots t') name = view s (pg.slots t) name)
      NoException s t := by
  refine wpIn_next (wpIn_forEach_name
    (fun _ c => ∃ value, c.wanted = some value ∧ Typed value ∧
      (value.lookup "type" = some (.str "logical") → c.Fresh settings.majorVersion))
    (fun _ c c' => ∀ value, c.wanted = some value → CopyStep value c c')
    ?_ s.slots.nodupKeys ?_) ?_
  · rintro name s t ⟨value, hwanted, htyped, hfresh⟩
    refine wpIn_next (wpIn_copyLogicalSlot pg unable hversion hwanted hfresh htyped) ?_
    rintro _ s' t' ⟨hframe, hstep⟩
    refine ⟨hframe, fun value' hvalue' => ?_⟩
    obtain rfl := Option.some.inj (hwanted.symm.trans hvalue')
    exact hstep
  · intro name hname
    obtain ⟨value, hvalue⟩ := Option.isSome_iff_exists.mp
      (AList.lookup_isSome.mpr (AList.mem_keys.mpr hname))
    exact ⟨value, hvalue, htyped name value hvalue, hfresh name value hvalue⟩
  · rintro _ s' t' ⟨hstep, hframe⟩
    exact ⟨fun name value hvalue => hstep name
      (AList.lookup_isSome.mp (Option.isSome_iff_exists.mpr ⟨value, hvalue⟩)) value hvalue, hframe⟩

/-- The first loop leaves the slots that are missing as they were asked for. -/
theorem mem_missingSlots_of_copied {s₁ : SlotsHandler} {rows rows₁ : Rows}
    (hstep : ∀ name value, s.slots.lookup name = some value →
      CopyStep value (view s rows name) (view s₁ rows₁ name))
    (hframe : ∀ name ∉ s.slots, view s₁ rows₁ name = view s rows name)
    {item : Value × String × Value} : item ∈ missingSlots s₁ ↔ item ∈ missingSlots s := by
  rw [mem_missingSlots, mem_missingSlots]
  cases hvalue : s.slots.lookup item.2.1 with
  | none =>
      have hsame := congrArg Cell.wanted (hframe item.2.1 (AList.lookup_eq_none.mp hvalue))
      have hnone : s₁.slots.lookup item.2.1 = none := hsame.trans hvalue
      simp [hnone]
  | some value =>
      have hcopied := hstep item.2.1 value hvalue
      have hdatoid : hasDatoid s₁ item.2.1 = hasDatoid s item.2.1 :=
        congrArg (Option.any _) hcopied.cached
      obtain ⟨value₁, hwanted, -, hsame⟩ := hcopied.wanted
      have hvalue₁ : s₁.slots.lookup item.2.1 = some value₁ := hwanted
      rw [hdatoid]
      cases hmissing : hasDatoid s item.2.1 with
      | true => simp
      | false =>
          obtain rfl := hsame hmissing
          simp only [hvalue₁]

/-- `_ensure_logical_slots_primary`, for every slot. -/
theorem wpIn_ensureLogicalSlotsPrimary (pg : Postgres τ) (unable : Set String)
    (hversion : 110000 ≤ settings.majorVersion)
    (htyped : ∀ name value, s.slots.lookup name = some value → Typed value)
    (hfresh : ∀ name value, s.slots.lookup name = some value →
      value.lookup "type" = some (.str "logical") →
        (view s (pg.slots t) name).Fresh settings.majorVersion)
    (hmay : ∀ name value row, s.slots.lookup name = some value →
      value.lookup "type" = some (.str "logical") → pg.slots t name = some row →
        row.shown = true ∧ Fits value row.kind) :
    wpIn (pg.env unable) ensureLogicalSlotsPrimary
      (fun _ _ t' => (∀ name value, s.slots.lookup name = some value →
        value.lookup "type" = some (.str "logical") →
          (∃ row, pg.slots t' name = some row ∧ Settled value row) ∨
            pg.slots t' name = none ∧ name ∈ unable) ∧
        ∀ name, (∀ value, s.slots.lookup name = some value →
          value.lookup "type" ≠ some (.str "logical")) → pg.slots t' name = pg.slots t name)
      NoException s t := by
  rw [ensureLogicalSlotsPrimary, wpIn_bind, wpIn_self, wpIn_bind]
  refine wpIn_next (wpIn_copyLogicalSlots pg unable hversion htyped hfresh) ?_
  rintro _ s₁ t₁ ⟨hstep₁, hframe₁⟩
  have hrow₁ : ∀ name, pg.slots t₁ name = pg.slots t name := by
    intro name
    cases hvalue : s.slots.lookup name with
    | none => exact congrArg Cell.row (hframe₁ name (AList.lookup_eq_none.mp hvalue))
    | some value => exact (hstep₁ name value hvalue).row
  have hitem : ∀ {item}, item ∈ missingSlots s₁ ↔ item ∈ missingSlots s :=
    mem_missingSlots_of_copied hstep₁ hframe₁
  rw [wpIn_bind, wpIn_self]
  refine wpIn_next (wpIn_createAllSlots pg unable s.slots (nodup_missingSlots s₁) ?_ ?_) ?_
  · intro item hmem
    obtain ⟨value, hvalue, htype, -, hd, hp⟩ := mem_missingSlots.mp (hitem.mp hmem)
    have htype := lookup_of_get_type htype
    obtain ⟨database, plugin, hdatabase, hplugin⟩ := (htyped _ _ hvalue).of_logical htype
    exact ⟨value, database, plugin, hvalue, htype, hdatabase, hplugin,
      hd.trans (get_of_lookup hdatabase), hp.trans (get_of_lookup hplugin)⟩
  · intro item hmem value row hvalue hrow
    obtain ⟨value', hvalue', htype, -⟩ := mem_missingSlots.mp (hitem.mp hmem)
    obtain rfl := Option.some.inj (hvalue.symm.trans hvalue')
    exact hmay _ value row hvalue (lookup_of_get_type htype) ((hrow₁ _).symm.trans hrow)
  rintro _ s₂ t₂ ⟨hcreated, hframe₂⟩
  refine ⟨fun name value hvalue htype => ?_, fun name hname => ?_⟩
  · cases hdatoid : hasDatoid s name with
    | false =>
        exact hcreated (value.get "database" .null, name, value.get "plugin" .null)
          (hitem.mpr (mem_missingSlots.mpr ⟨value, hvalue, get_of_lookup htype, hdatoid, rfl,
            rfl⟩)) value hvalue
    | true =>
        obtain ⟨row, -, hrow, hshown, -⟩ := (hfresh name value hvalue htype).of_hasDatoid hversion
          hdatoid
        have hsame := congrArg Cell.row (hframe₂ name fun item hmem heq => by
          obtain ⟨-, -, -, hmissing, -⟩ := mem_missingSlots.mp (hitem.mp hmem)
          exact absurd (hdatoid.symm.trans (heq ▸ hmissing)) (by decide))
        exact .inl ⟨row, hsame.trans ((hrow₁ name).trans hrow),
          settled_of_logical htype hshown (hmay name value row hvalue htype hrow).2⟩
  · rw [← hrow₁ name]
    refine congrArg Cell.row (hframe₂ name fun item hmem heq => ?_)
    obtain ⟨value, hvalue, htype, -⟩ := mem_missingSlots.mp (hitem.mp hmem)
    exact hname value (heq ▸ hvalue) (lookup_of_get_type htype)

end Sync

end Slots

end Metatroni
