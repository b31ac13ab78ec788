import Metatroni.Slots.Create
import Metatroni.Slots.Selection

/-!
# The slots become what the cluster asks for

On a primary, two passes over the replication slots are enough to turn them into those that the
cluster asks for and that PostgreSQL is able to create, and further passes keep them.

## Implementation notes

What the cluster asks for stays the same during the passes, but for the positions. A pass whose
statements fail, other than those that create or advance slots, is not one of them.
-/

namespace Metatroni

namespace Slots

namespace Sync

open Interaction Interaction.Method

variable {τ : Type} {pg : Postgres τ} {unable : Set String} {settings : Settings} {s : SlotsHandler}
  {t t' : τ} {rows rows' : Rows} {name : String} {slots : Dict String Slot}

/-! ## What a pass does -/

/-- No slot that the cluster asks for is hidden, or kept by its consumer with other attributes, and
the MPP handler answers for the other slots. -/
structure Free (settings : Settings) (slots : Dict String Slot) (rows : Rows) : Prop where
  shown : ∀ name value row, slots.lookup name = some value → rows name = some row →
    row.shown = true
  fits : ∀ name value row, slots.lookup name = some value → rows name = some row →
    row.active = true → Fits value row.kind
  answers : Answers settings slots rows

/-- What a pass does to the slots. -/
structure Reconciled (unable : Set String) (settings : Settings) (slots : Dict String Slot)
    (rows rows' : Rows) : Prop where
  wanted : ∀ name value, slots.lookup name = some value →
    Improves (name ∈ unable) value (rows name) (rows' name)
  unknown : ∀ name ∉ slots, ∀ row, rows' name = some row ↔
    rows name = some row ∧ Kept settings slots name row

/-- Every slot that the cluster asks for and that is there is as the cluster asks for it. -/
def Halfway (slots : Dict String Slot) (rows : Rows) : Prop :=
  ∀ name value row, slots.lookup name = some value → rows name = some row → Settled value row

/-- Every slot that the cluster asks for is there, as the cluster asks for it, unless PostgreSQL
cannot create it. -/
def Synchronised (unable : Set String) (slots : Dict String Slot) (rows : Rows) : Prop :=
  ∀ name value, slots.lookup name = some value →
    (∃ row, rows name = some row ∧ Settled value row) ∨ rows name = none ∧ name ∈ unable

/-- What a pass leaves is as the cluster asks for it. -/
theorem Reconciled.halfway (h : Reconciled unable settings slots rows rows') :
    Halfway slots rows' := by
  intro name value row hvalue hrow
  rcases h.wanted name value hvalue with ⟨row', hrow', hsettled⟩ | ⟨hnone, -⟩
  · obtain rfl := Option.some.inj (hrow.symm.trans hrow')
    exact hsettled
  · exact absurd (hrow.symm.trans hnone) (by simp)

theorem Reconciled.free (h : Reconciled unable settings slots rows rows')
    (hfree : Free settings slots rows) : Free settings slots rows' where
  shown name value row hvalue hrow := (h.halfway name value row hvalue hrow).1
  fits name value row hvalue hrow _ := (h.halfway name value row hvalue hrow).2.1
  answers name hname row hrow :=
    hfree.answers name hname row ((h.unknown name hname row).mp hrow).1

/-- A pass drops nothing of what another pass has left, and creates the rest. -/
theorem Reconciled.synchronised (h : Reconciled unable settings slots rows rows')
    (hhalfway : Halfway slots rows) : Synchronised unable slots rows' := by
  intro name value hvalue
  rcases h.wanted name value hvalue with hsettled | ⟨hnone, hfail | ⟨row, hrow, hbad⟩⟩
  · exact .inl hsettled
  · exact .inr ⟨hnone, hfail⟩
  · exact absurd (hhalfway name value row hvalue hrow).2.2 hbad

/-- A dictionary asks for the same slots as another one, but for positions. -/
structure AsksSame (slots slots' : Dict String Slot) : Prop where
  names : ∀ name, name ∈ slots' ↔ name ∈ slots
  alike : ∀ name value value', slots.lookup name = some value → slots'.lookup name = some value' →
    Alike value value'

namespace AsksSame

variable {slots' : Dict String Slot}

theorem exists_lookup (h : AsksSame slots slots') {value : Slot}
    (hvalue : slots.lookup name = some value) :
    ∃ value', slots'.lookup name = some value' ∧ Alike value value' := by
  have hmem : name ∈ slots := AList.lookup_isSome.mp (Option.isSome_iff_exists.mpr ⟨value, hvalue⟩)
  obtain ⟨value', hvalue'⟩ :=
    Option.isSome_iff_exists.mp (AList.lookup_isSome.mpr ((h.names name).mpr hmem))
  exact ⟨value', hvalue', h.alike name value value' hvalue hvalue'⟩

theorem exists_lookup' (h : AsksSame slots slots') {value' : Slot}
    (hvalue' : slots'.lookup name = some value') :
    ∃ value, slots.lookup name = some value ∧ Alike value value' := by
  have hmem : name ∈ slots' :=
    AList.lookup_isSome.mp (Option.isSome_iff_exists.mpr ⟨value', hvalue'⟩)
  obtain ⟨value, hvalue⟩ :=
    Option.isSome_iff_exists.mp (AList.lookup_isSome.mpr ((h.names name).mp hmem))
  exact ⟨value, hvalue, h.alike name value value' hvalue hvalue'⟩

theorem free (h : AsksSame slots slots') (hfree : Free settings slots rows) :
    Free settings slots' rows where
  shown name value' row hvalue' hrow := by
    obtain ⟨value, hvalue, -⟩ := h.exists_lookup' hvalue'
    exact hfree.shown name value row hvalue hrow
  fits name value' row hvalue' hrow hactive := by
    obtain ⟨value, hvalue, halike⟩ := h.exists_lookup' hvalue'
    exact (halike.fits_iff row.kind).mpr (hfree.fits name value row hvalue hrow hactive)
  answers name hname := hfree.answers name fun hmem => hname ((h.names name).mpr hmem)

theorem kept_iff (h : AsksSame slots slots') (row : Row) :
    Kept settings slots' name row ↔ Kept settings slots name row := by
  have hfits : (∃ slot, slots'.lookup name = some slot ∧ Fits slot row.kind) ↔
      ∃ slot, slots.lookup name = some slot ∧ Fits slot row.kind := by
    constructor
    · rintro ⟨value', hvalue', hfits⟩
      obtain ⟨value, hvalue, halike⟩ := h.exists_lookup' hvalue'
      exact ⟨value, hvalue, (halike.fits_iff row.kind).mp hfits⟩
    · rintro ⟨value, hvalue, hfits⟩
      obtain ⟨value', hvalue', halike⟩ := h.exists_lookup hvalue
      exact ⟨value', hvalue', (halike.fits_iff row.kind).mpr hfits⟩
  rw [Kept, Kept, hfits, h.names]

theorem reconciled (h : AsksSame slots slots')
    (hpass : Reconciled unable settings slots' rows rows') :
    Reconciled unable settings slots rows rows' where
  wanted name value hvalue := by
    obtain ⟨value', hvalue', halike⟩ := h.exists_lookup hvalue
    exact halike.improves_iff.mp (hpass.wanted name value' hvalue')
  unknown name hname row := by
    rw [hpass.unknown name (fun hmem => hname ((h.names name).mp hmem)) row, h.kept_iff]

end AsksSame

/-! ## A pass -/

/-- A slot that is left is as the cluster asks for it. -/
theorem Kept.fits {value : Slot} {row : Row}
    (hkept : Kept settings slots name row) (hfree : Free settings slots rows)
    (hvalue : slots.lookup name = some value) (hrow : rows name = some row) :
    row.shown = true ∧ Fits value row.kind := by
  have hshown := hfree.shown name value row hvalue hrow
  refine ⟨hshown, ?_⟩
  rcases hkept with h | h | ⟨value', hvalue', hfits⟩ | ⟨h, -⟩
  · exact absurd (hshown.symm.trans h) (by decide)
  · exact hfree.fits name value row hvalue hrow h
  · obtain rfl := Option.some.inj (hvalue.symm.trans hvalue')
    exact hfits
  · rw [AList.lookup_eq_none.mpr h] at hvalue
    cases hvalue

theorem wpIn_cleanInactivePhysicalSlots (pg : Postgres τ) (unable : Set String)
    (settings : Settings) (cluster : Cluster) (s : SlotsHandler) (t : τ) :
    wpIn (pg.env unable) (cleanInactivePhysicalSlots settings cluster)
      (fun _ s' t' => s' = s ∧ pg.slots t' = pg.slots t) NoException s t := by
  rw [cleanInactivePhysicalSlots]
  generalize cluster.isUnlocked = unlocked
  generalize (cluster.leader.any fun leader => leader.name ≠ settings.name) = other
  cases unlocked with
  | true => exact ⟨rfl, rfl⟩
  | false =>
      cases other with
      | true => exact ⟨rfl, rfl⟩
      | false =>
          change wpIn (pg.env unable) (ask .isPrimary) _ NoException s t
          exact wpIn_ask.mpr ⟨fun _ _ ht => ⟨rfl, (pg.isPrimary ht.1).2⟩, fun _ _ ht => ht.2⟩

/-- `_ensure_physical_slots` and `_ensure_logical_slots_primary`, after the drops. -/
theorem wpIn_ensureSlots (pg : Postgres τ) (unable : Set String)
    (hversion : 110000 ≤ settings.majorVersion) (clean : Bool)
    (hready : ∀ name value, s.slots.lookup name = some value →
      (view s (pg.slots t) name).Ready settings.majorVersion value) :
    wpIn (pg.env unable) (ensurePhysicalSlots settings clean)
      (fun _ s₁ t₁ => ∀ t₂, pg.slots t₂ = pg.slots t₁ →
        wpIn (pg.env unable) ensureLogicalSlotsPrimary
          (fun _ _ t' => (∀ name value, s.slots.lookup name = some value →
            Improves (name ∈ unable) value (pg.slots t name) (pg.slots t' name)) ∧
            ∀ name ∉ s.slots, pg.slots t' name = pg.slots t name)
          NoException { s₁ with logicalSlotsProcessingQueue := ∅ } t₂) NoException s t := by
  refine wpIn_next (wpIn_ensurePhysicalSlots pg unable hversion clean hready) ?_
  rintro _ s₁ t₁ ⟨hstep₁, hframe₁⟩ t₂ hsame₂
  rw [← hsame₂] at hstep₁ hframe₁
  have hphysical : ∀ name value, s₁.slots.lookup name = some value →
      value.lookup "type" = some (.str "physical") ∨ s.slots.lookup name = some value ∧
        view s₁ (pg.slots t₂) name = view s (pg.slots t) name :=
    fun _ _ => wanted_of_physicalStep (fun name value h => (hready name value h).asked.valid) hstep₁
      hframe₁
  have hlogical : ∀ name value, s₁.slots.lookup name = some value →
      value.lookup "type" = some (.str "logical") → s.slots.lookup name = some value ∧
        view s₁ (pg.slots t₂) name = view s (pg.slots t) name :=
    fun name value hvalue htype => (hphysical name value hvalue).resolve_left fun h =>
      absurd (htype.symm.trans h) (by decide)
  refine wpIn_next (wpIn_ensureLogicalSlotsPrimary pg unable hversion ?_ ?_ ?_) ?_
  · intro name value hvalue
    rcases hphysical name value hvalue with h | ⟨h, -⟩
    · exact ⟨.physical none none, h⟩
    · exact (hready name value h).asked.valid
  · intro name value hvalue htype
    obtain ⟨h, hsame⟩ := hlogical name value hvalue htype
    change (view s₁ (pg.slots t₂) name).Fresh _
    rw [hsame]
    exact (hready name value h).fresh
  · intro name value row hvalue htype hrow
    obtain ⟨h, hsame⟩ := hlogical name value hvalue htype
    exact (hready name value h).fits row ((congrArg Cell.row hsame).symm.trans hrow)
  rintro _ s' t' ⟨hcreated, hframe'⟩
  refine ⟨fun name value hvalue => ?_, fun name hname => ?_⟩
  · obtain ⟨kind, hkind⟩ := (hready name value hvalue).asked.valid
    cases kind with
    | physical =>
        have htype : value.lookup "type" = some (.str "physical") := hkind
        rw [hframe' name fun value' hvalue' htype' => by
          obtain ⟨h, -⟩ := hlogical name value' hvalue' htype'
          obtain rfl := Option.some.inj (hvalue.symm.trans h)
          exact absurd (htype.symm.trans htype') (by decide)]
        exact ((hstep₁ name value hvalue).1 htype).2
    | logical =>
        have hsame := (hstep₁ name value hvalue).2 hkind.1
        have hvalue₁ := (congrArg Cell.wanted hsame).trans hvalue
        exact (hcreated name value hvalue₁ hkind.1).imp_right fun h => ⟨h.1, .inl h.2⟩
  · have hsame := hframe₁ name hname
    rw [hframe' name fun value' hvalue' _ => ?_]
    · exact congrArg Cell.row hsame
    · have hnone := (congrArg Cell.wanted hsame).trans (AList.lookup_eq_none.mpr hname)
      exact absurd (hvalue'.symm.trans hnone) (by simp)

/-- The body of `sync_replication_slots` on a primary. -/
theorem wpIn_syncSlots (pg : Postgres τ) (unable : Set String) (cluster : Cluster)
    (hload : s.scheduleLoadSlots = true) (hversion : 110000 ≤ settings.majorVersion)
    (hasked : ∀ name value, slots.lookup name = some value → Asked value)
    (hfree : Free settings slots (pg.slots t)) :
    wpIn (pg.env unable) (syncSlots settings cluster slots)
      (fun _ _ t' => Reconciled unable settings slots (pg.slots t) (pg.slots t')) NoException s
      t := by
  rw [syncSlots, wpIn_bind]
  refine wpIn_next (wpIn_loadReplicationSlots pg unable t (le_trans (by decide) hversion) hload) ?_
  rintro _ s₁ t₁ ⟨hslots₁, hfresh₁⟩
  rw [wpIn_bind, wpIn_update, wpIn_bind]
  rw [← hslots₁] at hfresh₁ hfree
  refine wpIn_next (wpIn_dropIncorrectSlots_of_fresh pg unable hfresh₁ hfree.answers
    fun name value hvalue => (hasked name value hvalue).valid) ?_
  rintro _ s₂ t₂ ⟨hfresh₂, hslots₂, hrow₂⟩
  rw [wpIn_bind]
  refine wpIn_next (wpIn_cleanInactivePhysicalSlots pg unable settings cluster s₂ t₂) ?_
  rintro clean s₃ t₃ ⟨rfl, hslots₃⟩
  rw [wpIn_bind]
  refine wpIn_next (wpIn_ensureSlots pg unable hversion clean fun name value hvalue => ?_) ?_
  · have hvalue' : slots.lookup name = some value := (hslots₂ name).symm.trans hvalue
    rw [hslots₃]
    refine ⟨hvalue, hfresh₂ name, hasked name value hvalue', fun row hrow => ?_⟩
    obtain ⟨hrow, hkept⟩ := (hrow₂ name row).mp hrow
    exact hkept.fits hfree hvalue' hrow
  intro _ s₄ t₄ hlogical
  rw [wpIn_bind, wpIn_ask]
  refine ⟨fun primary t₅ ht => ?_, fun _ _ ht => ht.2⟩
  obtain ⟨rfl, hslots₅⟩ := pg.isPrimary ht.1
  rw [if_pos rfl, wpIn_bind, wpIn_update, wpIn_bind]
  refine wpIn_next (hlogical t₅ hslots₅) ?_
  rintro _ s₆ t₆ ⟨hwanted, hunknown⟩
  rw [hslots₃] at hwanted hunknown
  change Reconciled unable settings slots (pg.slots t) (pg.slots t₆)
  rw [← hslots₁]
  refine ⟨fun name value hvalue => ?_, fun name hname row => ?_⟩
  · exact (hwanted name value ((hslots₂ name).trans hvalue)).of_le fun row hrow =>
      ((hrow₂ name row).mp hrow).1
  · rw [hunknown name fun h => hname ?_]
    · exact hrow₂ name row
    · rw [← AList.lookup_isSome, ← hslots₂ name, AList.lookup_isSome]
      exact h

section

variable [NodeName String]

/-! ## What a cluster asks for -/

/-- The database and the plugin of a slot are names, if they are given. -/
def HasNames (slot : Slot) : Prop :=
  ∀ key ∈ ["database", "plugin"], (slot.get key .null).truthy = true →
    ∃ name, slot.lookup key = some (.str name)

omit [NodeName String] in
theorem HasNames.congr {slot slot' : Slot} (h : HasNames slot)
    (heq : ∀ key ∈ ["database", "plugin"], slot'.lookup key = slot.lookup key) :
    HasNames slot' := by
  intro key hkey
  rw [Slot.get, heq key hkey]
  exact h key hkey

omit [NodeName String] in
theorem HasLsn.congr {slot slot' : Slot} (h : HasLsn slot)
    (heq : slot'.lookup "lsn" = slot.lookup "lsn") : HasLsn slot' := by
  rw [HasLsn, Slot.get, heq]
  exact h

theorem withLsn_cases (cluster : Cluster) (name : String) (slot : Slot) :
    (∃ lsn, withLsn cluster name slot = Dict.set slot "lsn" (.int lsn)) ∨
      withLsn cluster name slot = AList.erase "lsn" slot := by
  simp only [withLsn]
  generalize max (_ : ℤ) _ = lsn
  split
  · exact .inl ⟨lsn, rfl⟩
  · exact .inr rfl

/-- The LSN of a permanent slot is a number. -/
theorem hasLsn_withLsn (cluster : Cluster) (name : String) (slot : Slot) :
    HasLsn (withLsn cluster name slot) := by
  rcases withLsn_cases cluster name slot with ⟨lsn, h⟩ | h
  · exact fun _ => ⟨lsn, by rw [h, Slot.get, Dict.lookup_set_self]; rfl⟩
  · intro htruthy
    rw [h, Slot.get, AList.lookup_erase] at htruthy
    cases htruthy

theorem hasNames_withLsn (cluster : Cluster) (name : String) {slot : Slot} (h : HasNames slot) :
    HasNames (withLsn cluster name slot) := by
  refine h.congr fun key hkey => ?_
  have hne : key ≠ "lsn" := by
    rintro rfl
    exact absurd hkey (by decide)
  rcases withLsn_cases cluster name slot with ⟨lsn, h⟩ | h
  · rw [h, Dict.lookup_set_ne slot hne]
  · rw [h, AList.lookup_erase_ne hne]

omit [NodeName String] in
theorem asked_physical : Asked physical :=
  ⟨⟨.physical none none, by simp [Fits, physical]⟩, fun h => by cases h⟩

theorem asked_memberSlot (cluster : Cluster) (name : String) (role : PostgresqlRole)
    (member : Member) : Asked (memberSlot cluster name role member) := by
  refine ⟨⟨.physical none none, ?_⟩, fun _ => ⟨memberLsn cluster member, ?_⟩⟩
  · simp [Fits, memberSlot, physical, Dict.lookup_set]
  · simp [Slot.get, memberSlot, Dict.lookup_set]

omit [NodeName String] in
/-- The type is added where it is missing. -/
theorem complete_names {slot value : Slot} (h : complete (.dict slot) = some value)
    (hnames : HasNames slot) (hlsn : HasLsn slot) :
    HasNames value ∧ HasLsn value ∧ "type" ∈ value := by
  rw [complete] at h
  split at h
  · obtain rfl := Option.some.inj h
    refine ⟨fun key hkey htruthy => ?_, asked_physical.hasLsn, by simp [physical]⟩
    simp only [List.mem_cons, List.not_mem_nil, or_false] at hkey
    rcases hkey with rfl | rfl
    · cases htruthy
    · cases htruthy
  · split at h
    · next htype =>
        obtain rfl := Option.some.inj h
        exact ⟨hnames, hlsn, htype⟩
    · obtain rfl := Option.some.inj h
      refine ⟨hnames.congr fun key hkey => Dict.lookup_set_ne _ ?_ _,
        hlsn.congr (Dict.lookup_set_ne _ (by decide) _), by simp⟩
      rintro rfl
      exact absurd hkey (by decide)

/-- Every value of a dictionary is one that may be asked for. -/
def AllAsked (slots : Dict String Slot) : Prop :=
  ∀ name value, slots.lookup name = some value → Asked value

omit [NodeName String] in
theorem AllAsked.set {slots : Dict String Slot} (h : AllAsked slots) (name : String) {value : Slot}
    (hvalue : Asked value) : AllAsked (slots.set name value) := by
  intro name' value' hlookup
  rw [Dict.lookup_set] at hlookup
  split at hlookup
  · obtain rfl := Option.some.inj hlookup
    exact hvalue
  · exact h name' value' hlookup

omit [NodeName String] in
theorem AllAsked.foldl {α β : Type} {f : β → α → β} {g : β → Dict String Slot} {as : List α} {b : β}
    (h : AllAsked (g b)) (hf : ∀ b, ∀ a ∈ as, AllAsked (g b) → AllAsked (g (f b a))) :
    AllAsked (g (as.foldl f b)) := by
  induction as generalizing b with
  | nil => exact h
  | cons a as ih =>
      exact ih (hf b a List.mem_cons_self h) fun b a ha => hf b a (List.mem_cons_of_mem _ ha)

theorem allAsked_getMembersSlots (config : SlotsConfig) (cluster : Cluster) (name : String)
    (role : PostgresqlRole) (nofailover canAdvanceSlots : Bool) :
    AllAsked (getMembersSlots config cluster name role nofailover canAdvanceSlots) := by
  have hempty : AllAsked ∅ := fun name value h => by simp at h
  rw [getMembersSlots]
  split
  · refine AllAsked.foldl (g := id) (AllAsked.foldl (g := id) hempty fun b m _ hb => ?_)
      fun b slot _ hb => ?_
    · exact hb.set _ (asked_memberSlot cluster name role m)
    · exact hb.set _ asked_physical
  · exact hempty

/-- The names in the configuration of the permanent slots are names. -/
def SlotsConfig.HasNames (config : SlotsConfig) : Prop :=
  ∀ name slot, config.permanentSlots.lookup name = some (.dict slot) → Sync.HasNames slot

omit [NodeName String] in
theorem typed_of_isLogicalSlot {value : Slot} (h : isLogicalSlot (.dict value) = true)
    (htype : "type" ∈ value) (hnames : HasNames value) : Typed value := by
  obtain ⟨hlogical, hgiven⟩ := Bool.and_eq_true_iff.mp h
  obtain ⟨hdatabase, hplugin⟩ := Bool.and_eq_true_iff.mp hgiven
  obtain ⟨database, hdatabase⟩ := hnames "database" (by decide) hdatabase
  obtain ⟨plugin, hplugin⟩ := hnames "plugin" (by decide) hplugin
  obtain ⟨type, htype⟩ := Option.isSome_iff_exists.mp (AList.lookup_isSome.mpr htype)
  have hget : value.get "type" (.str "logical") = type := by
    rw [Slot.get, htype]
    rfl
  obtain rfl : type = .str "logical" := hget.symm.trans (of_decide_eq_true hlogical)
  exact ⟨.logical plugin database 0 none none, htype, hdatabase, hplugin⟩

theorem asked_mergePermanentSlot (cluster : Cluster) (name : String) (role : PostgresqlRole)
    (canAdvanceSlots : Bool) {acc : Dict String Slot × List String}
    {item : Sigma fun _ : String => SlotValue}
    (hitem : ∀ value ∈ complete item.2, HasNames value ∧ HasLsn value ∧ "type" ∈ value)
    (h : AllAsked acc.1) :
    AllAsked (mergePermanentSlot cluster name role canAdvanceSlots acc item).1 := by
  obtain ⟨slots, disabled⟩ := acc
  unfold mergePermanentSlot
  dsimp only
  split
  · split
    · exact h
    · next value hvalue =>
        obtain ⟨hnames, hlsn, htype⟩ := hitem value hvalue
        split
        · next hphysical =>
            split
            · refine h.set _ ⟨⟨.physical none none, ?_⟩,
                hlsn.congr (Dict.lookup_set_ne _ (by decide) _)⟩
              rw [Fits, Dict.lookup_set_ne _ (by decide)]
              exact lookup_of_get_type hphysical
            · exact h
        · split
          · next hlogical =>
              split
              · exact h
              · split
                · exact h
                · exact h.set _ ⟨typed_of_isLogicalSlot hlogical htype hnames, hlsn⟩
          · exact h
  · exact h

/-- What a cluster asks for is well typed, if the names in the configuration are. -/
theorem allAsked_getReplicationSlots {config : SlotsConfig} (hnames : SlotsConfig.HasNames config)
    (cluster : Cluster) (postgresql : Postgresql) (memberName : Option String) (tags : NodeTags)
    (role : Option PostgresqlRole) :
    AllAsked (getReplicationSlots config cluster postgresql memberName tags role) := by
  refine AllAsked.foldl (g := Prod.fst) (allAsked_getMembersSlots _ _ _ _ _ _)
    fun acc item hitem hacc => asked_mergePermanentSlot _ _ _ _ (fun value hvalue => ?_) hacc
  obtain ⟨value₀, hvalue₀, hstored⟩ := mem_permanentSlots.mp (getPermanentSlots_subset hitem)
  rw [← hstored] at hvalue
  have hphysical : HasNames (∅ : Slot) := fun key hkey htruthy => by
    simp only [Slot.get, AList.lookup_empty, Option.getD_none] at htruthy
    cases htruthy
  cases value₀ with
  | falsy => exact complete_names hvalue (hasNames_withLsn _ _ hphysical) (hasLsn_withLsn _ _ _)
  | dict slot =>
      have hslot := hnames item.1 slot (AList.mem_lookup_iff.mpr hvalue₀)
      exact complete_names hvalue (hasNames_withLsn _ _ hslot) (hasLsn_withLsn _ _ _)
  | other => cases hvalue

/-- A primary from PostgreSQL 11 on, in a cluster that asks for certain slots. -/
structure AsksFor (h : Heartbeat) (settings : Settings) (slots : Dict String Slot) : Prop where
  settings_eq : h.settings = settings
  version : 110000 ≤ settings.majorVersion
  slots : AsksSame slots h.slots
  names : SlotsConfig.HasNames h.config

/-- What the body of a pass does. -/
theorem AsksFor.wpIn_body {h : Heartbeat} (hasks : AsksFor h settings slots) (pg : Postgres τ)
    (unable : Set String) (hload : s.scheduleLoadSlots = true)
    (hfree : Free settings slots (pg.slots t)) :
    wpIn (pg.env unable) h.body
      (fun _ _ t' => Reconciled unable settings slots (pg.slots t) (pg.slots t')) NoException s
      t := by
  rw [Heartbeat.body, hasks.settings_eq]
  refine wpIn_next (wpIn_syncSlots pg unable h.cluster hload hasks.version
    (allAsked_getReplicationSlots hasks.names _ _ _ _ _) (hasks.slots.free hfree)) ?_
  exact fun _ _ t' hpass => hasks.slots.reconciled hpass

/-! ## Runs -/

/-- Passes on a PostgreSQL whose slots nobody changes between them. -/
inductive Runs (pg : Postgres τ) : List Pass → τ → τ → Prop
  | nil (t : τ) : Runs pg [] t t
  | cons {p : Pass} {ps : List Pass} {t t₁ t₂ t' : τ} (hgives : pg.answers.Gives t p.calls t₁)
      (hslots : pg.slots t₂ = pg.slots t₁) (hrest : Runs pg ps t₂ t') : Runs pg (p :: ps) t t'

/-- A pass that loads the slots, and whose statements succeed. -/
structure Sound (unable : Set String) (settings : Settings) (slots : Dict String Slot) (p : Pass) :
    Prop where
  asks : AsksFor p.heartbeat settings slots
  load : p.before.scheduleLoadSlots = true
  succeeds : ∀ e ∈ p.calls, Succeeds unable e

/-- The body of a pass returns without an exception. -/
def Pass.Returns (p : Pass) : Prop :=
  ∃ ret s, Program.Exec (p.heartbeat.body p.before) p.calls (.ok ret, s)

theorem Sound.pass {p : Pass} (hsound : Sound unable settings slots p)
    (hgives : pg.answers.Gives t p.calls t') (hfree : Free settings slots (pg.slots t)) :
    p.Returns ∧ Reconciled unable settings slots (pg.slots t) (pg.slots t') := by
  have hversion : 90400 ≤ p.heartbeat.settings.majorVersion := by
    rw [hsound.asks.settings_eq]
    exact le_trans (by decide) hsound.asks.version
  obtain ⟨r, s, hbody, -⟩ := p.exec_body hversion
  have henv : (pg.env unable).Gives t p.calls t' :=
    hgives.mono fun _ e he _ h => ⟨h, hsound.succeeds e he⟩
  have hend := hbody.wpIn henv (hsound.asks.wpIn_body pg unable hsound.load hfree)
  cases r with
  | ok ret => exact ⟨⟨ret, s, hbody⟩, hend⟩
  | error e => exact hend.elim

/-- After a pass, the other passes leave the slots that the cluster asks for, and create those that
are missing. -/
theorem Runs.synchronised {ps : List Pass} (hruns : Runs pg ps t t') (hne : ps ≠ [])
    (hsound : ∀ p ∈ ps, Sound unable settings slots p) (hfree : Free settings slots (pg.slots t))
    (hhalfway : Halfway slots (pg.slots t)) :
    (∀ p ∈ ps, p.Returns) ∧ Synchronised unable slots (pg.slots t') ∧
      ∀ name ∉ slots, ∀ row, pg.slots t' name = some row ↔
        pg.slots t name = some row ∧ Kept settings slots name row := by
  induction hruns with
  | nil => exact absurd rfl hne
  | @cons p ps t t₁ t₂ t' hgives hslots hrest ih =>
      obtain ⟨hreturns, hpass⟩ := (hsound p List.mem_cons_self).pass hgives hfree
      rw [← hslots] at hpass
      cases hrest with
      | nil => exact ⟨List.forall_mem_singleton.mpr hreturns, hpass.synchronised hhalfway,
          hpass.unknown⟩
      | @cons q ps =>
          obtain ⟨hrest, hsynchronised, hunknown⟩ := ih (List.cons_ne_nil q ps)
            (fun p hp => hsound p (List.mem_cons_of_mem _ hp)) (hpass.free hfree) hpass.halfway
          refine ⟨List.forall_mem_cons.mpr ⟨hreturns, hrest⟩, hsynchronised,
            fun name hname row => ?_⟩
          rw [hunknown name hname, hpass.unknown name hname, and_assoc, and_self]

/-- After two passes or more the slots are those that the cluster asks for and that PostgreSQL can
create, and those that nobody may drop. -/
theorem replication_slots_synchronised {ps : List Pass} (hruns : Runs pg ps t t')
    (hlength : 2 ≤ ps.length) (hsound : ∀ p ∈ ps, Sound unable settings slots p)
    (hfree : Free settings slots (pg.slots t)) :
    (∀ p ∈ ps, p.Returns) ∧ Synchronised unable slots (pg.slots t') ∧
      ∀ name ∉ slots, ∀ row, pg.slots t' name = some row ↔
        pg.slots t name = some row ∧ Kept settings slots name row := by
  cases hruns with
  | nil => exact absurd hlength (Nat.not_succ_le_zero 1)
  | @cons p ps t t₁ t₂ t' hgives hslots hrest =>
      obtain ⟨hreturns, hpass⟩ := (hsound p List.mem_cons_self).pass hgives hfree
      rw [← hslots] at hpass
      have hne : ps ≠ [] := List.ne_nil_of_length_pos (Nat.le_of_succ_le_succ hlength)
      obtain ⟨hrest, hsynchronised, hunknown⟩ := hrest.synchronised hne
        (fun p hp => hsound p (List.mem_cons_of_mem _ hp)) (hpass.free hfree) hpass.halfway
      refine ⟨List.forall_mem_cons.mpr ⟨hreturns, hrest⟩, hsynchronised, fun name hname row => ?_⟩
      rw [hunknown name hname, hpass.unknown name hname, and_assoc, and_self]

end

/-! ## A cluster -/

/-- A PostgreSQL without other clients, on which no output plugin is installed. -/
def executeA : (q : Query) → Dict String Row → Except SlotsException q.Answer × Dict String Row
  | .loadReplicationSlots, rows =>
      (.ok ((rows.entries.filter fun e => e.2.shown).map fun e => (e.1, e.2.kind)), rows)
  | .dropReplicationSlot name, rows =>
      match rows.lookup name with
      | none => (.ok (false, false), rows)
      | some row => if row.active then (.ok (true, false), rows)
          else (.ok (false, true), rows.erase name)
  | .createPhysicalReplicationSlot name, rows =>
      match rows.lookup name with
      | none => (.ok (), rows.set name (newRow (.physical (some 1) none)))
      | some ⟨.physical .., _, _, _⟩ => (.ok (), rows)
      | some ⟨.logical .., _, _, _⟩ => (.error .queryFailed, rows)
  | .advanceReplicationSlot name lsn, rows =>
      match rows.lookup name with
      | some ⟨.physical (some restartLsn) xmin, false, temporary, failover⟩ =>
          if restartLsn < lsn ∧ lsn ≠ 0 then
            (.ok (), rows.set name ⟨.physical (some lsn) xmin, false, temporary, failover⟩)
          else (.error .queryFailed, rows)
      | _ => (.error .queryFailed, rows)
  | .connect _, rows => (.ok (), rows)
  | .createLogicalReplicationSlot _ name _, rows =>
      match rows.lookup name with
      | some ⟨.logical .., _, _, _⟩ => (.ok (), rows)
      | _ => (.error .queryFailed, rows)
  | .isPrimary, rows => (.ok true, rows)
  | .replayLsn, rows => (.ok none, rows)
  | .checkLogicalSlotsReadiness, rows => (.ok (), rows)
  | .scheduleAdvance _, rows => (.ok (false, []), rows)

theorem lookup_setRow (rows : Dict String Row) (name : String) (row : Row) :
    (fun k => (rows.set name row).lookup k) = Function.update rows.lookup name (some row) := by
  funext k
  rw [Dict.lookup_set, Function.update_apply]

theorem lookup_eraseRow (rows : Dict String Row) (name : String) :
    (fun k => (rows.erase name).lookup k) = Function.update rows.lookup name none := by
  funext k
  by_cases hk : k = name
  · subst hk
    simp
  · simp [hk]

theorem executeA_error {q : Query} {e : SlotsException} {rows rows' : Dict String Row}
    (h : executeA q rows = (.error e, rows')) : rows' = rows := by
  unfold executeA at h
  repeat' split at h
  all_goals cases h
  all_goals rfl

theorem executeA_load {shown : List (String × Kind)} {rows rows' : Dict String Row}
    (h : executeA .loadReplicationSlots rows = (.ok shown, rows')) :
    (shown.map Prod.fst).Nodup ∧ (∀ name kind, (name, kind) ∈ shown ↔
      ∃ row, rows.lookup name = some row ∧ row.shown = true ∧ row.kind = kind) ∧ rows' = rows := by
  obtain ⟨hshown, rfl⟩ := Prod.mk.inj h
  obtain rfl := Except.ok.inj hshown
  have hsublist : ((rows.entries.filter fun e => e.2.shown).map Sigma.fst).Sublist rows.keys :=
    List.filter_sublist.map Sigma.fst
  refine ⟨?_, fun name kind => ?_, rfl⟩
  · rw [List.map_map]
    exact hsublist.nodup rows.nodupKeys
  · rw [List.mem_map]
    constructor
    · rintro ⟨⟨k, row⟩, he, heq⟩
      obtain ⟨rfl, rfl⟩ := Prod.mk.inj heq
      obtain ⟨hmem, hp⟩ := List.mem_filter.mp he
      exact ⟨row, AList.mem_lookup_iff.mpr hmem, hp, rfl⟩
    · rintro ⟨row, hrow, hp, rfl⟩
      exact ⟨⟨name, row⟩, List.mem_filter.mpr ⟨AList.mem_lookup_iff.mp hrow, hp⟩, rfl⟩

def postgresA : Postgres (Dict String Row) where
  slots rows := fun name => rows.lookup name
  answers rows e rows' := executeA e.op rows = (e.answer, rows')
  failed h := .inl (by rw [executeA_error h])
  load h := by
    obtain ⟨hnodup, hshown, rfl⟩ := executeA_load h
    exact ⟨hnodup, hshown, rfl⟩
  drop := by
    intro rows name result rows' h
    simp only [executeA] at h
    cases hrow : rows.lookup name with
    | none =>
        simp only [hrow, Prod.mk.injEq, Except.ok.injEq] at h
        obtain ⟨rfl, rfl⟩ := h
        exact ⟨rfl, rfl⟩
    | some row =>
        cases hactive : row.active with
        | true =>
            simp only [hrow, hactive, if_true, Prod.mk.injEq, Except.ok.injEq] at h
            obtain ⟨rfl, rfl⟩ := h
            exact ⟨by simp [hactive], rfl⟩
        | false =>
            simp only [hrow, hactive, Bool.false_eq_true, if_false, Prod.mk.injEq,
              Except.ok.injEq] at h
            obtain ⟨rfl, rfl⟩ := h
            exact ⟨by simp [hactive], lookup_eraseRow rows name⟩
  createPhysical := by
    intro rows name rows' h hrow
    simp only [executeA, hrow, Prod.mk.injEq, true_and] at h
    exact ⟨1, one_ne_zero, h ▸ lookup_setRow rows name _⟩
  advance := by
    intro rows name lsn rows' h restartLsn xmin active temporary failover hrow
    cases active with
    | true => simp [executeA, hrow] at h
    | false =>
        by_cases hlsn : restartLsn < lsn ∧ lsn ≠ 0
        · simp only [executeA, hrow, if_pos hlsn, Prod.mk.injEq, true_and] at h
          exact ⟨lsn, hlsn.2, h ▸ lookup_setRow rows name _⟩
        · simp [executeA, hrow, if_neg hlsn] at h
  connect h := by rw [(Prod.mk.inj h).2]
  createLogical := by
    intro rows database name plugin rows' h
    simp only [executeA] at h
    constructor
    · intro hrow
      simp [hrow] at h
    · intro row hrow
      obtain ⟨kind, active, temporary, failover⟩ := row
      cases kind with
      | physical => simp [hrow] at h
      | logical =>
          simp only [hrow, Prod.mk.injEq, true_and] at h
          rw [h]
  isPrimary h := by
    obtain ⟨hb, hrows⟩ := Prod.mk.inj h
    exact ⟨(Except.ok.inj hb).symm, by rw [hrows]⟩

/-- Two slots that were created by others: one without a position, and one that is not asked for. -/
def foreignRows : Dict String Row :=
  ((∅ : Dict String Row).set "c" (newRow (.physical none none))).set "d"
    (newRow (.physical none none))

/-- A primary on PostgreSQL 15, whose cluster asks for slots `b`, `c` and `l`. -/
def heartbeatA : Heartbeat :=
  ⟨⟨150000, "a", false, [], fun _ => some false⟩, retention true, pair, .primary,
    (member "a" none).tags⟩

/-- A pass on this PostgreSQL, and the slots after it. -/
def passA (s : SlotsHandler) (rows : Dict String Row) : Pass × Dict String Row :=
  let r := (heartbeatA.sync s).play executeA rows
  (⟨heartbeatA, s, r.1, r.2.1.1, r.2.1.2, Program.play_exec _ _ _⟩, r.2.2)

/-- The first pass drops `c`, which has no position, and the second one creates it again. -/
def firstPass : Pass × Dict String Row := passA notLoaded foreignRows

def secondPass : Pass × Dict String Row := passA firstPass.1.after firstPass.2

example : firstPass.2.lookup "c" = none ∧
    secondPass.2.lookup "c" = some (newRow (.physical (some 1) none)) := by decide +kernel

theorem runs_passA : Runs postgresA [firstPass.1, secondPass.1] foreignRows secondPass.2 :=
  .cons (Program.play_gives (fun _ _ => rfl) _ _) rfl
    (.cons (Program.play_gives (fun _ _ => rfl) _ _) rfl (.nil _))

/-- A statement succeeds, or tries to create `l`. -/
def succeedsA (e : Call) : Bool :=
  e.answer.isOk || e.op = .createLogicalReplicationSlot (.str "app") "l" (.str "test_decoding")

theorem succeeds_of_succeedsA {e : Call} (h : succeedsA e = true) : Succeeds {"l"} e := by
  obtain ⟨op, answer⟩ := e
  cases answer with
  | ok a => trivial
  | error e =>
      obtain rfl : op = .createLogicalReplicationSlot (.str "app") "l" (.str "test_decoding") := by
        simpa [succeedsA, Except.isOk, Except.toBool] using h
      exact Set.mem_singleton "l"

theorem asksFor_heartbeatA : AsksFor heartbeatA heartbeatA.settings heartbeatA.slots := by
  refine ⟨rfl, by decide, ⟨fun _ => Iff.rfl, fun name value value' hvalue hvalue' => ?_⟩,
    fun name slot hslot => ?_⟩
  · obtain rfl := Option.some.inj (hvalue.symm.trans hvalue')
    exact fun _ _ => rfl
  · change AList.lookup name (Dict.set ∅ "l" (SlotValue.dict logicalSlot)) = _ at hslot
    rw [Dict.lookup_set] at hslot
    split at hslot
    · obtain rfl := SlotValue.dict.inj (Option.some.inj hslot)
      intro key hkey _
      simp only [List.mem_cons, List.not_mem_nil, or_false] at hkey
      rcases hkey with rfl | rfl
      · exact ⟨"app", rfl⟩
      · exact ⟨"test_decoding", rfl⟩
    · cases hslot

theorem sound_firstPass : Sound {"l"} heartbeatA.settings heartbeatA.slots firstPass.1 where
  asks := asksFor_heartbeatA
  load := rfl
  succeeds e he := by
    have hall : firstPass.1.calls.all succeedsA = true := by decide +kernel
    exact succeeds_of_succeedsA (List.all_eq_true.mp hall e he)

theorem sound_secondPass : Sound {"l"} heartbeatA.settings heartbeatA.slots secondPass.1 where
  asks := asksFor_heartbeatA
  load := by
    change firstPass.1.after.scheduleLoadSlots = true
    decide +kernel
  succeeds e he := by
    have hall : secondPass.1.calls.all succeedsA = true := by decide +kernel
    exact succeeds_of_succeedsA (List.all_eq_true.mp hall e he)

theorem free_foreignRows :
    Free heartbeatA.settings heartbeatA.slots (postgresA.slots foreignRows) := by
  have heq : ∀ name row, foreignRows.lookup name = some row →
      row = newRow (.physical none none) := by
    intro name row hrow
    rw [foreignRows, Dict.lookup_set, Dict.lookup_set] at hrow
    split at hrow
    · exact (Option.some.inj hrow).symm
    · split at hrow
      · exact (Option.some.inj hrow).symm
      · cases hrow
  refine ⟨fun name value row _ hrow => ?_, fun name value row _ hrow hactive => ?_,
    fun _ _ _ _ _ => rfl⟩
  · rw [heq name row hrow]
    rfl
  · rw [heq name row hrow] at hactive
    cases hactive

/-- Two passes create `b` and `c`, and drop `d`. The slot `l` cannot be created without a plugin. -/
theorem replication_slots_synchronised_foreign :
    Synchronised {"l"} heartbeatA.slots (postgresA.slots secondPass.2) ∧
      postgresA.slots secondPass.2 "d" = none := by
  obtain ⟨-, hsynchronised, hunknown⟩ := replication_slots_synchronised runs_passA (Nat.le_refl 2)
    (List.forall_mem_cons.mpr ⟨sound_firstPass, List.forall_mem_singleton.mpr sound_secondPass⟩)
    free_foreignRows
  have hnot : "d" ∉ heartbeatA.slots := by decide +kernel
  refine ⟨hsynchronised, Option.eq_none_iff_forall_ne_some.mpr fun row hlookup => ?_⟩
  obtain ⟨hrow, hkept⟩ := (hunknown "d" hnot row).mp hlookup
  obtain rfl : newRow (.physical none none) = row := Option.some.inj hrow
  rcases hkept with h | h | ⟨slot, h, -⟩ | ⟨-, h⟩
  · cases h
  · cases h
  · exact hnot (AList.lookup_isSome.mp (Option.isSome_iff_exists.mpr ⟨slot, h⟩))
  · exact absurd h (by decide)

end Sync

end Slots

end Metatroni
