import Mathlib.Data.List.Chain
import Metatroni.Slots.Drop

/-!
# A slot of an MPP database that is not asked for

The handler of Citus looks up the name of a slot in the slot, where `load_replication_slots` has not
put it. As long as there is a logical slot in the database of Citus that the cluster does not ask
for, every pass ends with an exception, before any slot is created.

## Implementation notes

The slots that are not asked for are a set in the source, which has some order; here it is the order
of the rows that were loaded. PostgreSQL answers as it likes, and what the cluster asks for may be
different in every pass.
-/

namespace Metatroni

namespace Slots

namespace Sync

open Interaction Interaction.Method

/-! ## The handler -/

/-- `[1-9][0-9]*` -/
def isPositiveNumber : List Char → Bool
  | [] => false
  | c :: cs => c ≠ '0' && (c :: cs).all Char.isDigit

/-- The group of `^citus_shard_(move|split)_slot(_[1-9][0-9]*){2,3}$`. The final `$` also matches
before a line break at the end. -/
def citusSlotKind (name : String) : Option String :=
  let chars := if name.toList.getLast? = some '\n' then name.toList.dropLast else name.toList
  ["move", "split"].find? fun kind =>
    let start := ("citus_shard_" ++ kind ++ "_slot").toList
    let groups := (chars.drop start.length).splitOn '_'
    start.isPrefixOf chars && groups.head? = some [] && groups.tail.all isPositiveNumber &&
      (groups.tail.length = 2 || groups.tail.length = 3)

/-- `ignore_replication_slot` of the handler of Citus on a primary, which may miss a key. -/
def citusIgnores (database : String) (slot : Slot) : Option Bool := do
  let type ← slot.lookup "type"
  if type = .str "logical" then
    if (← slot.lookup "database") = .str database then
      match ← slot.lookup "name" with
      | .str name =>
          match citusSlotKind name with
          | some kind =>
              return (← slot.lookup "plugin") = .str (if kind = "move" then "pgoutput" else "citus")
          | none => return false
      | _ => none
    else return false
  else return false

/-- A slot that is loaded has no name. -/
theorem citusIgnores_loaded (database : String) (majorVersion : ℕ) (plugin : String) (datoid : ℤ)
    (catalogXmin confirmedFlushLsn : Option ℤ) :
    citusIgnores database
      (loaded majorVersion (.logical plugin database datoid catalogXmin confirmedFlushLsn)) =
        none := by
  by_cases h : 100000 ≤ majorVersion
  · simp [citusIgnores, loaded, h, Dict.lookup_set]
  · simp [citusIgnores, loaded, h, Dict.lookup_set]

/-- With a name the handler answers. -/
example : citusIgnores "citus" (((((∅ : Slot).set "type" (.str "logical")).set "database"
    (.str "citus")).set "name" (.str "citus_shard_move_slot_1_2_3")).set "plugin"
      (.str "pgoutput")) = some true := by decide +kernel

/-! ## What a pass has been shown -/

/-- A logical slot in the database of Citus that the cluster does not ask for. -/
structure IsForeign (h : Heartbeat) (database : String) (rows : List (String × Kind))
    (name : String) : Prop where
  unknown : name ∉ h.slots
  row : ∃ plugin datoid catalogXmin confirmedFlushLsn,
    (name, .logical plugin database datoid catalogXmin confirmedFlushLsn) ∈ rows ∧
      ignoreReplicationSlot h.settings (loaded h.settings.majorVersion
        (.logical plugin database datoid catalogXmin confirmedFlushLsn)) name ≠ some true

/-- There is such a slot, and no two slots have one name. -/
def Hindered (h : Heartbeat) (database : String) (rows : List (String × Kind)) : Prop :=
  (rows.map Prod.fst).Nodup ∧ ∃ name, IsForeign h database rows name

/-- The rows that were loaded. -/
inductive Seen
  | nothing
  | failed
  | slots (rows : List (String × Kind))

def Seen.note : Seen → Call → Seen
  | .nothing, e => match e with
    | ⟨.loadReplicationSlots, .ok rows⟩ => .slots rows
    | ⟨.loadReplicationSlots, .error _⟩ => .failed
    | _ => .nothing
  | .failed, _ => .failed
  | .slots rows, _ => .slots rows

/-- What may be asked: first the slots, and then to drop one that is not in the way. -/
def MayAsk (h : Heartbeat) (database : String) : Seen → Query → Prop
  | .nothing, q => q = .loadReplicationSlots
  | .failed, _ => False
  | .slots rows, q => Hindered h database rows → ∃ name, q = .dropReplicationSlot name ∧
      name ∉ h.slots ∧ ¬IsForeign h database rows name

def watch (h : Heartbeat) (database : String) :
    Observer Query Query.Answer SlotsException Seen where
  step := Seen.note
  guard := MayAsk h database

variable {h : Heartbeat} {database : String} {rows : List (String × Kind)} {s : SlotsHandler}

/-- The handler has no answer for a slot that is in the way. -/
theorem IsForeign.exists_lookup {name : String} (hforeign : IsForeign h database rows name)
    (hnodup : (rows.map Prod.fst).Nodup) (hcitus : h.settings.mppIgnores = citusIgnores database) :
    ∃ slot, (rows.foldl (fun (slots : Dict String Slot) r =>
        slots.set r.1 (loaded h.settings.majorVersion r.2)) ∅).lookup name = some slot ∧
      ignoreReplicationSlot h.settings slot name = none := by
  obtain ⟨plugin, datoid, catalogXmin, confirmedFlushLsn, hmem, hunmatched⟩ := hforeign.row
  refine ⟨_, (lookup_copy hnodup _ name _).mpr ⟨_, hmem, rfl⟩, ?_⟩
  rw [ignoreReplicationSlot] at hunmatched ⊢
  split at hunmatched
  · exact absurd rfl hunmatched
  · next hmatch =>
      rw [if_neg hmatch, hcitus]
      exact citusIgnores_loaded ..

/-- What is not in the way does not matter. -/
theorem wp_of_not_hindered {α : Type} (hfree : ¬Hindered h database rows) (x : Method α)
    (s : SlotsHandler) : wp (watch h database) x (fun _ _ m => m = .slots rows)
      (fun _ _ m => m = .slots rows) s (.slots rows) := by
  rw [wp]
  induction x s with
  | ret r =>
      obtain ⟨_ | _, _⟩ := r
      · rfl
      · rfl
  | call op next ih => exact ⟨fun hhindered => absurd hhindered hfree, fun answer => ih answer⟩

/-- `_drop_replication_slot` changes the copy of one slot at most. -/
theorem wp_dropReplicationSlot {name : String} (hmay : MayAsk h database (.slots rows)
    (.dropReplicationSlot name)) (s : SlotsHandler) :
    wp (watch h database) (dropReplicationSlot name)
      (fun _ s' m => m = .slots rows ∧
        ∀ k ≠ name, s'.replicationSlots.lookup k = s.replicationSlots.lookup k)
      (fun _ _ m => m = .slots rows) s (.slots rows) := by
  rw [dropReplicationSlot, wp_bind, wp_ask]
  refine ⟨hmay, fun result => ?_, fun _ => rfl⟩
  split
  · exact ⟨rfl, fun k hk => AList.lookup_erase_ne hk⟩
  · exact ⟨rfl, fun _ _ => rfl⟩

/-- The slots that are in the way are in the copy, and the handler has no answer for them. -/
def Refuses (h : Heartbeat) (database : String) (rows : List (String × Kind)) (s : SlotsHandler) :
    Prop :=
  ∀ name, IsForeign h database rows name → ∃ slot, s.replicationSlots.lookup name = some slot ∧
    ignoreReplicationSlot h.settings slot name = none

/-- A slot that is in the way ends the pass, and another one may be dropped. -/
theorem wp_dropUnknownSlot (hrunning : h.settings.isPaused = false)
    (hrefuses : Refuses h database rows s) {name : String} (hunknown : name ∉ h.slots) :
    wp (watch h database) (dropUnknownSlot h.settings name)
      (fun _ s' m => m = .slots rows ∧ Refuses h database rows s' ∧
        ¬IsForeign h database rows name)
      (fun _ _ m => m = .slots rows) s (.slots rows) := by
  rw [dropUnknownSlot, if_neg (Bool.eq_false_iff.mp hrunning), wp_bind, wp_self, wp_bind]
  by_cases hforeign : IsForeign h database rows name
  · obtain ⟨slot, hslot, hignored⟩ := hrefuses name hforeign
    simp [hslot, hignored, orRaise]
  · cases hslot : s.replicationSlots.lookup name with
    | none => simp [orRaise]
    | some slot =>
        cases hignored : ignoreReplicationSlot h.settings slot name with
        | none => simp [hignored, orRaise]
        | some ignored =>
            cases ignored with
            | true => simp [hignored, orRaise, when, hrefuses, hforeign]
            | false =>
                have hdrop := wp_dropReplicationSlot
                  (fun _ => ⟨name, rfl, hunknown, hforeign⟩ :
                    MayAsk h database (.slots rows) (.dropReplicationSlot name)) s
                have hnext : wp (watch h database) (dropReplicationSlot name)
                    (fun _ s' m => m = .slots rows ∧ Refuses h database rows s' ∧
                      ¬IsForeign h database rows name)
                    (fun _ _ m => m = .slots rows) s (.slots rows) := by
                  refine wp_mono (fun _ s' m hQ => ⟨hQ.1, fun k hk => ?_, hforeign⟩)
                    (fun _ _ _ hE => hE) hdrop
                  rw [hQ.2 k fun heq => hforeign (heq ▸ hk)]
                  exact hrefuses k hk
                simpa [hignored, orRaise, when] using hnext

/-- The loop over the slots that are not asked for does not get past one that is in the way. -/
theorem wp_dropUnknownSlots (hrunning : h.settings.isPaused = false) {names : List String}
    (hunknown : ∀ name ∈ names, name ∉ h.slots) (hrefuses : Refuses h database rows s) :
    wp (watch h database) (forEach (dropUnknownSlot h.settings) names)
      (fun _ _ m => m = .slots rows ∧ ∀ name ∈ names, ¬IsForeign h database rows name)
      (fun _ _ m => m = .slots rows) s (.slots rows) := by
  induction names generalizing s with
  | nil => exact ⟨rfl, fun _ hname => absurd hname List.not_mem_nil⟩
  | cons name names ih =>
      rw [forEach, wp_bind]
      refine wp_mono ?_ (fun _ _ _ hE => hE)
        (wp_dropUnknownSlot hrunning hrefuses (hunknown name List.mem_cons_self))
      rintro _ s' m ⟨rfl, hrefuses', hforeign⟩
      refine wp_mono (fun _ _ m hQ => ⟨hQ.1, ?_⟩) (fun _ _ _ hE => hE)
        (ih (fun k hk => hunknown k (List.mem_cons_of_mem name hk)) hrefuses')
      exact List.forall_mem_cons.mpr ⟨hforeign, hQ.2⟩

/-- `load_replication_slots` asks for the slots, and keeps what it is shown. -/
theorem wp_loadReplicationSlots (hversion : 90400 ≤ h.settings.majorVersion)
    (hload : s.scheduleLoadSlots = true) :
    wp (watch h database) (loadReplicationSlots h.settings)
      (fun _ s' m => ∃ rows, m = .slots rows ∧ s'.replicationSlots =
        rows.foldl (fun (slots : Dict String Slot) r =>
          slots.set r.1 (loaded h.settings.majorVersion r.2)) ∅)
      (fun _ _ m => m = .failed) s .nothing := by
  have hask : (watch h database).guard .nothing .loadReplicationSlots := rfl
  have hcond : (decide (90400 ≤ h.settings.majorVersion) && s.scheduleLoadSlots) = true := by
    rw [hload, decide_eq_true hversion, Bool.and_self]
  rw [loadReplicationSlots, wp_bind, wp_self, if_pos hcond, wp_bind, wp_ask]
  refine ⟨hask, fun rows => ?_, fun _ => rfl⟩
  rw [wp_bind, wp_update, wp_bind, wp_self, when]
  split
  · exact ⟨rows, rfl, rfl⟩
  · exact ⟨rows, rfl, rfl⟩

/-- A pass that returns has not been shown a slot that is in the way. -/
theorem wp_body (hcitus : h.settings.mppIgnores = citusIgnores database)
    (hrunning : h.settings.isPaused = false) (hversion : 90400 ≤ h.settings.majorVersion)
    (hload : s.scheduleLoadSlots = true) :
    wp (watch h database) h.body (fun _ _ m => ∃ rows, m = .slots rows ∧ ¬Hindered h database rows)
      (fun _ _ m => m ≠ .nothing) s .nothing := by
  rw [Heartbeat.body, syncSlots, wp_bind]
  refine wp_mono ?_ (fun _ _ m (hm : m = .failed) => hm ▸ Seen.noConfusion)
    (wp_loadReplicationSlots hversion hload)
  rintro _ s₁ _ ⟨rows, rfl, hcopy⟩
  by_cases hfree : Hindered h database rows
  · obtain ⟨hnodup, name, hforeign⟩ := hfree
    rw [wp_bind, wp_update, wp_bind, dropIncorrectSlots, wp_bind, wp_self, wp_bind]
    have hrefuses : Refuses h database rows { s₁ with slots := h.slots } := fun k hk =>
      hcopy ▸ hk.exists_lookup hnodup hcitus
    refine wp_mono ?_ (fun _ _ m (hm : m = .slots rows) => hm ▸ Seen.noConfusion)
      (wp_dropUnknownSlots hrunning (fun k hk => of_decide_eq_true (List.mem_filter.mp hk).2)
        hrefuses)
    rintro _ _ _ ⟨-, hnone⟩
    obtain ⟨slot, hslot, -⟩ := hrefuses name hforeign
    have hmem : name ∈ s₁.replicationSlots.keys :=
      AList.lookup_isSome.mp (Option.isSome_iff_exists.mpr ⟨slot, hslot⟩)
    exact absurd hforeign (hnone name
      (List.mem_filter.mpr ⟨hmem, decide_eq_true hforeign.unknown⟩))
  · exact wp_mono (fun _ _ _ hm => ⟨rows, hm, hfree⟩)
      (fun _ _ m (hm : m = .slots rows) => hm ▸ Seen.noConfusion) (wp_of_not_hindered hfree _ s₁)

/-! ## A pass that fails -/

/-- A pass on a primary outside of a pause, and whatever slots it is shown, one of them is in the
way. -/
structure Blocked (database : String) (p : Pass) : Prop where
  citus : p.heartbeat.settings.mppIgnores = citusIgnores database
  running : p.heartbeat.settings.isPaused = false
  version : 90400 ≤ p.heartbeat.settings.majorVersion
  hindered : ∀ rows, (⟨.loadReplicationSlots, .ok rows⟩ : Call) ∈ p.calls →
    Hindered p.heartbeat database rows

/-- A pass that loads the slots, drops some that are not in the way at most, and ends with an
exception. The slots are to be loaded again. -/
structure Fails (database : String) (p : Pass) : Prop where
  calls : ∃ answer es, p.calls = ⟨.loadReplicationSlots, answer⟩ :: es ∧ ∀ e ∈ es, ∃ name,
    e.op = .dropReplicationSlot name ∧ name ∉ p.heartbeat.slots ∧
      ∀ rows, answer = .ok rows → ¬IsForeign p.heartbeat database rows name
  exception : ∃ e s, Program.Exec (p.heartbeat.body p.before) p.calls (.error e, s)
  result : p.result = .ok []
  reload : p.after.scheduleLoadSlots = true

theorem after_slots (es : List Call) :
    (watch h database).after (.slots rows) es = .slots rows := by
  induction es with
  | nil => rfl
  | cons e es ih => exact ih

theorem accepts_slots {es : List Call} (haccepts : (watch h database).Accepts (.slots rows) es)
    (hhindered : Hindered h database rows) : ∀ e ∈ es, ∃ name, e.op = .dropReplicationSlot name ∧
      name ∉ h.slots ∧ ¬IsForeign h database rows name := by
  induction es with
  | nil => exact fun _ he => absurd he List.not_mem_nil
  | cons e es ih => exact List.forall_mem_cons.mpr ⟨haccepts.1 hhindered, ih haccepts.2⟩

theorem accepts_failed {es : List Call} (haccepts : (watch h database).Accepts .failed es) :
    es = [] := by
  cases es with
  | nil => rfl
  | cons e es => exact haccepts.1.elim

/-- What is asked after the slots if one of them is in the way. -/
theorem calls_of_accepts {calls : List Call} (haccepts : (watch h database).Accepts .nothing calls)
    (hseen : (watch h database).after .nothing calls ≠ .nothing)
    (hhindered : ∀ rows, (⟨.loadReplicationSlots, .ok rows⟩ : Call) ∈ calls →
      Hindered h database rows) :
    (∃ answer es, calls = ⟨.loadReplicationSlots, answer⟩ :: es ∧ ∀ e ∈ es, ∃ name,
        e.op = .dropReplicationSlot name ∧ name ∉ h.slots ∧
          ∀ rows, answer = .ok rows → ¬IsForeign h database rows name) ∧
      ∀ rows, (watch h database).after .nothing calls = .slots rows → Hindered h database rows := by
  cases calls with
  | nil => exact absurd rfl hseen
  | cons e es =>
      obtain ⟨op, answer⟩ := e
      obtain ⟨rfl, haccepts⟩ : op = .loadReplicationSlots ∧ _ := haccepts
      cases answer with
      | error e =>
          obtain rfl := accepts_failed haccepts
          exact ⟨⟨.error e, [], rfl, fun _ he => absurd he List.not_mem_nil⟩, fun _ h => by cases h⟩
      | ok rows =>
          have hrows := hhindered rows List.mem_cons_self
          refine ⟨⟨.ok rows, es, rfl, fun e he => ?_⟩, fun rows' h => ?_⟩
          · obtain ⟨name, hop, hunknown, hforeign⟩ := accepts_slots haccepts hrows e he
            refine ⟨name, hop, hunknown, fun rows' heq => ?_⟩
            obtain rfl := Except.ok.inj heq
            exact hforeign
          · obtain rfl := Seen.slots.inj ((after_slots es).symm.trans h)
            exact hrows

/-- An exception ends a blocked pass. -/
theorem Blocked.fails {p : Pass} (hblocked : Blocked database p)
    (hload : p.before.scheduleLoadSlots = true) : Fails database p := by
  obtain ⟨r, s, hbody, hresult⟩ := p.exec_body hblocked.version
  obtain ⟨haccepts, hend⟩ := hbody.wp (wp_body hblocked.citus hblocked.running hblocked.version
    hload)
  have hseen : (watch p.heartbeat database).after .nothing p.calls ≠ .nothing := by
    cases r with
    | ok ret =>
        obtain ⟨rows, hrows, -⟩ := hend
        exact hrows ▸ Seen.noConfusion
    | error e => exact hend
  obtain ⟨hcalls, hhindered⟩ := calls_of_accepts haccepts hseen hblocked.hindered
  cases r with
  | ok ret =>
      obtain ⟨rows, hrows, hfree⟩ := hend
      exact absurd (hhindered rows hrows) hfree
  | error e =>
      obtain ⟨hret, hafter⟩ := Prod.mk.inj hresult
      exact ⟨hcalls, ⟨e, s, hbody⟩, hret, by rw [hafter]⟩

/-! ## Runs -/

/-- As long as PostgreSQL shows a logical slot in the database of Citus that the cluster does not
ask for, no pass creates a slot or drops this one. Each of them ends with an exception and leaves
the slots to be loaded again, which they are unless a start of PostgreSQL has failed meanwhile. -/
theorem no_slot_is_created_with_foreign_slot {passes : List Pass}
    (hload : ∀ p ∈ passes.head?, p.before.scheduleLoadSlots = true)
    (hkeeps : passes.IsChain fun p q =>
      p.after.scheduleLoadSlots = true → q.before.scheduleLoadSlots = true)
    (hblocked : ∀ p ∈ passes, Blocked database p) : ∀ p ∈ passes, Fails database p := by
  induction passes with
  | nil => exact fun _ hp => absurd hp List.not_mem_nil
  | cons p passes ih =>
      obtain ⟨hnext, hkeeps⟩ := List.isChain_cons.mp hkeeps
      have hfails := (hblocked p List.mem_cons_self).fails (hload p rfl)
      refine List.forall_mem_cons.mpr ⟨hfails, ih (fun q hq => hnext q hq hfails.reload) hkeeps
        fun q hq => hblocked q (List.mem_cons_of_mem p hq)⟩

/-! ## A cluster -/

/-- A primary on PostgreSQL 15 with Citus in the database `app`. -/
def heartbeatCitus (useSlots : Bool) : Heartbeat :=
  ⟨⟨150000, "a", false, [], citusIgnores "app"⟩, retention useSlots, pair, .primary,
    (member "a" none).tags⟩

/-- A logical slot that somebody has created in this database. -/
def foreignSlots : List (String × Kind) := [("x", .logical "test_decoding" "app" 1 none none)]

theorem hindered_foreignSlots (useSlots : Bool) :
    Hindered (heartbeatCitus useSlots) "app" foreignSlots := by
  refine ⟨List.nodup_singleton _, "x", ?_, "test_decoding", 1, none, none,
    List.mem_singleton_self _, ?_⟩
  · cases useSlots with
    | false => decide +kernel
    | true => decide +kernel
  · cases useSlots with
    | false => decide +kernel
    | true => decide +kernel

/-- A pass to which PostgreSQL shows this slot. -/
def passCitus (useSlots : Bool) (s : SlotsHandler) : Pass :=
  let r := ((heartbeatCitus useSlots).sync s).run fun
    | .loadReplicationSlots => .ok foreignSlots
    | _ => .error .queryFailed
  ⟨heartbeatCitus useSlots, s, r.1, r.2.1, r.2.2, Program.run_exec _ _⟩

theorem blocked_passCitus (useSlots : Bool) (s : SlotsHandler) :
    Blocked "app" (passCitus useSlots s) where
  citus := rfl
  running := rfl
  version := by
    change 90400 ≤ 150000
    decide
  hindered rows hmem := by
    obtain rfl := Except.ok.inj (Program.answer_of_mem_run hmem)
    exact hindered_foreignSlots useSlots

/-- The cluster asks for a slot `b`, which is not created. In the second pass nobody asks for slots
of members. -/
theorem no_slot_is_created_with_foreign_slot_member :
    "b" ∈ (heartbeatCitus true).slots ∧
      ∀ p ∈ [passCitus true notLoaded, passCitus false (passCitus true notLoaded).after],
        Fails "app" p := by
  refine ⟨by decide +kernel, no_slot_is_created_with_foreign_slot (fun p hp => ?_)
    (List.isChain_pair.mpr id) fun p hp => ?_⟩
  · obtain rfl := Option.some.inj hp
    rfl
  · simp only [List.mem_cons, List.not_mem_nil, or_false] at hp
    rcases hp with rfl | rfl
    · exact blocked_passCitus _ _
    · exact blocked_passCitus _ _

end Sync

end Slots

end Metatroni
