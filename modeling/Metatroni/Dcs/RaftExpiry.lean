import Metatroni.Dcs.Raft
import Metatroni.Lib.Dict

/-!
# Expiry of keys in the Raft store

The Raft leader goes over all keys at every tick and proposes to expire those
whose time is over. A key that was proposed waits in `__limb` until the callback
of its command is called.

The callbacks of one pass are closures over the variables of one call of
`__expire_keys`. They are called when its loop has ended, and then these
variables are the last key of the dictionary and its value. Only if a command
does not fit into the queue its callback is called at once, in the loop.
-/

namespace Metatroni

namespace Raft

open Runs

/-- A command that was proposed for a key and a value and whose callback was not called
yet, with what the variables `key` and `value` are for the callback. -/
structure Pending where
  key : String
  value : Entry
  lastKey : String
  lastValue : Entry
  deriving DecidableEq

/-- The dictionary and the bookkeeping of the expiry. -/
structure Expiry where
  data : Dict String Entry
  limb : Dict String Entry
  pending : List Pending

theorem ValuesMatch.refl (value : Entry) : ValuesMatch value value := ⟨rfl, rfl, rfl, rfl⟩

namespace Expiry

def init : Expiry := ⟨∅, ∅, []⟩

/-- The key is in `__limb` with a value that matches. -/
def InLimb (limb : Dict String Entry) (key : String) (value : Entry) : Prop :=
  ∃ old ∈ limb.lookup key, ValuesMatch old value

instance (limb : Dict String Entry) (key : String) (value : Entry) :
    Decidable (InLimb limb key value) :=
  inferInstanceAs (Decidable (∃ old ∈ limb.lookup key, ValuesMatch old value))

/-- `callback`, for what its variables are. -/
def callback (limb : Dict String Entry) (key : String) (value : Entry) : Dict String Entry :=
  if InLimb limb key value then limb.erase key else limb

/-- The time of the value is over. -/
def Expired (now : ℕ) (value : Entry) : Prop := ∃ expire ∈ value.expire, expire ≤ now

instance (now : ℕ) (value : Entry) : Decidable (Expired now value) :=
  inferInstanceAs (Decidable (∃ expire ∈ value.expire, expire ≤ now))

section Pass

/- The time at which the loop reaches a key, and whether the queue is full then. -/
variable (clock : String → ℕ) (full : String → Bool)

/-- The body of the loop of `__expire_keys`: `__limb` and the proposed commands. -/
def visit (acc : Dict String Entry × List (Sigma fun _ : String => Entry))
    (item : Sigma fun _ : String => Entry) :
    Dict String Entry × List (Sigma fun _ : String => Entry) :=
  if Expired (clock item.1) item.2 ∧ ¬InLimb acc.1 item.1 item.2 then
    let limb := acc.1.set item.1 item.2
    if full item.1 then (callback limb item.1 item.2, acc.2) else (limb, acc.2 ++ [item])
  else acc

/-- `__expire_keys`. -/
def expireKeys (s : Expiry) : Expiry :=
  match s.data.entries.getLast? with
  | none => s
  | some last =>
      let (limb, proposed) := s.data.entries.foldl (visit clock full) (s.limb, [])
      { s with
        limb
        pending := s.pending ++ proposed.map fun item => ⟨item.1, item.2, last.1, last.2⟩ }

end Pass

inductive Label
  /-- Replicated commands change the dictionary. -/
  | store (data : Dict String Entry)
  /-- `_onTick` on the Raft leader. -/
  | leaderTick (clock : String → ℕ) (full : String → Bool)
  /-- `_onTick` on another node. -/
  | followerTick
  /-- A callback is called, whether its command has succeeded or not. -/
  | callback (i : ℕ)

def step (l : Label) (s : Expiry) : Option Expiry :=
  match l with
  | .store data => some { s with data }
  | .leaderTick clock full => some (s.expireKeys clock full)
  | .followerTick => some { s with limb := ∅ }
  | .callback i =>
      match s.pending[i]? with
      | none => none
      | some p =>
          some { s with
            limb := callback s.limb p.lastKey p.lastValue
            pending := s.pending.eraseIdx i }

/-- A pass proposes a key: its time is over, it was not proposed before and the queue is
not full. -/
def Proposes (clock : String → ℕ) (full : String → Bool) (limb : Dict String Entry)
    (item : Sigma fun _ : String => Entry) : Prop :=
  (Expired (clock item.1) item.2 ∧ ¬InLimb limb item.1 item.2) ∧ full item.1 = false

instance (limb : Dict String Entry) (item : Sigma fun _ : String => Entry)
    (clock : String → ℕ) (full : String → Bool) : Decidable (Proposes clock full limb item) :=
  inferInstanceAs (Decidable ((_ ∧ ¬_) ∧ _))

/-- A pass proposes only the last key of the dictionary. -/
def OnlyLast (l : Label) (s : Expiry) : Prop :=
  match l with
  | .leaderTick clock full => ∀ item ∈ s.data.entries,
      Proposes clock full s.limb item → s.data.entries.getLast? = some item
  | _ => True

instance (l : Label) (s : Expiry) : Decidable (OnlyLast l s) := by
  unfold OnlyLast
  split <;> infer_instance

/-! ## One pass -/

theorem lookup_callback (limb : Dict String Entry) (key key' : String) (value : Entry) :
    (callback limb key value).lookup key' =
      if key' = key ∧ InLimb limb key value then none else limb.lookup key' := by
  unfold callback
  split
  · next h =>
      rw [Dict.lookup_erase_eq]
      simp [h]
  · next h => simp [h]

theorem not_inLimb_callback (limb : Dict String Entry) (key : String) (value : Entry) :
    ¬InLimb (callback limb key value) key value := by
  rintro ⟨old, hold, hmatch⟩
  rw [Option.mem_def, lookup_callback] at hold
  split at hold
  · cases hold
  · next h => exact h ⟨rfl, old, hold, hmatch⟩

theorem lookup_callback_ne (limb : Dict String Entry) {key key' : String} (value : Entry)
    (h : key' ≠ key) : (callback limb key value).lookup key' = limb.lookup key' := by
  rw [lookup_callback, if_neg (fun hand => h hand.1)]

section Pass

variable {clock : String → ℕ} {full : String → Bool}

/-- The visit of one key changes nothing about the others. -/
theorem lookup_visit_ne (limb : Dict String Entry) (proposed : List (Sigma fun _ : String => Entry))
    (item : Sigma fun _ : String => Entry) {key : String} (h : key ≠ item.1) :
    (visit clock full (limb, proposed) item).1.lookup key = limb.lookup key := by
  unfold visit
  split
  · dsimp only
    split
    · rw [lookup_callback_ne _ _ h, Dict.lookup_set_ne _ h]
    · exact Dict.lookup_set_ne _ h _
  · rfl

/-- A key that waits after its visit has waited before, or has just been proposed. -/
theorem lookup_visit (limb : Dict String Entry) (proposed : List (Sigma fun _ : String => Entry))
    (item : Sigma fun _ : String => Entry) {old : Entry}
    (h : (visit clock full (limb, proposed) item).1.lookup item.1 = some old) :
    limb.lookup item.1 = some old ∨ Proposes clock full limb item ∧ item.2 = old := by
  unfold visit at h
  split at h
  · next hdue =>
      dsimp only at h
      split at h
      · exact absurd ⟨old, h, by
          rw [lookup_callback, Dict.lookup_set_self] at h
          split at h
          · cases h
          · obtain rfl := Option.some.inj h
            exact .refl _⟩ (not_inLimb_callback _ item.1 item.2)
      · next hfull =>
          rw [Dict.lookup_set_self] at h
          exact .inr ⟨⟨hdue, by simpa using hfull⟩, Option.some.inj h⟩
  · exact .inl h

theorem visit_snd (limb : Dict String Entry) (proposed : List (Sigma fun _ : String => Entry))
    (item : Sigma fun _ : String => Entry) :
    (visit clock full (limb, proposed) item).2 =
      proposed ++ if Proposes clock full limb item then [item] else [] := by
  unfold visit Proposes
  by_cases hdue : Expired (clock item.1) item.2 ∧ ¬InLimb limb item.1 item.2
  · by_cases hfull : full item.1 = true
    · simp [hdue, hfull]
    · simp [hdue, hfull]
  · simp [hdue]

theorem proposes_visit_iff (limb : Dict String Entry)
    (proposed : List (Sigma fun _ : String => Entry)) {item item' : Sigma fun _ : String => Entry}
    (h : item'.1 ≠ item.1) :
    Proposes clock full (visit clock full (limb, proposed) item).1 item' ↔
      Proposes clock full limb item' := by
  simp only [Proposes, InLimb, lookup_visit_ne limb proposed item h]

/-- What a pass over some keys proposes, and what waits in `__limb` afterwards. -/
theorem foldl_visit (items : List (Sigma fun _ : String => Entry)) (hnodup : items.NodupKeys)
    (limb : Dict String Entry) (proposed : List (Sigma fun _ : String => Entry)) :
    (items.foldl (visit clock full) (limb, proposed)).2 =
        proposed ++ items.filter (fun item => Proposes clock full limb item) ∧
      ∀ key old, (items.foldl (visit clock full) (limb, proposed)).1.lookup key = some old →
        limb.lookup key = some old ∨ ⟨key, old⟩ ∈ items ∧ Proposes clock full limb ⟨key, old⟩ := by
  induction items generalizing limb proposed with
  | nil => simp
  | cons item items ih =>
      obtain ⟨hnew, hrest⟩ := List.nodupKeys_cons.mp hnodup
      have hne : ∀ item' ∈ items, item'.1 ≠ item.1 := by
        intro item' hmem he
        exact hnew (he ▸ List.mem_keys_of_mem hmem)
      -- the rest of the pass sees the other keys as they were
      obtain ⟨hproposed, hlimb⟩ := ih hrest (visit clock full (limb, proposed) item).1
        (visit clock full (limb, proposed) item).2
      rw [List.foldl_cons]
      constructor
      · rw [hproposed, visit_snd, List.append_assoc, List.filter_cons]
        congr 1
        have hfilter : items.filter (fun item' =>
              Proposes clock full (visit clock full (limb, proposed) item).1 item') =
            items.filter (fun item' => Proposes clock full limb item') := by
          refine List.filter_congr fun item' hmem => ?_
          simp only [proposes_visit_iff limb proposed (hne item' hmem)]
        rw [hfilter]
        by_cases h : Proposes clock full limb item <;> simp [h]
      · intro key old hlookup
        rcases hlimb key old hlookup with h | ⟨hmem, h⟩
        · by_cases hkey : key = item.1
          · subst hkey
            rcases lookup_visit limb proposed item h with hold | ⟨hproposes, rfl⟩
            · exact .inl hold
            · exact .inr ⟨List.mem_cons_self, hproposes⟩
          · rw [lookup_visit_ne limb proposed item hkey] at h
            exact .inl h
        · exact .inr ⟨List.mem_cons_of_mem _ hmem,
            (proposes_visit_iff limb proposed (hne _ hmem)).mp h⟩

end Pass

section ExpireKeys

variable {clock : String → ℕ} {full : String → Bool} {s : Expiry}

/-- A pass adds the commands that it proposes, and leaves the last key to their callbacks. -/
theorem mem_pending_expireKeys {p : Pending} :
    p ∈ (s.expireKeys clock full).pending ↔
      p ∈ s.pending ∨ (⟨p.key, p.value⟩ ∈ s.data.entries ∧
        Proposes clock full s.limb ⟨p.key, p.value⟩) ∧
        s.data.entries.getLast? = some ⟨p.lastKey, p.lastValue⟩ := by
  unfold expireKeys
  split
  · next hlast => simp [List.getLast?_eq_none_iff.mp hlast]
  · next last hlast =>
      dsimp only
      rw [(foldl_visit s.data.entries s.data.nodupKeys s.limb []).1, List.nil_append,
        List.mem_append, List.mem_map]
      refine or_congr_right ⟨?_, ?_⟩
      · rintro ⟨item, hitem, rfl⟩
        simpa [hlast] using hitem
      · rintro ⟨hitem, heq⟩
        obtain rfl := Option.some.inj (hlast.symm.trans heq)
        exact ⟨⟨p.key, p.value⟩, by simpa using hitem, rfl⟩

theorem lookup_limb_expireKeys {key : String} {old : Entry}
    (h : (s.expireKeys clock full).limb.lookup key = some old) :
    s.limb.lookup key = some old ∨
      ⟨key, old⟩ ∈ s.data.entries ∧ Proposes clock full s.limb ⟨key, old⟩ := by
  unfold expireKeys at h
  split at h
  · exact .inl h
  · exact (foldl_visit s.data.entries s.data.nodupKeys s.limb []).2 key old h

/-- A key that a pass proposes is awaited afterwards. -/
theorem awaited_of_proposes {item : Sigma fun _ : String => Entry} (hmem : item ∈ s.data.entries)
    (h : Proposes clock full s.limb item) :
    ∃ p ∈ (s.expireKeys clock full).pending, p.key = item.1 ∧ p.value = item.2 := by
  cases hlast : s.data.entries.getLast? with
  | none =>
      rw [List.getLast?_eq_none_iff.mp hlast] at hmem
      cases hmem
  | some last =>
      exact ⟨⟨item.1, item.2, last.1, last.2⟩,
        mem_pending_expireKeys.mpr (.inr ⟨⟨hmem, h⟩, hlast⟩), rfl, rfl⟩

end ExpireKeys

/-! ## Runs -/

/-- Every awaited callback is about its own key, and every key in `__limb` is awaited. -/
structure Tracked (s : Expiry) : Prop where
  own : ∀ p ∈ s.pending, p.lastKey = p.key ∧ p.lastValue = p.value
  awaited : ∀ key old, s.limb.lookup key = some old → ∃ p ∈ s.pending, p.key = key ∧ p.value = old

theorem init_tracked : init.Tracked := ⟨by simp [init], by simp [init]⟩

theorem mem_eraseIdx_of_ne {α : Type} {l : List α} {i : ℕ} {a b : α} (hi : l[i]? = some a)
    (hb : b ∈ l) (hne : b ≠ a) : b ∈ l.eraseIdx i := by
  obtain ⟨j, hj⟩ := List.mem_iff_getElem?.mp hb
  refine List.mem_eraseIdx_iff_getElem?.mpr ⟨j, ?_, hj⟩
  rintro rfl
  exact hne (Option.some.inj (hj.symm.trans hi))

theorem step_tracked {l : Label} {s s' : Expiry} (hguard : OnlyLast l s)
    (hstep : step l s = some s') (h : s.Tracked) : s'.Tracked := by
  cases l with
  | store data =>
      obtain rfl := Option.some.inj hstep
      exact ⟨h.own, h.awaited⟩
  | leaderTick clock full =>
      obtain rfl := Option.some.inj hstep
      constructor
      · intro p hp
        rcases mem_pending_expireKeys.mp hp with hp | ⟨⟨hmem, hproposes⟩, hlast⟩
        · exact h.own p hp
        · have heq := Option.some.inj (hlast.symm.trans (hguard _ hmem hproposes))
          injection heq with hkey hvalue
          exact ⟨hkey, hvalue⟩
      · intro key old hlookup
        rcases lookup_limb_expireKeys hlookup with hold | ⟨hmem, hproposes⟩
        · obtain ⟨p, hp, hkey⟩ := h.awaited key old hold
          exact ⟨p, mem_pending_expireKeys.mpr (.inl hp), hkey⟩
        · exact awaited_of_proposes hmem hproposes
  | followerTick =>
      obtain rfl := Option.some.inj hstep
      exact ⟨h.own, by simp⟩
  | callback i =>
      unfold step at hstep
      dsimp only at hstep
      split at hstep
      · cases hstep
      · next p hp =>
          obtain rfl := Option.some.inj hstep
          refine ⟨fun p' hp' => h.own p' (List.mem_of_mem_eraseIdx hp'), ?_⟩
          intro key old hlookup
          obtain ⟨hkey, hvalue⟩ := h.own p (List.mem_of_getElem? hp)
          simp only [hkey, hvalue] at hlookup
          rw [lookup_callback] at hlookup
          split at hlookup
          · cases hlookup
          · next hnot =>
              obtain ⟨p', hp', rfl, rfl⟩ := h.awaited key old hlookup
              refine ⟨p', mem_eraseIdx_of_ne hp hp' ?_, rfl, rfl⟩
              -- the callback of `p` would have removed its own entry
              rintro rfl
              exact hnot ⟨rfl, _, hlookup, .refl _⟩

/-- The callback of the command for `key` and `value` has been called: it removes that
entry from `__limb`, and nothing else. -/
def Settled (key : String) (value : Entry) (s s' : Expiry) : Prop :=
  ¬InLimb s'.limb key value ∧ ∀ key', key' ≠ key → s'.limb.lookup key' = s.limb.lookup key'

/-- As long as every pass proposes only the last key of the dictionary, each callback
removes the entry of its own command and no other, and a key whose time is over is
proposed at the next tick unless a callback for it is still awaited. -/
theorem expiry_is_tracked {ls : List Label} {s : Expiry} (run : Run step OnlyLast init ls s) :
    (∀ i p s', s.pending[i]? = some p → step (.callback i) s = some s' →
      Settled p.key p.value s s') ∧
    (∀ clock full key value, s.data.lookup key = some value → Expired (clock key) value →
      full key = false → (∀ p ∈ s.pending, p.key = key → ¬ValuesMatch p.value value) →
      ∃ s', step (.leaderTick clock full) s = some s' ∧
        ∃ p ∈ s'.pending, p.key = key ∧ p.value = value) := by
  have htracked : s.Tracked := run.invariant (fun _ _ _ => step_tracked) init_tracked
  constructor
  · intro i p s' hp hstep
    simp only [step, hp] at hstep
    obtain rfl := Option.some.inj hstep
    obtain ⟨hkey, hvalue⟩ := htracked.own p (List.mem_of_getElem? hp)
    simp only [Settled, hkey, hvalue]
    exact ⟨not_inLimb_callback _ _ _, fun key' hne => lookup_callback_ne _ _ hne⟩
  · intro clock full key value hlookup hexpired hfull hpending
    have hmem : (⟨key, value⟩ : Sigma fun _ : String => Entry) ∈ s.data.entries :=
      AList.mem_lookup_iff.mp hlookup
    refine ⟨_, rfl, awaited_of_proposes hmem ⟨⟨hexpired, ?_⟩, hfull⟩⟩
    rintro ⟨old, hold, hmatch⟩
    obtain ⟨p, hp, hkey, rfl⟩ := htracked.awaited key old hold
    exact hpending p hp hkey hmatch

section Example

/-- A member whose time is over at 31, and a key without a time. -/
def member : Entry := ⟨"{}", 1, 1, some 31, 1⟩

def config : Entry := ⟨"{}", 1, 1, none, 2⟩

/-- The member is not the last key. -/
def memberFirst : Dict String Entry :=
  ((∅ : Dict String Entry).set "members/a" member).set "config" config

/-- The member is the last key. -/
def memberLast : Dict String Entry :=
  ((∅ : Dict String Entry).set "config" config).set "members/a" member

def tick : Label := .leaderTick (fun _ => 40) (fun _ => false)

theorem expiry_is_tracked_for_last_key :
    ∃ s s', Run step OnlyLast init [.store memberLast, tick] s ∧
      InLimb s.limb "members/a" member ∧ step (.callback 0) s = some s' ∧
      Settled "members/a" member s s' := by
  obtain ⟨s, hs, hlimb, hpending⟩ : ∃ s ∈ execGuarded step OnlyLast [.store memberLast, tick] init,
      InLimb s.limb "members/a" member ∧
        s.pending[0]? = some ⟨"members/a", member, "members/a", member⟩ := by decide +kernel
  have run := run_of_execGuarded hs
  have hstep : ∃ s', step (.callback 0) s = some s' := by
    simp only [step, hpending]
    exact ⟨_, rfl⟩
  obtain ⟨s', hs'⟩ := hstep
  exact ⟨s, s', run, hlimb, hs', (expiry_is_tracked run).1 0 _ s' hpending hs'⟩

/-- The callback for the member looks for the other key: the member stays in `__limb`,
and it is never proposed again while it is there. -/
theorem expiry_is_lost :
    ∃ s ∈ exec step [.store memberFirst, tick] init,
      s.pending[0]? = some ⟨"members/a", member, "config", config⟩ ∧
      ∃ s' ∈ step (.callback 0) s, InLimb s'.limb "members/a" member ∧ s'.pending = [] ∧
        ∃ s'' ∈ step tick s', s''.pending = [] := by
  decide +kernel

end Example

end Expiry

end Raft

end Metatroni
