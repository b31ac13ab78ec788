import Metatroni.Ha.CycleSafety
import Metatroni.Lib.Runs
import Mathlib.Logic.Function.Basic

/-!
# Reigns

The HA loops of some nodes, each in the middle of a cycle, the leader lock in the DCS and the
watchdogs of the nodes. A watchdog resets its node if it is not fed in time. A node reigns from the
time when its executor accepts a promotion, or the start of a crashed primary, with the watchdog on,
until it turns off its watchdog, deletes the leader key or is reset. If a node never takes longer
than the safety margin from the time when the DCS renews its lock until it feeds its watchdog, then
no two nodes reign at the same time.

## Implementation notes

The nodes take turns after any of their calls. The DCS processes a request about the lock at any
time before it is answered, and the answer may be lost. A request to delete the key is processed, if
at all, before its answer. A node does one thing after the other: a demotion that its executor runs
does not overlap with its cycles. There is no failsafe mode and no bootstrap, and a watchdog that is
said to be running has been turned on with the configured timeout.

What becomes of the database is left open. What a node has been told when it ends its reign is what
it may know of its database.
-/

namespace Metatroni

namespace HaCycle

open Interaction
open Ledger

/-- `WatchdogConfig.timeout` -/
def watchdogTimeout (ttl safetyMargin : ℤ) : ℤ :=
  if safetyMargin = -1 then ttl / 2 else ttl - safetyMargin

/-- The times of a cluster. The delay is the time from when the DCS renews a lock until the watchdog
is fed. -/
structure Timing where
  ttl : ℤ
  safetyMargin : ℤ
  delay : ℚ
  delay_le : delay ≤ ttl - watchdogTimeout ttl safetyMargin

/-- The time after which a watchdog resets its node. -/
def Timing.timeout (timing : Timing) : ℤ := watchdogTimeout timing.ttl timing.safetyMargin

/-- A node in the middle of a cycle. -/
structure Party where
  program : Program Call Result PyException Attributes
  ledger : Ledger
  /-- When the DCS has processed the request about the lock that goes on. -/
  processed : Option ℚ
  /-- When the DCS has processed the last request about the lock that has succeeded. -/
  granted : Option ℚ
  /-- When the watchdog was fed, if it is on. -/
  fed : Option ℚ
  /-- A primary has been submitted with the watchdog on, and since then neither has the watchdog
  been turned off nor the leader key been deleted. -/
  reigning : Bool

/-- A node that has been started. -/
def Party.init : Party := ⟨.ret HaCycle.init, fresh false, none, none, none, false⟩

/-- The DCS and the nodes. -/
structure World (ι : Type) where
  now : ℚ
  /-- The owner of the lock, and when it expires. -/
  lock : Option (ι × ℚ)
  parties : ι → Party

/-- The watchdog of the node is turned on, or it is fed, if it is on. -/
def feeds (isOn : Bool) : Event → Bool
  | ⟨.watchdogKeepalive, _⟩ => isOn
  | ⟨.watchdogActivate, .ok true⟩ => true
  | _ => false

def promotes : Event → Bool
  | ⟨.tryRunAsync _ .promote, .ok none⟩ => true
  | _ => false

def turnsOff : Call → Bool
  | .watchdogDisable => true
  | _ => false

def deletes : Call → Bool
  | .deleteLeader _ => true
  | _ => false

/-- A request that gives the lock. -/
def isLockCall : Call → Bool
  | .acquireLeaderLock => true
  | .updateLeader .. => true
  | _ => false

def saysRunning : Event → Bool
  | ⟨.watchdogIsRunning, .ok running⟩ => running
  | _ => false

/-- There is no failsafe mode and no bootstrap. -/
def isOrdinary (e : Event) : Bool := !confirms e && !bootstraps e

namespace Party

/-- It is not time yet for the watchdog to reset the node. -/
def isAlive (timing : Timing) (now : ℚ) (party : Party) : Bool :=
  party.fed.all fun fed => now < fed + timing.timeout

/-- What the DCS and the watchdog may answer. -/
def mayAnswer (timing : Timing) (now : ℚ) (party : Party) (e : Event) : Bool :=
  isOrdinary e && (!(lockAnswer e).getD false || party.processed.isSome) &&
    (!saysRunning e || party.fed.isSome) &&
    (!feeds party.fed.isSome e || party.granted.all fun granted => now ≤ granted + timing.delay)

/-- The node after an answer. -/
def answer (node : Node) (now : ℚ) (party : Party) (e : Event)
    (program : Program Call Result PyException Attributes) : Party where
  program := program
  ledger := Ledger.step node party.ledger e
  processed := none
  granted := if (lockAnswer e).getD false then party.processed else party.granted
  fed :=
    if feeds party.fed.isSome e then some now else if turnsOff e.op then none else party.fed
  reigning :=
    !turnsOff e.op && !deletes e.op && (submits e && party.fed.isSome || party.reigning)

/-- The node begins with something else. -/
def begin (party : Party) (s : Attributes) (program : Program Call Result PyException Attributes) :
    Party :=
  { party with program := program, ledger := fresh (s.leaderExpiry ≠ 0), processed := none }

/-- Patroni is killed and started again. -/
def restart (party : Party) : Party := party.begin HaCycle.init (.ret HaCycle.init)

end Party

/-- What may happen. -/
inductive Label (ι : Type)
  | wait (seconds : ℚ)
  /-- The DCS processes the request of a node about the lock. -/
  | process (i : ι)
  /-- A call is answered, and the leader key may be deleted. -/
  | answer (i : ι) (oracle : (op : Call) → Except PyException (Result op)) (deleted : Bool)
  /-- A cycle or a demotion begins, after other threads have changed other attributes. -/
  | begin (i : ι) (s : Attributes) (activity : Activity)
  /-- Patroni is killed and started again. -/
  | restart (i : ι)
  /-- A node is reset, by its watchdog or by somebody else. -/
  | reset (i : ι)

namespace World

variable {ι : Type} [DecidableEq ι] (timing : Timing) (nodes : ι → Node)

def init : World ι := ⟨0, none, fun _ => .init⟩

def setParty (w : World ι) (i : ι) (party : Party) : World ι :=
  { w with parties := Function.update w.parties i party }

/-- Nobody else has the lock. -/
def mayLock (w : World ι) (i : ι) : Bool :=
  w.lock.all fun lock => lock.1 = i || decide (lock.2 ≤ w.now)

/-- A call of a node is answered. -/
def answer (w : World ι) (i : ι) (e : Event) (deleted : Bool)
    (program : Program Call Result PyException Attributes) : World ι :=
  { w.setParty i ((w.parties i).answer (nodes i) w.now e program) with
    lock := if deletes e.op && deleted then w.lock.filter (fun lock => lock.1 ≠ i) else w.lock }

/-- One step. -/
def step : Label ι → World ι → Option (World ι)
  | .wait seconds, w => if 0 ≤ seconds then some { w with now := w.now + seconds } else none
  | .process i, w =>
      match (w.parties i).program with
      | .ret _ => none
      | .call op _ =>
          if isLockCall op && w.mayLock i then
            some { w.setParty i { w.parties i with processed := some w.now } with
              lock := some (i, w.now + timing.ttl) }
          else none
  | .answer i oracle deleted, w =>
      match (w.parties i).program with
      | .ret _ => none
      | .call op next =>
          if (w.parties i).isAlive timing w.now &&
              (w.parties i).mayAnswer timing w.now ⟨op, oracle op⟩ then
            some (w.answer nodes i ⟨op, oracle op⟩ deleted (next (oracle op)))
          else none
  | .begin i s' activity, w =>
      match (w.parties i).program with
      | .call _ _ => none
      | .ret s =>
          if (w.parties i).isAlive timing w.now && decide (s'.leaderExpiry = s.leaderExpiry) then
            some (w.setParty i ((w.parties i).begin s' (activity.program (nodes i) s')))
          else none
  | .restart i, w =>
      if (w.parties i).isAlive timing w.now then some (w.setParty i (w.parties i).restart) else none
  | .reset i, w => some (w.setParty i .init)

/-- The reign of a node lasts, since its watchdog has not reset it. -/
def reigns (w : World ι) (i : ι) : Bool :=
  (w.parties i).reigning && (w.parties i).isAlive timing w.now

/-- The executor of a node accepts a promotion, not in maintenance mode. -/
def Promotes (w : World ι) (l : Label ι) (i : ι) : Prop :=
  (w.parties i).ledger.paused = false ∧ ∃ op next oracle deleted,
    l = .answer i oracle deleted ∧ (w.parties i).program = .call op next ∧
      promotes ⟨op, oracle op⟩ = true

end World

/-! ## What the events say -/

theorem submits_of_promotes {e : Event} (h : promotes e = true) : submits e = true := by
  unfold promotes at h
  split at h
  · rfl
  · cases h

theorem submits_spec {e : Event} (h : submits e = true) :
    lockAnswer e = none ∧ deletes e.op = false ∧ turnsOff e.op = false ∧
      ∀ isOn, feeds isOn e = false := by
  unfold submits at h
  split at h
  · exact ⟨rfl, rfl, rfl, fun _ => rfl⟩
  · exact ⟨rfl, rfl, rfl, fun _ => rfl⟩
  · cases h

/-- A primary is submitted with the lock. -/
theorem held_of_submits {node : Node} {m : Ledger} {e : Event} (h : submits e = true)
    (hallows : Allows node m e.op) : m.held = true := by
  unfold submits at h
  split at h
  · exact hallows.1
  · exact hallows
  · cases h

/-- A promotion is submitted with the watchdog on, unless in maintenance mode. -/
theorem watchdog_of_promotes {node : Node} {m : Ledger} {e : Event} (h : promotes e = true)
    (hallows : Allows node m e.op) : m.paused = true ∨ m.watchdog = true := by
  unfold promotes at h
  split at h
  · exact hallows.2.1
  · cases h

theorem feeds_allowed {node : Node} {m : Ledger} {e : Event} {isOn : Bool}
    (h : feeds isOn e = true) (hallows : Allows node m e.op) :
    m.held = true ∨ m.confirmed = true ∨ m.bootstrapping = true := by
  unfold feeds at h
  split at h
  · exact hallows.imp_right .inl
  · exact hallows.imp_right .inr
  · cases h

theorem turnsOff_spec {op : Call} (h : turnsOff op = true)
    (answer : Except PyException (Result op)) :
    watchdogAnswer ⟨op, answer⟩ = some false ∧ ∀ node m, Allows node m op → m.MayDisable := by
  unfold turnsOff at h
  split at h
  · cases answer with
    | ok _ => exact ⟨rfl, fun _ _ hallows => hallows⟩
    | error _ => exact ⟨rfl, fun _ _ hallows => hallows⟩
  · cases h

theorem deletes_spec {op : Call} (h : deletes op = true) (answer : Except PyException (Result op)) :
    lockAnswer ⟨op, answer⟩ = some false ∧ ∀ node m, Allows node m op → m.MayRelease node := by
  unfold deletes at h
  split at h
  · cases answer with
    | ok _ => exact ⟨rfl, fun _ _ hallows => hallows⟩
    | error _ => exact ⟨rfl, fun _ _ hallows => hallows⟩
  · cases h

theorem watchdogAnswer_spec {e : Event} (h : watchdogAnswer e = some true) (isOn : Bool) :
    saysRunning e = true ∨ feeds isOn e = true := by
  unfold watchdogAnswer at h
  split at h
  · exact .inl (Option.some.inj h)
  · next activated =>
      cases activated with
      | false => cases h
      | true => exact .inr rfl
  · cases h
  · cases h

/-! ## What holds of a node -/

/-- What holds of a node in every state. The node owns the lock of a time when it was renewed. -/
structure Party.Sound (timing : Timing) (node : Node) (now : ℚ) (owns : ℚ → Prop) (party : Party) :
    Prop where
  program : party.program.wp (HaCycle.ledger node) (fun _ _ => True) party.ledger
  confirmed : party.ledger.confirmed = false
  bootstrapping : party.ledger.bootstrapping = false
  processed : ∀ time, party.processed = some time → time ≤ now ∧ owns time ∧
    ∀ earlier, party.granted = some earlier → earlier ≤ time
  granted : ∀ time, party.granted = some time → time ≤ now
  held : party.ledger.held = true → ∃ time, party.granted = some time ∧ owns time
  fed : ∀ fed, party.fed = some fed → ∃ time, party.granted = some time ∧ fed ≤ time + timing.delay
  watchdog : party.ledger.watchdog = true → party.fed.isSome = true
  reigning : party.reigning = true →
    (∃ time, party.granted = some time ∧ owns time) ∧ party.fed.isSome = true

namespace Party

variable {timing : Timing} {node : Node} {now now' : ℚ} {owns owns' : ℚ → Prop} {party : Party}

theorem init_sound : Party.init.Sound timing node now owns where
  program := trivial
  confirmed := rfl
  bootstrapping := rfl
  processed := fun _ h => absurd h.symm (Option.some_ne_none _)
  granted := fun _ h => absurd h.symm (Option.some_ne_none _)
  held := fun h => absurd h Bool.false_ne_true
  fed := fun _ h => absurd h.symm (Option.some_ne_none _)
  watchdog := fun h => absurd h Bool.false_ne_true
  reigning := fun h => absurd h Bool.false_ne_true

/-- What other nodes and the time may do. -/
theorem Sound.mono (h : party.Sound timing node now owns) (hnow : now ≤ now')
    (howns : ∀ time ≤ now, owns time → owns' time) : party.Sound timing node now' owns' :=
  { h with
    processed := fun time htime =>
      have hp := h.processed time htime
      ⟨hp.1.trans hnow, howns time hp.1 hp.2.1, hp.2.2⟩
    granted := fun time htime => (h.granted time htime).trans hnow
    held := fun hheld =>
      have ⟨time, hgranted, ho⟩ := h.held hheld
      ⟨time, hgranted, howns time (h.granted time hgranted) ho⟩
    reigning := fun hreigning =>
      have ⟨⟨time, hgranted, ho⟩, hfed⟩ := h.reigning hreigning
      ⟨⟨time, hgranted, howns time (h.granted time hgranted) ho⟩, hfed⟩ }

/-- The DCS has processed a request. -/
theorem Sound.process (h : party.Sound timing node now owns) (howns : owns now) :
    { party with processed := some now }.Sound timing node now owns :=
  { h with
    processed := fun _ htime => Option.some.inj htime ▸ ⟨le_rfl, howns, h.granted⟩ }

theorem Sound.begin (h : party.Sound timing node now owns) (s : Attributes)
    {program : Program Call Result PyException Attributes}
    (hprogram : program.wp (HaCycle.ledger node) (fun _ _ => True) (fresh (s.leaderExpiry ≠ 0))) :
    (party.begin s program).Sound timing node now owns :=
  { h with
    program := hprogram
    confirmed := rfl
    bootstrapping := rfl
    processed := fun _ h => absurd h.symm (Option.some_ne_none _)
    held := fun h => absurd h Bool.false_ne_true
    watchdog := fun h => absurd h Bool.false_ne_true }

theorem answer_fed {e : Event} {program : Program Call Result PyException Attributes} :
    (party.answer node now e program).fed =
      if feeds party.fed.isSome e then some now else if turnsOff e.op then none else party.fed :=
  rfl

/-- The node has been given the lock by the request that goes on. -/
theorem Sound.granted_answer (h : party.Sound timing node now owns) {e : Event}
    {p : Program Call Result PyException Attributes}
    (hlock : lockAnswer e = some true) (hmay : party.mayAnswer timing now e = true) :
    ∃ time, (party.answer node now e p).granted = some time ∧ owns time ∧ time ≤ now ∧
      ∀ earlier, party.granted = some earlier → earlier ≤ time := by
  have hprocessed : party.processed.isSome = true := by
    simp only [mayAnswer, hlock, Bool.and_eq_true] at hmay
    simpa using hmay.1.1.2
  obtain ⟨time, htime⟩ := Option.isSome_iff_exists.mp hprocessed
  obtain ⟨hle, howns, hlast⟩ := h.processed time htime
  refine ⟨time, ?_, howns, hle, hlast⟩
  rw [answer, hlock]
  exact htime

theorem granted_answer_of_ne {e : Event} {program : Program Call Result PyException Attributes}
    (hlock : lockAnswer e ≠ some true) :
    (party.answer node now e program).granted = party.granted := by
  rw [answer]
  refine if_neg fun h => hlock ?_
  cases hl : lockAnswer e with
  | none =>
      rw [hl] at h
      exact absurd h Bool.false_ne_true
  | some b =>
      rw [hl] at h
      exact congrArg some h

/-- The last lock that has been granted is not older after an answer. -/
theorem Sound.granted_mono (h : party.Sound timing node now owns) {e : Event}
    {p : Program Call Result PyException Attributes}
    (hmay : party.mayAnswer timing now e = true) {time : ℚ} (htime : party.granted = some time) :
    ∃ later, (party.answer node now e p).granted = some later ∧ time ≤ later ∧
      (owns time → owns later) := by
  by_cases hlock : lockAnswer e = some true
  · obtain ⟨later, hlater, howns, -, hle⟩ := h.granted_answer hlock hmay (p := p)
    exact ⟨later, hlater, hle time htime, fun _ => howns⟩
  · exact ⟨time, (granted_answer_of_ne hlock).trans htime, le_rfl, id⟩

theorem Sound.held_answer (h : party.Sound timing node now owns) {e : Event}
    {program : Program Call Result PyException Attributes}
    (hmay : party.mayAnswer timing now e = true)
    (hheld : (party.answer node now e program).ledger.held = true) :
    ∃ time, (party.answer node now e program).granted = some time ∧ owns time := by
  change (lockAnswer e).getD party.ledger.held = true at hheld
  cases hlock : lockAnswer e with
  | none =>
      rw [hlock] at hheld
      obtain ⟨time, hgranted, howns⟩ := h.held hheld
      refine ⟨time, (granted_answer_of_ne ?_).trans hgranted, howns⟩
      rw [hlock]
      exact (Option.some_ne_none true).symm
  | some b =>
      rw [hlock] at hheld
      obtain ⟨time, hgranted, howns, -⟩ :=
        h.granted_answer (hlock.trans (congrArg some hheld)) hmay (p := program)
      exact ⟨time, hgranted, howns⟩

/-- A watchdog that is fed has been fed in time. -/
theorem Sound.fed_answer (h : party.Sound timing node now owns) {e : Event}
    {program : Program Call Result PyException Attributes}
    (hmay : party.mayAnswer timing now e = true) (hallows : Allows node party.ledger e.op) (fed : ℚ)
    (hfed : (party.answer node now e program).fed = some fed) :
    ∃ time, (party.answer node now e program).granted = some time ∧ fed ≤ time + timing.delay := by
  have hmono : ∀ {time : ℚ}, party.granted = some time → fed ≤ time + timing.delay →
      ∃ time, (party.answer node now e program).granted = some time ∧
        fed ≤ time + timing.delay := by
    intro time htime hle
    obtain ⟨later, hlater, htl, -⟩ := h.granted_mono hmay htime (p := program)
    exact ⟨later, hlater, hle.trans (add_le_add_left htl _)⟩
  rw [answer_fed] at hfed
  split at hfed
  · next hfeds =>
      obtain rfl := Option.some.inj hfed
      have hheld : party.ledger.held = true := by
        rcases feeds_allowed hfeds hallows with hheld | hconfirmed | hbootstrapping
        · exact hheld
        · exact absurd (h.confirmed.symm.trans hconfirmed) Bool.false_ne_true
        · exact absurd (h.bootstrapping.symm.trans hbootstrapping) Bool.false_ne_true
      obtain ⟨time, hgranted, -⟩ := h.held hheld
      refine hmono hgranted ?_
      simp only [mayAnswer, hfeds, hgranted, Bool.and_eq_true] at hmay
      simpa using hmay.2
  · split at hfed
    · exact absurd hfed.symm (Option.some_ne_none fed)
    · obtain ⟨time, hgranted, hle⟩ := h.fed fed hfed
      exact hmono hgranted hle

theorem fed_answer_isSome {e : Event} {program : Program Call Result PyException Attributes}
    (h : turnsOff e.op = false) (hfed : party.fed.isSome = true) :
    (party.answer node now e program).fed.isSome = true := by
  rw [answer_fed, h]
  split
  · rfl
  · exact hfed

theorem Sound.watchdog_answer (h : party.Sound timing node now owns) {e : Event}
    {program : Program Call Result PyException Attributes}
    (hmay : party.mayAnswer timing now e = true)
    (hwatchdog : (party.answer node now e program).ledger.watchdog = true) :
    (party.answer node now e program).fed.isSome = true := by
  change (watchdogAnswer e).getD party.ledger.watchdog = true at hwatchdog
  have hoff : turnsOff e.op = false := by
    cases hoff : turnsOff e.op with
    | false => rfl
    | true =>
        rw [(turnsOff_spec hoff e.answer).1] at hwatchdog
        exact hwatchdog.symm
  cases hw : watchdogAnswer e with
  | none =>
      rw [hw] at hwatchdog
      exact fed_answer_isSome hoff (h.watchdog hwatchdog)
  | some b =>
      rw [hw] at hwatchdog
      rcases watchdogAnswer_spec (hw.trans (congrArg some hwatchdog)) party.fed.isSome
        with hrunning | hfeds
      · refine fed_answer_isSome hoff ?_
        simp only [mayAnswer, hrunning, Bool.and_eq_true] at hmay
        simpa using hmay.1.2
      · rw [answer_fed, if_pos hfeds]
        rfl

/-- A reign begins with the lock and with a watchdog that runs, and ends with one of them. -/
theorem Sound.reigning_answer (h : party.Sound timing node now owns) {e : Event}
    {program : Program Call Result PyException Attributes}
    (hmay : party.mayAnswer timing now e = true) (hallows : Allows node party.ledger e.op)
    (hreigning : (party.answer node now e program).reigning = true) :
    deletes e.op = false ∧
      (∃ time, (party.answer node now e program).granted = some time ∧ owns time) ∧
      (party.answer node now e program).fed.isSome = true := by
  obtain ⟨hends, hreigning⟩ := Bool.and_eq_true_iff.mp hreigning
  obtain ⟨hoff, hdeletes⟩ := Bool.and_eq_true_iff.mp hends
  have hoff : turnsOff e.op = false := Bool.not_eq_eq_eq_not.mp hoff
  refine ⟨Bool.not_eq_eq_eq_not.mp hdeletes, ?_⟩
  rcases (Bool.or_eq_true _ _).mp hreigning with hbegins | hbefore
  · obtain ⟨hsubmits, hfed⟩ := Bool.and_eq_true_iff.mp hbegins
    refine ⟨h.held_answer hmay ?_, fed_answer_isSome hoff hfed⟩
    change (lockAnswer e).getD party.ledger.held = true
    rw [(submits_spec hsubmits).1]
    exact held_of_submits hsubmits hallows
  · obtain ⟨⟨time, hgranted, howns⟩, hfed⟩ := h.reigning hbefore
    obtain ⟨later, hlater, -, hown⟩ := h.granted_mono hmay hgranted (p := program)
    exact ⟨⟨later, hlater, hown howns⟩, fed_answer_isSome hoff hfed⟩

/-- A reign ends with a reason. -/
theorem reigning_answer_or (hreigning : party.reigning = true) {e : Event}
    {p : Program Call Result PyException Attributes} (hallows : Allows node party.ledger e.op) :
    (party.answer node now e p).reigning = true ∨ party.ledger.MayDisable ∨
      party.ledger.MayRelease node := by
  cases hoff : turnsOff e.op with
  | true => exact .inr (.inl ((turnsOff_spec hoff e.answer).2 node _ hallows))
  | false =>
      cases hd : deletes e.op with
      | true => exact .inr (.inr ((deletes_spec hd e.answer).2 node _ hallows))
      | false =>
          left
          rw [answer, hoff, hd, hreigning]
          exact Bool.or_true _

/-- A promotion begins a reign, unless in maintenance mode. -/
theorem Sound.reigning_of_promotes (h : party.Sound timing node now owns) {e : Event}
    {program : Program Call Result PyException Attributes} (hpromotes : promotes e = true)
    (hallows : Allows node party.ledger e.op) (hpaused : party.ledger.paused = false) :
    (party.answer node now e program).reigning = true := by
  have hsubmits := submits_of_promotes hpromotes
  obtain ⟨-, hdeletes, hoff, -⟩ := submits_spec hsubmits
  have hfed := h.watchdog ((watchdog_of_promotes hpromotes hallows).resolve_left
    (Bool.eq_false_iff.mp hpaused))
  rw [answer, hoff, hdeletes, hsubmits, hfed]
  rfl

/-- What a node is after an answer. It loses its lock only if it deletes the key. -/
theorem Sound.answer (h : party.Sound timing node now owns) {e : Event}
    {program : Program Call Result PyException Attributes}
    (hmay : party.mayAnswer timing now e = true) (hallows : Allows node party.ledger e.op)
    (hprogram : program.wp (HaCycle.ledger node) (fun _ _ => True)
      (Ledger.step node party.ledger e))
    (howns : deletes e.op = false → ∀ time, owns time → owns' time) :
    (party.answer node now e program).Sound timing node now owns' := by
  have hordinary : isOrdinary e = true := (Bool.and_eq_true_iff.mp
    (Bool.and_eq_true_iff.mp (Bool.and_eq_true_iff.mp hmay).1).1).1
  obtain ⟨hconfirms, hbootstraps⟩ := Bool.and_eq_true_iff.mp hordinary
  constructor
  · exact hprogram
  · exact (Bool.or_eq_false_iff).mpr ⟨Bool.not_eq_eq_eq_not.mp hconfirms, h.confirmed⟩
  · exact (Bool.or_eq_false_iff).mpr ⟨Bool.not_eq_eq_eq_not.mp hbootstraps, h.bootstrapping⟩
  · exact fun _ h => absurd h.symm (Option.some_ne_none _)
  · intro time htime
    by_cases hlock : lockAnswer e = some true
    · obtain ⟨later, hlater, -, hle, -⟩ := h.granted_answer hlock hmay (p := program)
      exact Option.some.inj (hlater.symm.trans htime) ▸ hle
    · exact h.granted time ((granted_answer_of_ne hlock).symm.trans htime)
  · intro hheld
    obtain ⟨time, hgranted, ho⟩ := h.held_answer hmay hheld
    refine ⟨time, hgranted, howns ?_ time ho⟩
    cases hd : deletes e.op with
    | false => rfl
    | true =>
        change (lockAnswer e).getD party.ledger.held = true at hheld
        rw [(deletes_spec hd e.answer).1] at hheld
        exact hheld.symm
  · exact h.fed_answer hmay hallows
  · exact h.watchdog_answer hmay
  · intro hreigning
    obtain ⟨hd, ⟨time, hgranted, ho⟩, hfed⟩ := h.reigning_answer hmay hallows hreigning
    exact ⟨⟨time, hgranted, howns hd time ho⟩, hfed⟩

end Party

/-! ## Runs -/

namespace World

variable {ι : Type} [DecidableEq ι] {timing : Timing} {nodes : ι → Node} {w w' : World ι}
  {i j : ι}

/-- Unless the lock of a time when it was renewed has expired, the node still has it. -/
def Owns (timing : Timing) (w : World ι) (i : ι) (time : ℚ) : Prop :=
  w.now < time + timing.ttl → ∃ expiry, w.lock = some (i, expiry) ∧ time + timing.ttl ≤ expiry

/-- What holds in every state. -/
def Sound (timing : Timing) (nodes : ι → Node) (w : World ι) : Prop :=
  ∀ i, (w.parties i).Sound timing (nodes i) w.now (w.Owns timing i)

/-- A step changes one node, and may take the lock of the others only if it has expired. -/
theorem Sound.setParty (h : w.Sound timing nodes) {party : Party} {l : Option (ι × ℚ)}
    (howns : ∀ j ≠ i, ∀ time ≤ w.now, w.Owns timing j time →
      World.Owns timing { w.setParty i party with lock := l } j time)
    (hparty : party.Sound timing (nodes i) w.now
      (World.Owns timing { w.setParty i party with lock := l } i)) :
    World.Sound timing nodes { w.setParty i party with lock := l } := by
  intro j
  by_cases hj : j = i
  · subst hj
    change (Function.update w.parties j party j).Sound timing (nodes j) w.now _
    rw [Function.update_self]
    exact hparty
  · change (Function.update w.parties i party j).Sound timing (nodes j) w.now _
    rw [Function.update_of_ne hj]
    exact (h j).mono le_rfl (howns j hj)

theorem Sound.keepLock (h : w.Sound timing nodes) {party : Party}
    (hparty : party.Sound timing (nodes i) w.now (w.Owns timing i)) :
    World.Sound timing nodes (w.setParty i party) :=
  h.setParty (l := w.lock) (fun _ _ _ _ ho => ho) hparty

omit [DecidableEq ι] in
theorem Sound.wait (h : w.Sound timing nodes) {seconds : ℚ} (hs : 0 ≤ seconds) :
    World.Sound timing nodes { w with now := w.now + seconds } := fun i =>
  (h i).mono (le_add_of_nonneg_right hs) fun _ _ ho hlt =>
    ho ((le_add_of_nonneg_right hs).trans_lt hlt)

/-- A lock is given to another node only after it has expired. -/
theorem Sound.process (h : w.Sound timing nodes) (hmay : w.mayLock i = true) :
    World.Sound timing nodes { w.setParty i { w.parties i with processed := some w.now } with
      lock := some (i, w.now + timing.ttl) } := by
  refine h.setParty (fun j hj time _ ho hlt => ?_) ?_
  · obtain ⟨expiry, hlock, hle⟩ := ho hlt
    rw [mayLock, hlock] at hmay
    rcases (Bool.or_eq_true _ _).mp hmay with hij | hexpired
    · exact absurd (of_decide_eq_true hij) hj
    · exact absurd (hlt.trans_le (hle.trans (of_decide_eq_true hexpired))) (lt_irrefl _)
  · refine ((h i).mono le_rfl fun time hle _ _ => ?_).process fun _ => ⟨_, rfl, le_rfl⟩
    exact ⟨_, rfl, add_le_add_left hle _⟩

theorem Sound.answer (h : w.Sound timing nodes) {e : Event} {deleted : Bool}
    {program : Program Call Result PyException Attributes}
    (hmay : (w.parties i).mayAnswer timing w.now e = true)
    (hallows : Allows (nodes i) (w.parties i).ledger e.op)
    (hprogram : program.wp (ledger (nodes i)) (fun _ _ => True)
      (Ledger.step (nodes i) (w.parties i).ledger e)) :
    World.Sound timing nodes (w.answer nodes i e deleted program) := by
  refine h.setParty (fun j hj time _ ho => ?_) ((h i).answer hmay hallows hprogram
    fun hd time ho => ?_)
  · split
    · intro hlt
      obtain ⟨expiry, hlock, hle⟩ := ho hlt
      refine ⟨expiry, ?_, hle⟩
      change w.lock.filter (fun lock => lock.1 ≠ i) = _
      rw [hlock]
      exact Option.filter_some_pos (decide_eq_true hj)
    · exact ho
  · rw [hd]
    exact ho

omit [DecidableEq ι] in
theorem init_sound : (init : World ι).Sound timing nodes := fun _ => Party.init_sound

/-- What a step does to the nodes. -/
inductive Steps (timing : Timing) (nodes : ι → Node) (w : World ι) : Label ι → World ι → Prop
  | wait {seconds : ℚ} (hs : 0 ≤ seconds) :
      Steps timing nodes w (.wait seconds) { w with now := w.now + seconds }
  | process {i : ι} (hmay : w.mayLock i = true) :
      Steps timing nodes w (.process i)
        { w.setParty i { w.parties i with processed := some w.now } with
          lock := some (i, w.now + timing.ttl) }
  | answer {i : ι} {op : Call}
      {next : Except PyException (Result op) → Program Call Result PyException Attributes}
      {oracle : (op : Call) → Except PyException (Result op)} {deleted : Bool}
      (hprogram : (w.parties i).program = .call op next)
      (hmay : (w.parties i).mayAnswer timing w.now ⟨op, oracle op⟩ = true) :
      Steps timing nodes w (.answer i oracle deleted)
        (w.answer nodes i ⟨op, oracle op⟩ deleted (next (oracle op)))
  | begin {i : ι} {s : Attributes} {activity : Activity} :
      Steps timing nodes w (.begin i s activity)
        (w.setParty i ((w.parties i).begin s (activity.program (nodes i) s)))
  | restart {i : ι} :
      Steps timing nodes w (.restart i) (w.setParty i (w.parties i).restart)
  | reset {i : ι} : Steps timing nodes w (.reset i) (w.setParty i .init)

theorem step_cases {l : Label ι} (hstep : step timing nodes l w = some w') :
    Steps timing nodes w l w' := by
  cases l with
  | wait seconds =>
      obtain ⟨hs, ⟨⟩⟩ := Option.ite_none_right_eq_some.mp hstep
      exact .wait hs
  | process i =>
      rw [step] at hstep
      split at hstep
      · cases hstep
      · obtain ⟨hmay, ⟨⟩⟩ := Option.ite_none_right_eq_some.mp hstep
        exact .process (Bool.and_eq_true_iff.mp hmay).2
  | answer i oracle deleted =>
      rw [step] at hstep
      split at hstep
      · cases hstep
      · next hprogram =>
          obtain ⟨hmay, ⟨⟩⟩ := Option.ite_none_right_eq_some.mp hstep
          exact .answer hprogram (Bool.and_eq_true_iff.mp hmay).2
  | begin i s' activity =>
      rw [step] at hstep
      split at hstep
      · cases hstep
      · obtain ⟨-, ⟨⟩⟩ := Option.ite_none_right_eq_some.mp hstep
        exact .begin
  | restart i =>
      obtain ⟨-, ⟨⟩⟩ := Option.ite_none_right_eq_some.mp hstep
      exact .restart
  | reset i =>
      obtain rfl := Option.some.inj hstep
      exact .reset

omit [DecidableEq ι] in
/-- The call that a node is about to make is allowed, and so are those that follow. -/
theorem Sound.call (h : w.Sound timing nodes) {op : Call}
    {next : Except PyException (Result op) → Program Call Result PyException Attributes}
    (hprogram : (w.parties i).program = .call op next) :
    Allows (nodes i) (w.parties i).ledger op ∧ ∀ answer, (next answer).wp (ledger (nodes i))
      (fun _ _ => True) (Ledger.step (nodes i) (w.parties i).ledger ⟨op, answer⟩) := by
  have hwp := (h i).program
  rw [hprogram] at hwp
  exact hwp

/-- Every step keeps what holds of the nodes. -/
theorem step_sound {l : Label ι} (hstep : step timing nodes l w = some w')
    (h : w.Sound timing nodes) : w'.Sound timing nodes := by
  cases step_cases hstep with
  | wait hs => exact h.wait hs
  | process hmay => exact h.process hmay
  | answer hprogram hmay => exact h.answer hmay (h.call hprogram).1 ((h.call hprogram).2 _)
  | begin => exact h.keepLock ((h _).begin _ (Activity.wp _ _))
  | restart => exact h.keepLock ((h _).begin _ trivial)
  | reset => exact h.keepLock Party.init_sound

/-- A step leaves the other nodes as they are. -/
theorem setParty_parties {party : Party} {l : Option (ι × ℚ)} :
    (World.parties { w.setParty i party with lock := l } j) =
      if j = i then party else w.parties j := by
  by_cases hj : j = i
  · subst hj
    rw [if_pos rfl]
    exact Function.update_self ..
  · rw [if_neg hj]
    exact Function.update_of_ne hj ..

/-- A node ends its reign only with a reason, or by a reset. -/
theorem step_reigning {l : Label ι} (hstep : step timing nodes l w = some w')
    (h : w.Sound timing nodes) (hreigning : (w.parties j).reigning = true) :
    (w'.parties j).reigning = true ∨ l = .reset j ∨ (w.parties j).ledger.MayDisable ∨
      (w.parties j).ledger.MayRelease (nodes j) := by
  have hset : ∀ {i : ι} {party : Party} {l : Option (ι × ℚ)},
      (j = i → party.reigning = true) →
      (World.parties { w.setParty i party with lock := l } j).reigning = true := by
    intro i party l hparty
    rw [setParty_parties]
    split
    · next hj => exact hparty hj
    · exact hreigning
  cases step_cases hstep with
  | wait hs => exact .inl hreigning
  | process hmay => exact .inl (hset fun hi => hi ▸ hreigning)
  | @answer i op next oracle deleted hprogram hmay =>
      by_cases hj : j = i
      · subst hj
        rcases Party.reigning_answer_or hreigning (e := ⟨op, oracle op⟩) (p := next (oracle op))
          (h.call hprogram).1 with hlasts | hreason
        · exact .inl (hset fun _ => hlasts)
        · exact .inr (.inr hreason)
      · exact .inl (hset fun hi => absurd hi hj)
  | begin => exact .inl (hset (l := w.lock) fun hi => hi ▸ hreigning)
  | restart => exact .inl (hset (l := w.lock) fun hi => hi ▸ hreigning)
  | @reset i =>
      by_cases hj : j = i
      · exact .inr (.inl (congrArg Label.reset hj.symm))
      · exact .inl (hset (l := w.lock) fun hi => absurd hi hj)

/-- A node that is promoted begins to reign. -/
theorem step_promotes {l : Label ι} (hstep : step timing nodes l w = some w')
    (h : w.Sound timing nodes) (hpromotes : w.Promotes l i) :
    (w'.parties i).reigning = true := by
  obtain ⟨hpaused, op, next, oracle, deleted, rfl, hprogram, hevent⟩ := hpromotes
  rw [step, hprogram] at hstep
  obtain ⟨-, ⟨⟩⟩ := Option.ite_none_right_eq_some.mp hstep
  rw [World.answer, setParty_parties, if_pos rfl]
  exact (h i).reigning_of_promotes hevent (h.call hprogram).1 hpaused

omit [DecidableEq ι] in
/-- A node that reigns has the lock. -/
theorem Sound.lock_of_reigns (h : w.Sound timing nodes) (hreigns : w.reigns timing i = true) :
    ∃ expiry, w.lock = some (i, expiry) := by
  obtain ⟨hreigning, halive⟩ := Bool.and_eq_true_iff.mp hreigns
  obtain ⟨⟨time, hgranted, howns⟩, hsome⟩ := (h i).reigning hreigning
  obtain ⟨fed, hfed⟩ := Option.isSome_iff_exists.mp hsome
  obtain ⟨time', hgranted', hle⟩ := (h i).fed fed hfed
  obtain rfl := Option.some.inj (hgranted'.symm.trans hgranted)
  rw [Party.isAlive, hfed] at halive
  have hlt : w.now < fed + timing.timeout := of_decide_eq_true halive
  have hdelay := timing.delay_le
  rw [Timing.timeout] at hlt
  obtain ⟨expiry, hlock, -⟩ := howns (by linarith)
  exact ⟨expiry, hlock⟩

end World

/-- In every run of the nodes, of the DCS and of the watchdogs, at most one node reigns. A promotion
begins a reign, and a reign ends only if the node is reset or may do without its watchdog or its
lock. -/
theorem reigns_are_exclusive {ι : Type} [DecidableEq ι] {timing : Timing} {nodes : ι → Node}
    {ls : List (Label ι)} {w : World ι}
    (hrun : Runs.exec (World.step timing nodes) ls World.init = some w) :
    (∀ i j, w.reigns timing i = true → w.reigns timing j = true → i = j) ∧
      ∀ l w', World.step timing nodes l w = some w' → ∀ i,
        (w.Promotes l i → (w'.parties i).reigning = true) ∧
          ((w.parties i).reigning = true → (w'.parties i).reigning = true ∨ l = .reset i ∨
            (w.parties i).ledger.MayDisable ∨ (w.parties i).ledger.MayRelease (nodes i)) := by
  have hsound : w.Sound timing nodes := (Runs.run_of_exec hrun (Runs.guarded_true ls _)).invariant
    (fun _ _ _ _ hstep h => World.step_sound hstep h) World.init_sound
  refine ⟨fun i j hi hj => ?_, fun l w' hstep i =>
    ⟨World.step_promotes hstep hsound, World.step_reigning hstep hsound⟩⟩
  obtain ⟨_, hlock⟩ := hsound.lock_of_reigns hi
  obtain ⟨_, hlock'⟩ := hsound.lock_of_reigns hj
  exact congrArg Prod.fst (Option.some.inj (hlock.symm.trans hlock'))

/-- A cluster without a leader, where the watchdog is still off. -/
def arming (op : Call) : Except PyException (Result op) :=
  match op with
  | .watchdogIsRunning => .ok false
  | .watchdogActivate => .ok true
  | op => quiet none false false op

/-- The first of two nodes takes the lock and is promoted. -/
def takeover : List (Label Bool) :=
  .begin true init .cycle :: List.replicate 13 (.answer true arming false) ++
    .process true :: List.replicate 21 (.answer true arming false)

def takeoverTiming : Timing := ⟨30, 5, 5, by decide +kernel⟩

/-- The nodes after the takeover. -/
def takenOver : World Bool :=
  (Runs.exec (World.step takeoverTiming fun _ => alone) takeover World.init).getD World.init

theorem reigns_are_exclusive_takeover :
    takenOver.reigns takeoverTiming true = true ∧
      ∀ j, takenOver.reigns takeoverTiming j = true → true = j := by
  have hsome : (Runs.exec (World.step takeoverTiming fun _ => alone) takeover
      World.init).isSome = true := by decide +kernel
  obtain ⟨w, hw⟩ := Option.isSome_iff_exists.mp hsome
  have hreigns : takenOver.reigns takeoverTiming true = true := by decide +kernel
  refine ⟨hreigns, fun j hj => (reigns_are_exclusive (hw.trans ?_)).1 true j hreigns hj⟩
  rw [takenOver, hw]
  rfl

end HaCycle

end Metatroni
