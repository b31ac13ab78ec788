import Mathlib.Data.List.Infix

/-!
# Methods that call an environment

A method of an object reads and writes the attributes of the object, and calls operations of an
environment. Each call is answered by a value or by an exception, and any answer is possible. What
an observer makes of the calls is a state that it keeps, a fold over the calls and their answers.

## Implementation notes

The weakest precondition of a method talks about every answer, and asks for the guard of an
observer before each call. An execution is a list of calls with their answers.
-/

namespace Interaction

variable {Op : Type} {Val : Op → Type} {ε σ μ α β : Type}

/-- A program that calls operations and goes on with their answers. -/
inductive Program (Op : Type) (Val : Op → Type) (ε α : Type)
  | ret (a : α)
  | call (op : Op) (next : Except ε (Val op) → Program Op Val ε α)

/-- A call with its answer. -/
structure Event (Op : Type) (Val : Op → Type) (ε : Type) where
  op : Op
  answer : Except ε (Val op)

/-- An observer keeps a state, and has a guard for each call. -/
structure Observer (Op : Type) (Val : Op → Type) (ε μ : Type) where
  step : μ → Event Op Val ε → μ
  guard : μ → Op → Prop

namespace Observer

variable (obs : Observer Op Val ε μ)

/-- What the observer has seen after some calls. -/
def after (m : μ) (es : List (Event Op Val ε)) : μ := es.foldl obs.step m

/-- The guard holds before each of some calls. -/
def Accepts : μ → List (Event Op Val ε) → Prop
  | _, [] => True
  | m, e :: es => obs.guard m e.op ∧ Accepts (obs.step m e) es

theorem accepts_append {m : μ} {es es' : List (Event Op Val ε)} :
    obs.Accepts m (es ++ es') ↔ obs.Accepts m es ∧ obs.Accepts (obs.after m es) es' := by
  induction es generalizing m with
  | nil => exact iff_of_eq (true_and _).symm
  | cons e es ih =>
      rw [List.cons_append, Accepts, Accepts, ih, and_assoc]
      rfl

/-- The guard holds at each call of an execution. -/
theorem Accepts.guard {m : μ} {before after : List (Event Op Val ε)} {e : Event Op Val ε}
    (h : obs.Accepts m (before ++ e :: after)) : obs.guard (obs.after m before) e.op :=
  ((obs.accepts_append).mp h).2.1

end Observer

namespace Program

def bind (p : Program Op Val ε α) (f : α → Program Op Val ε β) : Program Op Val ε β :=
  match p with
  | ret a => f a
  | call op next => call op fun answer => (next answer).bind f

/-- The executions of a program. -/
inductive Exec : Program Op Val ε α → List (Event Op Val ε) → α → Prop
  | ret (a : α) : Exec (ret a) [] a
  | call {op : Op} {next : Except ε (Val op) → Program Op Val ε α} (answer : Except ε (Val op))
      {es : List (Event Op Val ε)} {a : α} (h : Exec (next answer) es a) :
      Exec (call op next) (⟨op, answer⟩ :: es) a

/-- An execution of a sequence consists of two executions. -/
theorem Exec.of_bind {p : Program Op Val ε α} {f : α → Program Op Val ε β}
    {es : List (Event Op Val ε)} {b : β} (h : (p.bind f).Exec es b) :
    ∃ es₁ es₂ a, p.Exec es₁ a ∧ (f a).Exec es₂ b ∧ es = es₁ ++ es₂ := by
  induction p generalizing es with
  | ret a => exact ⟨[], es, a, .ret a, h, rfl⟩
  | call op next ih =>
      cases h with
      | call answer h =>
          obtain ⟨es₁, es₂, a, h₁, h₂, rfl⟩ := ih answer h
          exact ⟨⟨op, answer⟩ :: es₁, es₂, a, .call answer h₁, h₂, rfl⟩

/-- The calls and the result if an oracle answers. -/
def run (oracle : (op : Op) → Except ε (Val op)) :
    Program Op Val ε α → List (Event Op Val ε) × α
  | ret a => ([], a)
  | call op next =>
      (⟨op, oracle op⟩ :: ((next (oracle op)).run oracle).1, ((next (oracle op)).run oracle).2)

theorem run_exec (oracle : (op : Op) → Except ε (Val op)) (p : Program Op Val ε α) :
    p.Exec (p.run oracle).1 (p.run oracle).2 := by
  induction p with
  | ret a => exact .ret a
  | call op next ih => exact .call (oracle op) (ih (oracle op))

/-- The answers are those of the oracle. -/
theorem answer_of_mem_run {oracle : (op : Op) → Except ε (Val op)} {p : Program Op Val ε α}
    {e : Event Op Val ε} (h : e ∈ (p.run oracle).1) : e.answer = oracle e.op := by
  induction p with
  | ret a => exact absurd h List.not_mem_nil
  | call op next ih =>
      rcases List.mem_cons.mp h with rfl | h
      · rfl
      · exact ih (oracle op) h

/-- The guard of an observer holds before each call, and a condition at the end. -/
def wp (obs : Observer Op Val ε μ) (Q : α → μ → Prop) : Program Op Val ε α → μ → Prop
  | ret a, m => Q a m
  | call op next, m => obs.guard m op ∧ ∀ answer, wp obs Q (next answer) (obs.step m ⟨op, answer⟩)

variable {obs : Observer Op Val ε μ} {Q Q' : α → μ → Prop}

theorem wp_bind {p : Program Op Val ε α} {f : α → Program Op Val ε β} {R : β → μ → Prop} {m : μ} :
    (p.bind f).wp obs R m ↔ p.wp obs (fun a m => (f a).wp obs R m) m := by
  induction p generalizing m with
  | ret a => rfl
  | call op next ih =>
      rw [bind, wp, wp]
      exact and_congr_right fun _ => forall_congr' fun answer => ih answer

theorem wp_mono {p : Program Op Val ε α} (hQ : ∀ a m, Q a m → Q' a m) {m : μ}
    (h : p.wp obs Q m) : p.wp obs Q' m := by
  induction p generalizing m with
  | ret a => exact hQ a m h
  | call op next ih => exact ⟨h.1, fun answer => ih answer (h.2 answer)⟩

/-- The weakest precondition is about the executions. -/
theorem Exec.wp {p : Program Op Val ε α} {es : List (Event Op Val ε)} {a : α} (h : p.Exec es a)
    {m : μ} (hwp : p.wp obs Q m) : obs.Accepts m es ∧ Q a (obs.after m es) := by
  induction h generalizing m with
  | ret a => exact ⟨trivial, hwp⟩
  | call answer _ ih =>
      obtain ⟨haccepts, hQ⟩ := ih (hwp.2 answer)
      exact ⟨⟨hwp.1, haccepts⟩, hQ⟩

end Program

/-- A method of an object with certain attributes. It may raise an exception, which keeps what
was written to the attributes. -/
def Method (Op : Type) (Val : Op → Type) (ε σ α : Type) :=
  σ → Program Op Val ε (Except ε α × σ)

namespace Method

/-- An exception ends a sequence. -/
def bind (x : Method Op Val ε σ α) (f : α → Method Op Val ε σ β) : Method Op Val ε σ β := fun s =>
  (x s).bind fun
    | (.ok a, s') => f a s'
    | (.error e, s') => .ret (.error e, s')

instance instMonad : Monad (Method Op Val ε σ) where
  pure a := fun s => .ret (.ok a, s)
  bind := bind

@[simp] theorem pure_then (a : α) (f : α → Method Op Val ε σ β) :
    (pure a : Method Op Val ε σ α) >>= f = f a := rfl

/-- Call an operation; its exception is raised. -/
def ask (op : Op) : Method Op Val ε σ (Val op) := fun s => .call op fun answer => .ret (answer, s)

/-- Read the attributes. -/
def self : Method Op Val ε σ σ := fun s => .ret (.ok s, s)

/-- Write the attributes. -/
def update (f : σ → σ) : Method Op Val ε σ Unit := fun s => .ret (.ok (), f s)

/-- Raise an exception. -/
def raise (e : ε) : Method Op Val ε σ α := fun s => .ret (.error e, s)

/-- `try` with a handler. -/
def handle (x : Method Op Val ε σ α) (h : ε → Method Op Val ε σ α) : Method Op Val ε σ α := fun s =>
  (x s).bind fun
    | (.ok a, s') => .ret (.ok a, s')
    | (.error e, s') => h e s'

/-- The result of a method, be it a value or an exception. -/
def attempt (x : Method Op Val ε σ α) : Method Op Val ε σ (Except ε α) := fun s =>
  (x s).bind fun r => .ret (.ok r.1, r.2)

/-- A statement without an `else`. -/
def when (c : Bool) (x : Method Op Val ε σ Unit) : Method Op Val ε σ Unit :=
  if c then x else pure ()

/-- `and`, which evaluates the second operand only if the first one is true. -/
def both (x y : Method Op Val ε σ Bool) : Method Op Val ε σ Bool := do
  if ← x then y else pure false

/-- `or`, which evaluates the second operand only if the first one is false. -/
def either (x y : Method Op Val ε σ Bool) : Method Op Val ε σ Bool := do
  if ← x then pure true else y

/-- `not` -/
def negate (x : Method Op Val ε σ Bool) : Method Op Val ε σ Bool := do
  return !(← x)

/-- A part of a function that may return, before the rest of it. -/
def orElse (x : Method Op Val ε σ (Option α)) (y : Method Op Val ε σ α) : Method Op Val ε σ α :=
  x >>= fun r => r.elim y pure

/-- Two parts of a function that may return. -/
def orMaybe (x y : Method Op Val ε σ (Option α)) : Method Op Val ε σ (Option α) :=
  orElse (x >>= fun r => pure (r.map some)) y

/-- A loop over a list. -/
def forEach (x : β → Method Op Val ε σ Unit) : List β → Method Op Val ε σ Unit
  | [] => pure ()
  | b :: bs => x b >>= fun _ => forEach x bs

/-! ## Weakest preconditions -/

/-- The guard holds before each call, and there is a condition for a return and one for an
exception. -/
def wp (obs : Observer Op Val ε μ) (x : Method Op Val ε σ α) (Q : α → σ → μ → Prop)
    (E : ε → σ → μ → Prop) (s : σ) (m : μ) : Prop :=
  (x s).wp obs (fun r m => match r with
    | (.ok a, s') => Q a s' m
    | (.error e, s') => E e s' m) m

section Rules

variable {obs : Observer Op Val ε μ} {Q Q' : α → σ → μ → Prop} {E E' : ε → σ → μ → Prop} {s : σ}
  {m : μ}

@[simp] theorem wp_pure {a : α} : wp obs (pure a) Q E s m ↔ Q a s m := Iff.rfl

@[simp] theorem wp_bind {x : Method Op Val ε σ α} {f : α → Method Op Val ε σ β}
    {R : β → σ → μ → Prop} :
    wp obs (x >>= f) R E s m ↔ wp obs x (fun a => wp obs (f a) R E) E s m := by
  refine Program.wp_bind.trans ?_
  rw [wp]
  refine iff_of_eq (congrArg (fun P => Program.wp obs P (x s) m) ?_)
  funext r m'
  obtain ⟨_ | _, s'⟩ := r
  · rfl
  · rfl

@[simp] theorem wp_ask {op : Op} {Q : Val op → σ → μ → Prop} :
    wp obs (ask op) Q E s m ↔ obs.guard m op ∧ (∀ a, Q a s (obs.step m ⟨op, .ok a⟩)) ∧
      ∀ e, E e s (obs.step m ⟨op, .error e⟩) := by
  constructor
  · rintro ⟨hguard, hnext⟩
    exact ⟨hguard, fun a => hnext (.ok a), fun e => hnext (.error e)⟩
  · rintro ⟨hguard, hok, herror⟩
    refine ⟨hguard, fun answer => ?_⟩
    cases answer with
    | ok a => exact hok a
    | error e => exact herror e

@[simp] theorem wp_self {Q : σ → σ → μ → Prop} : wp obs self Q E s m ↔ Q s s m := Iff.rfl

@[simp] theorem wp_update {f : σ → σ} {Q : Unit → σ → μ → Prop} :
    wp obs (update f) Q E s m ↔ Q () (f s) m := Iff.rfl

@[simp] theorem wp_raise {e : ε} : wp obs (raise e) Q E s m ↔ E e s m := Iff.rfl

@[simp] theorem wp_handle {x : Method Op Val ε σ α} {h : ε → Method Op Val ε σ α} :
    wp obs (handle x h) Q E s m ↔ wp obs x Q (fun e => wp obs (h e) Q E) s m := by
  refine Program.wp_bind.trans ?_
  rw [wp]
  refine iff_of_eq (congrArg (fun P => Program.wp obs P (x s) m) ?_)
  funext r m'
  obtain ⟨_ | _, s'⟩ := r
  · rfl
  · rfl

@[simp] theorem wp_attempt {x : Method Op Val ε σ α} {Q : Except ε α → σ → μ → Prop} :
    wp obs (attempt x) Q E s m ↔
      wp obs x (fun a => Q (.ok a)) (fun e => Q (.error e)) s m := by
  refine Program.wp_bind.trans ?_
  rw [wp]
  refine iff_of_eq (congrArg (fun P => Program.wp obs P (x s) m) ?_)
  funext r m'
  obtain ⟨_ | _, s'⟩ := r
  · rfl
  · rfl

@[simp] theorem wp_both {x y : Method Op Val ε σ Bool} {Q : Bool → σ → μ → Prop} :
    wp obs (both x y) Q E s m ↔
      wp obs x (fun b s m => (b = true → wp obs y Q E s m) ∧ (b = false → Q false s m)) E s m := by
  refine wp_bind.trans (iff_of_eq (congrArg (fun R => wp obs x R E s m) ?_))
  funext b s m
  cases b with
  | false => simp
  | true => simp

@[simp] theorem wp_either {x y : Method Op Val ε σ Bool} {Q : Bool → σ → μ → Prop} :
    wp obs (either x y) Q E s m ↔
      wp obs x (fun b s m => (b = true → Q true s m) ∧ (b = false → wp obs y Q E s m)) E s m := by
  refine wp_bind.trans (iff_of_eq (congrArg (fun R => wp obs x R E s m) ?_))
  funext b s m
  cases b with
  | false => simp
  | true => simp

@[simp] theorem wp_negate {x : Method Op Val ε σ Bool} {Q : Bool → σ → μ → Prop} :
    wp obs (negate x) Q E s m ↔ wp obs x (fun b => Q !b) E s m := wp_bind

@[simp] theorem wp_orElse {x : Method Op Val ε σ (Option α)} {y : Method Op Val ε σ α} :
    wp obs (orElse x y) Q E s m ↔
      wp obs x (fun r s m => (r = none → wp obs y Q E s m) ∧ ∀ a, r = some a → Q a s m) E s m := by
  refine wp_bind.trans (iff_of_eq (congrArg (fun R => wp obs x R E s m) ?_))
  funext r s m
  cases r with
  | none => simp
  | some a => simp

@[simp] theorem wp_orMaybe {x y : Method Op Val ε σ (Option α)} {Q : Option α → σ → μ → Prop} :
    wp obs (orMaybe x y) Q E s m ↔
      wp obs x (fun r s m => (r = none → wp obs y Q E s m) ∧ ∀ a, r = some a → Q (some a) s m) E s
        m := by
  refine wp_orElse.trans (wp_bind.trans (iff_of_eq (congrArg (fun R => wp obs x R E s m) ?_)))
  funext r s m
  cases r with
  | none => simp
  | some a => simp

theorem wp_mono {x : Method Op Val ε σ α} (hQ : ∀ a s m, Q a s m → Q' a s m)
    (hE : ∀ e s m, E e s m → E' e s m) (h : wp obs x Q E s m) : wp obs x Q' E' s m := by
  refine Program.wp_mono (fun r m' hr => ?_) h
  obtain ⟨e | a, s'⟩ := r
  · exact hE e s' m' hr
  · exact hQ a s' m' hr

end Rules

/-! ## Triples -/

/-- From some states, a method ends in some states. -/
def Triple (obs : Observer Op Val ε μ) (P : σ → μ → Prop) (x : Method Op Val ε σ α)
    (Q : α → σ → μ → Prop) (E : ε → σ → μ → Prop) : Prop :=
  ∀ s m, P s m → wp obs x Q E s m

namespace Triple

variable {obs : Observer Op Val ε μ} {P P' : σ → μ → Prop} {Q Q' : α → σ → μ → Prop}
  {D E : ε → σ → μ → Prop}

theorem mono {x : Method Op Val ε σ α} (h : Triple obs P x Q E) (hP : ∀ s m, P' s m → P s m)
    (hQ : ∀ a s m, Q a s m → Q' a s m) (hE : ∀ e s m, E e s m → D e s m) :
    Triple obs P' x Q' D := fun s m hs => wp_mono hQ hE (h s m (hP s m hs))

theorem pure {a : α} (h : ∀ s m, P s m → Q a s m) : Triple obs P (Pure.pure a) Q E := h

theorem bind {x : Method Op Val ε σ α} {f : α → Method Op Val ε σ β} {R : β → σ → μ → Prop}
    (hx : Triple obs P x Q E) (hf : ∀ a, Triple obs (Q a) (f a) R E) :
    Triple obs P (x >>= f) R E := fun s m hs =>
  wp_bind.mpr (wp_mono (fun a s m hQ => hf a s m hQ) (fun _ _ _ he => he) (hx s m hs))

theorem ask {op : Op} {Q : Val op → σ → μ → Prop} (hguard : ∀ s m, P s m → obs.guard m op)
    (hok : ∀ s m, P s m → ∀ a, Q a s (obs.step m ⟨op, .ok a⟩))
    (herror : ∀ s m, P s m → ∀ e, E e s (obs.step m ⟨op, .error e⟩)) :
    Triple obs P (Method.ask op) Q E := fun s m hs =>
  wp_ask.mpr ⟨hguard s m hs, hok s m hs, herror s m hs⟩

theorem self {Q : σ → σ → μ → Prop} (h : ∀ s m, P s m → Q s s m) :
    Triple obs P Method.self Q E := h

theorem update {f : σ → σ} {Q : Unit → σ → μ → Prop} (h : ∀ s m, P s m → Q () (f s) m) :
    Triple obs P (Method.update f) Q E := h

theorem raise {e : ε} (h : ∀ s m, P s m → E e s m) :
    Triple obs P (Method.raise e : Method Op Val ε σ α) Q E := h

theorem handle {x : Method Op Val ε σ α} {f : ε → Method Op Val ε σ α} (hx : Triple obs P x Q D)
    (hf : ∀ e, Triple obs (D e) (f e) Q E) : Triple obs P (Method.handle x f) Q E := fun s m hs =>
  wp_handle.mpr (wp_mono (fun _ _ _ hQ => hQ) (fun e s m he => hf e s m he) (hx s m hs))

theorem attempt {x : Method Op Val ε σ α} {Q : Except ε α → σ → μ → Prop}
    (hx : Triple obs P x (fun a => Q (.ok a)) fun e => Q (.error e)) :
    Triple obs P (Method.attempt x) Q E := fun s m hs => wp_attempt.mpr (hx s m hs)

theorem ite {c : Prop} [Decidable c] {x y : Method Op Val ε σ α} (hx : c → Triple obs P x Q E)
    (hy : ¬c → Triple obs P y Q E) : Triple obs P (if c then x else y) Q E := by
  split
  · next h => exact hx h
  · next h => exact hy h

theorem when {c : Bool} {x : Method Op Val ε σ Unit} {Q : Unit → σ → μ → Prop}
    (hx : c = true → Triple obs P x Q E) (hQ : c = false → ∀ s m, P s m → Q () s m) :
    Triple obs P (Method.when c x) Q E :=
  ite hx fun h => pure (hQ (Bool.eq_false_iff.mpr h))

theorem both {x y : Method Op Val ε σ Bool} {Q R : Bool → σ → μ → Prop} (hx : Triple obs P x Q E)
    (hy : Triple obs (Q true) y R E) (hR : ∀ s m, Q false s m → R false s m) :
    Triple obs P (Method.both x y) R E := by
  refine bind hx fun b => ite (fun h => ?_) fun h => ?_
  · rw [h]
    exact hy
  · rw [Bool.eq_false_iff.mpr h]
    exact pure hR

theorem either {x y : Method Op Val ε σ Bool} {Q R : Bool → σ → μ → Prop}
    (hx : Triple obs P x Q E) (hy : Triple obs (Q false) y R E)
    (hR : ∀ s m, Q true s m → R true s m) : Triple obs P (Method.either x y) R E := by
  refine bind hx fun b => ite (fun h => ?_) fun h => ?_
  · rw [h]
    exact pure hR
  · rw [Bool.eq_false_iff.mpr h]
    exact hy

theorem negate {x : Method Op Val ε σ Bool} {Q : Bool → σ → μ → Prop}
    (hx : Triple obs P x (fun b => Q !b) E) : Triple obs P (Method.negate x) Q E :=
  bind hx fun _ => pure fun _ _ hQ => hQ

theorem orElse {x : Method Op Val ε σ (Option α)} {y : Method Op Val ε σ α}
    {R : Option α → σ → μ → Prop} (hx : Triple obs P x R E) (hy : Triple obs (R none) y Q E)
    (hQ : ∀ a s m, R (some a) s m → Q a s m) : Triple obs P (Method.orElse x y) Q E := by
  refine bind hx fun r => ?_
  cases r with
  | none => exact hy
  | some a => exact pure (hQ a)

end Triple

/-! ## Invariants

The instances find out that a method keeps an invariant from what it consists of.
-/

/-- A condition that instances can evaluate. -/
class Evident (b : Bool) : Prop where
  eq_true : b = true

instance evident_true : Evident true := ⟨rfl⟩

/-- The guard of an operation follows from an invariant, and the operation keeps it. -/
class KeepsCall (obs : Observer Op Val ε μ) (I : σ → μ → Prop) (op : Op) : Prop where
  guard : ∀ s m, I s m → obs.guard m op
  keeps : ∀ s m, I s m → ∀ answer, I s (obs.step m ⟨op, answer⟩)

/-- A change of the attributes keeps an invariant. -/
class KeepsUpdate (I : σ → μ → Prop) (f : σ → σ) : Prop where
  keeps : ∀ s m, I s m → I (f s) m

/-- A method keeps an invariant. -/
class Keeps (obs : Observer Op Val ε μ) (I : σ → μ → Prop) (x : Method Op Val ε σ α) : Prop where
  triple : Triple obs I x (fun _ => I) fun _ => I

section Keeps

variable {obs : Observer Op Val ε μ} {I : σ → μ → Prop}

instance keeps_pure (a : α) : Keeps obs I (pure a : Method Op Val ε σ α) :=
  ⟨.pure fun _ _ h => h⟩

instance keeps_self : Keeps obs I (self : Method Op Val ε σ σ) := ⟨.self fun _ _ h => h⟩

instance keeps_raise (e : ε) : Keeps obs I (raise e : Method Op Val ε σ α) :=
  ⟨.raise fun _ _ h => h⟩

instance keeps_ask (op : Op) [h : KeepsCall obs I op] :
    Keeps obs I (ask op : Method Op Val ε σ (Val op)) :=
  ⟨.ask h.guard (fun s m hI a => h.keeps s m hI (.ok a)) fun s m hI e => h.keeps s m hI (.error e)⟩

instance keeps_update (f : σ → σ) [h : KeepsUpdate I f] :
    Keeps obs I (update f : Method Op Val ε σ Unit) := ⟨.update h.keeps⟩

instance keeps_bind (x : Method Op Val ε σ α) (f : α → Method Op Val ε σ β) [hx : Keeps obs I x]
    [hf : ∀ a, Keeps obs I (f a)] : Keeps obs I (x >>= f) := ⟨hx.triple.bind fun a => (hf a).triple⟩

instance keeps_handle (x : Method Op Val ε σ α) (f : ε → Method Op Val ε σ α)
    [hx : Keeps obs I x] [hf : ∀ e, Keeps obs I (f e)] : Keeps obs I (handle x f) :=
  ⟨hx.triple.handle fun e => (hf e).triple⟩

instance keeps_ite (c : Prop) [Decidable c] (x y : Method Op Val ε σ α) [hx : Keeps obs I x]
    [hy : Keeps obs I y] : Keeps obs I (if c then x else y) :=
  ⟨.ite (fun _ => hx.triple) fun _ => hy.triple⟩

instance keeps_elim (r : Option α) (y : Method Op Val ε σ β) (f : α → Method Op Val ε σ β)
    [hy : Keeps obs I y] [hf : ∀ a, Keeps obs I (f a)] : Keeps obs I (r.elim y f) := by
  cases r with
  | none => exact hy
  | some a => exact hf a

instance keeps_elim_none (y : Method Op Val ε σ β) (f : α → Method Op Val ε σ β)
    [hy : Keeps obs I y] : Keeps obs I ((none : Option α).elim y f) := hy

instance keeps_when (c : Bool) (x : Method Op Val ε σ Unit) [Keeps obs I x] :
    Keeps obs I (when c x) := keeps_ite _ x _

instance keeps_both (x y : Method Op Val ε σ Bool) [Keeps obs I x] [Keeps obs I y] :
    Keeps obs I (both x y) := keeps_bind x _

instance keeps_either (x y : Method Op Val ε σ Bool) [Keeps obs I x] [Keeps obs I y] :
    Keeps obs I (either x y) := keeps_bind x _

instance keeps_negate (x : Method Op Val ε σ Bool) [Keeps obs I x] : Keeps obs I (negate x) :=
  keeps_bind x _

instance keeps_orElse (x : Method Op Val ε σ (Option α)) (y : Method Op Val ε σ α)
    [Keeps obs I x] [Keeps obs I y] : Keeps obs I (orElse x y) := keeps_bind x _

end Keeps

end Method

end Interaction
