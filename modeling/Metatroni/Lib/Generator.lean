import Mathlib.Data.List.Infix

/-!
# Generators: state, exceptions and yielded values

A generator body mutates a state, may raise, and yields values on the way.
An exception keeps both the values yielded before it and the state as it was
mutated so far, because a handler in the same body resumes from there.

## Implementation notes

The yielded values of a step do not depend on what was yielded before it, so
they are returned as a list of their own and concatenated by `bind`. Facts
about a body then compose without mentioning the history of the run.
-/

namespace Generators

variable {σ τ ε α β : Type}

/-- Everything one execution of a generator body leaves behind. -/
structure Outcome (σ τ ε α : Type) where
  yielded : List τ
  state : σ
  result : Except ε α

/-- A generator body over states `σ`, yielding `τ`, raising `ε`. -/
def Gen (σ τ ε α : Type) := σ → Outcome σ τ ε α

namespace Gen

/-- Sequencing: an exception skips the continuation and keeps state and yields. -/
def bind (x : Gen σ τ ε α) (f : α → Gen σ τ ε β) : Gen σ τ ε β := fun s =>
  match x s with
  | ⟨ys, s', .ok a⟩ => ⟨ys ++ (f a s').yielded, (f a s').state, (f a s').result⟩
  | ⟨ys, s', .error e⟩ => ⟨ys, s', .error e⟩

instance : Monad (Gen σ τ ε) where
  pure a := fun s => ⟨[], s, .ok a⟩
  bind := bind

/-- Emit one value. -/
def yield (t : τ) : Gen σ τ ε Unit := fun s => ⟨[t], s, .ok ()⟩

/-- Raise an exception. -/
def raise (e : ε) : Gen σ τ ε α := fun s => ⟨[], s, .error e⟩

/-- Read the state. -/
def self : Gen σ τ ε σ := fun s => ⟨[], s, .ok s⟩

/-- Overwrite the state. -/
def update (f : σ → σ) : Gen σ τ ε Unit := fun s => ⟨[], f s, .ok ()⟩

/-- Run a check that reads the state and raises or returns. -/
def check (f : σ → Except ε Unit) : Gen σ τ ε Unit := fun s => ⟨[], s, f s⟩

/-- A statement guarded by `if` without `else`. -/
def when (c : Prop) [Decidable c] (x : Gen σ τ ε Unit) : Gen σ τ ε Unit :=
  if c then x else pure ()

/-- `try ... except`: the handler continues from the mutated state and its
yields come after those of the interrupted body. -/
def handle (x : Gen σ τ ε α) (h : ε → Gen σ τ ε α) : Gen σ τ ε α := fun s =>
  match x s with
  | ⟨ys, s', .ok a⟩ => ⟨ys, s', .ok a⟩
  | ⟨ys, s', .error e⟩ => ⟨ys ++ (h e s').yielded, (h e s').state, (h e s').result⟩

@[simp] theorem pure_run (a : α) (s : σ) :
    (pure a : Gen σ τ ε α) s = ⟨[], s, .ok a⟩ := rfl

@[simp] theorem yield_run (t : τ) (s : σ) :
    (yield t : Gen σ τ ε Unit) s = ⟨[t], s, .ok ()⟩ := rfl

@[simp] theorem raise_run (e : ε) (s : σ) :
    (raise e : Gen σ τ ε α) s = ⟨[], s, .error e⟩ := rfl

@[simp] theorem self_run (s : σ) : (self : Gen σ τ ε σ) s = ⟨[], s, .ok s⟩ := rfl

@[simp] theorem update_run (f : σ → σ) (s : σ) :
    (update f : Gen σ τ ε Unit) s = ⟨[], f s, .ok ()⟩ := rfl

@[simp] theorem check_run (f : σ → Except ε Unit) (s : σ) :
    (check f : Gen σ τ ε Unit) s = ⟨[], s, f s⟩ := rfl

theorem bind_ok {x : Gen σ τ ε α} {f : α → Gen σ τ ε β} {s s' : σ} {ys : List τ} {a : α}
    (h : x s = ⟨ys, s', .ok a⟩) :
    (x >>= f) s = ⟨ys ++ (f a s').yielded, (f a s').state, (f a s').result⟩ := by
  change bind x f s = _
  simp only [bind, h]

theorem bind_error {x : Gen σ τ ε α} {f : α → Gen σ τ ε β} {s s' : σ} {ys : List τ} {e : ε}
    (h : x s = ⟨ys, s', .error e⟩) : (x >>= f) s = ⟨ys, s', .error e⟩ := by
  change bind x f s = _
  simp only [bind, h]

@[simp] theorem self_bind (f : σ → Gen σ τ ε β) (s : σ) : (self >>= f) s = f s s := by
  rw [bind_ok (self_run s)]
  simp

@[simp] theorem update_bind (g : σ → σ) (f : Unit → Gen σ τ ε β) (s : σ) :
    (update g >>= f) s = f () (g s) := by
  rw [bind_ok (update_run g s)]
  simp

/-- Continuing a body only appends to what it yielded. -/
theorem yielded_prefix_bind (x : Gen σ τ ε α) (f : α → Gen σ τ ε β) (s : σ) :
    (x s).yielded <+: ((x >>= f) s).yielded := by
  rcases hx : x s with ⟨ys, s', e | a⟩
  · rw [bind_error hx]
  · rw [bind_ok hx]
    exact List.prefix_append _ _

/-- A handler only appends to what the interrupted body yielded. -/
theorem yielded_prefix_handle (x : Gen σ τ ε α) (h : ε → Gen σ τ ε α) (s : σ) :
    (x s).yielded <+: (handle x h s).yielded := by
  rcases hx : x s with ⟨ys, s', e | a⟩
  · simp only [handle, hx]
    exact List.prefix_append _ _
  · simp only [handle, hx]
    exact List.prefix_refl _

/-! ## Relations between start, yields and end -/

/-- Every normal return relates the start state, the yields and the end state. -/
def Ensures (x : Gen σ τ ε α) (R : σ → List τ → σ → Prop) : Prop :=
  ∀ s ys s' a, x s = ⟨ys, s', .ok a⟩ → R s ys s'

/-- Relations that survive doing nothing and sequencing. -/
structure Composable (R : σ → List τ → σ → Prop) : Prop where
  refl : ∀ s, R s [] s
  trans : ∀ {s ys s' zs s''}, R s ys s' → R s' zs s'' → R s (ys ++ zs) s''

/-- A normal return of a sequence splits into the returns of its parts. -/
theorem bind_eq_ok {x : Gen σ τ ε α} {f : α → Gen σ τ ε β} {s s' : σ} {ys : List τ} {b : β}
    (h : (x >>= f) s = ⟨ys, s', .ok b⟩) :
    ∃ ys₁ s₁ a ys₂, x s = ⟨ys₁, s₁, .ok a⟩ ∧ f a s₁ = ⟨ys₂, s', .ok b⟩ ∧ ys = ys₁ ++ ys₂ := by
  rcases hx : x s with ⟨ys₁, s₁, e | a⟩
  · rw [bind_error hx] at h
    simp at h
  · rw [bind_ok hx] at h
    simp only [Outcome.mk.injEq] at h
    obtain ⟨hy, hs, hr⟩ := h
    refine ⟨ys₁, s₁, a, (f a s₁).yielded, rfl, ?_, hy.symm⟩
    rw [← hs, ← hr]

/-- A normal return of a `try` statement is one of its body or of its handler. -/
theorem handle_eq_ok {x : Gen σ τ ε α} {h : ε → Gen σ τ ε α} {s s' : σ} {ys : List τ} {a : α}
    (hx : handle x h s = ⟨ys, s', .ok a⟩) :
    x s = ⟨ys, s', .ok a⟩ ∨
      ∃ ys₁ s₁ e ys₂, x s = ⟨ys₁, s₁, .error e⟩ ∧ h e s₁ = ⟨ys₂, s', .ok a⟩ ∧ ys = ys₁ ++ ys₂ := by
  rcases hb : x s with ⟨ys₁, s₁, e | b⟩
  · simp only [handle, hb, Outcome.mk.injEq] at hx
    obtain ⟨hy, hs, hr⟩ := hx
    refine Or.inr ⟨ys₁, s₁, e, (h e s₁).yielded, rfl, ?_, hy.symm⟩
    rw [← hs, ← hr]
  · simp only [handle, hb] at hx
    exact Or.inl hx

namespace Ensures

variable {R : σ → List τ → σ → Prop}

theorem pure (hR : Composable R) (a : α) : Ensures (Pure.pure a : Gen σ τ ε α) R := by
  intro s ys s' b h
  simp only [pure_run, Outcome.mk.injEq] at h
  obtain ⟨rfl, rfl, -⟩ := h
  exact hR.refl s

theorem self (hR : Composable R) : Ensures (Gen.self : Gen σ τ ε σ) R := by
  intro s ys s' b h
  simp only [self_run, Outcome.mk.injEq] at h
  obtain ⟨rfl, rfl, -⟩ := h
  exact hR.refl s

theorem check (hR : Composable R) (f : σ → Except ε Unit) :
    Ensures (Gen.check f : Gen σ τ ε Unit) R := by
  intro s ys s' b h
  simp only [check_run, Outcome.mk.injEq] at h
  obtain ⟨rfl, rfl, -⟩ := h
  exact hR.refl s

theorem update {f : σ → σ} (hf : ∀ s, R s [] (f s)) :
    Ensures (Gen.update f : Gen σ τ ε Unit) R := by
  intro s ys s' b h
  simp only [update_run, Outcome.mk.injEq] at h
  obtain ⟨rfl, rfl, -⟩ := h
  exact hf s

theorem bind (hR : Composable R) {x : Gen σ τ ε α} {f : α → Gen σ τ ε β} (hx : Ensures x R)
    (hf : ∀ a, Ensures (f a) R) : Ensures (x >>= f) R := by
  intro s ys s' b h
  obtain ⟨ys₁, s₁, a, ys₂, h₁, h₂, rfl⟩ := bind_eq_ok h
  exact hR.trans (hx s ys₁ s₁ a h₁) (hf a s₁ ys₂ s' b h₂)

theorem ite {c : Prop} [Decidable c] {x y : Gen σ τ ε α} (hx : Ensures x R) (hy : Ensures y R) :
    Ensures (if c then x else y) R := by
  split
  · exact hx
  · exact hy

theorem when (hR : Composable R) {c : Prop} [Decidable c] {x : Gen σ τ ε Unit}
    (hx : Ensures x R) : Ensures (Gen.when c x) R :=
  .ite hx (.pure hR ())

end Ensures

/-! ## Whether a body returns -/

/-- The body returns from this state, in a state with the property. -/
def Reaches (x : Gen σ τ ε Unit) (s : σ) (P : σ → Prop) : Prop :=
  ∃ ys s', x s = ⟨ys, s', .ok ()⟩ ∧ P s'

/-- The body raises from this state. -/
def Raises (x : Gen σ τ ε Unit) (s : σ) : Prop :=
  ∃ ys s' e, x s = ⟨ys, s', .error e⟩

section Total

variable {P Q : σ → Prop} {s : σ}

theorem reaches_pure (h : P s) : Reaches (Pure.pure () : Gen σ τ ε Unit) s P :=
  ⟨[], s, pure_run () s, h⟩

theorem reaches_check {f : σ → Except ε Unit} (hf : f s = .ok ()) (h : P s) :
    Reaches (Gen.check f : Gen σ τ ε Unit) s P :=
  ⟨[], s, by rw [check_run, hf], h⟩

theorem raises_check {f : σ → Except ε Unit} {e : ε} (hf : f s = .error e) :
    Raises (Gen.check f : Gen σ τ ε Unit) s :=
  ⟨[], s, e, by rw [check_run, hf]⟩

theorem Reaches.mono {x : Gen σ τ ε Unit} (h : Reaches x s P) (hPQ : ∀ s', P s' → Q s') :
    Reaches x s Q := by
  obtain ⟨ys, s', hx, hP⟩ := h
  exact ⟨ys, s', hx, hPQ s' hP⟩

theorem Reaches.congr {x y : Gen σ τ ε Unit} (h : Reaches y s P) (hxy : x s = y s) :
    Reaches x s P := by
  obtain ⟨ys, s', hy, hP⟩ := h
  exact ⟨ys, s', hxy.trans hy, hP⟩

theorem Raises.congr {x y : Gen σ τ ε Unit} (h : Raises y s) (hxy : x s = y s) : Raises x s := by
  obtain ⟨ys, s', e, hy⟩ := h
  exact ⟨ys, s', e, hxy.trans hy⟩

/-- Sequencing: the second part starts anywhere the first one may end. -/
theorem Reaches.bind {x : Gen σ τ ε Unit} {f : Unit → Gen σ τ ε Unit} (h : Reaches x s P)
    (hf : ∀ s', P s' → Reaches (f ()) s' Q) : Reaches (x >>= f) s Q := by
  obtain ⟨ys, s₁, hx, hP⟩ := h
  obtain ⟨zs, s₂, hy, hQ⟩ := hf s₁ hP
  refine ⟨ys ++ zs, s₂, ?_, hQ⟩
  rw [bind_ok hx, hy]

theorem Reaches.bind_raises {x : Gen σ τ ε Unit} {f : Unit → Gen σ τ ε Unit} (h : Reaches x s P)
    (hf : ∀ s', P s' → Raises (f ()) s') : Raises (x >>= f) s := by
  obtain ⟨ys, s₁, hx, hP⟩ := h
  obtain ⟨zs, s₂, e, hy⟩ := hf s₁ hP
  exact ⟨ys ++ zs, s₂, e, by rw [bind_ok hx, hy]⟩

theorem Raises.bind {x : Gen σ τ ε Unit} {f : Unit → Gen σ τ ε Unit} (h : Raises x s) :
    Raises (x >>= f) s := by
  obtain ⟨ys, s', e, hx⟩ := h
  exact ⟨ys, s', e, bind_error hx⟩

theorem Reaches.bindSelf {f : σ → Gen σ τ ε Unit} (h : Reaches (f s) s P) :
    Reaches (Gen.self >>= f) s P := by
  obtain ⟨ys, s', hx, hP⟩ := h
  exact ⟨ys, s', by rw [self_bind, hx], hP⟩

theorem Raises.bindSelf {f : σ → Gen σ τ ε Unit} (h : Raises (f s) s) :
    Raises (Gen.self >>= f) s := by
  obtain ⟨ys, s', e, hx⟩ := h
  exact ⟨ys, s', e, by rw [self_bind, hx]⟩

theorem reaches_when {c : Prop} [Decidable c] {x : Gen σ τ ε Unit} (hc : c → Reaches x s P)
    (hn : ¬ c → P s) : Reaches (Gen.when c x) s P := by
  rw [Gen.when]
  split
  · next h => exact hc h
  · next h => exact reaches_pure (hn h)

theorem Raises.when {c : Prop} [Decidable c] {x : Gen σ τ ε Unit} (hc : c) (h : Raises x s) :
    Raises (Gen.when c x) s := by
  rw [Gen.when, if_pos hc]
  exact h

end Total

/-! ## What a body leaves behind if it returns -/

/-- If the body returns from this state, its yields and its end have the property. -/
def Returns (x : Gen σ τ ε Unit) (s : σ) (Q : List τ → σ → Prop) : Prop :=
  ∀ ys s', x s = ⟨ys, s', .ok ()⟩ → Q ys s'

/-- The body returns from this state and leaves no trace. -/
def Silent (x : Gen σ τ ε Unit) (s : σ) : Prop := x s = ⟨[], s, .ok ()⟩

section Partial

variable {P Q : List τ → σ → Prop} {s : σ}

theorem returns_check {f : σ → Except ε Unit} (h : f s = .ok () → Q [] s) :
    Returns (Gen.check f : Gen σ τ ε Unit) s Q := by
  intro ys s' hx
  rw [check_run, Outcome.mk.injEq] at hx
  obtain ⟨rfl, rfl, hf⟩ := hx
  exact h hf

theorem Returns.mono {x : Gen σ τ ε Unit} (h : Returns x s P) (hPQ : ∀ ys s', P ys s' → Q ys s') :
    Returns x s Q := fun ys s' hx => hPQ ys s' (h ys s' hx)

theorem Returns.and {x : Gen σ τ ε Unit} (hP : Returns x s P) (hQ : Returns x s Q) :
    Returns x s fun ys s' => P ys s' ∧ Q ys s' :=
  fun ys s' hx => ⟨hP ys s' hx, hQ ys s' hx⟩

theorem Returns.and_ensures {x : Gen σ τ ε Unit} {R : σ → List τ → σ → Prop} (h : Returns x s P)
    (hR : Ensures x R) : Returns x s fun ys s' => P ys s' ∧ R s ys s' :=
  h.and fun ys s' hx => hR s ys s' () hx

/-- Sequencing: the yields of the second part come after those of the first. -/
theorem Returns.bind {x : Gen σ τ ε Unit} {f : Unit → Gen σ τ ε Unit} (h : Returns x s P)
    (hf : ∀ ys s', P ys s' → Returns (f ()) s' fun zs s'' => Q (ys ++ zs) s'') :
    Returns (x >>= f) s Q := by
  intro ys s' hx
  obtain ⟨ys₁, s₁, u, ys₂, hx₁, hx₂, rfl⟩ := bind_eq_ok hx
  exact hf ys₁ s₁ (h ys₁ s₁ hx₁) ys₂ s' hx₂

theorem Returns.bindSelf {f : σ → Gen σ τ ε Unit} (h : Returns (f s) s Q) :
    Returns (Gen.self >>= f) s Q := by
  intro ys s' hx
  rw [self_bind] at hx
  exact h ys s' hx

theorem returns_when {c : Prop} [Decidable c] {x : Gen σ τ ε Unit} (hc : c → Returns x s Q)
    (hn : ¬ c → Q [] s) : Returns (Gen.when c x) s Q := by
  rw [Gen.when]
  split
  · next h => exact hc h
  · next h =>
      intro ys s' hx
      rw [pure_run, Outcome.mk.injEq] at hx
      obtain ⟨rfl, rfl, -⟩ := hx
      exact hn h

theorem silent_check {f : σ → Except ε Unit} (hf : f s = .ok ()) :
    Silent (Gen.check f : Gen σ τ ε Unit) s := by
  rw [Silent, check_run, hf]

theorem Silent.bind {x : Gen σ τ ε Unit} {f : Unit → Gen σ τ ε Unit} (h : Silent x s)
    (hf : Silent (f ()) s) : Silent (x >>= f) s := by
  rw [Silent, bind_ok h, hf]
  rfl

theorem Silent.bindSelf {f : σ → Gen σ τ ε Unit} (h : Silent (f s) s) :
    Silent (Gen.self >>= f) s := by
  rw [Silent, self_bind]
  exact h

theorem silent_when {c : Prop} [Decidable c] {x : Gen σ τ ε Unit} (hc : ¬ c) :
    Silent (Gen.when c x) s := by
  rw [Silent, Gen.when, if_neg hc]
  rfl

theorem Silent.returns {x : Gen σ τ ε Unit} (h : Silent x s) (hQ : Q [] s) : Returns x s Q := by
  intro ys s' hx
  rw [h, Outcome.mk.injEq] at hx
  obtain ⟨rfl, rfl, -⟩ := hx
  exact hQ

theorem Silent.bind_returns {x : Gen σ τ ε Unit} {f : Unit → Gen σ τ ε Unit} (h : Silent x s)
    (hf : Returns (f ()) s Q) : Returns (x >>= f) s Q := by
  intro ys s' hx
  rw [bind_ok h] at hx
  exact hf ys s' hx

end Partial

end Gen

end Generators
