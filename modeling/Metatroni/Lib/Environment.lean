import Metatroni.Lib.Interaction

/-!
# Environments

An environment has a state. It answers each call in one of several ways, and its state changes with
the answer. What a method does in an environment is what it does for all these answers.

## Implementation notes

An environment is a relation. A run that an environment allows is an execution together with the
states of the environment.
-/

namespace Interaction

variable {Op : Type} {Val : Op → Type} {ε σ τ α β : Type}

/-- An environment answers a call in a state, and is in another state after that. -/
abbrev Environment (Op : Type) (Val : Op → Type) (ε τ : Type) :=
  τ → Event Op Val ε → τ → Prop

/-- An environment gives some answers one after the other. -/
inductive Environment.Gives (env : Environment Op Val ε τ) : τ → List (Event Op Val ε) → τ → Prop
  | nil (t : τ) : Gives env t [] t
  | cons {t t₁ t' : τ} {e : Event Op Val ε} {es : List (Event Op Val ε)} (h : env t e t₁)
      (hrest : Gives env t₁ es t') : Gives env t (e :: es) t'

/-- An environment may give fewer answers than another one. -/
theorem Environment.Gives.mono {env env' : Environment Op Val ε τ} {t t' : τ}
    {es : List (Event Op Val ε)} (h : env.Gives t es t')
    (henv : ∀ t, ∀ e ∈ es, ∀ t', env t e t' → env' t e t') : env'.Gives t es t' := by
  induction h with
  | nil t => exact .nil t
  | cons h _ ih =>
      exact .cons (henv _ _ List.mem_cons_self _ h)
        (ih fun t e he => henv t e (List.mem_cons_of_mem _ he))

namespace Program

/-- A condition holds at the end, whatever the environment answers. -/
def wpIn (env : Environment Op Val ε τ) (Q : α → τ → Prop) : Program Op Val ε α → τ → Prop
  | ret a, t => Q a t
  | call op next, t => ∀ answer t', env t ⟨op, answer⟩ t' → wpIn env Q (next answer) t'

variable {env : Environment Op Val ε τ} {Q Q' : α → τ → Prop}

theorem wpIn_bind {p : Program Op Val ε α} {f : α → Program Op Val ε β} {R : β → τ → Prop} {t : τ} :
    (p.bind f).wpIn env R t ↔ p.wpIn env (fun a t => (f a).wpIn env R t) t := by
  induction p generalizing t with
  | ret a => rfl
  | call op next ih =>
      rw [bind, wpIn, wpIn]
      exact forall_congr' fun answer => forall_congr' fun t' => imp_congr_right fun _ => ih answer

theorem wpIn_mono {p : Program Op Val ε α} (hQ : ∀ a t, Q a t → Q' a t) {t : τ}
    (h : p.wpIn env Q t) : p.wpIn env Q' t := by
  induction p generalizing t with
  | ret a => exact hQ a t h
  | call op next ih => exact fun answer t' ht => ih answer (h answer t' ht)

/-- The weakest precondition is about the executions that the environment allows. -/
theorem Exec.wpIn {p : Program Op Val ε α} {es : List (Event Op Val ε)} {a : α} (h : p.Exec es a)
    {t t' : τ} (hgives : env.Gives t es t') (hwp : p.wpIn env Q t) : Q a t' := by
  induction h generalizing t with
  | ret a =>
      cases hgives
      exact hwp
  | call answer _ ih =>
      cases hgives with
      | cons hanswer hrest => exact ih hrest (hwp answer _ hanswer)

/-- The calls, the result and the last state if a function answers. -/
def play (execute : (op : Op) → τ → Except ε (Val op) × τ) :
    Program Op Val ε α → τ → List (Event Op Val ε) × α × τ
  | ret a, t => ([], a, t)
  | call op next, t =>
      let r := (next (execute op t).1).play execute (execute op t).2
      (⟨op, (execute op t).1⟩ :: r.1, r.2)

theorem play_exec (execute : (op : Op) → τ → Except ε (Val op) × τ) (p : Program Op Val ε α)
    (t : τ) : p.Exec (p.play execute t).1 (p.play execute t).2.1 := by
  induction p generalizing t with
  | ret a => exact .ret a
  | call op next ih => exact .call _ (ih _ _)

/-- A function is an environment. -/
theorem play_gives {execute : (op : Op) → τ → Except ε (Val op) × τ}
    (henv : ∀ op t, env t ⟨op, (execute op t).1⟩ (execute op t).2) (p : Program Op Val ε α)
    (t : τ) : env.Gives t (p.play execute t).1 (p.play execute t).2.2 := by
  induction p generalizing t with
  | ret a => exact .nil t
  | call op next ih => exact .cons (henv op t) (ih _ _)

end Program

namespace Method

/-- There is a condition for a return and one for an exception, whatever the environment answers. -/
def wpIn (env : Environment Op Val ε τ) (x : Method Op Val ε σ α) (Q : α → σ → τ → Prop)
    (E : ε → σ → τ → Prop) (s : σ) (t : τ) : Prop :=
  (x s).wpIn env (fun r t => match r with
    | (.ok a, s') => Q a s' t
    | (.error e, s') => E e s' t) t

variable {env : Environment Op Val ε τ} {Q Q' : α → σ → τ → Prop} {E E' : ε → σ → τ → Prop} {s : σ}
  {t : τ}

@[simp] theorem wpIn_pure {a : α} : wpIn env (pure a) Q E s t ↔ Q a s t := Iff.rfl

@[simp] theorem wpIn_bind {x : Method Op Val ε σ α} {f : α → Method Op Val ε σ β}
    {R : β → σ → τ → Prop} :
    wpIn env (x >>= f) R E s t ↔ wpIn env x (fun a => wpIn env (f a) R E) E s t := by
  refine Program.wpIn_bind.trans ?_
  rw [wpIn]
  refine iff_of_eq (congrArg (fun P => Program.wpIn env P (x s) t) ?_)
  funext r t'
  obtain ⟨_ | _, s'⟩ := r
  · rfl
  · rfl

@[simp] theorem wpIn_ask {op : Op} {Q : Val op → σ → τ → Prop} :
    wpIn env (ask op) Q E s t ↔ (∀ a t', env t ⟨op, .ok a⟩ t' → Q a s t') ∧
      ∀ e t', env t ⟨op, .error e⟩ t' → E e s t' := by
  constructor
  · exact fun h => ⟨fun a => h (.ok a), fun e => h (.error e)⟩
  · rintro ⟨hok, herror⟩ answer t' ht
    cases answer with
    | ok a => exact hok a t' ht
    | error e => exact herror e t' ht

@[simp] theorem wpIn_self {Q : σ → σ → τ → Prop} : wpIn env self Q E s t ↔ Q s s t := Iff.rfl

@[simp] theorem wpIn_update {f : σ → σ} {Q : Unit → σ → τ → Prop} :
    wpIn env (update f) Q E s t ↔ Q () (f s) t := Iff.rfl

@[simp] theorem wpIn_raise {e : ε} : wpIn env (raise e) Q E s t ↔ E e s t := Iff.rfl

@[simp] theorem wpIn_handle {x : Method Op Val ε σ α} {h : ε → Method Op Val ε σ α} :
    wpIn env (handle x h) Q E s t ↔ wpIn env x Q (fun e => wpIn env (h e) Q E) s t := by
  refine Program.wpIn_bind.trans ?_
  rw [wpIn]
  refine iff_of_eq (congrArg (fun P => Program.wpIn env P (x s) t) ?_)
  funext r t'
  obtain ⟨_ | _, s'⟩ := r
  · rfl
  · rfl

theorem wpIn_mono {x : Method Op Val ε σ α} (hQ : ∀ a s t, Q a s t → Q' a s t)
    (hE : ∀ e s t, E e s t → E' e s t) (h : wpIn env x Q E s t) : wpIn env x Q' E' s t := by
  refine Program.wpIn_mono (fun r t' hr => ?_) h
  obtain ⟨e | a, s'⟩ := r
  · exact hE e s' t' hr
  · exact hQ a s' t' hr

/-- The condition for an exception stays the same. -/
theorem wpIn_next {x : Method Op Val ε σ α} (h : wpIn env x Q E s t)
    (hQ : ∀ a s t, Q a s t → Q' a s t) : wpIn env x Q' E s t :=
  wpIn_mono hQ (fun _ _ _ he => he) h

/-- Each turn of a loop settles some keys, and leaves the others as they are. -/
theorem wpIn_forEach {κ γ : Type} {x : β → Method Op Val ε σ Unit} {bs : List β}
    (view : σ → τ → κ → γ) (Pre Post : κ → γ → Prop) (keys : β → κ → Prop)
    (hx : ∀ b ∈ bs, ∀ s t, (∀ k, keys b k → Pre k (view s t k)) →
      wpIn env (x b) (fun _ s' t' => (∀ k, keys b k → Post k (view s' t' k)) ∧
        ∀ k, ¬keys b k → view s' t' k = view s t k) E s t)
    (hdisjoint : bs.Pairwise fun b c => ∀ k, keys b k → ¬keys c k)
    (hPre : ∀ b ∈ bs, ∀ k, keys b k → Pre k (view s t k)) :
    wpIn env (forEach x bs) (fun _ s' t' => (∀ b ∈ bs, ∀ k, keys b k → Post k (view s' t' k)) ∧
      ∀ k, (∀ b ∈ bs, ¬keys b k) → view s' t' k = view s t k) E s t := by
  induction bs generalizing s t with
  | nil => exact ⟨fun _ h => absurd h List.not_mem_nil, fun _ _ => rfl⟩
  | cons b bs ih =>
      obtain ⟨hb, hbs⟩ := List.pairwise_cons.mp hdisjoint
      rw [forEach, wpIn_bind]
      refine wpIn_next (hx b List.mem_cons_self s t (hPre b List.mem_cons_self)) ?_
      rintro _ s₁ t₁ ⟨hPost, hframe⟩
      have hPre₁ : ∀ c ∈ bs, ∀ k, keys c k → Pre k (view s₁ t₁ k) := by
        intro c hc k hk
        rw [hframe k fun hbk => hb c hc k hbk hk]
        exact hPre c (List.mem_cons_of_mem b hc) k hk
      refine wpIn_next (ih (fun c hc => hx c (List.mem_cons_of_mem b hc)) hbs hPre₁) ?_
      rintro _ s₂ t₂ ⟨hPost₂, hframe₂⟩
      refine ⟨fun c hc k hk => ?_, fun k hk => ?_⟩
      · rcases List.mem_cons.mp hc with rfl | hc
        · rw [hframe₂ k fun c hc => hb c hc k hk]
          exact hPost k hk
        · exact hPost₂ c hc k hk
      · exact (hframe₂ k fun c hc => hk c (List.mem_cons_of_mem b hc)).trans
          (hframe k (hk b List.mem_cons_self))

end Method

end Interaction
