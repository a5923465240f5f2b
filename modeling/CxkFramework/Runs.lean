import Mathlib.Algebra.Ring.Nat
import Mathlib.Data.List.Basic

/-!
# Runs of labelled transition systems

A system is a relation `step s a s'`. A run is recorded as the list of its labels,
each with the state it led to, so that a statement about every state a run reaches
is a statement about the list.
-/

namespace CxkFramework.Runs

variable {σ α : Type*}

/-- `Run step s t`: the steps recorded in `t` can be taken one after the other from `s`. -/
inductive Run (step : σ → α → σ → Prop) : σ → List (α × σ) → Prop where
  | nil (s : σ) : Run step s []
  | cons {s s' : σ} {a : α} {t : List (α × σ)} :
      step s a s' → Run step s' t → Run step s ((a, s') :: t)

/-- Every state the run reaches, its first one included, has the property. -/
def Always (P : σ → Prop) (s : σ) (t : List (α × σ)) : Prop :=
  P s ∧ ∀ p ∈ t, P p.2

/-- Every step of the run is taken in a state and with a label that meet the condition. -/
def Meets (ok : σ → α → Prop) : σ → List (α × σ) → Prop
  | _, [] => True
  | s, (a, s') :: t => ok s a ∧ Meets ok s' t

instance decidableMeets {ok : σ → α → Prop} [∀ s a, Decidable (ok s a)] :
    ∀ (s : σ) (t : List (α × σ)), Decidable (Meets ok s t)
  | _, [] => isTrue trivial
  | s, (a, s') :: t =>
    have : Decidable (Meets ok s' t) := decidableMeets s' t
    inferInstanceAs (Decidable (ok s a ∧ Meets ok s' t))

theorem Meets.and {ok ok' : σ → α → Prop} {s : σ} {t : List (α × σ)} (h : Meets ok s t)
    (h' : Meets ok' s t) : Meets (fun s a => ok s a ∧ ok' s a) s t := by
  induction t generalizing s with
  | nil => trivial
  | cons p t ih => exact ⟨⟨h.1, h'.1⟩, ih h.2 h'.2⟩

/-- The state a run ends in. -/
def last : σ → List (α × σ) → σ
  | s, [] => s
  | _, (_, s') :: t => last s' t

@[simp] theorem always_nil {P : σ → Prop} {s : σ} :
    Always P s ([] : List (α × σ)) ↔ P s := by simp [Always]

@[simp] theorem always_cons {P : σ → Prop} {s s' : σ} {a : α} {t : List (α × σ)} :
    Always P s ((a, s') :: t) ↔ P s ∧ Always P s' t := by simp [Always]

/-- What holds throughout holds at the end. -/
theorem Always.last {P : σ → Prop} {s : σ} {t : List (α × σ)} (h : Always P s t) :
    P (Runs.last s t) := by
  induction t generalizing s with
  | nil => exact h.1
  | cons p t ih => exact ih (always_cons.mp h).2

/-- The invariant rule: what every good step keeps holds along every run of good steps. -/
theorem always_of_meets {step : σ → α → σ → Prop} {I : σ → Prop} {ok : σ → α → Prop}
    (keep : ∀ s a s', I s → ok s a → step s a s' → I s')
    {s : σ} {t : List (α × σ)} (run : Run step s t) (hs : I s) (hm : Meets ok s t) :
    Always I s t := by
  induction run with
  | nil s => simpa using hs
  | cons h _ ih =>
    obtain ⟨hok, hrest⟩ := hm
    exact always_cons.mpr ⟨hs, ih (keep _ _ _ hs hok h) hrest⟩

/-- The invariant rule without a condition on the steps. -/
theorem always_of_step {step : σ → α → σ → Prop} {I : σ → Prop}
    (keep : ∀ s a s', I s → step s a s' → I s')
    {s : σ} {t : List (α × σ)} (run : Run step s t) (hs : I s) : Always I s t := by
  induction run with
  | nil s => simpa using hs
  | cons h _ ih => exact always_cons.mpr ⟨hs, ih (keep _ _ _ hs h)⟩

theorem Always.mono {P Q : σ → Prop} {s : σ} {t : List (α × σ)}
    (h : Always P s t) (hpq : ∀ s, P s → Q s) : Always Q s t :=
  ⟨hpq _ h.1, fun p hp => hpq _ (h.2 p hp)⟩

/-- When one step keeps `P` exactly under `ok`, a whole run keeps `P` exactly when all of
its steps meet `ok`. `B` collects what every step keeps as long as `P` holds. -/
theorem always_iff_meets {step : σ → α → σ → Prop} (B P : σ → Prop) (ok : σ → α → Prop)
    (base : ∀ s a s', B s → P s → step s a s' → B s')
    (exact : ∀ s a s', B s → P s → step s a s' → (P s' ↔ ok s a))
    {s : σ} {t : List (α × σ)} (run : Run step s t) (hb : B s) (hp : P s) :
    Always P s t ↔ Meets ok s t := by
  induction run with
  | nil s => simpa [Meets] using hp
  | cons h _ ih =>
    rw [always_cons]
    constructor
    · rintro ⟨-, ha⟩
      have hp' := ha.1
      exact ⟨(exact _ _ _ hb hp h).mp hp', (ih (base _ _ _ hb hp h) hp').mp ha⟩
    · rintro ⟨hok, hm⟩
      have hp' := (exact _ _ _ hb hp h).mpr hok
      exact ⟨hp, (ih (base _ _ _ hb hp h) hp').mpr hm⟩

/-- When an invariant implies `P`, good steps keep it and every other step breaks `P` at once, a run
keeps `P` exactly when all of its steps are good. -/
theorem always_iff_meets_of_inv {step : σ → α → σ → Prop} {P : σ → Prop} {ok : σ → α → Prop}
    (I : σ → Prop) (holds : ∀ s, I s → P s)
    (keep : ∀ s a s', I s → ok s a → step s a s' → I s')
    (breaks : ∀ s a s', I s → ¬ok s a → step s a s' → ¬P s')
    {s : σ} {t : List (α × σ)} (run : Run step s t) (hs : I s) : Always P s t ↔ Meets ok s t := by
  induction run with
  | nil s => simpa [Meets] using holds s hs
  | cons h _ ih =>
    rw [always_cons]
    constructor
    · rintro ⟨-, ha⟩
      have hok := not_not.mp fun hbad => breaks _ _ _ hs hbad h ha.1
      exact ⟨hok, (ih (keep _ _ _ hs hok h)).mp ha⟩
    · rintro ⟨hok, hm⟩
      exact ⟨holds _ hs, (ih (keep _ _ _ hs hok h)).mpr hm⟩

/-- Every step of the run, with the state before and after it, has the property. -/
def Every (Q : σ → α → σ → Prop) : σ → List (α × σ) → Prop
  | _, [] => True
  | s, (a, s') :: t => Q s a s' ∧ Every Q s' t

/-- What every step has under an invariant, every step of a run has. -/
theorem every_of_step {step : σ → α → σ → Prop} {I : σ → Prop} {Q : σ → α → σ → Prop}
    (keep : ∀ s a s', I s → step s a s' → I s') (has : ∀ s a s', I s → step s a s' → Q s a s')
    {s : σ} {t : List (α × σ)} (run : Run step s t) (hs : I s) : Every Q s t := by
  induction run with
  | nil s => exact trivial
  | cons h _ ih => exact ⟨has _ _ _ hs h, ih (keep _ _ _ hs h)⟩

theorem every_of_meets {step : σ → α → σ → Prop} {I : σ → Prop} {ok : σ → α → Prop}
    {Q : σ → α → σ → Prop} (keep : ∀ s a s', I s → ok s a → step s a s' → I s')
    (has : ∀ s a s', I s → ok s a → step s a s' → Q s a s')
    {s : σ} {t : List (α × σ)} (run : Run step s t) (hs : I s) (hm : Meets ok s t) :
    Every Q s t := by
  induction run with
  | nil s => exact trivial
  | cons h _ ih =>
    obtain ⟨hok, hrest⟩ := hm
    exact ⟨has _ _ _ hs hok h, ih (keep _ _ _ hs hok h) hrest⟩

/-- When under an invariant a step has the property exactly under `ok`, so has a run. -/
theorem every_iff_meets {step : σ → α → σ → Prop} (I : σ → Prop) (Q : σ → α → σ → Prop)
    (ok : σ → α → Prop) (keep : ∀ s a s', I s → step s a s' → I s')
    (exact : ∀ s a s', I s → step s a s' → (Q s a s' ↔ ok s a))
    {s : σ} {t : List (α × σ)} (run : Run step s t) (hs : I s) : Every Q s t ↔ Meets ok s t := by
  induction run with
  | nil s => exact Iff.rfl
  | cons h _ ih => exact and_congr (exact _ _ _ hs h) (ih (keep _ _ _ hs h))

/-- The run a partial step function makes on a list of labels. -/
def trace {ε : Type*} (f : σ → α → Except ε σ) : σ → List α → Except ε (List (α × σ))
  | _, [] => .ok []
  | s, a :: as =>
    match f s a with
    | .error e => .error e
    | .ok s' =>
      match trace f s' as with
      | .error e => .error e
      | .ok t => .ok ((a, s') :: t)

theorem run_of_trace {ε : Type*} {f : σ → α → Except ε σ} {s : σ} (as : List α)
    {t : List (α × σ)} (h : trace f s as = .ok t) : Run (fun s a s' => f s a = .ok s') s t := by
  induction as generalizing s t with
  | nil =>
    cases h
    exact .nil s
  | cons a as ih =>
    rw [trace] at h
    split at h
    · cases h
    · next s' hs' =>
      split at h
      · cases h
      · next t' ht' =>
        cases h
        exact .cons hs' (ih ht')

/-! ## Computations that can fail -/

section Except

variable {ε : Type*} {β γ : Type}

@[simp] theorem ok_bind (a : β) (f : β → Except ε γ) : (Except.ok a >>= f) = f a := rfl

@[simp] theorem error_bind (e : ε) (f : β → Except ε γ) :
    ((Except.error e : Except ε β) >>= f) = .error e := rfl

@[simp] theorem pure_ok (a : β) : (pure a : Except ε β) = .ok a := rfl

/-- A sequence returns exactly when its first part does and the rest does from there. -/
theorem bind_eq_ok {x : Except ε β} {f : β → Except ε γ} {c : γ} :
    (x >>= f) = .ok c ↔ ∃ a, x = .ok a ∧ f a = .ok c := by
  cases x with
  | error e => simp
  | ok a => simp

theorem map_eq_ok {x : Except ε β} {f : β → γ} {c : γ} :
    x.map f = .ok c ↔ ∃ a, x = .ok a ∧ f a = c := by
  cases x with
  | error e => simp [Except.map]
  | ok a => simp [Except.map]

theorem map_eq_error {x : Except ε β} {f : β → γ} {e : ε} : x.map f = .error e ↔ x = .error e := by
  cases x with
  | error e => simp [Except.map]
  | ok a => simp [Except.map]

end Except

/-! ## Sums over a table -/

/-- One entry of a table is replaced. -/
theorem sum_map_set (f : α → Nat) (l : List α) (i : Nat) (a b : α) (h : l[i]? = some a) :
    ((l.set i b).map f).sum + f a = (l.map f).sum + f b := by
  induction l generalizing i with
  | nil => cases h
  | cons x l ih =>
    cases i with
    | zero =>
      simp only [List.getElem?_cons_zero, Option.some.injEq] at h
      subst h
      simp only [List.set_cons_zero, List.map_cons, List.sum_cons]
      omega
    | succ i =>
      have := ih i (by simpa using h)
      simp only [List.set_cons_succ, List.map_cons, List.sum_cons]
      omega

end CxkFramework.Runs
