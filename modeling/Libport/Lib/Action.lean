import Mathlib.Tactic

/-!
# Computations that may throw and keep their state

A C++ member function reads and writes its object, returns a value or throws, and what it wrote
before the throw stays written.  `Action ε σ α` is that shape: from a state it gives a value or
an exception, and in either case the state it leaves.

* `bind` stops at the first exception; `catching` is a `try` block with one handler, entered with
  the state the block left behind.
* `zoom` runs an action on one field of a larger record.
* `Action.forEach` runs one action per element of a list and stops at the first exception.
* **`forEach_inv`** is the invariant rule: what holds before the run and is carried from each step
  to the next holds after the run, and may speak of the elements done so far.
-/

namespace Libport

/-- A computation over a state `σ` that returns an `α` or throws an `ε`; the state survives a
throw. -/
def Action (ε σ α : Type) : Type := σ → Except ε α × σ

namespace Action

variable {ε σ τ α β : Type}

/-- Do nothing and return `a`. -/
protected def pure (a : α) : Action ε σ α := fun s => (.ok a, s)

/-- Run `act`, then `k` on its value; an exception of `act` skips `k`. -/
protected def bind (act : Action ε σ α) (k : α → Action ε σ β) : Action ε σ β := fun s =>
  match act s with
  | (.ok a, s') => k a s'
  | (.error e, s') => (.error e, s')

instance : Monad (Action ε σ) where
  pure := Action.pure
  bind := Action.bind

/-- Throw `e` in the state reached so far. -/
def throw (e : ε) : Action ε σ α := fun s => (.error e, s)

/-- The current state. -/
def get : Action ε σ σ := fun s => (.ok s, s)

/-- Change the state by `f`. -/
def modify (f : σ → σ) : Action ε σ Unit := fun s => (.ok (), f s)

/-- Return the value of an `Except`, or throw its exception. -/
def ofExcept (x : Except ε α) : Action ε σ α := fun s => (x, s)

/-- A `try` block: when `act` throws an exception that `handler` answers for, run the answer in
the state `act` left; every other exception goes through. -/
def catching (act : Action ε σ α) (handler : ε → Option (Action ε σ α)) : Action ε σ α := fun s =>
  match act s with
  | (.ok a, s') => (.ok a, s')
  | (.error e, s') =>
      match handler e with
      | some recover => recover s'
      | none => (.error e, s')

/-- Run an action on the part of `σ` that `view` reads and `update` writes back. -/
def zoom (view : σ → τ) (update : τ → σ → σ) (act : Action ε τ α) : Action ε σ α := fun s =>
  ((act (view s)).1, update (act (view s)).2 s)

/-- Run `step` on each element in turn; the first exception ends the run. -/
def forEach (step : α → Action ε σ Unit) : List α → Action ε σ Unit
  | [] => Action.pure ()
  | a :: rest => Action.bind (step a) fun _ => forEach step rest

/-! ## Running an action -/

@[simp] lemma pure_run (a : α) (s : σ) : (pure a : Action ε σ α) s = (.ok a, s) := rfl

@[simp] lemma throw_run (e : ε) (s : σ) : (throw e : Action ε σ α) s = (.error e, s) := rfl

@[simp] lemma get_run (s : σ) : (get : Action ε σ σ) s = (.ok s, s) := rfl

@[simp] lemma modify_run (f : σ → σ) (s : σ) :
    (modify f : Action ε σ Unit) s = (.ok (), f s) := rfl

@[simp] lemma ofExcept_run (x : Except ε α) (s : σ) :
    (ofExcept x : Action ε σ α) s = (x, s) := rfl

@[simp] lemma bind_run (act : Action ε σ α) (k : α → Action ε σ β) (s : σ) :
    (act >>= k) s = match act s with
      | (.ok a, s') => k a s'
      | (.error e, s') => (.error e, s') := rfl

lemma catching_run (act : Action ε σ α) (handler : ε → Option (Action ε σ α)) (s : σ) :
    (act.catching handler) s = match act s with
      | (.ok a, s') => (.ok a, s')
      | (.error e, s') =>
          match handler e with
          | some recover => recover s'
          | none => (.error e, s') := rfl

@[simp] lemma zoom_run (view : σ → τ) (update : τ → σ → σ) (act : Action ε τ α) (s : σ) :
    (zoom view update act) s = ((act (view s)).1, update (act (view s)).2 s) := rfl

@[simp] lemma forEach_nil (step : α → Action ε σ Unit) (s : σ) :
    forEach step [] s = (.ok (), s) := rfl

lemma forEach_cons (step : α → Action ε σ Unit) (a : α) (rest : List α) :
    forEach step (a :: rest) = step a >>= fun _ => forEach step rest := rfl

/-- The first step of a run that ends, and the rest of it. -/
lemma forEach_cons_ok {step : α → Action ε σ Unit} {a : α} {rest : List α} {s s' : σ} :
    forEach step (a :: rest) s = (.ok (), s') ↔
      ∃ t, step a s = (.ok (), t) ∧ forEach step rest t = (.ok (), s') := by
  rw [forEach_cons, bind_run]
  rcases step a s with ⟨x, t⟩
  cases x with
  | ok u => simp
  | error e => simp

/-- A run in two parts. -/
lemma forEach_append_ok {step : α → Action ε σ Unit} {front back : List α} {s s' : σ} :
    forEach step (front ++ back) s = (.ok (), s') ↔
      ∃ t, forEach step front s = (.ok (), t) ∧ forEach step back t = (.ok (), s') := by
  induction front generalizing s with
  | nil => simp
  | cons a front ih =>
      simp only [List.cons_append, forEach_cons_ok, ih]
      constructor
      · rintro ⟨t, ha, u, hf, hb⟩
        exact ⟨u, ⟨t, ha, hf⟩, hb⟩
      · rintro ⟨u, ⟨t, ha, hf⟩, hb⟩
        exact ⟨t, ha, u, hf, hb⟩

/-- **The invariant rule for runs.**  A step may use that its state is one the run reaches, after
the elements done so far. -/
lemma forEach_inv {step : α → Action ε σ Unit} {I : List α → σ → Prop} {l : List α} {s s' : σ}
    (hrun : forEach step l s = (.ok (), s')) (hinit : I [] s)
    (hstep : ∀ done a t t', done ++ [a] <+: l → forEach step done s = (.ok (), t) → I done t →
      step a t = (.ok (), t') → I (done ++ [a]) t') : I l s' := by
  -- from the back: the last step starts in a state that a shorter run reaches
  have hfront : ∀ front, front <+: l → ∀ t, forEach step front s = (.ok (), t) → I front t := by
    intro front
    induction front using List.reverseRecOn with
    | nil =>
        intro _ t ht
        rw [forEach_nil] at ht
        cases ht
        exact hinit
    | append_singleton done a ih =>
        intro hpre t ht
        obtain ⟨u, hdone, hlast⟩ := forEach_append_ok.mp ht
        obtain ⟨v, ha, hnil⟩ := forEach_cons_ok.mp hlast
        rw [forEach_nil] at hnil
        cases hnil
        exact hstep done a u _ hpre hdone (ih ((List.prefix_append done [a]).trans hpre) u hdone) ha
  exact hfront l List.prefix_rfl s' hrun

end Action

end Libport
