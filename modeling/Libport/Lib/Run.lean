import Mathlib.Tactic

/-!
# Runs of a labelled step relation

The states a system passes through when its steps are taken in some order, with the labels of the
steps.  A step relation may allow any number of steps in a state, so a run stands for one
interleaving.

* **`Run.invariant`**: what every step keeps holds in every state reached, and may speak of the
  labels so far.
* `Run.frame`: what every step of a kind keeps is kept by the runs that only take such steps.
* `Run.nil_iff` and `Run.concat_iff`: a run without steps, and the last step of a run.
* `Run.exists_step`: the step behind a label.
-/

namespace Libport

variable {σ ε : Type} {Step : σ → ε → σ → Prop}

/-- `t` is reached from `s` by steps with the given labels. -/
inductive Run (Step : σ → ε → σ → Prop) (s : σ) : List ε → σ → Prop
  | nil : Run Step s [] s
  | snoc {labels : List ε} {t u : σ} {e : ε} (h : Run Step s labels t) (hstep : Step t e u) :
      Run Step s (labels ++ [e]) u

namespace Run

/-- **The invariant rule.** -/
lemma invariant {I : List ε → σ → Prop} {s t : σ} {labels : List ε} (h : Run Step s labels t)
    (hinit : I [] s)
    (hstep : ∀ done e t u, I done t → Step t e u → I (done ++ [e]) u) : I labels t := by
  induction h with
  | nil => exact hinit
  | snoc _ hlast ih => exact hstep _ _ _ _ ih hlast

/-- What the steps with some labels keep. -/
lemma frame {P : ε → Prop} {Q : σ → Prop} {s t : σ} {labels : List ε} (h : Run Step s labels t)
    (hlabels : ∀ e ∈ labels, P e) (hinit : Q s)
    (hstep : ∀ e t u, P e → Q t → Step t e u → Q u) : Q t := by
  induction h with
  | nil => exact hinit
  | snoc _ hlast ih =>
      obtain ⟨hfront, he⟩ := List.forall_mem_append.mp hlabels
      exact hstep _ _ _ (he _ List.mem_cons_self) (ih hfront) hlast

lemma mono {Step' : σ → ε → σ → Prop} {s t : σ} {labels : List ε} (h : Run Step s labels t)
    (hsub : ∀ t e u, Step t e u → Step' t e u) : Run Step' s labels t := by
  induction h with
  | nil => exact nil
  | snoc _ hlast ih => exact ih.snoc (hsub _ _ _ hlast)

lemma nil_iff {s t : σ} : Run Step s [] t ↔ t = s := by
  constructor
  · intro h
    generalize hall : ([] : List ε) = all at h
    cases h with
    | nil => rfl
    | snoc _ _ => simp at hall
  · rintro rfl
    exact nil

/-- The last step of a run. -/
lemma concat_iff {s u : σ} {labels : List ε} {e : ε} :
    Run Step s (labels ++ [e]) u ↔ ∃ t, Run Step s labels t ∧ Step t e u := by
  constructor
  · intro h
    generalize hall : labels ++ [e] = all at h
    cases h with
    | nil => simp at hall
    | snoc hfront hlast =>
        obtain ⟨rfl, hlabel⟩ := List.append_inj' hall rfl
        obtain rfl := List.singleton_inj.mp hlabel
        exact ⟨_, hfront, hlast⟩
  · rintro ⟨t, hfront, hlast⟩
    exact hfront.snoc hlast

/-- Each label of a run is that of a step in the middle of it. -/
lemma exists_step {s t : σ} {labels : List ε} (h : Run Step s labels t) {e : ε} (he : e ∈ labels) :
    ∃ before u v, before ++ [e] <+: labels ∧ Run Step s before u ∧ Step u e v := by
  induction h with
  | nil => cases he
  | snoc hfront hlast ih =>
      rcases List.mem_append.mp he with he | he
      · obtain ⟨before, u, v, hpre, hrun, hstep⟩ := ih he
        exact ⟨before, u, v, hpre.trans (List.prefix_append _ _), hrun, hstep⟩
      · rw [List.mem_singleton.mp he]
        exact ⟨_, _, _, List.prefix_rfl, hfront, hlast⟩

end Run

end Libport
