import Mathlib.Data.List.Forall2
import OsmoSmlc.Core.Run

/-! Two machines in lock step. Inputs that do not show in the relation are skipped on either
side; the others come in pairs, of which the steps fail alike or keep the relation. -/
namespace Osmo

variable {σ τ ι κ ε : Type*} {step : σ → ι → Except ε σ} {step' : τ → κ → Except ε τ}
  {R : σ → τ → Prop} {silent : ι → Bool} {silent' : κ → Bool} {Q : ι → κ → Prop} {s : σ} {t : τ}
  {is : List ι} {js : List κ}

/-- Both fail in the same way, or both succeed in related states. -/
inductive SameOutcome (R : σ → τ → Prop) : Except ε σ → Except ε τ → Prop
  | ok {s : σ} {t : τ} (h : R s t) : SameOutcome R (.ok s) (.ok t)
  | error (e : ε) : SameOutcome R (.error e) (.error e)

theorem SameOutcome.mono {R' : σ → τ → Prop} {x : Except ε σ} {y : Except ε τ}
    (h : SameOutcome R x y) (hR : ∀ s t, x = .ok s → y = .ok t → R s t → R' s t) :
    SameOutcome R' x y := by
  cases h with
  | ok h => exact .ok (hR _ _ rfl rfl h)
  | error e => exact .error e

theorem SameOutcome.of_ok {x : Except ε σ} {y : Except ε τ} (h : SameOutcome R x y)
    (hx : x = .ok s) : ∃ t, y = .ok t ∧ R s t := by
  cases h with
  | error e => cases hx
  | ok hR =>
    cases hx
    exact ⟨_, rfl, hR⟩

structure LockStep (step : σ → ι → Except ε σ) (step' : τ → κ → Except ε τ) (R : σ → τ → Prop)
    (silent : ι → Bool) (silent' : κ → Bool) (Q : ι → κ → Prop) : Prop where
  left : ∀ s t i, R s t → silent i = true → ∃ s', step s i = .ok s' ∧ R s' t
  right : ∀ s t j, R s t → silent' j = true → ∃ t', step' t j = .ok t' ∧ R s t'
  both : ∀ s t i j, R s t → Q i j → SameOutcome R (step s i) (step' t j)

/-- A run of inputs that do not show keeps the relation. -/
theorem LockStep.run_right (h : LockStep step step' R silent silent' Q) (hR : R s t)
    (hjs : ∀ j ∈ js, silent' j = true) : ∃ t', run step' t js = .ok t' ∧ R s t' := by
  induction js generalizing t with
  | nil => exact ⟨t, rfl, hR⟩
  | cons j js ih =>
    obtain ⟨u, hu, hRu⟩ := h.right s t j hR (hjs j List.mem_cons_self)
    obtain ⟨t', ht', hR'⟩ := ih hRu fun k hk => hjs k (List.mem_cons_of_mem j hk)
    exact ⟨t', run_cons_ok.mpr ⟨u, hu, ht'⟩, hR'⟩

theorem run_append_eq {before after : List ι} {u : σ} (h : run step s before = .ok u) :
    run step s (before ++ after) = run step u after := by
  induction before generalizing s with
  | nil =>
    cases h
    rfl
  | cons i before ih =>
    obtain ⟨v, hv, hu⟩ := run_cons_ok.mp h
    simp only [List.cons_append, run, hv]
    exact ih hu

/-- Where the inputs that show come in pairs, whole runs have the same outcome. -/
theorem LockStep.run (h : LockStep step step' R silent silent' Q) (hR : R s t)
    (hQ : List.Forall₂ Q (is.filter fun i => !silent i) (js.filter fun j => !silent' j)) :
    SameOutcome R (run step s is) (run step' t js) := by
  induction is generalizing s t js with
  | nil =>
    have hnil : js.filter (fun j => !silent' j) = [] := List.forall₂_nil_left_iff.mp hQ
    have hjs : ∀ j ∈ js, silent' j = true := by
      intro j hj
      simpa using List.filter_eq_nil_iff.mp hnil j hj
    obtain ⟨t', ht', hR'⟩ := h.run_right hR hjs
    rw [ht']
    exact .ok hR'
  | cons i is ih =>
    cases hi : silent i with
    | true =>
      obtain ⟨u, hu, hRu⟩ := h.left s t i hR hi
      have hrun : Osmo.run step s (i :: is) = Osmo.run step u is := by simp only [Osmo.run, hu]
      rw [List.filter_cons_of_neg (by simp [hi])] at hQ
      rw [hrun]
      exact ih hRu hQ
    | false =>
      rw [List.filter_cons_of_pos (by simp [hi])] at hQ
      obtain ⟨j, rest, hij, hrest, hjs⟩ := List.forall₂_cons_left_iff.mp hQ
      obtain ⟨before, after, rfl, hbefore, -, hafter⟩ := List.filter_eq_cons_iff.mp hjs
      have hbefore' : ∀ k ∈ before, silent' k = true := by
        intro k hk
        simpa using hbefore k hk
      obtain ⟨v, hv, hRv⟩ := h.run_right hR hbefore'
      rw [run_append_eq hv]
      have hboth : SameOutcome R (step s i) (step' v j) := h.both s v i j hRv hij
      simp only [Osmo.run]
      generalize step s i = x at hboth
      generalize step' v j = y at hboth
      cases hboth with
      | error e => exact .error e
      | ok hRw => exact ih hRw (hafter.symm ▸ hrest)

/-! Inputs that the next one makes up for can be left out of a run. -/
section Thinned

variable {P : σ → σ → Prop} {D : ι → ι → Prop} {x y z : Except ε σ} {ks : List ι}

/-- The second list is the first one without some inputs, which `D` allows to be left out
before the one that follows. -/
inductive Thinned (D : ι → ι → Prop) : List ι → List ι → Prop
  | nil : Thinned D [] []
  | keep {is ks : List ι} (i : ι) (h : Thinned D is ks) : Thinned D (i :: is) (i :: ks)
  | drop {is ks : List ι} {i j : ι} (hd : D j i) (h : Thinned D (i :: is) ks) :
      Thinned D (j :: i :: is) ks

theorem Thinned.mono {D' : ι → ι → Prop} (h : Thinned D is ks) (hD : ∀ j i, D j i → D' j i) :
    Thinned D' is ks := by
  induction h with
  | nil => exact .nil
  | keep i _ ih => exact .keep i ih
  | drop hd _ ih => exact .drop (hD _ _ hd) ih

/-- Related states are handled alike, and after `j` the input `i` does what it does without. -/
structure MakesUp (step : σ → ι → Except ε σ) (P : σ → σ → Prop) (D : ι → ι → Prop) : Prop where
  equiv : Equivalence P
  both : ∀ s t i, P s t → SameOutcome P (step s i) (step t i)
  again : ∀ s j i, D j i → ∃ t, step s j = .ok t ∧ SameOutcome P (step t i) (step s i)

theorem SameOutcome.trans (hP : Equivalence P) (h : SameOutcome P x y) (h' : SameOutcome P y z) :
    SameOutcome P x z := by
  cases h with
  | error e => exact h'
  | ok hst =>
    cases h' with
    | ok htu => exact .ok (hP.trans hst htu)

theorem MakesUp.run_same {t : σ} (h : MakesUp step P D) (hP : P s t) :
    SameOutcome P (run step s is) (run step t is) := by
  induction is generalizing s t with
  | nil => exact .ok hP
  | cons i is ih =>
    have hstep : SameOutcome P (step s i) (step t i) := h.both s t i hP
    simp only [run]
    generalize step s i = x at hstep
    generalize step t i = y at hstep
    cases hstep with
    | error e => exact .error e
    | ok hP' => exact ih hP'

/-- A run and the thinned run have the same outcome. -/
theorem MakesUp.run (h : MakesUp step P D) (ht : Thinned D is ks) (s : σ) :
    SameOutcome P (run step s is) (run step s ks) := by
  induction ht generalizing s with
  | nil => exact .ok (h.equiv.refl s)
  | keep i _ ih =>
    simp only [Osmo.run]
    cases step s i with
    | error e => exact .error e
    | ok t => exact ih t
  | drop hd _ ih =>
    rename_i is ks i j _
    obtain ⟨t, hj, hi⟩ := h.again s j i hd
    refine SameOutcome.trans h.equiv ?_ (ih s)
    simp only [Osmo.run, hj]
    generalize step t i = x at hi
    generalize step s i = y at hi
    cases hi with
    | error e => exact .error e
    | ok hP => exact h.run_same hP

end Thinned
end Osmo
