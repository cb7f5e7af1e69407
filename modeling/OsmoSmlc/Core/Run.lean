import Mathlib.Data.List.Induction

/-! Runs of a deterministic machine whose steps may fail: a failed step ends the
run. An invariant is proved once for one step and holds in every state reached. -/
namespace Osmo

variable {σ ι ε : Type*} {step : σ → ι → Except ε σ} {s s' s₀ : σ} {is js : List ι} {i : ι}

def run (step : σ → ι → Except ε σ) : σ → List ι → Except ε σ
  | s, [] => .ok s
  | s, i :: is =>
      match step s i with
      | .ok s' => run step s' is
      | .error e => .error e

def Reachable (step : σ → ι → Except ε σ) (s₀ s : σ) : Prop := ∃ is, run step s₀ is = .ok s

/-- Every step of the run is taken in a state and with an input that meet `C`. -/
def Meets (step : σ → ι → Except ε σ) (C : σ → ι → Prop) : σ → List ι → Prop
  | _, [] => True
  | s, i :: is => C s i ∧ ∀ s', step s i = .ok s' → Meets step C s' is

@[simp] theorem run_nil : run step s [] = .ok s := rfl

theorem run_cons_ok : run step s (i :: is) = .ok s' ↔
    ∃ t, step s i = .ok t ∧ run step t is = .ok s' := by
  simp only [run]
  cases h : step s i <;> simp

theorem run_append : run step s (is ++ js) = .ok s' ↔
    ∃ t, run step s is = .ok t ∧ run step t js = .ok s' := by
  induction is generalizing s with
  | nil => simp
  | cons i is ih =>
    simp only [List.cons_append, run_cons_ok, ih]
    constructor
    · rintro ⟨t, ht, u, hu, hr⟩
      exact ⟨u, ⟨t, ht, hu⟩, hr⟩
    · rintro ⟨u, ⟨t, ht, hu⟩, hr⟩
      exact ⟨t, ht, u, hu, hr⟩

theorem run_concat : run step s (is ++ [i]) = .ok s' ↔
    ∃ t, run step s is = .ok t ∧ step t i = .ok s' := by
  simp [run_append, run_cons_ok]

theorem Reachable.refl : Reachable step s s := ⟨[], rfl⟩

theorem Reachable.snoc (h : Reachable step s₀ s) (hs : step s i = .ok s') :
    Reachable step s₀ s' := by
  obtain ⟨is, his⟩ := h
  exact ⟨is ++ [i], run_concat.mpr ⟨s, his, hs⟩⟩

/-- The invariant rule, for runs whose steps all meet a condition. -/
theorem run_invariant_of_meets {C : σ → ι → Prop} {I : σ → Prop}
    (hstep : ∀ s i s', I s → C s i → step s i = .ok s' → I s')
    (h0 : I s) (hm : Meets step C s is) (hr : run step s is = .ok s') : I s' := by
  induction is generalizing s with
  | nil =>
    cases hr
    exact h0
  | cons i is ih =>
    obtain ⟨t, ht, hr⟩ := run_cons_ok.mp hr
    exact ih (hstep s i t h0 hm.1 ht) (hm.2 t ht) hr

theorem meets_of_forall {C : σ → ι → Prop} (h : ∀ i ∈ is, ∀ t, C t i) : Meets step C s is := by
  induction is generalizing s with
  | nil => trivial
  | cons i is ih =>
    exact ⟨h i List.mem_cons_self s, fun _ _ => ih fun j hj => h j (List.mem_cons_of_mem i hj)⟩

theorem meets_true : Meets step (fun _ _ => True) s is := meets_of_forall fun _ _ _ => trivial

/-- The invariant rule, for all runs. -/
theorem run_invariant {I : σ → Prop} (hstep : ∀ s i s', I s → step s i = .ok s' → I s')
    (h0 : I s) (hr : run step s is = .ok s') : I s' :=
  run_invariant_of_meets (fun s i s' hI _ hs => hstep s i s' hI hs) h0 meets_true hr

theorem Reachable.invariant {I : σ → Prop}
    (hstep : ∀ s i s', I s → step s i = .ok s' → I s') (h0 : I s₀)
    (h : Reachable step s₀ s) : I s := by
  obtain ⟨is, his⟩ := h
  exact run_invariant hstep h0 his

theorem meets_concat {C : σ → ι → Prop} : Meets step C s (is ++ [i]) ↔
    Meets step C s is ∧ ∀ t, run step s is = .ok t → C t i := by
  induction is generalizing s with
  | nil =>
    refine ⟨fun h => ⟨trivial, ?_⟩, fun h => ⟨h.2 s rfl, fun _ _ => trivial⟩⟩
    intro t ht
    cases ht
    exact h.1
  | cons j is ih =>
    constructor
    · rintro ⟨hj, hm⟩
      refine ⟨⟨hj, fun u hu => (ih.mp (hm u hu)).1⟩, ?_⟩
      intro t ht
      obtain ⟨u, hu, hr⟩ := run_cons_ok.mp ht
      exact (ih.mp (hm u hu)).2 t hr
    · rintro ⟨⟨hj, hm⟩, hi⟩
      refine ⟨hj, fun u hu => ih.mpr ⟨hm u hu, ?_⟩⟩
      intro t ht
      exact hi t (run_cons_ok.mpr ⟨u, hu, ht⟩)

/-- The invariant rule for a relation between the inputs so far and the state reached. -/
theorem run_history {C : σ → ι → Prop} {H : List ι → σ → Prop} (h0 : H [] s₀)
    (hstep : ∀ is s i s', run step s₀ is = .ok s → H is s → C s i → step s i = .ok s' →
      H (is ++ [i]) s')
    (hm : Meets step C s₀ is) (hr : run step s₀ is = .ok s) : H is s := by
  induction is using List.reverseRecOn generalizing s with
  | nil =>
    cases hr
    exact h0
  | append_singleton is i ih =>
    obtain ⟨t, ht, hi⟩ := run_concat.mp hr
    obtain ⟨hm, hc⟩ := meets_concat.mp hm
    exact hstep is t i s ht (ih hm ht) (hc t ht) hi

/-- The run ends with a stretch of states in which `P` holds, and the step into this stretch
meets `C`, which may look back at the inputs before it. -/
def Since (step : σ → ι → Except ε σ) (P : σ → Prop) (C : List ι → σ → ι → σ → Prop) (s₀ : σ)
    (is : List ι) : Prop :=
  ∃ before i after s t, is = before ++ i :: after ∧ run step s₀ before = .ok s ∧ ¬P s ∧
    step s i = .ok t ∧ C before s i t ∧ ∀ mid u, mid <+: after → run step t mid = .ok u → P u

/-- Where `P` begins only with steps that meet `C`, it has held since such a step. -/
theorem run_since {P : σ → Prop} {C : List ι → σ → ι → σ → Prop} (h0 : ¬P s₀)
    (hstep : ∀ is s i t, run step s₀ is = .ok s → step s i = .ok t → P t → P s ∨ C is s i t)
    (hr : run step s₀ is = .ok s) (hP : P s) : Since step P C s₀ is := by
  induction is using List.reverseRecOn generalizing s with
  | nil =>
    cases hr
    exact absurd hP h0
  | append_singleton is i ih =>
    obtain ⟨t, ht, hi⟩ := run_concat.mp hr
    by_cases hPt : P t
    · obtain ⟨before, j, after, u, v, rfl, hu, hPu, hj, hC, hafter⟩ := ih ht hPt
      refine ⟨before, j, after ++ [i], u, v, by simp, hu, hPu, hj, hC, ?_⟩
      intro mid w hmid hw
      rcases List.prefix_concat_iff.mp hmid with rfl | hmid
      · have hlast : run step s₀ (before ++ j :: after ++ [i]) = .ok w := by
          rw [List.append_assoc]
          exact run_append.mpr ⟨u, hu, run_cons_ok.mpr ⟨v, hj, hw⟩⟩
        cases hr.symm.trans hlast
        exact hP
      · exact hafter mid w hmid hw
    · refine ⟨is, i, [], t, s, rfl, ht, hPt, hi, (hstep is t i s ht hi hP).resolve_left hPt, ?_⟩
      intro mid u hmid hu
      rw [List.prefix_nil.mp hmid] at hu
      cases hu
      exact hP

/-- What holds until an input ends it, and never again after that, holds at the end of a run
exactly if no input of the run ends it. -/
theorem run_lasts_iff {I P Q : σ → Prop} {ends : ι → Prop}
    (hinv : ∀ s i s', I s → step s i = .ok s' → I s')
    (hlast : ∀ s i s', I s → P s → step s i = .ok s' → ¬ends i → P s')
    (hend : ∀ s i s', I s → P s → step s i = .ok s' → ends i → Q s')
    (hgone : ∀ s i s', I s → Q s → step s i = .ok s' → Q s') (hne : ∀ s, Q s → ¬P s)
    (h0 : I s) (hP : P s) (hr : run step s is = .ok s') :
    (P s' ↔ ∀ i ∈ is, ¬ends i) ∧ (P s' ∨ Q s') := by
  induction is generalizing s with
  | nil =>
    cases hr
    exact ⟨⟨fun _ i hi => absurd hi List.not_mem_nil, fun _ => hP⟩, .inl hP⟩
  | cons i is ih =>
    obtain ⟨t, ht, hrun⟩ := run_cons_ok.mp hr
    by_cases hi : ends i
    · have hQ : Q s' := by
        have hIQ : I s' ∧ Q s' := by
          refine run_invariant (I := fun u => I u ∧ Q u) ?_ ⟨hinv s i t h0 ht, hend s i t h0 hP ht hi⟩
            hrun
          rintro u j u' ⟨hIu, hQu⟩ hu
          exact ⟨hinv u j u' hIu hu, hgone u j u' hIu hQu hu⟩
        exact hIQ.2
      refine ⟨⟨fun hPs => absurd hPs (hne s' hQ), fun hall => ?_⟩, .inr hQ⟩
      exact absurd hi (hall i List.mem_cons_self)
    · obtain ⟨hiff, hor⟩ := ih (hinv s i t h0 ht) (hlast s i t h0 hP ht hi) hrun
      refine ⟨hiff.trans ⟨fun hall j hj => ?_, fun hall j hj => hall j (List.mem_cons_of_mem i hj)⟩,
        hor⟩
      rcases List.mem_cons.mp hj with rfl | hj
      · exact hi
      · exact hall j hj

/-- Where no step that meets the condition fails, neither does a run of such steps. -/
theorem run_total_of_meets {C : σ → ι → Prop} {I : σ → Prop}
    (hstep : ∀ s i, I s → C s i → ∃ s', step s i = .ok s' ∧ I s')
    (h0 : I s) (hm : Meets step C s is) : ∃ s', run step s is = .ok s' := by
  induction is generalizing s with
  | nil => exact ⟨s, rfl⟩
  | cons i is ih =>
    obtain ⟨t, ht, hI⟩ := hstep s i h0 hm.1
    obtain ⟨s', hs'⟩ := ih hI (hm.2 t ht)
    exact ⟨s', run_cons_ok.mpr ⟨t, ht, hs'⟩⟩

end Osmo
