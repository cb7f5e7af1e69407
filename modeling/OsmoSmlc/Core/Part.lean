import OsmoSmlc.Core.Run

/-! A machine as one of its users sees it. The inputs of this user drive a machine of their
own, and the others do not show in it. -/
namespace Osmo

variable {σ τ ι ε : Type*} {step : σ → ι → Except ε σ} {part : τ → ι → Except ε τ} {view : σ → τ}
  {I : σ → Prop} {C : ι → Prop} {own : ι → Bool} {s s' t t' : σ} {is js : List ι}

/-- In states with `I`, inputs with `C` either are own ones and do what `part` says, or do not
show in `view`. -/
structure Part (step : σ → ι → Except ε σ) (part : τ → ι → Except ε τ) (view : σ → τ)
    (I : σ → Prop) (C : ι → Prop) (own : ι → Bool) : Prop where
  inv : ∀ s i s', I s → C i → step s i = .ok s' → I s'
  other : ∀ s i s', I s → C i → own i = false → step s i = .ok s' → view s' = view s
  own : ∀ s i, I s → C i → own i = true → part (view s) i = (step s i).map view

theorem Part.run (h : Part step part view I C own) (hI : I s) (hC : ∀ i ∈ is, C i)
    (hr : run step s is = .ok s') :
    Osmo.run part (view s) (is.filter own) = .ok (view s') ∧ I s' := by
  induction is generalizing s with
  | nil =>
    cases hr
    exact ⟨rfl, hI⟩
  | cons i is ih =>
    obtain ⟨u, hu, hrun⟩ := run_cons_ok.mp hr
    have hCi : C i := hC i List.mem_cons_self
    obtain ⟨hpart, hs'⟩ := ih (h.inv s i u hI hCi hu) (fun j hj => hC j (List.mem_cons_of_mem i hj))
      hrun
    refine ⟨?_, hs'⟩
    cases hi : own i with
    | false =>
      rw [List.filter_cons_of_neg (by simp [hi]), ← h.other s i u hI hCi hi hu]
      exact hpart
    | true =>
      rw [List.filter_cons_of_pos hi]
      refine run_cons_ok.mpr ⟨view u, ?_, hpart⟩
      rw [h.own s i hI hCi hi, hu]
      rfl

/-- What a user sees depends on the own inputs only. -/
theorem Part.run_eq (h : Part step part view I C own) (hs : I s) (ht : I t)
    (hview : view s = view t) (his : ∀ i ∈ is, C i) (hjs : ∀ j ∈ js, C j)
    (heq : is.filter own = js.filter own) (hr : Osmo.run step s is = .ok s')
    (hr' : Osmo.run step t js = .ok t') : view s' = view t' := by
  have hleft : Osmo.run part (view s) (is.filter own) = .ok (view s') := (h.run hs his hr).1
  have hright : Osmo.run part (view t) (js.filter own) = .ok (view t') := (h.run ht hjs hr').1
  rw [heq, hview] at hleft
  exact Except.ok.inj (hleft.symm.trans hright)

/-- A run may leave out all the inputs of others. -/
theorem Part.run_own (h : Part step part view I C own) (hs : I s) (ht : I t)
    (hview : view s = view t) (his : ∀ i ∈ is, C i) (hr : Osmo.run step s is = .ok s') :
    ∃ t', Osmo.run step t (is.filter own) = .ok t' ∧ view t' = view s' := by
  induction is generalizing s t with
  | nil =>
    cases hr
    exact ⟨t, rfl, hview.symm⟩
  | cons i is ih =>
    obtain ⟨u, hu, hrun⟩ := run_cons_ok.mp hr
    have hCi : C i := his i List.mem_cons_self
    have his' : ∀ j ∈ is, C j := fun j hj => his j (List.mem_cons_of_mem i hj)
    have hIu : I u := h.inv s i u hs hCi hu
    cases hi : own i with
    | false =>
      rw [List.filter_cons_of_neg (by simp [hi])]
      exact ih hIu ht ((h.other s i u hs hCi hi hu).trans hview) his' hrun
    | true =>
      rw [List.filter_cons_of_pos hi]
      have hpart : (step t i).map view = .ok (view u) := by
        rw [← h.own t i ht hCi hi, ← hview, h.own s i hs hCi hi, hu]
        rfl
      cases hv : step t i with
      | error e =>
        rw [hv] at hpart
        cases hpart
      | ok v =>
        rw [hv] at hpart
        have huv : view u = view v := (Except.ok.inj hpart).symm
        obtain ⟨t', ht', hview'⟩ := ih hIu (h.inv t i v ht hCi hv) huv his' hrun
        exact ⟨t', run_cons_ok.mpr ⟨v, hv, ht'⟩, hview'⟩

end Osmo
