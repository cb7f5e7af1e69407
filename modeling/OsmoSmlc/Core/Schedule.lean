import OsmoSmlc.Core.Run

/-! The order in which a machine takes its inputs. Where independent neighbours can be
exchanged, any two orders that keep dependent inputs in place lead to the same states, up
to an equivalence that the steps preserve. -/
namespace Osmo

variable {σ ι ε κ : Type*} {step : σ → ι → Except ε σ} {I : σ → Prop} {A : ι → Prop}
  {ind : ι → ι → Prop} {R : σ → σ → Prop} {s t : σ} {is js ks : List ι} {i j : ι}

/-- Orders that differ by exchanges of independent neighbours. -/
inductive Reordered (ind : ι → ι → Prop) : List ι → List ι → Prop
  | refl (is : List ι) : Reordered ind is is
  | swap (is : List ι) (i j : ι) (js : List ι) (h : ind i j) :
      Reordered ind (is ++ i :: j :: js) (is ++ j :: i :: js)
  | trans {is js ks : List ι} : Reordered ind is js → Reordered ind js ks → Reordered ind is ks

/-- What makes exchanges harmless: from states in `I`, inputs in `A` are taken without
failure, equivalent states stay equivalent, and independent inputs commute up to `R`. -/
structure Exchangeable (step : σ → ι → Except ε σ) (I : σ → Prop) (A : ι → Prop)
    (ind : ι → ι → Prop) (R : σ → σ → Prop) : Prop where
  equiv : Equivalence R
  total : ∀ s i, I s → A i → ∃ s', step s i = .ok s' ∧ I s'
  congr : ∀ s t i s' t', I s → I t → A i → R s t → step s i = .ok s' → step t i = .ok t' → R s' t'
  swap : ∀ s i j u v u' v', I s → A i → A j → ind i j → step s i = .ok u → step u j = .ok v →
    step s j = .ok u' → step u' i = .ok v' → R v v'

namespace Reordered

theorem perm (h : Reordered ind is js) : is.Perm js := by
  induction h with
  | refl is => exact .refl is
  | swap is i j js h => exact List.Perm.append_left is (List.Perm.swap j i js)
  | trans h h' ih ih' => exact ih.trans ih'

theorem cons (i : ι) (h : Reordered ind is js) : Reordered ind (i :: is) (i :: js) := by
  induction h with
  | refl is => exact .refl _
  | swap is j k js h => exact .swap (i :: is) j k js h
  | trans h h' ih ih' => exact ih.trans ih'

/-- An input moves to the front past inputs that it is independent of. -/
theorem front (h : ∀ j ∈ is, ind i j) : Reordered ind (i :: (is ++ js)) (is ++ i :: js) := by
  induction is with
  | nil => exact .refl _
  | cons j is ih =>
    have hswap : Reordered ind (i :: j :: (is ++ js)) (j :: i :: (is ++ js)) :=
      .swap [] i j _ (h j List.mem_cons_self)
    exact hswap.trans ((ih fun k hk => h k (List.mem_cons_of_mem j hk)).cons j)

end Reordered

namespace Exchangeable

variable (hx : Exchangeable step I A ind R)

include hx

theorem run_total (hs : I s) (hA : ∀ i ∈ is, A i) : ∃ s', run step s is = .ok s' ∧ I s' := by
  induction is generalizing s with
  | nil => exact ⟨s, rfl, hs⟩
  | cons i is ih =>
    obtain ⟨t, ht, hIt⟩ := hx.total s i hs (hA i List.mem_cons_self)
    obtain ⟨s', hr, hI⟩ := ih hIt fun j hj => hA j (List.mem_cons_of_mem i hj)
    exact ⟨s', run_cons_ok.mpr ⟨t, ht, hr⟩, hI⟩

/-- Runs on the same inputs from equivalent states end in equivalent states. -/
theorem run_congr {s' t' : σ} (hs : I s) (ht : I t) (hA : ∀ i ∈ is, A i) (hR : R s t)
    (hrs : run step s is = .ok s') (hrt : run step t is = .ok t') : R s' t' := by
  induction is generalizing s t with
  | nil =>
    cases hrs
    cases hrt
    exact hR
  | cons i is ih =>
    obtain ⟨u, hu, hru⟩ := run_cons_ok.mp hrs
    obtain ⟨v, hv, hrv⟩ := run_cons_ok.mp hrt
    have hAi : A i := hA i List.mem_cons_self
    have hIu : I u := by
      obtain ⟨u', hu', hI⟩ := hx.total s i hs hAi
      cases hu.symm.trans hu'
      exact hI
    have hIv : I v := by
      obtain ⟨v', hv', hI⟩ := hx.total t i ht hAi
      cases hv.symm.trans hv'
      exact hI
    exact ih hIu hIv (fun j hj => hA j (List.mem_cons_of_mem i hj))
      (hx.congr s t i u v hs ht hAi hR hu hv) hru hrv

/-- Both orders are taken, to equivalent states. -/
theorem run_reordered (hr : Reordered ind is js) (hs : I s) (hA : ∀ i ∈ is, A i) :
    ∃ u v, run step s is = .ok u ∧ run step s js = .ok v ∧ R u v := by
  induction hr generalizing s with
  | refl is =>
    obtain ⟨u, hu, -⟩ := hx.run_total hs hA
    exact ⟨u, u, hu, hu, hx.equiv.refl u⟩
  | swap is i j js hij =>
    have hAi : A i := hA i (by simp)
    have hAj : A j := hA j (by simp)
    have hAjs : ∀ k ∈ js, A k := fun k hk => hA k (by simp [hk])
    have hAis : ∀ k ∈ is, A k := fun k hk => hA k (by simp [hk])
    obtain ⟨t, ht, hIt⟩ := hx.run_total hs hAis
    obtain ⟨u, hu, hIu⟩ := hx.total t i hIt hAi
    obtain ⟨v, hv, hIv⟩ := hx.total u j hIu hAj
    obtain ⟨u', hu', hIu'⟩ := hx.total t j hIt hAj
    obtain ⟨v', hv', hIv'⟩ := hx.total u' i hIu' hAi
    obtain ⟨x, hx', -⟩ := hx.run_total hIv hAjs
    obtain ⟨y, hy, -⟩ := hx.run_total hIv' hAjs
    have hR : R v v' := hx.swap t i j u v u' v' hIt hAi hAj hij hu hv hu' hv'
    refine ⟨x, y, ?_, ?_, hx.run_congr hIv hIv' hAjs hR hx' hy⟩
    · exact run_append.mpr ⟨t, ht, run_cons_ok.mpr ⟨u, hu, run_cons_ok.mpr ⟨v, hv, hx'⟩⟩⟩
    · exact run_append.mpr ⟨t, ht, run_cons_ok.mpr ⟨u', hu', run_cons_ok.mpr ⟨v', hv', hy⟩⟩⟩
  | trans h h' ih ih' =>
    obtain ⟨u, v, hu, hv, huv⟩ := ih hs hA
    obtain ⟨v', x, hv', hx', hvx⟩ := ih' hs fun k hk => hA k (h.perm.symm.subset hk)
    cases hv.symm.trans hv'
    exact ⟨u, x, hu, hx', hx.equiv.trans huv hvx⟩

end Exchangeable

section Keyed

variable [DecidableEq κ] {key : ι → κ} {dep : κ → κ → Prop}

/-- The inputs with one of two keys. -/
def atKeys (key : ι → κ) (k l : κ) (is : List ι) : List ι :=
  is.filter fun i => key i = k ∨ key i = l

/-- Where dependent keys occur in the same order, the orders differ by exchanges only. The
first input of one order comes, in the other, after inputs that it is independent of. -/
theorem reordered_of_atKeys (hrefl : ∀ k, dep k k) (hsym : ∀ k l, dep k l → dep l k)
    (h : ∀ k l, dep k l → atKeys key k l is = atKeys key k l js) :
    Reordered (fun i j => ¬dep (key i) (key j)) is js := by
  induction is generalizing js with
  | nil =>
    cases js with
    | nil => exact .refl _
    | cons j js =>
      have hj := h (key j) (key j) (hrefl _)
      simp [atKeys] at hj
  | cons i is ih =>
    have hi := h (key i) (key i) (hrefl _)
    simp only [atKeys, or_self, decide_true, List.filter_cons_of_pos] at hi
    obtain ⟨before, after, rfl, hbefore, -, -⟩ := List.filter_eq_cons_iff.mp hi.symm
    have hne : ∀ j ∈ before, key j ≠ key i := fun j hj => by simpa using hbefore j hj
    have hind : ∀ j ∈ before, ¬dep (key i) (key j) := by
      intro j hj hdep
      have hij := h (key i) (key j) hdep
      simp only [atKeys, true_or, decide_true, List.filter_cons_of_pos] at hij
      rw [List.filter_append] at hij
      cases hf : before.filter (fun x => key x = key i ∨ key x = key j) with
      | nil =>
        have hmem : j ∈ before.filter fun x => key x = key i ∨ key x = key j :=
          List.mem_filter.mpr ⟨hj, by simp⟩
        rw [hf] at hmem
        cases hmem
      | cons x xs =>
        rw [hf] at hij
        have hxi : i = x := (List.cons.inj hij).1
        have hx : x ∈ before.filter fun x => key x = key i ∨ key x = key j := by
          rw [hf]
          exact List.mem_cons_self
        exact hne x (List.mem_filter.mp hx).1 (congrArg key hxi.symm)
    have hrest : ∀ k l, dep k l → atKeys key k l is = atKeys key k l (before ++ after) := by
      intro k l hkl
      have hkl' := h k l hkl
      simp only [atKeys, List.filter_append] at hkl' ⊢
      by_cases hik : key i = k ∨ key i = l
      · have hnone : before.filter (fun x => key x = k ∨ key x = l) = [] := by
          apply List.filter_eq_nil_iff.mpr
          intro j hj hjk
          have hjk' : key j = k ∨ key j = l := by simpa using hjk
          rcases hik with rfl | rfl
          · rcases hjk' with heq | rfl
            · exact hne j hj heq
            · exact hind j hj hkl
          · rcases hjk' with rfl | heq
            · exact hind j hj (hsym _ _ hkl)
            · exact hne j hj heq
        rw [List.filter_cons_of_pos (by simpa using hik), hnone,
          List.filter_cons_of_pos (by simpa using hik), List.nil_append] at hkl'
        rw [hnone, List.nil_append]
        exact (List.cons.inj hkl').2
      · rw [List.filter_cons_of_neg (by simpa using hik),
          List.filter_cons_of_neg (by simpa using hik)] at hkl'
        exact hkl'
    exact ((ih hrest).cons i).trans (.front hind)

end Keyed
end Osmo
