import Mathlib.Tactic.Common
import Mathlib.Data.List.Basic

/-! Use counts of an object, kept for each token separately: which users hold the
object, and how often. Only tokens with a count other than zero are kept, in the
order in which they were first taken. The counts here are unbounded; those of
libosmocore are `int32_t`, and up to `maxCount` there is no difference. -/
namespace Osmo

abbrev UseCount (τ : Type*) := List (τ × Int)

namespace UseCount

variable {τ : Type*} [DecidableEq τ]

def count : UseCount τ → τ → Int
  | [], _ => 0
  | (t,n) :: u, t' => if t = t' then n else count u t'

def total : UseCount τ → Int
  | [] => 0
  | (_,n) :: u => n + total u

/-- Add `d` to the count of `t`; a count that becomes zero is dropped. -/
def change (t : τ) (d : Int) : UseCount τ → UseCount τ
  | [] => if d = 0 then [] else [(t,d)]
  | (t',n) :: u =>
      if t' = t then (if n + d = 0 then u else (t',n + d) :: u) else (t',n) :: change t d u

@[simp] theorem count_nil (t : τ) : count [] t = 0 := rfl
omit [DecidableEq τ] in
@[simp] theorem total_nil : total ([] : UseCount τ) = 0 := rfl

@[simp] theorem total_change (t : τ) (d : Int) (u : UseCount τ) :
    total (change t d u) = total u + d := by
  induction u with
  | nil => by_cases hd : d = 0 <;> simp [change, total, hd]
  | cons e u ih =>
    obtain ⟨t', n⟩ := e
    by_cases ht : t' = t
    · by_cases hn : n + d = 0
      · simp only [change, ht, ↓reduceIte, hn, total]
        omega
      · simp only [change, ht, ↓reduceIte, hn, total]
        omega
    · simp only [change, ht, ↓reduceIte, total, ih]
      omega

theorem change_append {t : τ} (d : Int) {u : UseCount τ} (v : UseCount τ)
    (h : t ∉ u.map Prod.fst) : change t d (u ++ v) = u ++ change t d v := by
  induction u with
  | nil => rfl
  | cons e u ih =>
    rw [List.map_cons, List.mem_cons, not_or] at h
    simp [change, Ne.symm h.1, ih h.2]

theorem change_one_of_notMem {t : τ} {u : UseCount τ} (h : t ∉ u.map Prod.fst) :
    change t 1 u = u ++ [(t,1)] := by
  have h' := change_append 1 [] h
  simpa [change] using h'

/-- Every token that is kept is held, and kept once. -/
structure WF (u : UseCount τ) : Prop where
  nodup : (u.map Prod.fst).Nodup
  held : ∀ e ∈ u, 0 < e.2

section Held

variable {t t' : τ} {d n : Int} {e : τ × Int} {u : UseCount τ}

omit [DecidableEq τ] in
theorem WF.tail (h : WF (e :: u)) : WF u where
  nodup := (List.nodup_cons.mp h.nodup).2
  held e he := h.held e (List.mem_cons_of_mem _ he)

theorem count_of_notMem (h : t ∉ u.map Prod.fst) : count u t = 0 := by
  induction u with
  | nil => rfl
  | cons e u ih =>
    rw [List.map_cons, List.mem_cons, not_or] at h
    simp [count, Ne.symm h.1, ih h.2]

theorem count_change_ne (h : t' ≠ t) : count (change t d u) t' = count u t' := by
  induction u with
  | nil =>
    unfold change
    split
    · rfl
    · simp [count, h.symm]
  | cons e u ih =>
    obtain ⟨t'', n⟩ := e
    unfold change
    split
    · rename_i heq
      split
      · simp [count, heq, h.symm]
      · simp [count, heq, h.symm]
    · simp [count, ih]

theorem count_change_self (hnd : (u.map Prod.fst).Nodup) :
    count (change t d u) t = count u t + d := by
  induction u with
  | nil =>
    unfold change
    split
    · rename_i hd
      simp [hd]
    · simp [count]
  | cons e u ih =>
    obtain ⟨t'', n⟩ := e
    rw [List.map_cons, List.nodup_cons] at hnd
    unfold change
    split
    · rename_i heq
      subst heq
      split
      · rename_i hn
        rw [count_of_notMem hnd.1]
        simp [count, hn]
      · simp [count]
    · rename_i hne
      simp [count, hne, ih hnd.2]

theorem mem_keys_change (h : t' ∈ (change t d u).map Prod.fst) : t' ∈ u.map Prod.fst ∨ t' = t := by
  induction u with
  | nil =>
    unfold change at h
    split at h
    · cases h
    · exact .inr (by simpa using h)
  | cons e u ih =>
    obtain ⟨t'', n⟩ := e
    unfold change at h
    split at h
    · split at h
      · exact .inl (List.mem_cons_of_mem _ h)
      · exact .inl h
    · rcases List.mem_cons.mp h with h | h
      · exact .inl (h ▸ List.mem_cons_self)
      · exact (ih h).imp_left (List.mem_cons_of_mem _)

/-- A change keeps the form, if it takes no token that is not held. -/
theorem WF.change (h : WF u) (hd : 0 ≤ count u t + d) : WF (change t d u) := by
  induction u with
  | nil =>
    unfold UseCount.change
    split
    · exact h
    · have hpos : 0 < d := by
        rw [count_nil] at hd
        omega
      exact ⟨by simp, by simpa using hpos⟩
  | cons e u ih =>
    obtain ⟨t', n⟩ := e
    have htail : WF u := h.tail
    unfold UseCount.change
    split
    · rename_i heq
      subst heq
      split
      · exact htail
      · rename_i hn
        have hpos : 0 < n + d := by
          have hc : count ((t',n) :: u) t' = n := by simp [count]
          rw [hc] at hd
          omega
        refine ⟨h.nodup, fun e he => ?_⟩
        rcases List.mem_cons.mp he with rfl | he
        · exact hpos
        · exact htail.held e he
    · rename_i hne
      have hc : count ((t',n) :: u) t = count u t := by simp [count, hne]
      have hih := ih htail (hc ▸ hd)
      refine ⟨?_, fun e he => ?_⟩
      · rw [List.map_cons, List.nodup_cons]
        refine ⟨fun hmem => ?_, hih.nodup⟩
        exact (mem_keys_change hmem).elim (List.nodup_cons.mp h.nodup).1 hne
      · rcases List.mem_cons.mp he with rfl | he
        · exact h.held _ List.mem_cons_self
        · exact hih.held e he

/-- A token that is taken and given back leaves no trace. -/
theorem WF.change_put_get (h : WF u) : UseCount.change t (-1) (UseCount.change t 1 u) = u := by
  induction u with
  | nil => simp [UseCount.change]
  | cons e u ih =>
    obtain ⟨t', n⟩ := e
    have htail : WF u := h.tail
    have hn : 0 < n := h.held (t',n) List.mem_cons_self
    by_cases ht : t' = t
    · have hne : n + 1 ≠ 0 := by omega
      have hn' : n ≠ 0 := by omega
      simp only [UseCount.change, ht, ↓reduceIte, hne, hn', Int.add_neg_cancel_right]
    · simp only [UseCount.change, ht, ↓reduceIte, ih htail]

theorem WF.count_nonneg (h : WF u) (t : τ) : 0 ≤ count u t := by
  induction u with
  | nil => exact Int.le_refl 0
  | cons e u ih =>
    obtain ⟨t', n⟩ := e
    unfold count
    split
    · exact Int.le_of_lt (h.held _ List.mem_cons_self)
    · exact ih h.tail

omit [DecidableEq τ] in
theorem total_nonneg (h : ∀ e ∈ u, 0 < e.2) : 0 ≤ total u := by
  induction u with
  | nil => exact Int.le_refl 0
  | cons e u ih =>
    have hn : 0 < e.2 := h e List.mem_cons_self
    have htot : 0 ≤ total u := ih fun e he => h e (List.mem_cons_of_mem _ he)
    show 0 ≤ e.2 + total u
    omega

omit [DecidableEq τ] in
theorem WF.total_pos (h : WF u) (hu : u ≠ []) : 0 < total u := by
  cases u with
  | nil => exact absurd rfl hu
  | cons e u =>
    have hn : 0 < e.2 := h.held e List.mem_cons_self
    have htot : 0 ≤ total u := total_nonneg h.tail.held
    show 0 < e.2 + total u
    omega

/-- Nothing is left exactly when no token is held. -/
theorem WF.eq_nil_iff (h : WF u) : u = [] ↔ ∀ t, count u t = 0 := by
  constructor
  · rintro rfl t
    rfl
  · intro hall
    cases u with
    | nil => rfl
    | cons e u =>
      have hn : 0 < e.2 := h.held e List.mem_cons_self
      have hz : count (e :: u) e.1 = 0 := hall e.1
      rw [count, if_pos rfl] at hz
      omega

theorem WF.total_eq_zero_iff (h : WF u) : total u = 0 ↔ ∀ t, count u t = 0 := by
  rw [← h.eq_nil_iff]
  constructor
  · intro hz
    by_contra hu
    have hpos := h.total_pos hu
    omega
  · rintro rfl
    rfl

end Held

section Clamped

/-- `INT32_MAX`: a change past it is refused. -/
def maxCount : Int := 2147483647

/-- The sum of two `int32_t`, held at the ends of their range. -/
def clampedAdd (a n : Int) : Int := max (-2147483648) (min (a + n) maxCount)

/-- The total as an `int32_t`, held in range after each summand. -/
def clampedTotal (u : UseCount τ) : Int := u.foldl (fun a e => clampedAdd a e.2) 0

omit [DecidableEq τ] in
/-- Summands of one sign leave the range once at most, so it is enough to look at the end. -/
theorem foldl_clampedAdd {u : UseCount τ} (h : ∀ e ∈ u, 0 < e.2) {a : Int} (ha : 0 ≤ a)
    (hmax : a ≤ maxCount) :
    u.foldl (fun a e => clampedAdd a e.2) a = min (a + total u) maxCount := by
  induction u generalizing a with
  | nil =>
    rw [total_nil, Int.add_zero, Int.min_eq_left hmax]
    rfl
  | cons e u ih =>
    have he : 0 < e.2 := h e List.mem_cons_self
    have htail : ∀ e ∈ u, 0 < e.2 := fun e he => h e (List.mem_cons_of_mem _ he)
    have htot : 0 ≤ total u := total_nonneg htail
    have hadd : clampedAdd a e.2 = min (a + e.2) maxCount := by
      unfold clampedAdd maxCount at *
      omega
    rw [List.foldl_cons, hadd, ih htail (by omega) (Int.min_le_right _ _)]
    show min (min (a + e.2) maxCount + total u) maxCount = min (a + (e.2 + total u)) maxCount
    omega

omit [DecidableEq τ] in
/-- In particular the clamped total is zero exactly when the total is. -/
theorem WF.clampedTotal_eq {u : UseCount τ} (h : WF u) : clampedTotal u = min (total u) maxCount := by
  have hfold := foldl_clampedAdd h.held (Int.le_refl 0) (by decide)
  rwa [Int.zero_add] at hfold

end Clamped

end UseCount
end Osmo
