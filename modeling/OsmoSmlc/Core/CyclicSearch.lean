import Mathlib.Data.Set.Basic
import Mathlib.Logic.Function.Iterate
import Mathlib.Order.Minimal

/-! Search for a free element around a cycle, from a cursor on. The search tries a bounded
number of elements, so that it may stop before it has come around. -/
namespace Osmo.CyclicSearch

variable {α : Type*}

/-- Try `n` elements from the cursor on; the cursor is left behind the last one tried. -/
def search (used : α → Bool) (next : α → α) : Nat → α → Option α × α
  | 0, a => (none, a)
  | n + 1, a => if used a then search used next n (next a) else (some a, next a)

/-- `next` leads around through `S`, with `steps a b` steps from `a` to `b`. -/
structure Cycle (next : α → α) (S : Set α) (period : Nat) (steps : α → α → Nat) : Prop where
  next_mem : ∀ a ∈ S, next a ∈ S
  steps_lt : ∀ a ∈ S, ∀ b ∈ S, steps a b < period
  iterate_steps : ∀ a ∈ S, ∀ b ∈ S, next^[steps a b] a = b
  steps_iterate : ∀ a ∈ S, ∀ k < period, steps a (next^[k] a) = k

/-- `b` is the first free element of `S` from `a` on. -/
structure FirstFree (S : Set α) (steps : α → α → Nat) (free : α → Prop) (a b : α) : Prop where
  mem : b ∈ S
  unused : free b
  first : ∀ c ∈ S, free c → steps a b ≤ steps a c

section Search

variable {used : α → Bool} {next : α → α} {n k : Nat} {a : α}

theorem search_found (hk : k < n) (hfree : used (next^[k] a) = false)
    (hbefore : ∀ j < k, used (next^[j] a) = true) :
    search used next n a = (some (next^[k] a), next (next^[k] a)) := by
  induction n generalizing a k with
  | zero => omega
  | succ n ih =>
    cases k with
    | zero =>
      have ha : used a = false := hfree
      simp [search, ha]
    | succ k =>
      have ha : used a = true := hbefore 0 (by omega)
      have hn : k < n := by omega
      rw [search, if_pos ha]
      exact ih hn hfree fun j hj => hbefore (j + 1) (by omega)

theorem search_exhausted (h : ∀ k < n, used (next^[k] a) = true) :
    search used next n a = (none, next^[n] a) := by
  induction n generalizing a with
  | zero => rfl
  | succ n ih =>
    have ha : used a = true := h 0 (by omega)
    rw [search, if_pos ha]
    exact ih fun k hk => h (k + 1) (by omega)

end Search

theorem exists_firstFree {S : Set α} {free : α → Prop} (steps : α → α → Nat) (a : α)
    (h : ∃ b ∈ S, free b) : ∃ b, FirstFree S steps free a b := by
  obtain ⟨b, ⟨hb, hfree⟩, hmin⟩ :=
    exists_minimalFor_of_wellFoundedLT (fun b => b ∈ S ∧ free b) (steps a) h
  refine ⟨b, hb, hfree, fun c hc hcfree => ?_⟩
  rcases le_total (steps a b) (steps a c) with hle | hle
  · exact hle
  · exact hmin ⟨hc, hcfree⟩ hle

namespace Cycle

variable {used : α → Bool} {next : α → α} {S : Set α} {period n k : Nat} {steps : α → α → Nat}
  {a b : α}

theorem iterate_mem (h : Cycle next S period steps) (ha : a ∈ S) (k : Nat) : next^[k] a ∈ S := by
  induction k with
  | zero => exact ha
  | succ k ih =>
    rw [Function.iterate_succ_apply']
    exact h.next_mem _ ih

/-- What the search tries before it comes to the first free element is used. -/
theorem used_before (h : Cycle next S period steps) (ha : a ∈ S)
    (hb : FirstFree S steps (fun c => used c = false) a b) (hk : k < steps a b) :
    used (next^[k] a) = true := by
  cases hu : used (next^[k] a) with
  | true => rfl
  | false =>
    have hle := hb.first _ (h.iterate_mem ha k) hu
    have hperiod := h.steps_lt a ha b hb.mem
    rw [h.steps_iterate a ha k (by omega)] at hle
    omega

/-- A search that tries enough elements yields the first free one. -/
theorem search_firstFree (h : Cycle next S period steps) (ha : a ∈ S)
    (hb : FirstFree S steps (fun c => used c = false) a b) (hn : steps a b < n) :
    search used next n a = (some b, next b) := by
  have hsteps := h.iterate_steps a ha b hb.mem
  have hfree : used (next^[steps a b] a) = false := by
    rw [hsteps]
    exact hb.unused
  rw [search_found hn hfree fun k hk => h.used_before ha hb hk, hsteps]

/-- A search that stops before the first free element finds nothing. -/
theorem search_short (h : Cycle next S period steps) (ha : a ∈ S)
    (hb : FirstFree S steps (fun c => used c = false) a b) (hn : n ≤ steps a b) :
    search used next n a = (none, next^[n] a) :=
  search_exhausted fun _ hk => h.used_before ha hb (hk.trans_le hn)

theorem search_full (h : Cycle next S period steps) (ha : a ∈ S) (hS : ∀ b ∈ S, used b = true) :
    search used next n a = (none, next^[n] a) :=
  search_exhausted fun k _ => hS _ (h.iterate_mem ha k)

end Cycle
end Osmo.CyclicSearch
