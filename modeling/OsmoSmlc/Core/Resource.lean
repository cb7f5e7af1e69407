import Mathlib.Data.List.Basic

/-! Resources that get their names from a counter. In a trace in which each of them is taken,
used and released in turn, every one that was taken is released once, and last. -/
namespace Osmo

/-- What a step does with a resource. -/
inductive Resource where
  | take (r : Nat)
  | use (r : Nat)
  | release (r : Nat)
  | other
  deriving DecidableEq

namespace Resource

def name? : Resource → Option Nat
  | take r | use r | release r => some r
  | other => none

/-- The trace takes the resources from `m` on up to `n`, each to use and to release it. -/
inductive Balanced : Nat → List Resource → Nat → Prop
  | nil (m : Nat) : Balanced m [] m
  | skip (m : Nat) : Balanced m [other] m
  | owned (m : Nat) (l : List Resource) (hl : ∀ a ∈ l, a = other ∨ a = use m) :
      Balanced m (take m :: (l ++ [release m])) (m + 1)
  | append {k m n : Nat} {l l' : List Resource} (h : Balanced k l m) (h' : Balanced m l' n) :
      Balanced k (l ++ l') n

/-- The release of a resource is the only one, and the end of its use. -/
structure ReleasedOnce (r : Nat) (l : List Resource) : Prop where
  once : l.count (release r) = 1
  last : ∃ before after, l = before ++ release r :: after ∧ use r ∉ after

variable {m n r : Nat} {l : List Resource} {a : Resource}

theorem Balanced.le (h : Balanced m l n) : m ≤ n := by
  induction h with
  | nil m => exact Nat.le_refl m
  | skip m => exact Nat.le_refl m
  | owned m l hl => exact Nat.le_succ m
  | append h h' ih ih' => exact Nat.le_trans ih ih'

/-- Only resources of the trace occur in it. -/
theorem Balanced.names (h : Balanced m l n) (ha : a ∈ l) (hr : a.name? = some r) :
    m ≤ r ∧ r < n := by
  induction h with
  | nil m => cases ha
  | skip m =>
    cases List.mem_singleton.mp ha
    cases hr
  | owned m l hl =>
    have hname : a.name? = none ∨ a.name? = some m := by
      rcases List.mem_cons.mp ha with rfl | ha
      · exact .inr rfl
      · rcases List.mem_append.mp ha with ha | ha
        · rcases hl a ha with rfl | rfl
          · exact .inl rfl
          · exact .inr rfl
        · cases List.mem_singleton.mp ha
          exact .inr rfl
    rcases hname with hname | hname
    · cases hr.symm.trans hname
    · cases hr.symm.trans hname
      exact ⟨Nat.le_refl _, Nat.lt_succ_self _⟩
  | append h h' ih ih' =>
    rcases List.mem_append.mp ha with ha | ha
    · exact ⟨(ih ha).1, Nat.lt_of_lt_of_le (ih ha).2 h'.le⟩
    · exact ⟨Nat.le_trans h.le (ih' ha).1, (ih' ha).2⟩

/-- Every resource that is taken is released as it should be. -/
theorem Balanced.released (h : Balanced m l n) (hr : take r ∈ l) : ReleasedOnce r l := by
  induction h with
  | nil m => cases hr
  | skip m => cases List.mem_singleton.mp hr
  | owned m l hl =>
    have hno : ∀ a, a ≠ other → a ≠ use m → a ∉ l := by
      intro a ho hu ha
      exact (hl a ha).elim ho hu
    have hrm : r = m := by
      rcases List.mem_cons.mp hr with hr | hr
      · exact take.inj hr
      · rcases List.mem_append.mp hr with hr | hr
        · exact absurd hr (hno _ nofun nofun)
        · cases List.mem_singleton.mp hr
    subst hrm
    have hzero : l.count (release r) = 0 := List.count_eq_zero.mpr (hno _ nofun nofun)
    refine ⟨?_, take r :: l, [], by simp, by simp⟩
    rw [List.count_cons_of_ne (by simp), List.count_append, hzero]
    simp
  | append h h' ih ih' =>
    rename_i k j i l l'
    rcases List.mem_append.mp hr with hr | hr
    · obtain ⟨honce, before, after, heq, hafter⟩ := ih hr
      have hlt := (h.names hr rfl).2
      have hno : ∀ a : Resource, a.name? = some r → a ∉ l' := by
        intro a ha hmem
        exact absurd (h'.names hmem ha).1 (Nat.not_le.mpr hlt)
      refine ⟨?_, before, after ++ l', by simp [heq], ?_⟩
      · rw [List.count_append, honce, List.count_eq_zero.mpr (hno _ rfl)]
      · simp [hafter, hno (use r) rfl]
    · obtain ⟨honce, before, after, heq, hafter⟩ := ih' hr
      have hge := (h'.names hr rfl).1
      have hno : ∀ a : Resource, a.name? = some r → a ∉ l := by
        intro a ha hmem
        exact absurd (h.names hmem ha).2 (Nat.not_lt.mpr hge)
      refine ⟨?_, l ++ before, after, by simp [heq], hafter⟩
      rw [List.count_append, honce, List.count_eq_zero.mpr (hno _ rfl)]

end Resource
end Osmo
