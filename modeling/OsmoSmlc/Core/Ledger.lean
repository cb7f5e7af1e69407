import Mathlib.Data.List.Range
import Mathlib.Data.List.Perm.Basic

/-! Objects that are named by running numbers: each one that was ever created is in use or has
ended, and none is both or twice. -/
namespace Osmo

/-- The names below `next`, of which some are in use and the others have ended. -/
structure Ledger (next : Nat) (live ended : List Nat) : Prop where
  perm : (live ++ ended).Perm (List.range next)

/-- How a step moves names from `live` to `live'`, with `created` new ones. -/
structure Ledger.Move (next : Nat) (live : List Nat) (created : Nat) (live' freed : List Nat) :
    Prop where
  perm : (live' ++ freed).Perm (live ++ List.range' next created)

namespace Ledger

open scoped List

variable {next created x : Nat} {live live' ended freed l : List Nat}

theorem empty : Ledger 0 [] [] := ⟨.refl _⟩

theorem Move.keep : Move next live 0 live [] := ⟨.refl _⟩

/-- One name goes out of use. -/
theorem Move.free (h : live.Perm (x :: live')) : Move next live 0 live' [x] :=
  ⟨(List.perm_append_singleton x live').trans (h.symm.trans (.of_eq (List.append_nil _).symm))⟩

theorem Move.freeAll (h : (live' ++ freed).Perm live) : Move next live 0 live' freed :=
  ⟨h.trans (.of_eq (List.append_nil _).symm)⟩

theorem Move.create : Move next live 1 (next :: live) [] :=
  ⟨(List.append_nil _).symm ▸ (List.perm_append_singleton next live).symm⟩

/-- A name that ends with the step that creates it. -/
theorem Move.pass : Move next live 1 live [next] := ⟨.refl _⟩

theorem range_add : List.range next ++ List.range' next created = List.range (next + created) := by
  have happ : List.range' 0 next ++ List.range' (0 + 1 * next) created = List.range' 0 (next + created) :=
    List.range'_append
  rwa [Nat.zero_add, Nat.one_mul, ← List.range_eq_range', ← List.range_eq_range'] at happ

theorem step (h : Ledger next live ended) (hm : Move next live created live' freed) :
    Ledger (next + created) live' (ended ++ freed) where
  perm := by
    have hnew : (live' ++ (ended ++ freed)).Perm ((live' ++ freed) ++ ended) := by
      rw [List.append_assoc]
      exact .append_left _ List.perm_append_comm
    have hold : ((live ++ List.range' next created) ++ ended).Perm
        ((live ++ ended) ++ List.range' next created) := by
      rw [List.append_assoc, List.append_assoc]
      exact .append_left _ List.perm_append_comm
    calc live' ++ (ended ++ freed)
      _ ~ (live' ++ freed) ++ ended := hnew
      _ ~ (live ++ List.range' next created) ++ ended := hm.perm.append_right _
      _ ~ (live ++ ended) ++ List.range' next created := hold
      _ ~ List.range next ++ List.range' next created := h.perm.append_right _
      _ = List.range (next + created) := range_add

theorem nodup (h : Ledger next live ended) : (live ++ ended).Nodup :=
  h.perm.nodup_iff.mpr List.nodup_range

theorem mem_iff (h : Ledger next live ended) : x ∈ live ∨ x ∈ ended ↔ x < next := by
  rw [← List.mem_append, h.perm.mem_iff, List.mem_range]

/-- A name has ended once if it was created and is not in use, and else never. -/
theorem count_ended (h : Ledger next live ended) :
    ended.count x = if x < next ∧ x ∉ live then 1 else 0 := by
  obtain ⟨-, hnd, hdisj⟩ := List.nodup_append.mp h.nodup
  have hended : x ∈ ended ↔ x < next ∧ x ∉ live := by
    constructor
    · intro hx
      exact ⟨h.mem_iff.mp (.inr hx), fun hl => hdisj x hl x hx rfl⟩
    · intro hx
      exact (h.mem_iff.mpr hx.1).resolve_left hx.2
  rw [hnd.count]
  simp only [hended]

end Ledger
end Osmo
