import Mathlib.Data.List.Find
import Mathlib.Data.List.Perm.Basic

/-! Search in a list in two passes: the first exact match, or else the first loose one.
Where at most one member matches at all, the order of the list does not matter. -/
namespace Osmo.FirstMatch

variable {α : Type*} {exact loose p : α → Bool} {l l' pre post : List α} {x : α} {i : Nat}

/-- The position of the first exact match, or else of the first loose one. -/
def position (exact loose : α → Bool) (l : List α) : Option Nat :=
  (l.findIdx? exact).or (l.findIdx? loose)

def first (exact loose : α → Bool) (l : List α) : Option α := (l.find? exact).or (l.find? loose)

/-- What is found splits the list; nothing before it would have been found. -/
theorem findIdx?_split (h : l.findIdx? p = some i) :
    ∃ pre x post, l = pre ++ x :: post ∧ pre.length = i ∧ p x = true ∧
      ∀ y ∈ pre, p y = false := by
  obtain ⟨hi, hp, hbefore⟩ := List.findIdx?_eq_some_iff_getElem.mp h
  refine ⟨l.take i, l[i], l.drop (i + 1), ?_, ?_, hp, ?_⟩
  · rw [List.getElem_cons_drop, List.take_append_drop]
  · rw [List.length_take]
    omega
  · intro y hy
    obtain ⟨j, hj, rfl⟩ := List.getElem_of_mem hy
    rw [List.length_take] at hj
    rw [List.getElem_take]
    simpa using hbefore j (by omega)

theorem position_none (himp : ∀ x ∈ l, exact x = true → loose x = true) :
    position exact loose l = none ↔ ∀ x ∈ l, loose x = false := by
  unfold position
  rw [Option.or_eq_none_iff, List.findIdx?_eq_none_iff, List.findIdx?_eq_none_iff]
  constructor
  · rintro ⟨-, h⟩
    exact h
  · intro h
    refine ⟨fun x hx => ?_, h⟩
    cases he : exact x with
    | false => rfl
    | true => exact absurd (himp x hx he) (by simp [h x hx])

/-- The member found is an exact match, or a loose one in a list without exact matches. -/
theorem position_split (h : position exact loose l = some i) :
    ∃ pre x post, l = pre ++ x :: post ∧ pre.length = i ∧
      (exact x = true ∨ (∀ y ∈ l, exact y = false) ∧ loose x = true) := by
  unfold position at h
  cases he : l.findIdx? exact with
  | some j =>
    rw [he, Option.some_or] at h
    cases h
    obtain ⟨pre, x, post, hl, hlen, hx, -⟩ := findIdx?_split he
    exact ⟨pre, x, post, hl, hlen, .inl hx⟩
  | none =>
    rw [he, Option.none_or] at h
    obtain ⟨pre, x, post, hl, hlen, hx, -⟩ := findIdx?_split h
    exact ⟨pre, x, post, hl, hlen, .inr ⟨List.findIdx?_eq_none_iff.mp he, hx⟩⟩

theorem position_first : (position exact loose l).bind (fun i => l[i]?) = first exact loose l := by
  unfold position first
  rw [List.find?_eq_bind_findIdx?_getElem?, List.find?_eq_bind_findIdx?_getElem?]
  cases he : l.findIdx? exact with
  | some j =>
    obtain ⟨hj, -, -⟩ := List.findIdx?_eq_some_iff_getElem.mp he
    simp [hj]
  | none => rfl

theorem position_congr {exact' loose' : α → Bool} (he : ∀ x ∈ l, exact x = exact' x)
    (hl : ∀ x ∈ l, loose x = loose' x) : position exact loose l = position exact' loose' l := by
  have hcongr : ∀ {p q : α → Bool} {l : List α}, (∀ x ∈ l, p x = q x) →
      l.findIdx? p = l.findIdx? q := by
    intro p q l h
    induction l with
    | nil => rfl
    | cons x l ih =>
      rw [List.findIdx?_cons, List.findIdx?_cons, h x List.mem_cons_self,
        ih fun y hy => h y (List.mem_cons_of_mem _ hy)]
  unfold position
  rw [hcongr he, hcongr hl]

theorem modify_split (f : α → α) : (pre ++ x :: post).modify pre.length f = pre ++ f x :: post := by
  induction pre with
  | nil => rfl
  | cons y pre ih => simpa using ih

theorem eraseIdx_split : (pre ++ x :: post).eraseIdx pre.length = pre ++ post := by
  induction pre with
  | nil => rfl
  | cons y pre ih => simpa using ih

/-- The order of a list does not matter where exact matches are unique, and so are loose
ones without them. -/
theorem first_perm (h : l.Perm l') (he : ∀ x ∈ l, ∀ y ∈ l, exact x = true → exact y = true → x = y)
    (hl : (∀ x ∈ l, exact x = false) →
      ∀ x ∈ l, ∀ y ∈ l, loose x = true → loose y = true → x = y) :
    first exact loose l = first exact loose l' := by
  have hexact : l.find? exact = l'.find? exact :=
    List.find?_eq_find?_of_perm h fun x hx y hy => he x hx.1 y hy.1 hx.2 hy.2
  unfold first
  rw [← hexact]
  cases hf : l.find? exact with
  | some x => rfl
  | none =>
    have hnone : ∀ x ∈ l, exact x = false := by simpa using hf
    rw [Option.none_or, Option.none_or]
    exact List.find?_eq_find?_of_perm h fun x hx y hy => hl hnone x hx.1 y hy.1 hx.2 hy.2

end Osmo.FirstMatch
