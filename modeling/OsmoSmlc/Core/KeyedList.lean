import Mathlib.Data.List.Nodup

/-! Lists of objects that are referred to by a key: an intrusive linked list whose
members are known by their address. A pointer is a key, following it is `lookup`,
writing through it is `update`, unlinking is `remove`. -/
namespace Osmo.KeyedList

variable {α β κ : Type*} [DecidableEq κ] {key : α → κ} {l : List α} {k k' : κ} {f g : α → α}

def lookup (key : α → κ) (l : List α) (k : κ) : Option α := l.find? fun x => key x = k

def update (key : α → κ) (l : List α) (k : κ) (f : α → α) : List α :=
  l.map fun x => if key x = k then f x else x

def remove (key : α → κ) (l : List α) (k : κ) : List α := l.filter fun x => key x ≠ k

@[simp] theorem lookup_nil : lookup key [] k = none := rfl

theorem lookup_cons_self (x : α) : lookup key (x :: l) (key x) = some x := by
  simp [lookup]

theorem lookup_cons_ne {x : α} (h : key x ≠ k) : lookup key (x :: l) k = lookup key l k := by
  simp [lookup, h]

theorem lookup_some_mem {x : α} (h : lookup key l k = some x) : x ∈ l ∧ key x = k := by
  have hk := List.find?_some h
  exact ⟨List.mem_of_find?_eq_some h, by simpa using hk⟩

theorem lookup_eq_none_iff : lookup key l k = none ↔ ∀ x ∈ l, key x ≠ k := by
  simp [lookup]

/-- Where keys are distinct, a member is found under its own key. -/
theorem lookup_of_mem (hnd : (l.map key).Nodup) {x : α} (hx : x ∈ l) :
    lookup key l (key x) = some x := by
  induction l with
  | nil => simp at hx
  | cons y l ih =>
    rw [List.map_cons, List.nodup_cons] at hnd
    rcases List.mem_cons.mp hx with rfl | hx
    · exact lookup_cons_self x
    · have hne : key y ≠ key x := fun h => hnd.1 (h ▸ List.mem_map_of_mem hx)
      rw [lookup_cons_ne hne]
      exact ih hnd.2 hx

/-- Leaving out objects with other keys does not matter. -/
theorem lookup_filter {f : α → Bool} (h : ∀ x ∈ l, key x = k → f x = true) :
    lookup key (l.filter f) k = lookup key l k := by
  induction l with
  | nil => rfl
  | cons x l ih =>
    have ih' := ih fun y hy => h y (List.mem_cons_of_mem x hy)
    by_cases hx : key x = k
    · rw [List.filter_cons_of_pos (h x List.mem_cons_self hx), ← hx, lookup_cons_self,
        lookup_cons_self]
    · rw [lookup_cons_ne hx, ← ih']
      cases hf : f x with
      | true => rw [List.filter_cons_of_pos hf, lookup_cons_ne hx]
      | false => rw [List.filter_cons_of_neg (by simp [hf])]

theorem lookup_map (h : β → α) (l : List β) :
    lookup key (l.map h) k = (lookup (key ∘ h) l k).map h := by
  rw [lookup, List.find?_map]
  rfl

theorem lookup_update_self (hf : ∀ x, key (f x) = key x) :
    lookup key (update key l k f) k = (lookup key l k).map f := by
  induction l with
  | nil => rfl
  | cons x l ih =>
    simp only [update, lookup, List.map_cons] at ih ⊢
    by_cases hx : key x = k
    · simp [hx, hf]
    · simp [hx, ih]

theorem lookup_update_ne (hf : ∀ x, key (f x) = key x) (hk : k' ≠ k) :
    lookup key (update key l k f) k' = lookup key l k' := by
  induction l with
  | nil => rfl
  | cons x l ih =>
    simp only [update, lookup, List.map_cons] at ih ⊢
    by_cases hx : key x = k
    · have hne : key x ≠ k' := fun h => hk (h.symm.trans hx)
      simp only [hx, ↓reduceIte, List.find?_cons, hf, Ne.symm hk, decide_false]
      exact ih
    · simp only [hx, ↓reduceIte, List.find?_cons, ih]

theorem update_update (hf : ∀ x, key (f x) = key x) :
    update key (update key l k f) k g = update key l k (g ∘ f) := by
  simp only [update, List.map_map]
  apply List.map_congr_left
  intro x _
  by_cases hx : key x = k <;> simp [hx, hf]

/-- Writes through different keys commute. -/
theorem update_comm (hf : ∀ x, key (f x) = key x) (hg : ∀ x, key (g x) = key x) (hk : k ≠ k') :
    update key (update key l k f) k' g = update key (update key l k' g) k f := by
  simp only [update, List.map_map]
  apply List.map_congr_left
  intro x _
  by_cases hx : key x = k
  · have hx' : key x ≠ k' := fun h => hk (hx.symm.trans h)
    simp [hx, hf, hk]
  · by_cases hx' : key x = k'
    · simp [hx', hg, hk.symm]
    · simp [hx, hx']

theorem update_cons_self (x : α) (h : ∀ y ∈ l, key y ≠ key x) :
    update key (x :: l) (key x) f = f x :: l := by
  have hl : l.map (fun y => if key y = key x then f y else y) = l.map id :=
    List.map_congr_left fun y hy => by simp [h y hy]
  simp [update, hl]

theorem update_of_forall_ne (h : ∀ y ∈ l, key y ≠ k) : update key l k f = l := by
  have hl : l.map (fun y => if key y = k then f y else y) = l.map id :=
    List.map_congr_left fun y hy => by simp [h y hy]
  simp [update, hl]

theorem update_of_forall_eq (h : ∀ y ∈ l, key y = k → f y = y) : update key l k f = l := by
  have hl : l.map (fun y => if key y = k then f y else y) = l.map id :=
    List.map_congr_left fun y hy => by
      by_cases hk : key y = k
      · simp [hk, h y hy hk]
      · simp [hk]
  simp [update, hl]

theorem remove_update (hf : ∀ x, key (f x) = key x) :
    remove key (update key l k f) k = remove key l k := by
  induction l with
  | nil => rfl
  | cons x l ih =>
    simp only [remove, update, List.map_cons, List.filter_cons] at ih ⊢
    by_cases hx : key x = k
    · simpa [hx, hf] using ih
    · simpa [hx] using ih

theorem remove_cons_self (x : α) (h : ∀ y ∈ l, key y ≠ key x) :
    remove key (x :: l) (key x) = l := by
  have hl : l.filter (fun y => key y ≠ key x) = l :=
    List.filter_eq_self.mpr fun y hy => by simpa using h y hy
  simpa [remove] using hl

theorem remove_of_forall_ne (h : ∀ y ∈ l, key y ≠ k) : remove key l k = l :=
  List.filter_eq_self.mpr fun y hy => by simpa using h y hy

theorem mem_remove {x : α} : x ∈ remove key l k ↔ x ∈ l ∧ key x ≠ k := by
  simp [remove]

theorem map_update {γ : Type*} {h : α → γ} (hf : ∀ x, h (f x) = h x) :
    (update key l k f).map h = l.map h := by
  simp only [update, List.map_map]
  apply List.map_congr_left
  intro x _
  by_cases hx : key x = k <;> simp [hx, hf]

theorem map_key_update (hf : ∀ x, key (f x) = key x) :
    (update key l k f).map key = l.map key := map_update hf

theorem mem_update {x : α} : x ∈ update key l k f ↔
    (x ∈ l ∧ key x ≠ k) ∨ ∃ y ∈ l, key y = k ∧ x = f y := by
  simp only [update, List.mem_map]
  constructor
  · rintro ⟨y, hy, rfl⟩
    by_cases hk : key y = k
    · exact .inr ⟨y, hy, hk, by simp [hk]⟩
    · exact .inl (by simp [hk, hy])
  · rintro (⟨hx, hk⟩ | ⟨y, hy, hk, rfl⟩)
    · exact ⟨x, hx, by simp [hk]⟩
    · exact ⟨y, hy, by simp [hk]⟩

/-- With distinct keys, a removal takes one element out. -/
theorem perm_remove (hnd : (l.map key).Nodup) {x : α} (hx : x ∈ l) :
    l.Perm (x :: remove key l (key x)) := by
  induction l with
  | nil => cases hx
  | cons y l ih =>
    rw [List.map_cons, List.nodup_cons] at hnd
    rcases List.mem_cons.mp hx with rfl | hx'
    · have hne : ∀ z ∈ l, key z ≠ key x := by
        intro z hz heq
        exact hnd.1 (heq ▸ List.mem_map_of_mem hz)
      rw [remove_cons_self x hne]
    · have hne : key y ≠ key x := fun heq => hnd.1 (heq ▸ List.mem_map_of_mem hx')
      have hcons : remove key (y :: l) (key x) = y :: remove key l (key x) := by
        simp [remove, hne]
      rw [hcons]
      exact ((ih hnd.2 hx').cons y).trans (.swap x y _)

theorem remove_map (h : β → α) (l : List β) :
    remove key (l.map h) k = (remove (key ∘ h) l k).map h := by
  simp [remove, List.filter_map, Function.comp_def]

end Osmo.KeyedList
